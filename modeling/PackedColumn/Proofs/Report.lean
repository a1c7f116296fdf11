import PackedColumn.Proofs.Scan
import PackedColumn.Proofs.Statement

/-!
# What a query reports

`Line` is an event as a log shows it. `Reports d text lines` says what the log of one fragment is,
without the scan that writes it: first a line for each delimited part that is passed over, in the
order of the text, then a line for each marker.

* The scan judges every delimited part that starts outside the markers, and no other, each of them
  once. So the parts that it passes over are those with contents that are no path
  (`mem_skipped_iff`), and they come in the order in which they start (`pairwise_skipped`).
* The events of a query are those of its fragments, clause by clause, and at the end the statement
  (`Query.Collected.events_build`). A query that fails reports nothing
  (`Query.Collected.events_build_of_error`).
-/

namespace PackedColumn

open Text

namespace Event

/-- An event as a log shows it: how much it matters, what it is, and its particulars. -/
abbrev Line := Level × String × List (String × Field)

/-- The line of an event. -/
def line (e : Event) : Line := (e.level, e.message, e.fields)

end Event

/-! ## Parts that are passed over -/

/-- A delimited part that does not start inside a marker and whose contents are no path: its place
and its text. -/
def PassedOver (text : List Char) (ms : List Marker) (part : Nat × String) : Prop :=
  ∃ stop contents, Delimited text part.1 stop contents ∧
    part.2.toList = '(' :: '!' :: (contents ++ ['!', ')']) ∧
    (∀ path typeText, ¬ Marker.WellFormed path contents typeText) ∧
    ¬ ∃ m ∈ ms, m.start < part.1 ∧ part.1 < m.stop

namespace Candidate

/-- The place and the text of a candidate that is no marker. -/
def skipped? : Candidate → Option (Nat × String)
  | .marker _ => none
  | .malformed start text => some (start, text)

/-- A part is passed over when its contents are no path. -/
theorem judge_eq_malformed_iff {start s : Nat} {contents : List Char} {text : String} :
    judge start contents = .malformed s text ↔
      s = start ∧ text.toList = '(' :: '!' :: (contents ++ ['!', ')']) ∧
        ∀ path typeText, ¬ Marker.WellFormed path contents typeText := by
  simp only [← Marker.decode?_eq_some_iff, judge]
  cases hd : Marker.decode? contents with
  | some found =>
    refine ⟨nofun, fun h => (h.2.2 found.1 found.2 rfl).elim⟩
  | none =>
    simp only [malformed.injEq, ← @String.toList_inj _ text, String.toList_ofList]
    constructor
    · rintro ⟨rfl, htext⟩
      exact ⟨rfl, htext.symm, nofun⟩
    · rintro ⟨rfl, htext, -⟩
      exact ⟨rfl, htext.symm⟩

/-- Of two candidates of a scan one lets the scan go on before the other. -/
theorem resume_le_or_of_mem_scan {offset : Nat} {text : List Char} {c c' : Candidate}
    (h : c ∈ scan offset text) (h' : c' ∈ scan offset text) (hne : c ≠ c') :
    c.resume ≤ c'.start ∨ c'.resume ≤ c.start := by
  have : Std.Symm fun c c' : Candidate => c.resume ≤ c'.start ∨ c'.resume ≤ c.start :=
    ⟨fun _ _ => Or.symm⟩
  have hpair : (scan offset text).Pairwise fun c c' : Candidate =>
      c.resume ≤ c'.start ∨ c'.resume ≤ c.start :=
    (pairwise_scan offset text).imp Or.inl
  exact hpair.forall h h' hne

end Candidate

/-- The parts of a text that a scan passes over. -/
def skippedOf (text : String) : List (Nat × String) :=
  (candidatesOf text).filterMap Candidate.skipped?

theorem mem_skippedOf {text : String} {part : Nat × String} :
    part ∈ skippedOf text ↔ .malformed part.1 part.2 ∈ Candidate.scan 0 text.toList := by
  unfold skippedOf candidatesOf
  rw [List.mem_filterMap]
  constructor
  · rintro ⟨c, hc, hpart⟩
    cases c with
    | marker m => cases hpart
    | malformed start source => obtain rfl := Option.some.inj hpart; exact hc
  · exact fun h => ⟨_, h, rfl⟩

/-- The scan passes over the parts outside the markers that are no markers, and over nothing
else. -/
theorem mem_skipped_iff {text : String} {part : Nat × String} :
    part ∈ skippedOf text ↔ PassedOver text.toList (markersOf text) part := by
  rw [mem_skippedOf]
  constructor
  · intro h
    obtain ⟨before, contents, after, hcut, hjudge⟩ := Candidate.exists_cut_of_mem_scan _ h
    obtain ⟨hstart, hsource, hform⟩ := Candidate.judge_eq_malformed_iff.mp hjudge.symm
    refine ⟨_, contents, delimited_iff.mpr ⟨before, after, hcut, by omega, rfl⟩, hsource, hform, ?_⟩
    rintro ⟨m, hm, hlo, hhi⟩
    rcases Candidate.resume_le_or_of_mem_scan (mem_markersOf.mp hm) h nofun with hle | hle
    · have : m.stop ≤ part.1 := hle
      omega
    · have : part.1 + 2 ≤ m.start := hle
      omega
  · rintro ⟨stop, contents, hdel, hsource, hform, hout⟩
    obtain ⟨before, after, hcut, hstart, -⟩ := delimited_iff.mp hdel
    have hjudge : Candidate.judge (0 + byteLength before) contents = .malformed part.1 part.2 :=
      Candidate.judge_eq_malformed_iff.mpr ⟨by omega, hsource, hform⟩
    rcases Candidate.judge_mem_scan_or_inside before contents after hcut with h | ⟨m, hm, hlo, hhi⟩
    · exact hjudge ▸ h
    · exact (hout ⟨m, mem_markersOf.mpr hm, by omega, by omega⟩).elim

theorem pairwise_skipped (text : String) :
    (skippedOf text).Pairwise fun part part' => part.1 < part'.1 := by
  refine List.Pairwise.filterMap _ ?_ (Candidate.pairwise_scan 0 text.toList)
  intro c c' hcc' part hpart part' hpart'
  cases c with
  | marker m => cases hpart
  | malformed start source =>
    cases c' with
    | marker m => cases hpart'
    | malformed start' source' =>
      obtain rfl := Option.some.inj hpart
      obtain rfl := Option.some.inj hpart'
      have : start + 2 ≤ start' := hcc'
      show start < start'
      omega

/-! ## Fragments -/

/-- The type that a marker is read as in the end. -/
def Marker.outerCast (d : Dialect) (m : Marker) : String :=
  match m.type? with
  | some type => type.render d.typeCase
  | none => d.defaultType

/-- The line of a part that is passed over. -/
def skipLine (part : Nat × String) : Event.Line :=
  (.trace, "skipping malformed marker", [("start", .number part.1), ("text", .text part.2)])

/-- The line of a marker that is compiled. -/
def Marker.line (d : Dialect) (m : Marker) : Event.Line :=
  (.debug, "compiled dynamic attribute accessor",
    [("path", .text m.path.display), ("cast", .text (m.outerCast d))])

/-- The lines report the compilation of the fragment: each part that is passed over once, in
ascending order, and then each marker in its order. -/
def Reports (d : Dialect) (text : String) (lines : List Event.Line) : Prop :=
  ∃ skipped : List (Nat × String),
    lines = skipped.map skipLine ++ (markersOf text).map (Marker.line d) ∧
    skipped.Pairwise (fun part part' => part.1 < part'.1) ∧
    ∀ part, part ∈ skipped ↔ PassedOver text.toList (markersOf text) part

namespace Fragment

variable (d : Dialect) (column text : String)

theorem line_candidateEvents (c : Candidate) :
    (candidateEvents c).map Event.line = c.skipped?.toList.map skipLine := by
  cases c <;> rfl

theorem lines_scan : (scan text).events.map Event.line = (skippedOf text).map skipLine := by
  rw [skippedOf, List.filterMap_eq_flatMap_toList, List.map_flatMap]
  show List.map _ ((candidatesOf text).flatMap candidateEvents) = _
  simp only [List.map_flatMap, line_candidateEvents]

theorem lines_read (m : Marker) :
    (Access.read d column m.path m.type?).events.map Event.line = [m.line d] := by
  unfold Marker.line Marker.outerCast
  cases m.type? <;> rfl

theorem lines_compile : (compile d column text).events.map Event.line =
    (skippedOf text).map skipLine ++ (markersOf text).map (Marker.line d) := by
  have hmarkers : (scan text).value = markersOf text := rfl
  have hreads : ((markersOf text).flatMap fun m =>
      ((Access.read d column m.path m.type?).events).map Event.line) =
        (markersOf text).map (Marker.line d) := by
    simp only [lines_read]
    exact List.map_eq_flatMap.symm
  simp only [compile, Traced.events_bind, Traced.events_each, Traced.events_pure, List.append_nil,
    List.map_append, List.map_flatMap, lines_scan, hmarkers, hreads]

theorem reports_compile : Reports d text ((compile d column text).events.map Event.line) :=
  ⟨skippedOf text, lines_compile d column text, pairwise_skipped text, fun _ => mem_skipped_iff⟩

end Fragment

/-! ## Queries -/

/-- The fragment that an item is compiled from. -/
def SelectItem.fragment : SelectItem → String
  | expression text | aliased text _ => text

/-- Quoting and aliases report nothing. -/
theorem SelectItem.events_compile (d : Dialect) (column : String) (item : SelectItem) :
    (item.compile d column).events = (Fragment.compile d column item.fragment).events := by
  cases item <;> exact Traced.events_map _ _

/-- The star that stands for no items reports nothing. -/
theorem Fragment.lines_compile_star (d : Dialect) (column : String) :
    (compile d column "*").events.map Event.line = [] := by
  have hnone : candidatesOf "*" = [] := by decide +kernel
  rw [lines_compile, skippedOf, markersOf, hnone]
  rfl

namespace Query

/-- The fragments of the steps, clause by clause. -/
def Step.fragments (steps : List Step) : List String :=
  (items steps).map SelectItem.fragment ++ conditions steps ++ groups steps ++
    (having steps).toList ++ orders steps

/-- The last line of a query. -/
def builtLine (e : Entity) (sql : String) : Event.Line :=
  (.debug, "built dynamic query", [("table", .text e.table), ("sql", .text sql)])

/-- The lines of fragments, one after the other. -/
def fragmentLines (d : Dialect) (texts : List String) : List Event.Line :=
  texts.flatMap fun text =>
    (skippedOf text).map skipLine ++ (markersOf text).map (Marker.line d)

theorem lines_projection (d : Dialect) (c : Column) (items : List SelectItem) :
    (Projection.compile d c items).events.map Event.line =
      fragmentLines d (items.map SelectItem.fragment) := by
  simp only [Projection.compile, Traced.events_bind, Traced.events_each, Traced.events_pure,
    List.append_nil, List.map_flatMap, SelectItem.events_compile]
  cases items with
  | nil =>
    have hstar : Projection.effective [] = [.expression "*"] := rfl
    simp only [hstar, List.flatMap_cons, List.flatMap_nil, List.append_nil, SelectItem.fragment,
      Fragment.lines_compile_star]
    rfl
  | cons item rest =>
    have heffective : Projection.effective (item :: rest) = item :: rest := rfl
    simp only [heffective, Fragment.lines_compile, fragmentLines, List.flatMap_map]

theorem lines_each (d : Dialect) (column : String) (texts : List String) :
    (Traced.each texts (Fragment.compile d column)).events.map Event.line =
      fragmentLines d texts := by
  simp only [Traced.events_each, List.map_flatMap, Fragment.lines_compile, fragmentLines]

theorem fragmentLines_append (d : Dialect) (texts texts' : List String) :
    fragmentLines d (texts ++ texts') = fragmentLines d texts ++ fragmentLines d texts' :=
  List.flatMap_append

variable {e : Entity} {d : Dialect} {q : Query} {steps : List Step}

/-- A query that fails has no column, and reports nothing. -/
theorem events_build_of_error {err : CompileError} (h : q.build.outcome = .error err) :
    q.build.events = [] := by
  cases hc : q.entity.column with
  | error err' => exact Request.events_bind_of_error _ hc
  | ok c =>
    have hok := (Request.outcome_ofExcept q.entity.column).trans hc
    rw [build, Request.outcome_bind_of_ok _ hok] at h
    simp only [Request.outcome_bind_of_ok _ (Request.outcome_lift _), Request.outcome_pure] at h
    cases h

/-- A query that is built reports its fragments, clause by clause, and then the text that it
gives. -/
theorem Collected.lines_build (h : Collected e d q steps) {sql : String}
    (hsql : q.build.outcome = .ok sql) :
    q.build.events.map Event.line =
      fragmentLines d (Step.fragments steps) ++ [builtLine e sql] := by
  obtain ⟨rfl, rfl, hitems, hconditions, hgroups, hhaving, horders⟩ := h
  cases hc : q.entity.column with
  | error err =>
    have herror : q.build.outcome = .error err := Request.outcome_bind_of_error _ hc
    rw [hsql] at herror
    cases herror
  | ok c =>
    have hok := (Request.outcome_ofExcept q.entity.column).trans hc
    rw [build, Request.outcome_bind_of_ok _ hok] at hsql
    simp only [Request.outcome_bind_of_ok _ (Request.outcome_lift _), Request.outcome_pure,
      Except.ok.injEq] at hsql
    rw [build, Request.events_bind_of_ok _ hok, Request.events_ofExcept, List.nil_append]
    simp only [Request.events_bind_of_ok _ (Request.outcome_lift _), Request.events_lift,
      Request.events_pure, Traced.events_emit, List.append_nil, List.map_append, lines_projection,
      lines_each, hsql]
    simp only [Step.fragments, fragmentLines_append, hitems, hconditions, hgroups, hhaving,
      horders, List.append_assoc]
    rfl

/-- The lines of fragments report them one by one. -/
theorem reports_fragmentLines (d : Dialect) (texts : List String) :
    ∃ parts, fragmentLines d texts = parts.flatten ∧ List.Forall₂ (Reports d) texts parts := by
  induction texts with
  | nil => exact ⟨[], rfl, .nil⟩
  | cons text rest ih =>
    obtain ⟨parts, hparts, hreports⟩ := ih
    refine ⟨_ :: parts, ?_, .cons (Fragment.reports_compile d "" text) hreports⟩
    rw [fragmentLines, List.flatMap_cons, List.flatten_cons, Fragment.lines_compile, ← hparts]
    rfl

/-- The log of a query mirrors its compilation. A query that is built reports its fragments in the
order of the clauses: of each, the parts that are passed over, once each and in ascending order, and
then its markers; and at the end the text that it gives. A query that fails reports nothing. -/
theorem log_mirrors_build (e : Entity) (d : Dialect) (steps : List Step) :
    (∀ sql, ((on e d).applyAll steps).build.outcome = .ok sql →
      ∃ parts, List.Forall₂ (Reports d) (Step.fragments steps) parts ∧
        ((on e d).applyAll steps).build.events.map Event.line =
          parts.flatten ++ [builtLine e sql]) ∧
      ∀ err, ((on e d).applyAll steps).build.outcome = .error err →
        ((on e d).applyAll steps).build.events = [] := by
  refine ⟨fun sql hsql => ?_, fun err h => events_build_of_error h⟩
  obtain ⟨parts, hparts, hreports⟩ := reports_fragmentLines d (Step.fragments steps)
  exact ⟨parts, hreports, hparts ▸ (collected_applyAll e d steps).lines_build hsql⟩

/-- A marker inside a part that is passed over is compiled; the item comes before the condition. -/
theorem log_mirrors_build_nested :
    let e : Entity := ⟨"t", some "c", []⟩
    let steps : List Step := [.filter "(!b c!) = (!d.e|int!)", .select [.expression "(!(!a!)"]]
    let sql := "SELECT (!COLUMN_GET(`t`.`c`, 'a' AS CHAR) FROM `t`" ++
      " WHERE (!b c!) = COLUMN_GET(COLUMN_GET(c, 'd' AS BINARY), 'e' AS int)"
    ((on e .default).applyAll steps).build.outcome = .ok sql ∧
      ((on e .default).applyAll steps).build.events =
        [.malformedMarker 0 "(!(!a!)", .readCompiled "a" "CHAR", .malformedMarker 0 "(!b c!)",
          .readCompiled "d.e" "int", .queryBuilt "t" sql] ∧
      ∃ parts, List.Forall₂ (Reports .default) (Step.fragments steps) parts ∧
        ((on e .default).applyAll steps).build.events.map Event.line =
          parts.flatten ++ [builtLine e sql] := by
  intro e steps sql
  have hsql : ((on e .default).applyAll steps).build.outcome = .ok sql := by
    refine (collected_applyAll e .default steps).outcome_build.trans (congrArg Except.ok ?_)
    show Step.statement .default e steps = sql
    decide +kernel
  exact ⟨hsql, by decide +kernel, (log_mirrors_build e .default steps).1 sql hsql⟩

end Query

end PackedColumn

import PackedColumn.Proofs.LetterCase
import PackedColumn.Proofs.TrailingWord
import PackedColumn.Projection

/-!
# The entries of a projection

A text without the characters of a closing delimiter adds no marker to the text before it
(`compile_append_of_not_mem`), and a text without an opening parenthesis none to the text behind it
(`compile_prepend_of_not_mem`). So an item is compiled as the text between the blanks around it
(`trim_compile_trimmed`).

Up to the end of its last marker a compiled text is a call (`exists_call`). No alias is found across
the closing parenthesis of a call, and no name in a call is quoted, so what stands behind the last
marker decides: nothing, and the item is left as it is; or a word set off by blanks, and the word is
its alias.
-/

namespace PackedColumn

open Text

/-! ## Text around markers -/

/-- No marker stands behind one that ends where the text does. -/
theorem exists_markersOf_eq_concat {text : String} {m : Marker} (hm : m ∈ markersOf text)
    (hend : m.stop = text.utf8ByteSize) : ∃ ms, markersOf text = ms ++ [m] := by
  obtain ⟨ms, rest, hms⟩ := List.append_of_mem hm
  cases rest with
  | nil => exact ⟨ms, hms⟩
  | cons n rest =>
    have hn : n ∈ markersOf text := by rw [hms]; simp
    have hpair := pairwise_markersOf text
    rw [hms, List.pairwise_append, List.pairwise_cons] at hpair
    have hle : m.stop ≤ n.start := hpair.2.1.1 n List.mem_cons_self
    obtain ⟨before, after, htext, hstop⟩ :=
      exists_append_of_isValid (Fragment.isValid_of_mem_markersOf hn).2
    have hlength := congrArg byteLength htext
    rw [byteLength_toList, byteLength_append] at hlength
    have hlt := start_lt_stop hn
    omega

namespace Candidate

/-- Without a closing parenthesis there is no candidate. -/
theorem scan_of_not_mem {offset : Nat} {text : List Char} (h : ')' ∉ text) :
    scan offset text = [] := by
  refine List.eq_nil_iff_forall_not_mem.mpr fun c hc => ?_
  obtain ⟨before, contents, after, hcut, -⟩ := exists_cut_of_mem_scan c hc
  exact h (by rw [hcut.text_eq]; simp)

/-- What cannot close a delimiter adds no candidate to the text before it. -/
theorem scan_append_of_not_mem {offset : Nat} {xs ys : List Char} (hbang : '!' ∉ ys)
    (hclose : ')' ∉ ys) : scan offset (xs ++ ys) = scan offset xs := by
  induction offset, xs using scan_induct with
  | nil => exact scan_of_not_mem hclose
  | unclosed offset rest hnone =>
    refine scan_unclosed (Marker.splitClosing?_eq_none_iff.mpr fun before after hrest => ?_)
    have hcut : rest ++ ys = (before ++ ['!']) ++ ')' :: after := by simpa using hrest
    obtain ⟨z, hrest, -⟩ := exists_append_of_not_mem_right hclose hcut
    exact Marker.splitClosing?_eq_none_iff.mp hnone before z (by simpa using hrest)
  | closed offset passed next contents after hcut hresume ih =>
    have hcut' := hcut.append_right ys
    rw [List.append_assoc] at hcut' ⊢
    rw [scan_of_cut hcut' hresume, ih]
  | skip offset c rest hno ih =>
    have hseam : c = '(' → rest = [] → ¬ ['!'] <+: ys :=
      fun _ _ hpre => hbang (hpre.subset List.mem_cons_self)
    rw [List.cons_append, scan_skip (not_pair_append hno hseam), ih]

end Candidate

namespace Fragment

variable (d : Dialect) (column : String)

/-- What cannot close a delimiter stays as it is behind a compiled text. -/
theorem compile_append_of_not_mem {p q : String} (hbang : '!' ∉ q.toList)
    (hclose : ')' ∉ q.toList) :
    (compile d column (p ++ q)).value = (compile d column p).value ++ q := by
  have hmarkers : markersOf (p ++ q) = markersOf p := by
    rw [markersOf, candidatesOf, String.toList_append,
      Candidate.scan_append_of_not_mem hbang hclose]
    rfl
  rw [← String.toList_inj, String.toList_append, value_compile, value_compile,
    toList_replaceMarkers, toList_replaceMarkers, accessors, hmarkers, String.toList_append]
  exact replaceAll_append_right (spans_accessors d column p) q.toList

/-- What cannot open a delimiter stays as it is before a compiled text. -/
theorem compile_prepend_of_not_mem {p q : String} (hopen : '(' ∉ p.toList) :
    (compile d column (p ++ q)).value = p ++ (compile d column q).value := by
  have hclosed : AllClosed p.toList := by
    rintro s ⟨before, after, hp, -⟩
    exact (hopen (by rw [hp]; simp)).elim
  have hseam : ¬ OpensAcross p.toList q.toList := fun h => hopen (h.1.subset List.mem_cons_self)
  have hnone : (compile d column p).value = p := by
    have hmarkers : markersOf p = [] := by
      refine List.eq_nil_iff_forall_not_mem.mpr fun m hm => ?_
      obtain ⟨before, contents, after, hcut, -⟩ := exists_cut_of_mem_markersOf hm
      exact hopen (by rw [hcut.text_eq]; simp)
    rw [← String.toList_inj, value_compile, toList_replaceMarkers, accessors, hmarkers]
    rfl
  rw [compile_append d column hclosed hseam, hnone]

theorem spliceFrom_concat (cs : List Char) (pos : Nat) (rs : List (Marker × String))
    (r : Marker × String) :
    ∃ before, spliceFrom cs pos (rs ++ [r]) = before ++ r.2.toList ++ dropBytes r.1.stop cs := by
  induction rs generalizing pos with
  | nil => exact ⟨_, rfl⟩
  | cons s rest ih =>
    obtain ⟨before, h⟩ := ih s.1.stop
    exact ⟨slice pos s.1.start cs ++ s.2.toList ++ before, by
      rw [List.cons_append, spliceFrom, h]; simp only [List.append_assoc]⟩

/-- What reads an attribute is a call. -/
theorem exists_call_read (path : Path) (type? : Option SqlType) :
    ∃ x, (Access.read d column path type?).value.toList = x ++ [')'] ∧ '(' ∈ x := by
  rw [Access.value_read, Expr.read, Expr.render, Dialect.extract, String.toList_append]
  exact ⟨_, rfl, by simp⟩

/-- Up to the end of its last marker a text is compiled to a call, or text with a call at its end.
What is behind the marker stays as it is. -/
theorem exists_call {text : String} {ms : List Marker} {m : Marker}
    (h : markersOf text = ms ++ [m]) :
    ∃ before after x, text.toList = before ++ after ∧ byteLength before = m.stop ∧
      (compile d column text).value.toList = x ++ ')' :: after ∧ '(' ∈ x := by
  obtain ⟨before, after, htext, hstop⟩ :=
    exists_append_of_isValid (isValid_of_mem_markersOf (h ▸ List.mem_concat_self)).2
  obtain ⟨x, hx, hopen⟩ := exists_call_read d column m.path m.type?
  obtain ⟨front, hsplice⟩ := spliceFrom_concat text.toList 0
    (ms.map fun m => (m, (Access.read d column m.path m.type?).value))
    (m, (Access.read d column m.path m.type?).value)
  refine ⟨before, after, front ++ x, htext, hstop, ?_, List.mem_append_right _ hopen⟩
  have hdrop : dropBytes m.stop text.toList = after := by rw [htext, ← hstop, dropBytes_append]
  rw [value_compile_eq_splice, splice, String.toList_ofList, accessors, h, List.map_append,
    List.map_singleton, hsplice, hx, hdrop]
  simp

/-- The blanks around a text stay around what it is compiled to. -/
theorem trim_compile_trimmed (text : String) :
    trim (compile d column (trimmed text)).value.toList =
      trim (compile d column text).value.toList := by
  obtain ⟨pre, post, hpre, hpost, htext⟩ := exists_trim_eq text.toList
  have hparts : text = .ofList pre ++ (trimmed text ++ .ofList post) := by
    rw [← String.toList_inj, htext]
    simp [trimmed]
  have hopen : '(' ∉ (String.ofList pre).toList := by
    rw [String.toList_ofList]
    exact hpre.not_mem (by decide)
  have hbang : '!' ∉ (String.ofList post).toList := by
    rw [String.toList_ofList]
    exact hpost.not_mem (by decide)
  have hclose : ')' ∉ (String.ofList post).toList := by
    rw [String.toList_ofList]
    exact hpost.not_mem (by decide)
  nth_rewrite 2 [hparts]
  rw [compile_prepend_of_not_mem d column hopen, compile_append_of_not_mem d column hbang hclose,
    String.toList_append, String.toList_append, String.toList_ofList, String.toList_ofList,
    ← List.append_assoc, trim_append hpre hpost]

end Fragment

/-! ## Aliases behind a call -/

namespace Alias

theorem assign_congr (d : Dialect) {a b : String} (h : trim a.toList = trim b.toList) :
    assign d a = assign d b := by
  rw [assign, assign, h]

variable (d : Dialect) {x after gap w : List Char}

/-- A call at the end of an item has no alias. -/
theorem assign_call (hopen : '(' ∈ x) :
    (assign d (.ofList (x ++ [')']))).toList = trim (x ++ [')']) := by
  have hblank : Unicode.isBlank ')' = false := by decide
  have hnone : behindCall d [] = [')'] := by
    have hsplit : split? (')' :: trimEnd []) = none := by decide
    rw [behindCall, hsplit]
    rfl
  rw [toList_assign_call d hopen, hnone, trim, trimStart_before hblank, trimEnd_before hblank]
  rfl

/-- Behind a call the keyword needs a gap of its own. -/
theorem not_endsInKeyword_call (h : ∀ before, ¬ EndsInKeyword before after) (before : List Char) :
    ¬ EndsInKeyword before (')' :: after) := by
  rintro ⟨gap, a, s, hafter, hgap, ha, hs⟩
  cases before with
  | nil =>
    obtain ⟨blank, gap, rfl⟩ := List.exists_cons_of_ne_nil hgap.1
    obtain ⟨rfl, -⟩ := List.cons_eq_cons.mp hafter
    exact absurd (hgap.2 ')' List.mem_cons_self) (by decide)
  | cons c before =>
    obtain ⟨-, rfl⟩ := List.cons_eq_cons.mp hafter
    exact h before ⟨gap, a, s, rfl, hgap, ha, hs⟩

/-- A word that a gap sets off behind a call is the alias of all before it. -/
theorem assign_call_word (hopen : '(' ∈ x) (hblank : ¬ EndsBlank after)
    (hkeyword : ∀ before, ¬ EndsInKeyword before after) (hgap : Gap gap) (hne : w ≠ [])
    (hchars : ∀ c ∈ w, isAliasChar c) :
    (assign d (.ofList (x ++ ')' :: (after ++ gap ++ w)))).toList =
      trim (x ++ ')' :: after) ++ " AS ".toList ++ (d.quoteColumnName (.ofList w)).toList := by
  have hclose : Unicode.isBlank ')' = false := by decide
  have hrest : trimEnd after = after := not_endsBlank_iff.mp hblank
  have hend : trimEnd (after ++ gap ++ w) = after ++ gap ++ w := by
    refine trimEnd_eq_self_iff.mpr fun c hc => ?_
    rw [List.getLast?_append_of_ne_nil _ hne] at hc
    exact isBlank_of_isAliasChar (hchars c (List.mem_of_getLast? hc))
  have hsplit : split? (')' :: trimEnd (after ++ gap ++ w)) = some (')' :: after, w) := by
    have hfound := split?_append (hgap.endsBlank_append (')' :: after)) hne hchars
    rw [trimEnd_append hgap.2, trimEnd_cons hclose, hrest,
      dropKeyword_eq_self (not_endsInKeyword_call hkeyword)] at hfound
    rw [hend]
    exact hfound
  rw [toList_assign_call d hopen, behindCall, hsplit, trim, trimStart_before hclose,
    trimEnd_before hclose, hrest]
  simp [named]

end Alias

/-! ## The entries -/

namespace SelectItem

variable (d : Dialect) (column : String) {text : String}

theorem value_compile_expression (text : String) : ((expression text).compile d column).value =
    Alias.assign d (Fragment.compile d column (trimmed text)).value := by
  rw [compile, Traced.value_map]
  exact Alias.assign_congr d (Fragment.trim_compile_trimmed d column text).symm

/-- An item that ends in a marker is left as it is compiled. -/
theorem value_compile_of_marker_at_end {m : Marker} (hm : m ∈ markersOf (trimmed text))
    (hend : m.stop = (trimmed text).utf8ByteSize) :
    ((expression text).compile d column).value =
      trimmed (Fragment.compile d column text).value := by
  obtain ⟨ms, hms⟩ := exists_markersOf_eq_concat hm hend
  obtain ⟨before, after, x, htext, hstop, hx, hopen⟩ := Fragment.exists_call d column hms
  have hafter : after = [] := by
    have hlength := congrArg byteLength htext
    rw [byteLength_append, byteLength_toList, hstop, hend] at hlength
    exact byteLength_eq_zero_iff.mp (by omega)
  rw [hafter] at hx
  have hcompiled : (Fragment.compile d column (trimmed text)).value = .ofList (x ++ [')']) := by
    rw [← String.toList_inj, hx, String.toList_ofList]
  rw [value_compile_expression, ← String.toList_inj, hcompiled, Alias.assign_call d hopen, ← hx,
    Fragment.trim_compile_trimmed, trimmed, String.toList_ofList]

/-- The word behind the last marker of an item is the alias of all that stands before it. -/
theorem value_compile_of_word_behind {x gap w : String} (htext : trimmed text = x ++ gap ++ w)
    (hmarkers : markersOf x ≠ []) (hblank : ¬ EndsBlank x.toList)
    (hkeyword : ∀ before, ¬ Alias.EndsInKeyword before x.toList) (hgap : Gap gap.toList)
    (hne : w ≠ "") (hchars : ∀ c ∈ w.toList, Alias.isAliasChar c) :
    ((expression text).compile d column).value =
      trimmed (Fragment.compile d column x).value ++ " AS " ++ d.quoteColumnName w := by
  obtain ⟨ms, m, hms⟩ := List.eq_nil_or_concat' _ |>.resolve_left hmarkers
  obtain ⟨before, after, y, hx, -, hy, hopen⟩ := Fragment.exists_call d column hms
  have hplain {c : Char} (hc : Unicode.isBlank c = false) (hc' : Alias.isAliasChar c = false) :
      c ∉ (gap ++ w).toList := by
    rw [String.toList_append, List.mem_append, not_or]
    exact ⟨hgap.2.not_mem hc, not_mem_of_forall hchars hc'⟩
  have hcompiled : (Fragment.compile d column (trimmed text)).value =
      .ofList (y ++ ')' :: (after ++ gap.toList ++ w.toList)) := by
    rw [htext, String.append_assoc, Fragment.compile_append_of_not_mem d column
      (hplain (by decide) (by decide)) (hplain (by decide) (by decide)), ← String.toList_inj,
      String.toList_append, hy]
    simp
  have hblank' : ¬ EndsBlank after := fun h => hblank (hx ▸ h.append before)
  have hkeyword' : ∀ front, ¬ Alias.EndsInKeyword front after :=
    fun front h => hkeyword (before ++ front) (hx ▸ h.append before)
  have hne' : w.toList ≠ [] := mt String.toList_eq_nil_iff.mp hne
  rw [value_compile_expression, hcompiled, ← String.toList_inj,
    Alias.assign_call_word d hopen hblank' hkeyword' hgap hne' hchars, ← hy]
  simp [trimmed]

end SelectItem

namespace Projection

variable (d : Dialect) (c : Column)

/-- Everything is asked for: no item is given, or one without an alias that stands for every
column. -/
def AsksForAll (items : List SelectItem) : Prop :=
  items = [] ∨ ∃ text, SelectItem.expression text ∈ items ∧ trimmed text = "*"

theorem any_isWildcard_iff {items : List SelectItem} :
    (effective items).any SelectItem.isWildcard ↔ AsksForAll items := by
  cases items with
  | nil => exact ⟨fun _ => .inl rfl, fun _ => by decide⟩
  | cons item rest =>
    rw [effective, List.isEmpty_cons, if_neg Bool.false_ne_true, List.any_eq_true, AsksForAll]
    constructor
    · rintro ⟨found, hmem, hwild⟩
      cases found with
      | expression text => exact .inr ⟨text, hmem, beq_iff_eq.mp hwild⟩
      | aliased => cases hwild
    · rintro (hnil | ⟨text, hmem, hstar⟩)
      · cases hnil
      · exact ⟨_, hmem, beq_iff_eq.mpr hstar⟩

/-- A projection has one entry for each item, which depends on that item only, and a dump behind
them just if everything is asked for. An item without an alias of its own that ends in a marker is
left as it is compiled; a word that blanks alone set off behind text with a marker in it is the
alias of that text, and the text is left as it is compiled. -/
theorem entries_of_items :
    (∀ items, ∃ dumps, (compile d c items).value =
        (if items = [] then [.expression "*"] else items).map
          (fun item => (item.compile d (c.qualified d)).value) ++ dumps ∧
      (AsksForAll items → dumps = [dumpItem d c]) ∧ (¬ AsksForAll items → dumps = [])) ∧
    (∀ text, ∀ m ∈ markersOf (trimmed text), m.stop = (trimmed text).utf8ByteSize →
      ((SelectItem.expression text).compile d (c.qualified d)).value =
        trimmed (Fragment.compile d (c.qualified d) text).value) ∧
    ∀ text x gap w : String, trimmed text = x ++ gap ++ w → markersOf x ≠ [] →
      ¬ EndsBlank x.toList → (∀ before, ¬ Alias.EndsInKeyword before x.toList) →
      Gap gap.toList → w ≠ "" → (∀ a ∈ w.toList, Alias.isAliasChar a) →
      ((SelectItem.expression text).compile d (c.qualified d)).value =
        trimmed (Fragment.compile d (c.qualified d) x).value ++ " AS " ++ d.quoteColumnName w := by
  refine ⟨fun items => ⟨if (effective items).any SelectItem.isWildcard then [dumpItem d c] else [],
    ?_, fun hall => ?_, fun hno => ?_⟩, fun text m hm hend => ?_,
    fun text x gap w htext hmarkers hblank hkeyword hgap hne hchars => ?_⟩
  · cases items <;> rfl
  · exact if_pos (any_isWildcard_iff.mpr hall)
  · exact if_neg (mt any_isWildcard_iff.mp hno)
  · exact SelectItem.value_compile_of_marker_at_end d (c.qualified d) hm hend
  · exact SelectItem.value_compile_of_word_behind d (c.qualified d) htext hmarkers hblank hkeyword
      hgap hne hchars

/-- The text before a marker at the end stays, the last comma stays before the keyword, and an item
with an alias of its own does not ask for everything. -/
theorem entries_of_items_comma_joined :
    let c : Column := ⟨some "t", "dyn"⟩
    let m : Marker := ⟨4, 9, ⟨["a"], by decide, by decide⟩, none⟩
    let item := "(!a!) as a, (!b|int!),\t\u3000id"
    AsksForAll [.aliased "*" "x", .expression " *"] ∧ ¬ AsksForAll [.aliased "*" "x"] ∧
      (compile .default c [.aliased "*" "x", .expression " *"]).value =
        ["* AS `x`", "*", "COLUMN_JSON(`t`.`dyn`) AS `dynamic_columns`"] ∧
      m ∈ markersOf (trimmed " x-y (!a!)\n") ∧
      ((SelectItem.expression " x-y (!a!)\n").compile .default (c.qualified .default)).value =
        "x-y COLUMN_GET(`t`.`dyn`, 'a' AS CHAR)" ∧
      trimmed item = "(!a!) as a, (!b|int!)," ++ "\t\u3000" ++ "id" ∧
      ((SelectItem.expression item).compile .default (c.qualified .default)).value =
        "COLUMN_GET(`t`.`dyn`, 'a' AS CHAR) as a, COLUMN_GET(`t`.`dyn`, 'b' AS int), AS `id`" := by
  intro c m item
  obtain ⟨hentries, hmarker, hword⟩ := entries_of_items .default c
  have hall : AsksForAll [.aliased "*" "x", .expression " *"] := .inr ⟨" *", by decide, by decide⟩
  have hno : ¬ AsksForAll [.aliased "*" "x"] := by
    rintro (hnil | ⟨text, hmem, -⟩)
    · cases hnil
    · cases List.mem_singleton.mp hmem
  obtain ⟨dumps, hcompiled, hdumps, -⟩ := hentries [.aliased "*" "x", .expression " *"]
  rw [hdumps hall] at hcompiled
  have hm : m ∈ markersOf (trimmed " x-y (!a!)\n") := by decide +kernel
  have hend : m.stop = (trimmed " x-y (!a!)\n").utf8ByteSize := by decide +kernel
  have hitem : trimmed item = "(!a!) as a, (!b|int!)," ++ "\t\u3000" ++ "id" := by decide +kernel
  have hmarkers : markersOf "(!a!) as a, (!b|int!)," ≠ [] := by decide +kernel
  -- A comma is no letter of the keyword.
  have hkeyword : ∀ before, ¬ Alias.EndsInKeyword before "(!a!) as a, (!b|int!),".toList := by
    rintro before ⟨gap, a, s, hx, -, -, hs⟩
    have hlast : some ',' = some s := by simpa using congrArg List.getLast? hx
    obtain rfl := Option.some.inj hlast
    exact absurd hs (by decide)
  refine ⟨hall, hno, hcompiled.trans ?_, hm, (hmarker _ m hm hend).trans ?_, hitem,
    (hword item _ _ _ hitem hmarkers (by decide) hkeyword (by decide) (by decide)
      (List.all_eq_true.mp (by decide))).trans ?_⟩ <;> decide +kernel

end Projection

end PackedColumn

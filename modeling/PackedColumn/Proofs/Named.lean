import PackedColumn.Proofs.Splice

/-!
# Markers and names

A text that is one marker is compiled to the expression that reads the attribute that its contents
spell (`compile_of_wellFormed`): the contents hold no `!)`, so the marker ends where the text does.

So `(!name|type!)` is compiled to what a request by that name and type answers, whether the type is
in the grammar of types or not, and blanks around the name or the type change nothing
(`marker_reads_named_attribute`).
-/

namespace PackedColumn

open Text

/-! ## Types -/

/-- A type is read without the blanks around it. -/
theorem SqlType.parse?_congr {s t : String} (h : trim s.toList = trim t.toList) :
    parse? s = parse? t := by
  unfold parse?
  rw [h]

theorem Access.value_namedType (name : String) (typeText? : Option String) :
    (namedType name typeText?).value = typeText?.bind SqlType.parse? := by
  cases typeText? with
  | none => rfl
  | some text =>
    rw [namedType, Option.bind_some]
    cases SqlType.parse? text <;> rfl

/-! ## A text that is one marker -/

namespace Marker

/-- Where no `!)` stands before it, the last one is the first. -/
theorem splitClosing?_concat {contents : List Char} (h : ¬ ['!', ')'] <:+: contents) :
    splitClosing? (contents ++ ['!', ')']) = some (contents, []) := by
  induction contents with
  | nil => rfl
  | cons c rest ih =>
    have hrest : ¬ ['!', ')'] <:+: rest := fun hi => h (hi.trans (List.suffix_cons c rest).isInfix)
    have hno : ∀ tail, c = '!' → rest = ')' :: tail → False := by
      rintro tail rfl rfl
      exact h (List.prefix_append ['!', ')'] tail).isInfix
    rw [List.cons_append, splitClosing?, ih hrest]
    · rfl
    · exact not_pair_append hno fun _ _ => by decide

end Marker

namespace Fragment

variable (d : Dialect) (column : String) {text : String} {contents : List Char} {path : Path}
  {typeText : Option String}

/-- The scan of a text that is one marker reports it. -/
theorem candidatesOf_of_wellFormed (hform : Marker.WellFormed path contents typeText)
    (hclose : ¬ ['!', ')'] <:+: contents)
    (htext : text.toList = '(' :: '!' :: (contents ++ ['!', ')'])) :
    candidatesOf text = [.marker ⟨0, byteLength text.toList, path, typeText⟩] := by
  have hcut : Cut (text.toList ++ []) [] contents [] :=
    ⟨by rw [List.append_nil, htext]; rfl, Marker.splitClosing?_concat hclose⟩
  have hlength : byteLength text.toList = 0 + 4 + byteLength contents := by
    rw [htext]; simp [Char.utf8Size]; omega
  have hjudge : Candidate.judge 0 contents =
      .marker ⟨0, byteLength text.toList, path, typeText⟩ :=
    Candidate.judge_eq_marker_iff.mpr ⟨rfl, hlength, hform⟩
  have hresume : (Candidate.judge 0 contents).resume = 0 + byteLength text.toList := by
    rw [hjudge, Nat.zero_add]; rfl
  have hscan := Candidate.scan_of_cut hcut hresume
  rwa [List.append_nil, hjudge, Candidate.scan] at hscan

/-- A text that is one marker is compiled to the expression that reads its attribute. -/
theorem compile_of_wellFormed (hform : Marker.WellFormed path contents typeText)
    (hclose : ¬ ['!', ')'] <:+: contents)
    (htext : text.toList = '(' :: '!' :: (contents ++ ['!', ')'])) :
    compile d column text = Access.read d column path (typeText.bind SqlType.parse?) := by
  have hcandidates := candidatesOf_of_wellFormed hform hclose htext
  have hmarkers : markersOf text = [⟨0, byteLength text.toList, path, typeText⟩] := by
    rw [markersOf, hcandidates]; rfl
  apply Traced.ext
  · rw [value_compile, accessors, hmarkers, ← String.toList_inj, toList_replaceMarkers]
    have hreplace := replaceBytes_append [] text.toList []
      (Access.read d column path (typeText.bind SqlType.parse?)).value.toList
    simpa [Marker.type?] using hreplace
  · simp [compile, scan, hcandidates, hmarkers, candidateEvents, Marker.type?]

variable {pre post pre' post' type : String}

/-- A name between blanks holds no `!`. -/
theorem bang_not_mem_padded (hfit : path.FitsMarker) (hpre : Blanks pre.toList)
    (hpost : Blanks post.toList) : '!' ∉ pre.toList ++ path.display.toList ++ post.toList := by
  have hname : '!' ∉ path.display.toList := hfit.not_mem (by decide) (by decide)
  have hbefore : '!' ∉ pre.toList := hpre.not_mem (by decide)
  have hafter : '!' ∉ post.toList := hpost.not_mem (by decide)
  simp [hname, hbefore, hafter]

theorem compile_untyped (hfit : path.FitsMarker) (hpre : Blanks pre.toList)
    (hpost : Blanks post.toList) :
    compile d column ("(!" ++ pre ++ path.display ++ post ++ "!)") =
      Access.read d column path none := by
  have hclose : ¬ ['!', ')'] <:+: pre.toList ++ path.display.toList ++ post.toList :=
    fun hi => bang_not_mem_padded hfit hpre hpost (hi.subset List.mem_cons_self)
  rw [compile_of_wellFormed d column (Marker.WellFormed.untyped hpre hpost hfit) hclose,
    Option.bind_none]
  simp

theorem compile_typed (hfit : path.FitsMarker) (hpre : Blanks pre.toList)
    (hpost : Blanks post.toList) (hpre' : Blanks pre'.toList) (hpost' : Blanks post'.toList)
    (hclose : ¬ ['!', ')'] <:+: type.toList) (hbars : Marker.BarsEscaped type.toList) :
    compile d column
        ("(!" ++ pre ++ path.display ++ post ++ "|" ++ pre' ++ type ++ post' ++ "!)") =
      Access.read d column path (SqlType.parse? type) := by
  -- Before the type stands no `!`, and behind it no `)`.
  have hbefore :
      '!' ∉ pre.toList ++ path.display.toList ++ post.toList ++ '|' :: pre'.toList := by
    have hblank : '!' ∉ pre'.toList := hpre'.not_mem (by decide)
    rw [List.mem_append, List.mem_cons]
    rintro (hmem | hbar | hmem)
    · exact bang_not_mem_padded hfit hpre hpost hmem
    · exact absurd hbar (by decide)
    · exact hblank hmem
  have hafter : ')' ∉ post'.toList := hpost'.not_mem (by decide)
  have hform := Marker.WellFormed.typed hpre hpost hfit (hbars.pad hpre' hpost')
  have htrim : trim (String.ofList (trim (pre'.toList ++ type.toList ++ post'.toList))).toList =
      trim type.toList := by
    rw [String.toList_ofList, trim_trim, trim_append hpre' hpost']
  rw [compile_of_wellFormed d column hform, Option.bind_some, SqlType.parse?_congr htrim]
  · simpa using not_infix_pad hbefore hafter hclose
  · simp

end Fragment

/-- A marker that stands alone is compiled to what the request by its name and its type answers:
the type holds no `!)`, and its bars are escaped. Blanks around the name and around the type change
neither the expression nor the events. -/
theorem marker_reads_named_attribute (d : Dialect) (column : String) {segments : List String}
    (hne : segments ≠ []) (hsegments : ∀ s ∈ segments, Path.IsSegment s.toList) :
    let name := Path.joined segments
    ((Access.readNamed d column name none).outcome =
        .ok (Fragment.compile d column ("(!" ++ name ++ "!)")).value ∧
      ∀ pre post : String, Blanks pre.toList → Blanks post.toList →
        Fragment.compile d column ("(!" ++ pre ++ name ++ post ++ "!)") =
          Fragment.compile d column ("(!" ++ name ++ "!)")) ∧
    ∀ type : String, ¬ ['!', ')'] <:+: type.toList → Marker.BarsEscaped type.toList →
      (Access.readNamed d column name (some type)).outcome =
          .ok (Fragment.compile d column ("(!" ++ name ++ "|" ++ type ++ "!)")).value ∧
        ∀ pre post pre' post' : String, Blanks pre.toList → Blanks post.toList →
          Blanks pre'.toList → Blanks post'.toList →
            Fragment.compile d column
                ("(!" ++ pre ++ name ++ post ++ "|" ++ pre' ++ type ++ post' ++ "!)") =
              Fragment.compile d column ("(!" ++ name ++ "|" ++ type ++ "!)") := by
  obtain ⟨path, hfit, hname⟩ :
      ∃ path : Path, path.FitsMarker ∧ path.display = Path.joined segments :=
    ⟨⟨segments, hne, fun s hs he => (hsegments s hs).1 (by rw [he]; rfl)⟩, hsegments, rfl⟩
  have hparse : Path.parse? path.display = some path :=
    Path.parse?_of_ofMarkerChars? (Path.ofMarkerChars?_eq_some_iff.mpr ⟨rfl, hfit⟩)
  have hempty : Blanks "".toList := fun c hc => by simp at hc
  rw [← hname]
  have huntyped : Fragment.compile d column ("(!" ++ path.display ++ "!)") =
      Access.read d column path none := by
    simpa using Fragment.compile_untyped d column hfit hempty hempty
  refine ⟨⟨?_, fun pre post hpre hpost => ?_⟩, fun type hclose hbars => ?_⟩
  · rw [Access.outcome_readNamed d column hparse, huntyped]
    rfl
  · rw [Fragment.compile_untyped d column hfit hpre hpost, huntyped]
  · have htyped : Fragment.compile d column ("(!" ++ path.display ++ "|" ++ type ++ "!)") =
        Access.read d column path (SqlType.parse? type) := by
      simpa using Fragment.compile_typed d column hfit hempty hempty hempty
        hempty hclose hbars
    refine ⟨?_, fun pre post pre' post' hpre hpost hpre' hpost' => ?_⟩
    · rw [Access.outcome_readNamed d column hparse, Access.value_namedType, htyped]
      rfl
    · rw [Fragment.compile_typed d column hfit hpre hpost hpre' hpost' hclose hbars, htyped]

/-- An opening delimiter and an escaped bar in the type are a part of it. -/
theorem marker_reads_named_attribute_escaped_bar :
    let name := Path.joined ["a", "b-2"]
    let type := "(!\\|"
    (∀ s ∈ ["a", "b-2"], Path.IsSegment s.toList) ∧ ¬ ['!', ')'] <:+: type.toList ∧
      Marker.BarsEscaped type.toList ∧ Blanks "\u3000".toList ∧ Blanks " ".toList ∧
      (Access.readNamed .default "c" name (some type)).outcome =
        .ok (Fragment.compile .default "c" ("(!" ++ name ++ "|" ++ type ++ "!)")).value ∧
      Fragment.compile .default "c"
          ("(!" ++ " " ++ name ++ "\u3000" ++ "|" ++ "\u3000" ++ type ++ " " ++ "!)") =
        Fragment.compile .default "c" ("(!" ++ name ++ "|" ++ type ++ "!)") := by
  intro name type
  have hsegments : ∀ s ∈ ["a", "b-2"], Path.IsSegment s.toList := by
    simp only [← Path.isMarkerSegment_iff]
    decide
  have hclose : ¬ ['!', ')'] <:+: type.toList := by decide
  have hbars : Marker.BarsEscaped type.toList :=
    Marker.splitType?_eq_none_iff_barsEscaped.mp (by decide)
  have hwide : Blanks "\u3000".toList := by decide
  have hspace : Blanks " ".toList := by decide
  have hne : ["a", "b-2"] ≠ [] := by decide
  obtain ⟨-, htyped⟩ := marker_reads_named_attribute .default "c" hne hsegments
  obtain ⟨hread, hpadded⟩ := htyped type hclose hbars
  exact ⟨hsegments, hclose, hbars, hwide, hspace, hread,
    hpadded " " "\u3000" "\u3000" " " hspace hwide hwide hspace⟩

end PackedColumn

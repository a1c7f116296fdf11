import PackedColumn.Marker
import PackedColumn.Proofs.Blank
import PackedColumn.Proofs.Offset

/-!
# The grammar of a marker's contents

`WellFormed path contents typeText` is the grammar of what stands between the delimiters of a
marker: the segments of `path` with dots between them and blanks around them, then nothing, or a bar
and a type. A further bar inside the type stands behind an odd run of backslashes.

The reader cuts the contents at the last bar that is not escaped and trims the two sides. It reads
exactly the grammar (`decode?_eq_some_iff`), because the cut is at the first bar: blanks and
segments hold neither bars nor backslashes.
-/

namespace PackedColumn

open Text Unicode

/-! ## Names -/

namespace Path

theorem ofSegments?_eq_some_iff {segments : List String} {path : Path} :
    ofSegments? segments = some path ↔ path.segments = segments := by
  unfold ofSegments?
  split
  · simp only [Option.some.injEq]
    exact ⟨fun h => h ▸ rfl, fun h => by cases path; subst h; rfl⟩
  · next hno =>
    refine ⟨nofun, fun h => ?_⟩
    subst h
    exact (hno ⟨path.segments_ne_nil, path.ne_empty_of_mem⟩).elim

theorem toList_display (path : Path) :
    path.display.toList = ['.'].intercalate (path.segments.map String.toList) := by
  simp [display, joined]

/-- A segment that may stand in a marker: letters, numbers, `_`, `-` and `$`, at least one. -/
def IsSegment (cs : List Char) : Prop :=
  cs ≠ [] ∧ ∀ c ∈ cs, isAlphanumeric c = true ∨ c = '_' ∨ c = '-' ∨ c = '$'

theorem isMarkerSegment_iff {cs : List Char} : isMarkerSegment cs = true ↔ IsSegment cs := by
  simp [isMarkerSegment, IsSegment, isMarkerChar, or_assoc]

/-- No blank is a letter or a number. -/
theorem isAlphanumeric_eq_false_of_isBlank {c : Char} (h : isBlank c = true) :
    isAlphanumeric c = false := by
  have hall : ∀ n ∈ whiteSpace.flatMap fun r => List.range' r.1 (r.2 + 1 - r.1),
      (inRanges alphabetic n || inRanges decimalDigit n || inRanges otherNumber n) = false := by
    decide +kernel
  obtain ⟨r, hr, hlo, hhi⟩ := exists_range_of_inRanges h
  exact hall c.toNat (List.mem_flatMap.mpr ⟨r, hr, by rw [List.mem_range'_1]; omega⟩)

/-- What a segment may hold is no blank and has no other meaning in a marker. -/
theorem IsSegment.plain {cs : List Char} (h : IsSegment cs) {c : Char} (hc : c ∈ cs) :
    isBlank c = false ∧ c ≠ '.' ∧ c ≠ '|' ∧ c ≠ '\\' := by
  rcases h.2 c hc with ha | rfl | rfl | rfl
  · refine ⟨?_, ?_, ?_, ?_⟩
    · by_contra hb
      rw [isAlphanumeric_eq_false_of_isBlank (by simpa using hb)] at ha
      cases ha
    all_goals rintro rfl; revert ha; decide
  all_goals decide

theorem mem_intercalate {sep : Char} {parts : List (List Char)} {c : Char}
    (h : c ∈ [sep].intercalate parts) : c = sep ∨ ∃ part ∈ parts, c ∈ part := by
  induction parts with
  | nil => simp at h
  | cons part rest ih =>
    cases rest with
    | nil => exact .inr ⟨part, by simp, by simpa using h⟩
    | cons next rest =>
      rw [List.intercalate_cons_cons, List.append_assoc, List.mem_append, List.mem_append] at h
      rcases h with h | h | h
      · exact .inr ⟨part, by simp, h⟩
      · exact .inl (by simpa using h)
      · rcases ih h with h | ⟨p, hp, hc⟩
        · exact .inl h
        · exact .inr ⟨p, List.mem_cons_of_mem _ hp, hc⟩

/-- The segments may all stand in a marker. -/
def FitsMarker (path : Path) : Prop := ∀ s ∈ path.segments, IsSegment s.toList

/-- The name holds no blank, no bar and no backslash. -/
theorem FitsMarker.plain {path : Path} (h : path.FitsMarker) {c : Char}
    (hc : c ∈ path.display.toList) : isBlank c = false ∧ c ≠ '|' ∧ c ≠ '\\' := by
  rw [toList_display] at hc
  rcases mem_intercalate hc with rfl | ⟨part, hp, hc⟩
  · decide
  · obtain ⟨s, hs, rfl⟩ := List.mem_map.mp hp
    obtain ⟨hb, -, hbar, hslash⟩ := (h s hs).plain hc
    exact ⟨hb, hbar, hslash⟩

/-- The name holds the characters of segments and dots. -/
theorem FitsMarker.not_mem {path : Path} (h : path.FitsMarker) {c : Char}
    (hc : isMarkerChar c = false) (hdot : c ≠ '.') : c ∉ path.display.toList := by
  rw [toList_display]
  intro hmem
  rcases mem_intercalate hmem with rfl | ⟨part, hp, hpart⟩
  · exact hdot rfl
  · obtain ⟨s, hs, rfl⟩ := List.mem_map.mp hp
    have hall := isMarkerSegment_iff.mpr (h s hs)
    rw [isMarkerSegment, Bool.and_eq_true, List.all_eq_true] at hall
    rw [hall.2 c hpart] at hc
    cases hc

/-- The reader of a name accepts the dotted segments that fit a marker and nothing else. -/
theorem ofMarkerChars?_eq_some_iff {cs : List Char} {path : Path} :
    ofMarkerChars? cs = some path ↔ cs = path.display.toList ∧ path.FitsMarker := by
  rw [toList_display]
  simp only [ofMarkerChars?, Option.ite_none_right_eq_some, ofSegments?_eq_some_iff,
    List.all_eq_true, isMarkerSegment_iff]
  constructor
  · rintro ⟨hall, hseg⟩
    refine ⟨by simp [hseg, Function.comp_def], fun s hs => ?_⟩
    rw [hseg] at hs
    obtain ⟨part, hp, rfl⟩ := List.mem_map.mp hs
    simpa using hall part hp
  · rintro ⟨rfl, hfit⟩
    have hdot : ∀ part ∈ path.segments.map String.toList, '.' ∉ part := by
      intro part hp hmem
      obtain ⟨s, hs, rfl⟩ := List.mem_map.mp hp
      exact ((hfit s hs).plain hmem).2.1 rfl
    rw [List.splitOn_intercalate _ hdot (by simp [path.segments_ne_nil])]
    refine ⟨fun part hp => ?_, by simp [Function.comp_def]⟩
    obtain ⟨s, hs, rfl⟩ := List.mem_map.mp hp
    exact hfit s hs

/-- What the reader of a marker takes for a path is a name of that path. -/
theorem parse?_of_ofMarkerChars? {name : String} {path : Path}
    (h : ofMarkerChars? name.toList = some path) : parse? name = some path :=
  (Option.ite_none_right_eq_some.mp h).2

end Path

/-! ## Bars and backslashes -/

namespace Marker

/-- The number of backslashes that end a text. -/
def backslashes (cs : List Char) : Nat := (cs.rtakeWhile (· == '\\')).length

/-- Every bar of the text stands behind an odd run of backslashes. -/
def BarsEscaped (cs : List Char) : Prop :=
  ∀ before after, cs = before ++ '|' :: after → backslashes before % 2 = 1

/-- Whether an odd run of backslashes ends a text; `escaped` tells it of what stands before. -/
def endsEscaped (escaped : Bool) (cs : List Char) : Bool :=
  cs.foldl (fun odd c => c == '\\' && !odd) escaped

@[simp] theorem endsEscaped_nil (escaped : Bool) : endsEscaped escaped [] = escaped := rfl

theorem endsEscaped_concat (escaped : Bool) (cs : List Char) (c : Char) :
    endsEscaped escaped (cs ++ [c]) = (c == '\\' && !endsEscaped escaped cs) :=
  List.foldl_append

@[simp] theorem endsEscaped_cons (escaped : Bool) (c : Char) (cs : List Char) :
    endsEscaped escaped (c :: cs) = endsEscaped (c == '\\' && !escaped) cs := rfl

theorem endsEscaped_append (escaped : Bool) (xs ys : List Char) :
    endsEscaped escaped (xs ++ ys) = endsEscaped (endsEscaped escaped xs) ys :=
  List.foldl_append

theorem endsEscaped_false (cs : List Char) :
    endsEscaped false cs = decide (backslashes cs % 2 = 1) := by
  induction cs using List.reverseRecOn with
  | nil => rfl
  | append_singleton cs c ih =>
    rw [endsEscaped_concat, ih]
    by_cases hc : c = '\\'
    · have hrun : backslashes (cs ++ [c]) = backslashes cs + 1 := by simp [backslashes, hc]
      rw [hrun]
      by_cases hodd : backslashes cs % 2 = 1 <;> simp [hc, hodd] <;> omega
    · simp [backslashes, hc]

/-- Without a backslash in it, a text does not end in an odd run of them. -/
theorem endsEscaped_of_not_mem {cs : List Char} (h : '\\' ∉ cs) : endsEscaped false cs = false := by
  induction cs with
  | nil => rfl
  | cons c rest ih =>
    obtain ⟨hc, hrest⟩ := List.ne_and_not_mem_of_not_mem_cons h
    have hplain : (c == '\\') = false := by simpa using Ne.symm hc
    simpa [hplain] using ih hrest

/-- There is no cut when every bar is escaped. -/
theorem splitType?_eq_none_iff {escaped : Bool} {cs : List Char} :
    splitType? escaped cs = none ↔
      ∀ before after, cs = before ++ '|' :: after → endsEscaped escaped before = true := by
  induction cs generalizing escaped with
  | nil => simp [splitType?]
  | cons c rest ih =>
    constructor
    · intro h before after he
      rw [splitType?] at h
      split at h
      · cases h
      · next hrest =>
        split at h
        · cases h
        · next hbar =>
          cases before with
          | nil =>
            obtain ⟨rfl, rfl⟩ := List.cons_eq_cons.mp he
            simpa using hbar
          | cons d before =>
            obtain ⟨rfl, rfl⟩ := List.cons_eq_cons.mp he
            exact ih.mp hrest before after rfl
    · intro h
      have hrest : splitType? (c == '\\' && !escaped) rest = none :=
        ih.mpr fun before after he => h (c :: before) after (by rw [he]; rfl)
      rw [splitType?, hrest]
      refine if_neg fun ⟨hc, he⟩ => ?_
      have := h [] rest (by rw [hc]; rfl)
      rw [endsEscaped_nil, he] at this
      cases this

theorem splitType?_eq_none_iff_barsEscaped {cs : List Char} :
    splitType? false cs = none ↔ BarsEscaped cs := by
  simp only [splitType?_eq_none_iff, endsEscaped_false, decide_eq_true_eq, BarsEscaped]

/-- Blanks around a text leave its bars escaped. -/
theorem BarsEscaped.pad {pre cs post : List Char} (hpre : Blanks pre) (hpost : Blanks post)
    (h : BarsEscaped cs) : BarsEscaped (pre ++ cs ++ post) := by
  rw [← splitType?_eq_none_iff_barsEscaped, splitType?_eq_none_iff] at h ⊢
  intro before after he
  rw [List.append_assoc] at he
  obtain ⟨x, rfl, hx⟩ := exists_append_of_not_mem_left (hpre.not_mem (by decide)) he
  obtain ⟨y, hy, -⟩ := exists_append_of_not_mem_right (hpost.not_mem (by decide)) hx
  rw [endsEscaped_append, endsEscaped_of_not_mem (hpre.not_mem (by decide))]
  exact h x y hy

/-- The cut is at the bar that is not escaped and has only escaped ones behind it. -/
theorem splitType?_eq_some_iff {escaped : Bool} {cs path type : List Char} :
    splitType? escaped cs = some (path, type) ↔
      cs = path ++ '|' :: type ∧ endsEscaped escaped path = false ∧ BarsEscaped type := by
  rw [← splitType?_eq_none_iff_barsEscaped]
  induction cs generalizing escaped path with
  | nil => simp [splitType?]
  | cons c rest ih =>
    rw [splitType?]
    constructor
    · intro h
      split at h
      · next p t hrest =>
        obtain ⟨rfl, rfl⟩ : c :: p = path ∧ t = type := by simpa using h
        obtain ⟨rfl, hp, ht⟩ := ih.mp hrest
        exact ⟨rfl, hp, ht⟩
      · next hrest =>
        split at h
        · next hbar =>
          obtain ⟨rfl, rfl⟩ : [] = path ∧ rest = type := by simpa using h
          obtain ⟨rfl, rfl⟩ := hbar
          exact ⟨rfl, rfl, hrest⟩
        · cases h
    · rintro ⟨he, hp, ht⟩
      cases path with
      | nil =>
        obtain ⟨rfl, rfl⟩ := List.cons_eq_cons.mp he
        have hrest : splitType? ('|' == '\\' && !escaped) rest = none := ht
        rw [hrest]
        exact if_pos ⟨rfl, hp⟩
      | cons d path =>
        obtain ⟨rfl, rfl⟩ := List.cons_eq_cons.mp he
        rw [ih.mpr ⟨rfl, hp, ht⟩]

/-! ## Contents -/

/-- The contents of a marker of `path`: its dotted name with blanks around it, then nothing, or a
bar and a type whose own bars are escaped. `typeText` is the type without the blanks around it. -/
inductive WellFormed (path : Path) : List Char → Option String → Prop
  | untyped {pre post : List Char} (hpre : Blanks pre) (hpost : Blanks post)
      (hfit : path.FitsMarker) : WellFormed path (pre ++ path.display.toList ++ post) none
  | typed {pre post type : List Char} (hpre : Blanks pre) (hpost : Blanks post)
      (hfit : path.FitsMarker) (htype : BarsEscaped type) :
      WellFormed path (pre ++ path.display.toList ++ post ++ '|' :: type)
        (some (.ofList (trim type)))

theorem WellFormed.fitsMarker {path : Path} {contents : List Char} {typeText : Option String}
    (h : WellFormed path contents typeText) : path.FitsMarker := by
  cases h <;> assumption

/-- A name between blanks holds neither a bar nor a backslash. -/
theorem not_mem_padded {path : Path} {pre post : List Char} (hpre : Blanks pre)
    (hpost : Blanks post) (hfit : path.FitsMarker) :
    '|' ∉ pre ++ path.display.toList ++ post ∧ '\\' ∉ pre ++ path.display.toList ++ post := by
  have hblank : ∀ c, isBlank c = true → c ≠ '|' ∧ c ≠ '\\' := by
    rintro c hc
    constructor <;> (rintro rfl; revert hc; decide)
  have hall : ∀ c ∈ pre ++ path.display.toList ++ post, c ≠ '|' ∧ c ≠ '\\' := by
    intro c hc
    rw [List.mem_append, List.mem_append] at hc
    rcases hc with (hc | hc) | hc
    · exact hblank c (hpre c hc)
    · exact (hfit.plain hc).2
    · exact hblank c (hpost c hc)
  exact ⟨fun h => (hall _ h).1 rfl, fun h => (hall _ h).2 rfl⟩

/-- The reader of a name sees through the blanks around it. -/
theorem ofMarkerChars?_trim {path : Path} {pre post : List Char} (hpre : Blanks pre)
    (hpost : Blanks post) (hfit : path.FitsMarker) :
    Path.ofMarkerChars? (trim (pre ++ path.display.toList ++ post)) = some path := by
  rw [trim_append hpre hpost, trim_eq_self fun c hc => (hfit.plain hc).1]
  exact Path.ofMarkerChars?_eq_some_iff.mpr ⟨rfl, hfit⟩

/-- The contents that the reader accepts are the grammatical ones, and it reads the path and the
type that they spell. -/
theorem decode?_eq_some_iff {contents : List Char} {path : Path} {typeText : Option String} :
    decode? contents = some (path, typeText) ↔ WellFormed path contents typeText := by
  constructor
  · intro h
    unfold decode? at h
    split at h
    · next before type hsplit =>
      obtain ⟨hcut, -, htype⟩ := splitType?_eq_some_iff.mp hsplit
      obtain ⟨p, hp, he⟩ := Option.map_eq_some_iff.mp h
      obtain ⟨rfl, rfl⟩ := Prod.mk.injEq .. ▸ he
      obtain ⟨hname, hfit⟩ := Path.ofMarkerChars?_eq_some_iff.mp hp
      obtain ⟨pre, post, hpre, hpost, hpad⟩ := exists_trim_eq before
      rw [hcut, hpad, hname]
      exact .typed hpre hpost hfit htype
    · obtain ⟨p, hp, he⟩ := Option.map_eq_some_iff.mp h
      obtain ⟨rfl, rfl⟩ := Prod.mk.injEq .. ▸ he
      obtain ⟨hname, hfit⟩ := Path.ofMarkerChars?_eq_some_iff.mp hp
      obtain ⟨pre, post, hpre, hpost, hpad⟩ := exists_trim_eq contents
      rw [hpad, hname]
      exact .untyped hpre hpost hfit
  · intro h
    unfold decode?
    cases h with
    | @untyped pre post hpre hpost hfit =>
      have hnone : splitType? false (pre ++ path.display.toList ++ post) = none :=
        splitType?_eq_none_iff.mpr fun before after he =>
          ((not_mem_padded hpre hpost hfit).1 (by rw [he]; simp)).elim
      rw [hnone]
      simp only [ofMarkerChars?_trim hpre hpost hfit, Option.map_some]
    | @typed pre post type hpre hpost hfit htype =>
      have hsome : splitType? false (pre ++ path.display.toList ++ post ++ '|' :: type) =
          some (pre ++ path.display.toList ++ post, type) :=
        splitType?_eq_some_iff.mpr
          ⟨rfl, endsEscaped_of_not_mem (not_mem_padded hpre hpost hfit).2, htype⟩
      rw [hsome]
      simp only [ofMarkerChars?_trim hpre hpost hfit, Option.map_some]

end Marker

end PackedColumn

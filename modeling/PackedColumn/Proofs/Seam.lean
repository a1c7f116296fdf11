import Mathlib.Data.List.Infix
import PackedColumn.Proofs.Replace
import PackedColumn.Proofs.Scan

/-!
# Texts put together

What a scan reports of a text it also reports when more text follows (`scan_prefix_append`). If the
text leaves nothing open (`AllClosed`) and no `(!` stands across the seam, the scan of the whole is
the scan of the first part and then, moved behind it, the scan of the second (`scan_append`). So a
fragment of two such parts is compiled part by part (`compile_append`).
-/

namespace PackedColumn

open Text

/-- A pair of characters that does not start a text does not start it when more follows, unless it
stands across the end. -/
theorem not_pair_append {a b c : Char} {rest ys : List Char}
    (h : ∀ tail, c = a → rest = b :: tail → False) (hseam : c = a → rest = [] → ¬ [b] <+: ys) :
    ∀ tail, c = a → rest ++ ys = b :: tail → False := by
  rintro tail rfl htail
  cases rest with
  | nil => exact hseam rfl rfl ⟨tail, htail.symm⟩
  | cons d rest =>
    obtain ⟨rfl, -⟩ := List.cons_eq_cons.mp htail
    exact h rest rfl rfl

namespace Marker

/-- What follows a text does not change where its first `!)` stands. -/
theorem splitClosing?_append {cs contents rest : List Char}
    (h : splitClosing? cs = some (contents, rest)) (ys : List Char) :
    splitClosing? (cs ++ ys) = some (contents, rest ++ ys) := by
  fun_induction splitClosing? cs generalizing contents rest with
  | case1 => cases h
  | case2 tail =>
    obtain ⟨rfl, rfl⟩ : [] = contents ∧ tail = rest := by simpa using h
    rfl
  | case3 c tail hno ih =>
    obtain ⟨⟨contents', rest'⟩, hfound, he⟩ := Option.map_eq_some_iff.mp h
    obtain ⟨rfl, rfl⟩ : c :: contents' = contents ∧ rest' = rest := by simpa using he
    have htail : tail ≠ [] := by
      rintro rfl
      cases hfound
    rw [List.cons_append, splitClosing?, ih hfound]
    · rfl
    · exact not_pair_append hno fun _ hnil => (htail hnil).elim

end Marker

theorem Cut.append_right {text before contents after : List Char}
    (h : Cut text before contents after) (ys : List Char) :
    Cut (text ++ ys) before contents (after ++ ys) := by
  refine ⟨by rw [h.text_eq]; simp, ?_⟩
  have := Marker.splitClosing?_append h.closing ys
  simpa using this

namespace Candidate

/-- The candidate in a text that has `k` more bytes before it. -/
def shift (k : Nat) : Candidate → Candidate
  | .marker m => .marker (m.shift k)
  | .malformed start text => .malformed (start + k) text

theorem resume_shift (k : Nat) (c : Candidate) : (c.shift k).resume = c.resume + k := by
  cases c with
  | marker m => rfl
  | malformed start text => simp only [shift, resume]; omega

theorem marker?_shift (k : Nat) (c : Candidate) :
    (c.shift k).marker? = c.marker?.map (·.shift k) := by
  cases c <;> rfl

theorem judge_add (start k : Nat) (contents : List Char) :
    judge (start + k) contents = (judge start contents).shift k := by
  unfold judge
  split
  · simp only [shift, Marker.shift, marker.injEq, Marker.mk.injEq, and_true, true_and]; omega
  · rfl

/-- A delimited part at the start is judged, and what is behind it is scanned. -/
theorem scan_of_cut {offset : Nat} {passed next contents after : List Char}
    (hcut : Cut (passed ++ next) [] contents after)
    (hresume : (judge offset contents).resume = offset + byteLength passed) :
    scan offset (passed ++ next) =
      judge offset contents :: scan (offset + byteLength passed) next := by
  obtain ⟨passed', next', htext, hresume', hscan⟩ := scan_closed offset hcut
  obtain ⟨rfl, rfl⟩ := append_inj_of_byteLength htext (by omega)
  exact hscan

/-- A scan does not depend on the offset that it counts from. -/
theorem scan_add (offset k : Nat) (text : List Char) :
    scan (offset + k) text = (scan offset text).map (·.shift k) := by
  induction offset, text using scan_induct with
  | nil offset => simp [scan]
  | unclosed offset rest hnone => rw [scan_unclosed hnone]; rfl
  | closed offset passed next contents after hcut hresume ih =>
    have hmoved : (judge (offset + k) contents).resume = offset + k + byteLength passed := by
      rw [judge_add, resume_shift]; omega
    have hoffset : offset + k + byteLength passed = offset + byteLength passed + k := by omega
    rw [scan_of_cut hcut hmoved, judge_add, hoffset, ih, List.map_cons]
  | skip offset c rest hno ih =>
    have hoffset : offset + k + c.utf8Size = offset + c.utf8Size + k := by omega
    rw [scan_skip hno, hoffset, ih]

/-- The candidates of a text are the first ones of every text that starts with it. -/
theorem scan_prefix_append (offset : Nat) (xs ys : List Char) :
    scan offset xs <+: scan offset (xs ++ ys) := by
  induction offset, xs using scan_induct with
  | nil => exact List.nil_prefix
  | unclosed => exact List.nil_prefix
  | closed offset passed next contents after hcut hresume ih =>
    have hcut' := hcut.append_right ys
    rw [List.append_assoc] at hcut' ⊢
    rw [scan_of_cut hcut' hresume]
    exact List.cons_prefix_cons.mpr ⟨rfl, ih⟩
  | skip offset c rest hno ih =>
    by_cases hrest : rest = []
    · rw [hrest, scan]
      exact List.nil_prefix
    · rw [List.cons_append, scan_skip (not_pair_append hno fun _ hnil => (hrest hnil).elim)]
      exact ih

end Candidate

/-! ## The seam -/

/-- Every `(!` of the text has a `!)` at least two bytes behind it. -/
def AllClosed (text : List Char) : Prop :=
  ∀ s, OccursAt ['(', '!'] s text → ∃ k, OccursAt ['!', ')'] k text ∧ s + 2 ≤ k

namespace AllClosed

theorem splitClosing?_ne_none {text before rest : List Char} (h : AllClosed text)
    (htext : text = before ++ '(' :: '!' :: rest) : Marker.splitClosing? rest ≠ none := by
  intro hnone
  obtain ⟨k, ⟨b, a, hclose, hk⟩, hle⟩ := h _ ⟨before, rest, by rw [htext]; simp, rfl⟩
  have hopen : (before ++ ['(', '!']) ++ rest = b ++ '!' :: ')' :: a := by
    have := htext.symm.trans hclose
    simpa using this
  obtain ⟨z, -, hrest⟩ := exists_append_of_byteLength_le hopen (by simp [Char.utf8Size]; omega)
  exact Marker.splitClosing?_eq_none_iff.mp hnone z a hrest

theorem of_append {xs ys : List Char} (h : AllClosed (xs ++ ys)) : AllClosed ys := by
  rintro s ⟨before, after, rfl, rfl⟩
  obtain ⟨k, ⟨b, a, hclose, rfl⟩, hle⟩ :=
    h (byteLength (xs ++ before)) ⟨xs ++ before, after, by simp, rfl⟩
  rw [byteLength_append] at hle
  have hclose' : xs ++ (before ++ ['(', '!'] ++ after) = b ++ '!' :: ')' :: a := by
    simpa using hclose
  obtain ⟨z, rfl, hrest⟩ := exists_append_of_byteLength_le hclose' (by omega)
  refine ⟨byteLength z, ⟨z, a, by rw [hrest]; simp, rfl⟩, ?_⟩
  rw [byteLength_append] at hle
  omega

/-- The characters behind each `(!` hold a `!)`. -/
theorem iff_tails {text : List Char} : AllClosed text ↔ ∀ tail ∈ text.tails,
    ['(', '!'] <+: tail → (Marker.splitClosing? (tail.drop 2)).isSome := by
  constructor
  · intro h tail htail hopen
    obtain ⟨before, rfl⟩ := (List.mem_tails _ _).mp htail
    obtain ⟨rest, rfl⟩ := hopen
    exact Option.isSome_iff_ne_none.mpr (h.splitClosing?_ne_none rfl)
  · rintro h s ⟨before, rest, rfl, rfl⟩
    have hsome := h ('(' :: '!' :: rest) ((List.mem_tails _ _).mpr ⟨before, by simp⟩) ⟨rest, rfl⟩
    obtain ⟨⟨contents, after⟩, hfound⟩ := Option.isSome_iff_exists.mp hsome
    have hrest : rest = contents ++ '!' :: ')' :: after := Marker.splitClosing?_eq_some hfound
    refine ⟨byteLength (before ++ '(' :: '!' :: contents), ⟨_, after, ?_, rfl⟩, ?_⟩
    · rw [hrest]; simp
    · simp [Char.utf8Size]; omega

instance (text : List Char) : Decidable (AllClosed text) :=
  decidable_of_iff _ iff_tails.symm

end AllClosed

/-- A `(!` stands across the seam of the two texts. -/
def OpensAcross (xs ys : List Char) : Prop := ['('] <:+ xs ∧ ['!'] <+: ys

instance (xs ys : List Char) : Decidable (OpensAcross xs ys) :=
  inferInstanceAs (Decidable (_ ∧ _))

theorem OpensAcross.append {ys zs : List Char} (h : OpensAcross ys zs) (xs : List Char) :
    OpensAcross (xs ++ ys) zs :=
  ⟨h.1.trans (List.suffix_append xs ys), h.2⟩

/-- The scan reaches the seam in the middle of nothing. -/
theorem Candidate.scan_append {offset : Nat} {xs ys : List Char} (hclosed : AllClosed xs)
    (hseam : ¬ OpensAcross xs ys) :
    scan offset (xs ++ ys) = scan offset xs ++ scan (offset + byteLength xs) ys := by
  induction offset, xs using scan_induct with
  | nil => simp
  | unclosed offset rest hnone =>
    exact (hclosed.splitClosing?_ne_none (List.nil_append _).symm hnone).elim
  | closed offset passed next contents after hcut hresume ih =>
    have hcut' := hcut.append_right ys
    rw [List.append_assoc] at hcut' ⊢
    rw [scan_of_cut hcut' hresume, ih hclosed.of_append fun h => hseam (h.append passed)]
    simp [Nat.add_assoc]
  | skip offset c rest hno ih =>
    have hacross : c = '(' → rest = [] → ¬ ['!'] <+: ys := by
      rintro rfl rfl hys
      exact hseam ⟨List.suffix_refl _, hys⟩
    have hrest : AllClosed rest := (show AllClosed ([c] ++ rest) from hclosed).of_append
    rw [List.cons_append, scan_skip (not_pair_append hno hacross),
      ih hrest fun h => hseam (h.append [c])]
    simp [Nat.add_assoc]

theorem markersOf_prefix_append (p q : String) : markersOf p <+: markersOf (p ++ q) := by
  unfold markersOf candidatesOf
  rw [String.toList_append]
  exact (Candidate.scan_prefix_append 0 p.toList q.toList).filterMap _

theorem markersOf_append {p q : String} (hclosed : AllClosed p.toList)
    (hseam : ¬ OpensAcross p.toList q.toList) :
    markersOf (p ++ q) = markersOf p ++ (markersOf q).map (·.shift p.utf8ByteSize) := by
  unfold markersOf candidatesOf
  rw [String.toList_append, Candidate.scan_append hclosed hseam, Nat.zero_add,
    List.filterMap_append, ← Nat.zero_add (byteLength p.toList), Candidate.scan_add,
    byteLength_toList, List.filterMap_map, List.map_filterMap]
  congr 2
  funext c
  exact Candidate.marker?_shift p.utf8ByteSize c

/-! ## Compiling -/

namespace Fragment

variable (d : Dialect) (column : String)

/-- The markers of a text, each with the expression that reads its attribute. -/
def accessors (text : String) : List (Marker × String) :=
  (markersOf text).map fun m => (m, (Access.read d column m.path m.type?).value)

theorem value_compile (text : String) :
    (compile d column text).value = replaceMarkers text (accessors d column text) := by
  unfold accessors
  rw [List.map_prod_left_eq_zip]
  rfl

@[simp] theorem map_fst_accessors (text : String) :
    (accessors d column text).map Prod.fst = markersOf text := by
  simp [accessors, Function.comp_def]

/-- The markers of a text can be replaced from the last to the first. -/
theorem spans_of_map_fst {text : String} {rs : List (Marker × String)}
    (h : rs.map Prod.fst = markersOf text) : Spans (byteLength text.toList) rs := by
  have hmem : ∀ r ∈ rs, r.1 ∈ markersOf text := fun r hr => h ▸ List.mem_map_of_mem hr
  refine ⟨?_, fun r hr => (start_lt_stop (hmem r hr)).le, fun r hr => ?_⟩
  · have hpair := pairwise_markersOf text
    rw [← h] at hpair
    exact List.pairwise_map.mp hpair
  · obtain ⟨before, contents, after, hcut, hstart, hstop, -⟩ :=
      exists_cut_of_mem_markersOf (hmem r hr)
    rw [hcut.text_eq]
    simp [Char.utf8Size]
    omega

theorem spans_accessors (text : String) :
    Spans (byteLength text.toList) (accessors d column text) :=
  spans_of_map_fst (map_fst_accessors d column text)

/-- A marker moved to another place is read by the same expression. -/
theorem accessors_append {p q : String} (hclosed : AllClosed p.toList)
    (hseam : ¬ OpensAcross p.toList q.toList) :
    accessors d column (p ++ q) = accessors d column p ++
      (accessors d column q).map fun r => (r.1.shift (byteLength p.toList), r.2) := by
  unfold accessors
  rw [markersOf_append hclosed hseam, List.map_append, List.map_map, List.map_map,
    byteLength_toList]
  rfl

theorem compile_append {p q : String} (hclosed : AllClosed p.toList)
    (hseam : ¬ OpensAcross p.toList q.toList) :
    (compile d column (p ++ q)).value =
      (compile d column p).value ++ (compile d column q).value := by
  rw [← String.toList_inj, String.toList_append]
  simp only [value_compile, toList_replaceMarkers]
  rw [accessors_append d column hclosed hseam, replaceAll_append, String.toList_append,
    replaceAll_shift, replaceAll_append_right (spans_accessors d column p)]

end Fragment

/-- Scanning and compiling go part by part: more text behind a text adds markers behind its own, and
where nothing is open at the seam both parts are scanned and compiled as if they stood alone. -/
theorem fragments_compositional (p q : String) :
    markersOf p <+: markersOf (p ++ q) ∧
      (AllClosed p.toList → ¬ OpensAcross p.toList q.toList →
        markersOf (p ++ q) = markersOf p ++ (markersOf q).map (·.shift p.utf8ByteSize) ∧
          ∀ d column, (Fragment.compile d column (p ++ q)).value =
            (Fragment.compile d column p).value ++ (Fragment.compile d column q).value) :=
  ⟨markersOf_prefix_append p q, fun hclosed hseam =>
    ⟨markersOf_append hclosed hseam, fun d column =>
      Fragment.compile_append d column hclosed hseam⟩⟩

/-- Both sides of an equation can be compiled alone. -/
theorem fragments_compositional_equation :
    AllClosed "(!a!) = ".toList ∧ ¬ OpensAcross "(!a!) = ".toList "(!b!)".toList ∧
      markersOf ("(!a!) = " ++ "(!b!)") =
        markersOf "(!a!) = " ++ (markersOf "(!b!)").map (·.shift 8) ∧
      (Fragment.compile .default "c" ("(!a!) = " ++ "(!b!)")).value =
        (Fragment.compile .default "c" "(!a!) = ").value ++
          (Fragment.compile .default "c" "(!b!)").value := by
  have hclosed : AllClosed "(!a!) = ".toList := by decide
  have hseam : ¬ OpensAcross "(!a!) = ".toList "(!b!)".toList := by decide
  obtain ⟨hscan, hcompile⟩ := (fragments_compositional _ _).2 hclosed hseam
  exact ⟨hclosed, hseam, hscan, hcompile .default "c"⟩

end PackedColumn

import Mathlib.Data.List.Pairwise
import Mathlib.Data.List.Sort
import PackedColumn.Proofs.Contents
import PackedColumn.Proofs.Delimited

/-!
# What a scan reports

The scan of a text gives, for each delimited part that it meets, the candidate that `judge` makes of
it. Three facts say which parts these are, each by induction on the run:

* `exists_cut_of_mem_scan`: every candidate stands at a delimited part of the text;
* `pairwise_scan`: a candidate starts at or behind the place where the one before it lets the scan
  go on, which is its end for a marker and the end of its `(!` otherwise;
* `judge_mem_scan_or_inside`: a delimited part that is not among the candidates starts inside a
  marker.

`Greedy text ms` says of a list of markers what the scan promises of its own, without the scan, and
no other list has it (`Greedy.unique`).
-/

namespace PackedColumn

open Text

namespace Candidate

/-- The offset of the opening delimiter. -/
def start : Candidate → Nat
  | .marker m => m.start
  | .malformed start _ => start

/-- Where the scan goes on behind the candidate. -/
def resume : Candidate → Nat
  | .marker m => m.stop
  | .malformed start _ => start + 2

/-- What the scan makes of a delimited part. -/
def judge (start : Nat) (contents : List Char) : Candidate :=
  match Marker.decode? contents with
  | some (path, typeText) => .marker ⟨start, start + 4 + byteLength contents, path, typeText⟩
  | none => .malformed start (String.ofList ('(' :: '!' :: (contents ++ ['!', ')'])))

@[simp] theorem start_judge (start : Nat) (contents : List Char) :
    (judge start contents).start = start := by
  unfold judge; split <;> rfl

theorem start_lt_resume_judge (start : Nat) (contents : List Char) :
    start < (judge start contents).resume := by
  unfold judge; split <;> simp only [resume] <;> omega

/-- A part is judged a marker when its contents are well formed. -/
theorem judge_eq_marker_iff {start : Nat} {contents : List Char} {m : Marker} :
    judge start contents = .marker m ↔
      m.start = start ∧ m.stop = start + 4 + byteLength contents ∧
        Marker.WellFormed m.path contents m.typeText := by
  rw [← Marker.decode?_eq_some_iff]
  unfold judge
  constructor
  · intro h
    split at h
    · next path typeText hd =>
      obtain rfl := Candidate.marker.inj h
      exact ⟨rfl, rfl, hd⟩
    · cases h
  · rintro ⟨hstart, hstop, hd⟩
    subst hstart
    rw [hd, ← hstop]

/-! ## Steps of the scan -/

/-- Without a closing delimiter there is nothing to report. -/
theorem scan_unclosed {offset : Nat} {rest : List Char} (h : Marker.splitClosing? rest = none) :
    scan offset ('(' :: '!' :: rest) = [] := by
  rw [scan]
  split
  · rfl
  · next contents after hsome => rw [h] at hsome; cases hsome

theorem scan_open {offset : Nat} {rest contents after : List Char}
    (h : Marker.splitClosing? rest = some (contents, after)) :
    scan offset ('(' :: '!' :: rest) = judge offset contents ::
      if (Marker.decode? contents).isSome then scan (offset + 4 + byteLength contents) after
      else scan (offset + 2) rest := by
  rw [scan]
  split
  · next hnone => rw [h] at hnone; cases hnone
  · next c a hsome =>
    obtain ⟨rfl, rfl⟩ : contents = c ∧ after = a := by simpa using h.symm.trans hsome
    cases hd : Marker.decode? contents <;> simp [judge, hd]

/-- A delimited part is judged, and the scan goes on where the judgement says. -/
theorem scan_closed (offset : Nat) {text contents after : List Char}
    (h : Cut text [] contents after) :
    ∃ passed next, text = passed ++ next ∧
      (judge offset contents).resume = offset + byteLength passed ∧
      scan offset text = judge offset contents :: scan (offset + byteLength passed) next := by
  obtain ⟨htext, hclosing⟩ := h
  rw [List.nil_append] at htext
  subst htext
  cases hd : Marker.decode? contents with
  | some found =>
    have hlength : byteLength ('(' :: '!' :: (contents ++ ['!', ')'])) =
        4 + byteLength contents := by
      simp [Char.utf8Size]; omega
    refine ⟨'(' :: '!' :: (contents ++ ['!', ')']), after, by simp, ?_, ?_⟩
    · rw [hlength, ← Nat.add_assoc, judge, hd]; rfl
    · rw [scan_open hclosing, hd, hlength, ← Nat.add_assoc]; rfl
  | none =>
    refine ⟨['(', '!'], contents ++ '!' :: ')' :: after, rfl, ?_, ?_⟩
    · rw [judge, hd]; rfl
    · rw [scan_open hclosing, hd]; rfl

/-- A character that opens nothing is passed. -/
theorem scan_skip {offset : Nat} {c : Char} {rest : List Char}
    (h : ∀ tail, c = '(' → rest = '!' :: tail → False) :
    scan offset (c :: rest) = scan (offset + c.utf8Size) rest := by
  rw [scan]
  exact h

/-- A scan is a run of steps: a part without a closing delimiter ends it, a delimited part is judged
and passed as far as the judgement says, any other character is passed. -/
@[elab_as_elim]
theorem scan_induct {motive : Nat → List Char → List Candidate → Prop}
    (nil : ∀ offset, motive offset [] [])
    (unclosed : ∀ offset rest, Marker.splitClosing? rest = none →
      motive offset ('(' :: '!' :: rest) [])
    (closed : ∀ offset passed next contents after, Cut (passed ++ next) [] contents after →
      (judge offset contents).resume = offset + byteLength passed →
      motive (offset + byteLength passed) next (scan (offset + byteLength passed) next) →
      motive offset (passed ++ next)
        (judge offset contents :: scan (offset + byteLength passed) next))
    (skip : ∀ offset c rest, (∀ tail, c = '(' → rest = '!' :: tail → False) →
      motive (offset + c.utf8Size) rest (scan (offset + c.utf8Size) rest) →
      motive offset (c :: rest) (scan (offset + c.utf8Size) rest))
    (offset : Nat) (text : List Char) : motive offset text (scan offset text) := by
  induction hn : text.length using Nat.strongRecOn generalizing offset text with
  | _ n ih =>
    cases text with
    | nil => rw [scan]; exact nil offset
    | cons c rest =>
      by_cases hopen : ∃ tail, c = '(' ∧ rest = '!' :: tail
      · obtain ⟨tail, rfl, rfl⟩ := hopen
        cases hsplit : Marker.splitClosing? tail with
        | none => rw [scan_unclosed hsplit]; exact unclosed offset tail hsplit
        | some found =>
          obtain ⟨contents, after⟩ := found
          have htail := Marker.splitClosing?_eq_some hsplit
          have hcut : Cut ('(' :: '!' :: tail) [] contents after :=
            ⟨by rw [htail]; rfl, by rw [← htail]; exact hsplit⟩
          obtain ⟨passed, next, htext, hresume, hscan⟩ := scan_closed offset hcut
          have hlt : next.length < n := by
            have hpos : passed ≠ [] := by
              rintro rfl
              have := start_lt_resume_judge offset contents
              simp [hresume] at this
            have := congrArg List.length htext
            have := List.length_pos_iff.mpr hpos
            simp only [List.length_append] at *
            omega
          rw [hscan, htext]
          rw [htext] at hcut
          exact closed offset passed next contents after hcut hresume
            (ih _ hlt _ next rfl)
      · have hno : ∀ tail, c = '(' → rest = '!' :: tail → False :=
          fun tail hc hrest => hopen ⟨tail, hc, hrest⟩
        rw [scan_skip hno]
        exact skip offset c rest hno (ih _ (by rw [← hn]; simp) _ rest rfl)

/-! ## Runs of the scan -/

/-- Every candidate stands at a delimited part of the text, and is what the part is judged. -/
theorem exists_cut_of_mem_scan {offset : Nat} {text : List Char} :
    ∀ c ∈ scan offset text, ∃ before contents after, Cut text before contents after ∧
      c = judge (offset + byteLength before) contents := by
  induction offset, text using scan_induct with
  | nil => simp
  | unclosed => simp
  | closed offset passed next contents after hcut _ ih =>
    intro c hc
    rcases List.mem_cons.mp hc with rfl | hc
    · exact ⟨[], contents, after, hcut, by simp⟩
    · obtain ⟨before, contents, after, hcut, rfl⟩ := ih c hc
      exact ⟨passed ++ before, contents, after, hcut.append passed, by simp [Nat.add_assoc]⟩
  | skip offset c rest _ ih =>
    intro d hd
    obtain ⟨before, contents, after, hcut, rfl⟩ := ih d hd
    exact ⟨c :: before, contents, after, hcut.append [c], by simp [Nat.add_assoc]⟩

theorem offset_le_start {offset : Nat} {text : List Char} {c : Candidate}
    (h : c ∈ scan offset text) : offset ≤ c.start := by
  obtain ⟨before, contents, -, -, rfl⟩ := exists_cut_of_mem_scan c h
  simp

/-- Each candidate lets the scan go on before the next one starts. -/
theorem pairwise_scan (offset : Nat) (text : List Char) :
    (scan offset text).Pairwise fun c d => c.resume ≤ d.start := by
  induction offset, text using scan_induct with
  | nil => exact List.Pairwise.nil
  | unclosed => exact List.Pairwise.nil
  | closed offset passed next contents after _ hresume ih =>
    refine List.pairwise_cons.mpr ⟨fun c hc => ?_, ih⟩
    rw [hresume]
    exact offset_le_start hc
  | skip offset c rest _ ih => exact ih

/-- A text that opens without a closing delimiter has no delimited part. -/
theorem not_cut_of_unclosed {rest before contents after : List Char}
    (h : Marker.splitClosing? rest = none) :
    ¬ Cut ('(' :: '!' :: rest) before contents after := by
  intro hcut
  have htext : ['(', '!'] ++ rest =
      (before ++ '(' :: '!' :: contents) ++ '!' :: ')' :: after := by
    simpa using hcut.text_eq
  obtain ⟨z, -, hrest⟩ := exists_append_of_byteLength_le htext (by simp [Char.utf8Size]; omega)
  exact Marker.splitClosing?_eq_none_iff.mp h z after hrest

/-- Inside the `(!` of a delimited part no other part starts. -/
theorem byteLength_ne_one_of_cut {text before contents after contents' after' : List Char}
    (h : Cut text [] contents after) (h' : Cut text before contents' after') :
    byteLength before ≠ 1 := by
  intro hone
  have htext : ['('] ++ '!' :: (contents ++ '!' :: ')' :: after) =
      before ++ '(' :: '!' :: (contents' ++ '!' :: ')' :: after') := by
    simpa using h.text_eq.symm.trans h'.text_eq
  obtain ⟨-, htail⟩ := append_inj_of_byteLength htext (by rw [hone]; simp [Char.utf8Size])
  simp at htail

/-- A delimited part is judged by the scan, or starts inside a marker. -/
theorem judge_mem_scan_or_inside {offset : Nat} {text : List Char} :
    ∀ before contents after, Cut text before contents after →
      judge (offset + byteLength before) contents ∈ scan offset text ∨
        ∃ m, .marker m ∈ scan offset text ∧ m.start < offset + byteLength before ∧
          offset + byteLength before < m.stop := by
  induction offset, text using scan_induct with
  | nil => intro before contents after hcut; simpa using hcut.text_eq
  | unclosed offset rest hnone =>
    exact fun before contents after hcut => (not_cut_of_unclosed hnone hcut).elim
  | closed offset passed next contents₀ after₀ hcut₀ hresume ih =>
    intro before contents after hcut
    by_cases hle : byteLength passed ≤ byteLength before
    · obtain ⟨z, rfl, -⟩ := exists_append_of_byteLength_le hcut.text_eq hle
      rcases ih z contents after hcut.of_append with h | ⟨m, hm, hlo, hhi⟩
      · exact .inl (List.mem_cons_of_mem _ (by simpa [Nat.add_assoc] using h))
      · refine .inr ⟨m, List.mem_cons_of_mem _ hm, ?_, ?_⟩ <;> rw [byteLength_append] <;> omega
    · by_cases hzero : byteLength before = 0
      · obtain ⟨rfl, -⟩ := hcut.unique hcut₀ (by simp [hzero])
        exact .inl (by simp [hzero])
      · -- The part starts behind the one that is judged, and before the scan goes on.
        refine .inr ?_
        cases hj : judge offset contents₀ with
        | marker m =>
          obtain ⟨hstart, -, -⟩ := judge_eq_marker_iff.mp hj
          have hstop : m.stop = offset + byteLength passed := by rw [← hresume, hj]; rfl
          exact ⟨m, List.mem_cons_self, by omega, by omega⟩
        | malformed start source =>
          have hstart : start = offset := by have := start_judge offset contents₀; rwa [hj] at this
          have htwo : offset + 2 = offset + byteLength passed := by
            rw [← hresume, hj, ← hstart]; rfl
          exact (byteLength_ne_one_of_cut hcut₀ hcut (by omega)).elim
  | skip offset c rest hno ih =>
    intro before contents after hcut
    cases before with
    | nil =>
      obtain ⟨rfl, rfl⟩ := List.cons_eq_cons.mp hcut.text_eq
      exact (hno _ rfl rfl).elim
    | cons d before =>
      obtain ⟨rfl, -⟩ := List.cons_eq_cons.mp hcut.text_eq
      have hcut' : Cut rest before contents after := hcut.of_append (x := [c])
      simpa [Nat.add_assoc] using ih before contents after hcut'

end Candidate

/-! ## The greedy reading -/

/-- The marker `m` stands in the text: it is a delimited part, and its contents spell its path and
its type. -/
def Marker.StandsIn (text : List Char) (m : Marker) : Prop :=
  ∃ contents, Delimited text m.start m.stop contents ∧ WellFormed m.path contents m.typeText

/-- The greedy reading of a text from the left: the well-formed markers that do not start inside an
earlier one of the list, in the order in which they start. -/
structure Greedy (text : List Char) (ms : List Marker) : Prop where
  mem_iff : ∀ m, m ∈ ms ↔ m.StandsIn text ∧ ¬ ∃ e ∈ ms, e.start < m.start ∧ m.start < e.stop
  ordered : ms.Pairwise fun m n => m.start < n.start

/-- The reading is determined: whether a marker is in it depends on the earlier ones only. -/
theorem Greedy.unique {text : List Char} {ms ns : List Marker} (h : Greedy text ms)
    (h' : Greedy text ns) : ms = ns := by
  have hmem : ∀ k m, m.start = k → (m ∈ ms ↔ m ∈ ns) := by
    intro k
    induction k using Nat.strongRecOn with
    | _ k ih =>
      rintro m rfl
      rw [h.mem_iff, h'.mem_iff]
      have : (∃ e ∈ ms, e.start < m.start ∧ m.start < e.stop) ↔
          ∃ e ∈ ns, e.start < m.start ∧ m.start < e.stop := by
        constructor
        · rintro ⟨e, he, hlo, hhi⟩; exact ⟨e, (ih e.start hlo e rfl).mp he, hlo, hhi⟩
        · rintro ⟨e, he, hlo, hhi⟩; exact ⟨e, (ih e.start hlo e rfl).mpr he, hlo, hhi⟩
      rw [this]
  have : Std.Irrefl fun m n : Marker => m.start < n.start := ⟨fun m => Nat.lt_irrefl _⟩
  have : Std.Asymm fun m n : Marker => m.start < n.start := ⟨fun m n => Nat.lt_asymm⟩
  exact h.ordered.eq_of_mem_iff h'.ordered fun m => hmem m.start m rfl

theorem mem_markersOf {text : String} {m : Marker} :
    m ∈ markersOf text ↔ .marker m ∈ Candidate.scan 0 text.toList := by
  unfold markersOf candidatesOf
  rw [List.mem_filterMap]
  constructor
  · rintro ⟨c, hc, hm⟩
    cases c with
    | marker m' => obtain rfl := Option.some.inj hm; exact hc
    | malformed start source => cases hm
  · exact fun h => ⟨_, h, rfl⟩

/-- A reported marker is a cut of the text. -/
theorem exists_cut_of_mem_markersOf {text : String} {m : Marker} (h : m ∈ markersOf text) :
    ∃ before contents after, Cut text.toList before contents after ∧ m.start = byteLength before ∧
      m.stop = m.start + 4 + byteLength contents ∧
      Marker.WellFormed m.path contents m.typeText := by
  obtain ⟨before, contents, after, hcut, hj⟩ :=
    Candidate.exists_cut_of_mem_scan _ (mem_markersOf.mp h)
  obtain ⟨hstart, hstop, hform⟩ := Candidate.judge_eq_marker_iff.mp hj.symm
  exact ⟨before, contents, after, hcut, by omega, by omega, hform⟩

theorem pairwise_markersOf (text : String) :
    (markersOf text).Pairwise fun m n => m.stop ≤ n.start := by
  refine List.Pairwise.filterMap _ ?_ (Candidate.pairwise_scan 0 text.toList)
  intro c d hcd m hm n hn
  cases c <;> cases d <;> simp_all [Candidate.marker?, Candidate.resume, Candidate.start]

theorem start_lt_stop {text : String} {m : Marker} (h : m ∈ markersOf text) :
    m.start < m.stop := by
  obtain ⟨_, contents, _, _, _, hstop, _⟩ := exists_cut_of_mem_markersOf h
  omega

/-- Of two markers one lies behind the other. -/
theorem disjoint_of_mem_markersOf {text : String} {m n : Marker} (hm : m ∈ markersOf text)
    (hn : n ∈ markersOf text) (hne : m ≠ n) : m.stop ≤ n.start ∨ n.stop ≤ m.start := by
  have : Std.Symm fun m n : Marker => m.stop ≤ n.start ∨ n.stop ≤ m.start := ⟨fun _ _ => Or.symm⟩
  have hpair : (markersOf text).Pairwise fun m n => m.stop ≤ n.start ∨ n.stop ≤ m.start :=
    (pairwise_markersOf text).imp Or.inl
  exact hpair.forall hm hn hne

/-- The reported markers are the greedy reading. -/
theorem greedy_markersOf (text : String) : Greedy text.toList (markersOf text) := by
  refine ⟨fun m => ⟨fun hm => ⟨?_, ?_⟩, ?_⟩, ?_⟩
  · obtain ⟨before, contents, after, hcut, hstart, hstop, hform⟩ := exists_cut_of_mem_markersOf hm
    exact ⟨contents, delimited_iff.mpr ⟨before, after, hcut, hstart.symm, hstop⟩, hform⟩
  · rintro ⟨e, he, hlo, hhi⟩
    have := start_lt_stop hm
    have := disjoint_of_mem_markersOf he hm (by rintro rfl; omega)
    omega
  · rintro ⟨⟨contents, hdel, hform⟩, hout⟩
    obtain ⟨before, after, hcut, hstart, hstop⟩ := delimited_iff.mp hdel
    have hjudge : Candidate.judge (0 + byteLength before) contents = .marker m :=
      Candidate.judge_eq_marker_iff.mpr ⟨by omega, by omega, hform⟩
    rcases Candidate.judge_mem_scan_or_inside before contents after hcut with h | ⟨e, he, hlo, hhi⟩
    · exact mem_markersOf.mpr (hjudge ▸ h)
    · exact (hout ⟨e, mem_markersOf.mpr he, by omega, by omega⟩).elim
  · refine (pairwise_markersOf text).imp_of_mem fun {m n} hm _ h => ?_
    have := start_lt_stop hm
    omega

/-- The scan reports the greedy reading of the text, and no other list is one. Its spans come one
behind the other, begin and end between characters, and cover the delimiters. -/
theorem markersOf_is_greedy_reading (text : String) :
    (∀ ms, markersOf text = ms ↔ Greedy text.toList ms) ∧
      (markersOf text).Pairwise (fun m n => m.stop ≤ n.start) ∧
      ∀ m ∈ markersOf text, (String.Pos.Raw.mk m.start).IsValid text ∧
        (String.Pos.Raw.mk m.stop).IsValid text ∧
        ∃ contents, m.source text.toList = '(' :: '!' :: (contents ++ ['!', ')']) := by
  refine ⟨fun ms => ⟨fun h => h ▸ greedy_markersOf text, fun h => ?_⟩, pairwise_markersOf text,
    fun m hm => ?_⟩
  · exact (greedy_markersOf text).unique h
  · obtain ⟨before, contents, after, hcut, hstart, hstop, -⟩ := exists_cut_of_mem_markersOf hm
    have htext : text.toList =
        before ++ ('(' :: '!' :: (contents ++ ['!', ')']) ++ after) := by
      simpa using hcut.text_eq
    have hlen : m.stop - m.start = byteLength ('(' :: '!' :: (contents ++ ['!', ')'])) := by
      simp [Char.utf8Size]; omega
    refine ⟨?_, ?_, contents, ?_⟩
    · rw [hstart]; exact isValid_byteLength htext
    · rw [← List.append_assoc] at htext
      have hsum : m.start + (m.stop - m.start) = m.stop := by omega
      have := isValid_byteLength htext
      rwa [byteLength_append, ← hstart, ← hlen, hsum] at this
    · rw [Marker.source, hlen, htext, hstart, dropBytes_append, takeBytes_append]

end PackedColumn

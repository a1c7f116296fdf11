import Mathlib.Data.List.DropRight
import PackedColumn.Text

/-!
# Blanks around a text

`Blanks cs`: the characters of `cs` are blanks. `trim` takes exactly such runs off: the text is its
trimmed form with blanks around it (`exists_trim_eq`), and blanks added around a text do not change
its trimmed form (`trim_append`). A text is trimmed if no blank is at either end
(`trim_eq_self_iff`).
-/

namespace PackedColumn.Text

open Unicode

/-- The text is a run of blanks, or empty. -/
def Blanks (cs : List Char) : Prop := ∀ c ∈ cs, isBlank c = true

instance (cs : List Char) : Decidable (Blanks cs) :=
  decidable_of_iff (cs.all isBlank = true) List.all_eq_true

theorem Blanks.reverse {cs : List Char} (h : Blanks cs) : Blanks cs.reverse :=
  fun c hc => h c (List.mem_reverse.mp hc)

/-- A run holds no character of another kind. -/
theorem not_mem_of_forall {p : Char → Bool} {run : List Char} (h : ∀ c ∈ run, p c) {c : Char}
    (hc : p c = false) : c ∉ run := by
  intro hmem
  rw [h c hmem] at hc
  cases hc

theorem Blanks.not_mem {cs : List Char} (h : Blanks cs) {c : Char} (hc : isBlank c = false) :
    c ∉ cs :=
  not_mem_of_forall h hc

/-- A text starts as the run does that it starts with. -/
theorem forall_head?_of_ne_nil {p : Char → Prop} {run : List Char} (hne : run ≠ [])
    (hrun : ∀ c ∈ run, p c) (rest : List Char) : ∀ c ∈ (run ++ rest).head?, p c := by
  obtain ⟨c, run, rfl⟩ := List.exists_cons_of_ne_nil hne
  rintro _ ⟨⟩
  exact hrun c List.mem_cons_self

/-- A text starts as the run does that it starts with, or as the rest if the run is empty. -/
theorem forall_head?_append {p : Char → Prop} {run rest : List Char} (hrun : ∀ c ∈ run, p c)
    (hrest : ∀ c ∈ rest.head?, p c) : ∀ c ∈ (run ++ rest).head?, p c := by
  by_cases hne : run = []
  · rw [hne]
    exact hrest
  · exact forall_head?_of_ne_nil hne hrun rest

/-- A run that is followed by nothing of its kind is cut off where it ends. -/
theorem cut_append {p : Char → Bool} {run rest : List Char} (hrun : ∀ c ∈ run, p c)
    (hrest : ∀ c ∈ rest.head?, p c = false) :
    (run ++ rest).takeWhile p = run ∧ (run ++ rest).dropWhile p = rest := by
  rw [List.takeWhile_append_of_pos hrun, List.dropWhile_append_of_pos hrun]
  cases rest with
  | nil => exact ⟨List.append_nil run, rfl⟩
  | cons c rest =>
    have hc : ¬ p c = true := Bool.not_eq_true _ ▸ hrest c rfl
    rw [List.takeWhile_cons_of_neg hc, List.dropWhile_cons_of_neg hc, List.append_nil]
    exact ⟨rfl, rfl⟩

theorem trimStart_append {pre : List Char} (h : Blanks pre) (cs : List Char) :
    trimStart (pre ++ cs) = trimStart cs :=
  List.dropWhile_append_of_pos h

theorem trimEnd_append {post : List Char} (h : Blanks post) (cs : List Char) :
    trimEnd (cs ++ post) = trimEnd cs := by
  unfold trimEnd
  rw [List.reverse_append, List.dropWhile_append_of_pos h.reverse]

/-- Either all of a text is blank, or what follows it does not change its leading blanks. -/
theorem trimStart_eq_nil_or (cs : List Char) :
    Blanks cs ∨ ∀ post, trimStart (cs ++ post) = trimStart cs ++ post := by
  induction cs with
  | nil => exact .inl fun c hc => by simp at hc
  | cons c rest ih =>
    by_cases hc : isBlank c = true
    · rcases ih with h | h
      · exact .inl fun d hd => by rcases List.mem_cons.mp hd with rfl | hd; exacts [hc, h d hd]
      · refine .inr fun post => ?_
        have := h post
        simpa [trimStart, hc] using this
    · exact .inr fun post => by simp [trimStart, hc]

/-- Blanks around a text do not change its trimmed form. -/
theorem trim_append {pre post : List Char} (hpre : Blanks pre) (hpost : Blanks post)
    (cs : List Char) : trim (pre ++ cs ++ post) = trim cs := by
  unfold trim
  rw [List.append_assoc, trimStart_append hpre]
  rcases trimStart_eq_nil_or cs with h | h
  · have e₁ : trimStart (cs ++ post) = [] := by
      rw [trimStart_append h, ← List.append_nil post, trimStart_append hpost]; rfl
    have e₂ : trimStart cs = [] := by
      rw [← List.append_nil cs, trimStart_append h]; rfl
    rw [e₁, e₂]
  · rw [h, trimEnd_append hpost]

theorem trimStart_sublist (cs : List Char) : (trimStart cs).Sublist cs := List.dropWhile_sublist _

theorem trimEnd_sublist (cs : List Char) : (trimEnd cs).Sublist cs := by
  have h := (trimStart_sublist cs.reverse).reverse
  rwa [List.reverse_reverse] at h

theorem trimStart_eq_self_iff {cs : List Char} :
    trimStart cs = cs ↔ ∀ c ∈ cs.head?, isBlank c = false := by
  cases cs with
  | nil => simp [trimStart]
  | cons c rest =>
    by_cases hc : isBlank c
    · have hne : trimStart rest ≠ c :: rest := fun h => by
        have hle := h ▸ (trimStart_sublist rest).length_le
        rw [List.length_cons] at hle
        omega
      simpa [trimStart, hc] using hne
    · simp [trimStart, hc]

theorem trimEnd_eq_self_iff {cs : List Char} :
    trimEnd cs = cs ↔ ∀ c ∈ cs.getLast?, isBlank c = false := by
  rw [trimEnd, List.reverse_eq_iff, ← List.head?_reverse]
  exact trimStart_eq_self_iff

/-- A text is trimmed if it neither starts nor ends in a blank. -/
theorem trim_eq_self_iff {cs : List Char} : trim cs = cs ↔
    (∀ c ∈ cs.head?, isBlank c = false) ∧ ∀ c ∈ cs.getLast?, isBlank c = false := by
  rw [← trimStart_eq_self_iff, ← trimEnd_eq_self_iff]
  constructor
  · intro h
    have hle : cs.length ≤ (trimStart cs).length := by
      have := (trimEnd_sublist (trimStart cs)).length_le
      rwa [show trimEnd (trimStart cs) = cs from h] at this
    have hstart : trimStart cs = cs :=
      (trimStart_sublist cs).eq_of_length ((trimStart_sublist cs).length_le.antisymm hle)
    exact ⟨hstart, by rwa [trim, hstart] at h⟩
  · rintro ⟨hstart, hend⟩
    rw [trim, hstart, hend]

/-- A text without blanks is its own trimmed form. -/
theorem trim_eq_self {cs : List Char} (h : ∀ c ∈ cs, isBlank c = false) : trim cs = cs :=
  trim_eq_self_iff.mpr ⟨fun c hc => h c (List.mem_of_mem_head? hc),
    fun c hc => h c (List.mem_of_mem_getLast? hc)⟩

/-- A text is its trimmed form with blanks around it. -/
theorem exists_trim_eq (cs : List Char) :
    ∃ pre post, Blanks pre ∧ Blanks post ∧ cs = pre ++ trim cs ++ post := by
  refine ⟨cs.takeWhile isBlank, (trimStart cs).rtakeWhile isBlank,
    fun c hc => List.mem_takeWhile_imp hc, fun c hc => List.mem_rtakeWhile_imp hc, ?_⟩
  have hend : trim cs ++ (trimStart cs).rtakeWhile isBlank = trimStart cs :=
    List.rdropWhile_append_rtakeWhile
  rw [List.append_assoc, hend]
  exact List.takeWhile_append_dropWhile.symm

/-- A trimmed text has nothing left to trim. -/
theorem trim_trim (cs : List Char) : trim (trim cs) = trim cs := by
  obtain ⟨pre, post, hpre, hpost, hcs⟩ := exists_trim_eq cs
  calc trim (trim cs) = trim (pre ++ trim cs ++ post) := (trim_append hpre hpost _).symm
    _ = trim cs := by rw [← hcs]

end PackedColumn.Text

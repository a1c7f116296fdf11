import PackedColumn.Text

/-!
# Offsets and cuts

`OccursAt piece offset text`: `piece` stands in `text` at byte `offset`.

Two cuts of one text are compared by their byte lengths: equal lengths give the same parts
(`append_inj_of_byteLength`), and the shorter part is the start of the longer one
(`exists_append_of_byteLength_le`). A cut between characters is a valid position of the string
(`isValid_byteLength`), and every valid position is one (`exists_append_of_isValid`).

A cut at a character that one of two parts does not hold lies in the other part
(`exists_append_of_not_mem_left`, `exists_append_of_not_mem_right`), and the parts of a text that is
split at all places of a character hold none of it (`mem_of_mem_splitOn`).

`takeBytes` and `dropBytes` at an offset inside the first of two parts leave the second alone, and
at an offset behind the first part they work on the second.
-/

namespace PackedColumn.Text

/-- `piece` stands in `text` at byte `offset`. -/
def OccursAt (piece : List Char) (offset : Nat) (text : List Char) : Prop :=
  ∃ before after, text = before ++ piece ++ after ∧ byteLength before = offset

@[simp] theorem byteLength_nil : byteLength [] = 0 := rfl

@[simp] theorem byteLength_cons (c : Char) (cs : List Char) :
    byteLength (c :: cs) = c.utf8Size + byteLength cs := rfl

theorem byteLength_eq_zero_iff {cs : List Char} : byteLength cs = 0 ↔ cs = [] := by
  cases cs with
  | nil => simp
  | cons c rest => have := c.utf8Size_pos; simp; omega

/-- The number of bytes is the size of the string in memory. -/
theorem byteLength_eq_utf8ByteSize (cs : List Char) :
    byteLength cs = (String.ofList cs).utf8ByteSize := by
  induction cs with
  | nil => rfl
  | cons c rest ih =>
    rw [byteLength_cons, ih, ← List.singleton_append, String.ofList_append,
      String.utf8ByteSize_append]
    simp

theorem byteLength_toList (s : String) : byteLength s.toList = s.utf8ByteSize := by
  rw [byteLength_eq_utf8ByteSize, String.ofList_toList]

/-- Of two cuts of one text the earlier one cuts the part before the later one. -/
theorem exists_append_of_byteLength_le {x y a b : List Char} (h : x ++ a = y ++ b)
    (hle : byteLength x ≤ byteLength y) : ∃ z, y = x ++ z ∧ a = z ++ b := by
  rcases List.append_eq_append_iff.mp h with ⟨z, hy, ha⟩ | ⟨z, hx, hb⟩
  · exact ⟨z, hy, ha⟩
  · have hz : z = [] := by
      rw [hx, byteLength_append] at hle
      exact byteLength_eq_zero_iff.mp (by omega)
    subst hz
    exact ⟨[], by simpa using hx.symm, by simpa using hb.symm⟩

theorem append_inj_of_byteLength {x y a b : List Char} (h : x ++ a = y ++ b)
    (heq : byteLength x = byteLength y) : x = y ∧ a = b := by
  obtain ⟨z, hy, ha⟩ := exists_append_of_byteLength_le h (by omega)
  have hz : z = [] := by
    rw [hy, byteLength_append] at heq
    exact byteLength_eq_zero_iff.mp (by omega)
  subst hz
  exact ⟨by simpa using hy.symm, ha⟩

/-- A cut between two characters is a valid position. -/
theorem isValid_byteLength {text : String} {before after : List Char}
    (h : text.toList = before ++ after) :
    (String.Pos.Raw.mk (byteLength before)).IsValid text := by
  rw [String.Pos.Raw.isValid_iff_exists_append]
  refine ⟨.ofList before, .ofList after, ?_, ?_⟩
  · rw [← String.ofList_append, ← h, String.ofList_toList]
  · rw [byteLength_eq_utf8ByteSize]; rfl

/-- A valid position is a cut between two characters. -/
theorem exists_append_of_isValid {text : String} {n : Nat}
    (h : (String.Pos.Raw.mk n).IsValid text) :
    ∃ before after, text.toList = before ++ after ∧ byteLength before = n := by
  obtain ⟨s, t, rfl, hpos⟩ := String.Pos.Raw.isValid_iff_exists_append.mp h
  refine ⟨s.toList, t.toList, String.toList_append, ?_⟩
  rw [byteLength_toList]
  exact congrArg String.Pos.Raw.byteIdx hpos.symm

/-! ## Cuts at a character -/

/-- A character that the first part does not hold stands in the second. -/
theorem exists_append_of_not_mem_left {c : Char} {xs ys before after : List Char} (hc : c ∉ xs)
    (h : xs ++ ys = before ++ c :: after) : ∃ z, before = xs ++ z ∧ ys = z ++ c :: after := by
  rcases List.append_eq_append_iff.mp h with ⟨z, hbefore, hys⟩ | ⟨z, hxs, hrest⟩
  · exact ⟨z, hbefore, hys⟩
  · cases z with
    | nil => exact ⟨[], by simpa using hxs.symm, by simpa using hrest.symm⟩
    | cons d z =>
      obtain ⟨rfl, -⟩ := List.cons_eq_cons.mp hrest
      exact (hc (by rw [hxs]; simp)).elim

/-- A character that the second part does not hold stands in the first. -/
theorem exists_append_of_not_mem_right {c : Char} {xs ys before after : List Char} (hc : c ∉ ys)
    (h : xs ++ ys = before ++ c :: after) : ∃ z, xs = before ++ c :: z ∧ after = z ++ ys := by
  rcases List.append_eq_append_iff.mp h with ⟨z, -, hys⟩ | ⟨z, hxs, hrest⟩
  · exact (hc (by rw [hys]; simp)).elim
  · cases z with
    | nil => exact (hc (by rw [← List.nil_append ys, ← hrest]; simp)).elim
    | cons d z =>
      obtain ⟨rfl, hafter⟩ := List.cons_eq_cons.mp hrest
      exact ⟨z, hxs, hafter⟩

/-- Equal texts are cut at the same place by the first place of a character. -/
theorem append_cons_inj_of_not_mem {c : Char} {xs ys x y : List Char} (hxs : c ∉ xs) (hys : c ∉ ys)
    (h : xs ++ c :: x = ys ++ c :: y) : xs = ys ∧ x = y := by
  obtain ⟨z, rfl, hrest⟩ := exists_append_of_not_mem_left hxs h
  cases z with
  | nil => exact ⟨(List.append_nil xs).symm, (List.cons_eq_cons.mp hrest).2⟩
  | cons d z =>
    obtain ⟨rfl, -⟩ := List.cons_eq_cons.mp hrest
    exact (hys (by simp)).elim

/-- A pair of characters stands between two texts that lack one of them each, or nowhere. -/
theorem not_infix_pad {a b : Char} {xs ys zs : List Char} (hxs : a ∉ xs) (hzs : b ∉ zs)
    (h : ¬ [a, b] <:+: ys) : ¬ [a, b] <:+: xs ++ ys ++ zs := by
  rintro ⟨before, after, he⟩
  have hfirst : xs ++ (ys ++ zs) = before ++ a :: b :: after := by simpa using he.symm
  obtain ⟨z, -, hys⟩ := exists_append_of_not_mem_left hxs hfirst
  have hsecond : ys ++ zs = (z ++ [a]) ++ b :: after := by simpa using hys
  obtain ⟨y, hy, -⟩ := exists_append_of_not_mem_right hzs hsecond
  exact h ⟨z, y, by simpa using hy.symm⟩

/-- A part holds characters of the text other than the separator. -/
theorem mem_of_mem_splitOn {sep c : Char} {cs part : List Char} (hpart : part ∈ cs.splitOn sep)
    (hc : c ∈ part) : c ∈ cs ∧ c ≠ sep := by
  induction cs generalizing part with
  | nil =>
    rw [List.splitOn_nil, List.mem_singleton] at hpart
    rw [hpart] at hc
    cases hc
  | cons a rest ih =>
    rw [List.splitOn_cons_eq_if_modifyHead] at hpart
    have hrest {part : List Char} (hpart : part ∈ rest.splitOn sep) (hc : c ∈ part) :
        c ∈ a :: rest ∧ c ≠ sep := (ih hpart hc).imp_left (List.mem_cons_of_mem a)
    split at hpart
    · rcases List.mem_cons.mp hpart with rfl | hpart
      · cases hc
      · exact hrest hpart hc
    · next hne =>
      obtain ⟨first, others, hparts⟩ := List.exists_cons_of_ne_nil (List.splitOn_ne_nil sep rest)
      rw [hparts, List.modifyHead_cons] at hpart
      rcases List.mem_cons.mp hpart with rfl | hpart
      · rcases List.mem_cons.mp hc with rfl | hc
        · exact ⟨List.mem_cons_self, fun heq => hne (beq_iff_eq.mpr heq)⟩
        · exact hrest (hparts ▸ List.mem_cons_self) hc
      · exact hrest (hparts ▸ List.mem_cons_of_mem first hpart) hc

/-! ## Cutting two parts -/

theorem takeBytes_append_of_le {n : Nat} {xs : List Char} (h : n ≤ byteLength xs)
    (ys : List Char) : takeBytes n (xs ++ ys) = takeBytes n xs := by
  induction xs generalizing n with
  | nil =>
    obtain rfl : n = 0 := by simpa using h
    simp
  | cons c rest ih =>
    rw [byteLength_cons] at h
    simp only [List.cons_append, takeBytes, ih (n := n - c.utf8Size) (by omega)]

theorem dropBytes_append_of_le {n : Nat} {xs : List Char} (h : n ≤ byteLength xs)
    (ys : List Char) : dropBytes n (xs ++ ys) = dropBytes n xs ++ ys := by
  induction xs generalizing n with
  | nil =>
    obtain rfl : n = 0 := by simpa using h
    simp [dropBytes]
  | cons c rest ih =>
    rw [byteLength_cons] at h
    simp only [List.cons_append, dropBytes, ih (n := n - c.utf8Size) (by omega)]
    split <;> rfl

theorem takeBytes_append_add (xs ys : List Char) (n : Nat) :
    takeBytes (byteLength xs + n) (xs ++ ys) = xs ++ takeBytes n ys := by
  induction xs with
  | nil => simp
  | cons c rest ih =>
    have hc := c.utf8Size_pos
    have hsub : c.utf8Size + byteLength rest + n - c.utf8Size = byteLength rest + n := by omega
    rw [List.cons_append, byteLength_cons, takeBytes, if_neg (by omega), hsub, ih, List.cons_append]

theorem dropBytes_append_add (xs ys : List Char) (n : Nat) :
    dropBytes (byteLength xs + n) (xs ++ ys) = dropBytes n ys := by
  induction xs with
  | nil => simp
  | cons c rest ih =>
    have hc := c.utf8Size_pos
    have hsub : c.utf8Size + byteLength rest + n - c.utf8Size = byteLength rest + n := by omega
    rw [List.cons_append, byteLength_cons, dropBytes, if_neg (by omega), hsub, ih]

/-- What is taken up to byte `n` reaches byte `n`, and may end behind it only inside a character. -/
theorem le_byteLength_takeBytes {k n : Nat} {cs : List Char} (hk : k ≤ n)
    (hcs : k ≤ byteLength cs) : k ≤ byteLength (takeBytes n cs) := by
  induction cs generalizing k n with
  | nil => exact hcs
  | cons c rest ih =>
    rw [byteLength_cons] at hcs
    rw [takeBytes]
    split
    · omega
    · have := ih (k := k - c.utf8Size) (n := n - c.utf8Size) (by omega) (by omega)
      rw [byteLength_cons]
      omega

end PackedColumn.Text

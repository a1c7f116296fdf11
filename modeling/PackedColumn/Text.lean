import PackedColumn.Unicode.Class

/-!
# Text as characters

Grammars are read over `List Char`, and offsets into a text count the bytes of its UTF-8 form.

* `trim` takes the blanks off both ends.
* `splitLast` cuts a text at the last place of a character.
* `takeBytes` and `dropBytes` cut a text at a byte offset; at the end of a whole part they give
  back that part and the rest (`takeBytes_append`, `dropBytes_append`).
-/

namespace PackedColumn.Text

open Unicode

/-- The text without its leading blanks. -/
def trimStart (cs : List Char) : List Char := cs.dropWhile isBlank

/-- The text without its trailing blanks. -/
def trimEnd (cs : List Char) : List Char := (cs.reverse.dropWhile isBlank).reverse

/-- The text without the blanks at both ends. -/
def trim (cs : List Char) : List Char := trimEnd (trimStart cs)

/-- `trim` of a string. -/
def trimmed (s : String) : String := .ofList (trim s.toList)

/-- The parts before and after the last `sep`; `none` when there is no `sep`. -/
def splitLast (sep : Char) : List Char → Option (List Char × List Char)
  | [] => none
  | c :: rest =>
    match splitLast sep rest with
    | some (before, after) => some (c :: before, after)
    | none => if c = sep then some ([], rest) else none

/-- Whether `c` stands twice in a row somewhere. -/
def hasPair (c : Char) : List Char → Bool
  | a :: b :: rest => (a == c && b == c) || hasPair c (b :: rest)
  | _ => false

theorem splitLast_eq_none_iff {sep : Char} {cs : List Char} :
    splitLast sep cs = none ↔ sep ∉ cs := by
  induction cs with
  | nil => simp [splitLast]
  | cons c rest ih =>
    rw [splitLast]
    split
    · next before after hrest =>
      have hmem : sep ∈ rest := Decidable.byContradiction fun hno => by
        rw [ih.mpr hno] at hrest
        cases hrest
      simp [hmem]
    · next hrest =>
      have hno : sep ∉ rest := ih.mp hrest
      by_cases hc : c = sep <;> simp [hc, hno, Ne.symm]

/-- A text that can be split at its last `sep` is the two parts with `sep` between them, and the
second part holds no further `sep`. -/
theorem splitLast_eq_some {sep : Char} {cs before after : List Char}
    (h : splitLast sep cs = some (before, after)) :
    cs = before ++ sep :: after ∧ sep ∉ after := by
  induction cs generalizing before after with
  | nil => simp [splitLast] at h
  | cons c rest ih =>
    rw [splitLast] at h
    split at h
    · next b a hrest =>
      simp only [Option.some.injEq, Prod.mk.injEq] at h
      obtain ⟨rfl, rfl⟩ := h
      obtain ⟨hr, hn⟩ := ih hrest
      exact ⟨by rw [hr]; rfl, hn⟩
    · next hrest =>
      split at h
      · next hc =>
        simp only [Option.some.injEq, Prod.mk.injEq] at h
        obtain ⟨rfl, rfl⟩ := h
        exact ⟨by rw [hc]; rfl, splitLast_eq_none_iff.mp hrest⟩
      · simp at h

theorem mem_of_hasPair {c : Char} {cs : List Char} (h : hasPair c cs) : c ∈ cs := by
  induction cs using hasPair.induct with
  | case1 a b rest ih =>
    rw [hasPair, Bool.or_eq_true, Bool.and_eq_true, beq_iff_eq] at h
    rcases h with ⟨rfl, -⟩ | h
    · exact List.mem_cons_self
    · exact List.mem_cons_of_mem _ (ih h)
  | case2 => simp [hasPair] at h

theorem hasPair_append {c : Char} {cs : List Char} (h : hasPair c cs) (rest : List Char) :
    hasPair c (cs ++ rest) := by
  induction cs using hasPair.induct with
  | case1 a b tail ih =>
    rw [hasPair, Bool.or_eq_true] at h
    rw [List.cons_append, List.cons_append, hasPair, Bool.or_eq_true]
    exact h.imp_right ih
  | case2 => simp [hasPair] at h

/-! ## Byte offsets -/

/-- The number of bytes of the text in UTF-8. -/
def byteLength : List Char → Nat
  | [] => 0
  | c :: rest => c.utf8Size + byteLength rest

/-- The characters that start before byte `n`. -/
def takeBytes : Nat → List Char → List Char
  | _, [] => []
  | n, c :: rest => if n = 0 then [] else c :: takeBytes (n - c.utf8Size) rest

/-- The characters that start at byte `n` or later. -/
def dropBytes : Nat → List Char → List Char
  | _, [] => []
  | n, c :: rest => if n = 0 then c :: rest else dropBytes (n - c.utf8Size) rest

@[simp] theorem byteLength_append (xs ys : List Char) :
    byteLength (xs ++ ys) = byteLength xs + byteLength ys := by
  induction xs with
  | nil => simp [byteLength]
  | cons c rest ih => simp [byteLength, ih, Nat.add_assoc]

@[simp] theorem takeBytes_zero (cs : List Char) : takeBytes 0 cs = [] := by
  cases cs <;> rfl

@[simp] theorem dropBytes_zero (cs : List Char) : dropBytes 0 cs = cs := by
  cases cs <;> rfl

/-- Cutting after a whole part gives that part. -/
theorem takeBytes_append (xs ys : List Char) : takeBytes (byteLength xs) (xs ++ ys) = xs := by
  induction xs with
  | nil => simp [byteLength]
  | cons c rest ih =>
    have hc := c.utf8Size_pos
    simp [byteLength, takeBytes, ih]
    omega

/-- Dropping a whole part gives the rest. -/
theorem dropBytes_append (xs ys : List Char) : dropBytes (byteLength xs) (xs ++ ys) = ys := by
  induction xs with
  | nil => simp [byteLength]
  | cons c rest ih =>
    have hc := c.utf8Size_pos
    simp [byteLength, dropBytes, ih]
    omega

end PackedColumn.Text

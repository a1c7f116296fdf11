import PackedColumn.Json.Raw

/-!
# Tokens of a JSON text

`tokens?` cuts a text into brackets, marks, words, numbers and strings, and skips the blanks between
them; it fails where no token can start or a number or string is not finished. Each step takes at
least one character (`next?_length`), so the cutting ends.
-/

namespace PackedColumn.Json

/-- A token of a JSON text. -/
inductive Token where
  | openArray
  | closeArray
  | openObject
  | closeObject
  | comma
  | colon
  | null
  | bool (b : Bool)
  | number (text : NumberText)
  | string (pieces : List Piece)
deriving DecidableEq, Repr

namespace Token

/-- The blanks of JSON: space, tab and the two line ends. -/
def isSpace (c : Char) : Bool := c == ' ' || c == '\t' || c == '\n' || c == '\r'

/-- The token of a single bracket or mark. -/
def mark? (c : Char) : Option Token :=
  match c with
  | '[' => some .openArray
  | ']' => some .closeArray
  | '{' => some .openObject
  | '}' => some .closeObject
  | ',' => some .comma
  | ':' => some .colon
  | _ => none

/-- What follows `word` at the start of the text. -/
def after? : (word : List Char) → List Char → Option (List Char)
  | [], cs => some cs
  | w :: word, c :: cs => if c = w then after? word cs else none
  | _ :: _, [] => none

/-- One of the three words, and the rest. -/
def word? (cs : List Char) : Option (Token × List Char) :=
  [("null", null), ("true", bool true), ("false", bool false)].findSome? fun w =>
    (after? w.1.toList cs).map fun rest => (w.2, rest)

/-! ## Numbers -/

/-- A run of decimal digits, not empty, and the rest. -/
def digits? (cs : List Char) : Option (List Char × List Char) :=
  let run := cs.takeWhile Char.isDigit
  if run.isEmpty then none else some (run, cs.dropWhile Char.isDigit)

/-- The digits of a whole number: a zero alone, or a run that starts with another digit. -/
def whole? : List Char → Option (List Char × List Char)
  | [] => none
  | c :: cs => if c = '0' then some (['0'], cs) else digits? (c :: cs)

/-- The fraction, where a point follows. -/
def fraction? : List Char → Option (Option (List Char) × List Char)
  | [] => some (none, [])
  | c :: cs =>
    if c = '.' then (digits? cs).map fun r => (some r.1, r.2) else some (none, c :: cs)

/-- A sign, if there is one: whether it is a minus, and the rest. -/
def sign : List Char → Bool × List Char
  | [] => (false, [])
  | c :: cs =>
    if c = '-' then (true, cs) else if c = '+' then (false, cs) else (false, c :: cs)

/-- The exponent, where its letter follows. -/
def exponent? : List Char → Option (Option (Bool × List Char) × List Char)
  | [] => some (none, [])
  | c :: cs =>
    if c = 'e' ∨ c = 'E' then
      (digits? (sign cs).2).map fun r => (some ((sign cs).1, r.1), r.2)
    else some (none, c :: cs)

/-- A number that may start with a minus, and the rest. -/
def number? (cs : List Char) : Option (NumberText × List Char) := do
  let (negative, cs) := match cs with
    | '-' :: rest => (true, rest)
    | _ => (false, cs)
  let (whole, cs) ← whole? cs
  let (fraction, cs) ← fraction? cs
  let (exponent, cs) ← exponent? cs
  return (⟨negative, whole, fraction, exponent⟩, cs)

/-! ## Strings -/

/-- The value of a hexadecimal digit. -/
def hexDigit? (c : Char) : Option Nat :=
  if c.isDigit then some (c.toNat - '0'.toNat)
  else if 'a' ≤ c ∧ c ≤ 'f' then some (c.toNat - 'a'.toNat + 10)
  else if 'A' ≤ c ∧ c ≤ 'F' then some (c.toNat - 'A'.toNat + 10)
  else none

/-- The code unit of four hexadecimal digits. -/
def unit? (a b c d : Char) : Option Nat := do
  return (((← hexDigit? a) * 16 + (← hexDigit? b)) * 16 + (← hexDigit? c)) * 16 + (← hexDigit? d)

/-- The character of an escape of one letter. -/
def escaped? (c : Char) : Option Char :=
  match c with
  | '"' => some '"'
  | '\\' => some '\\'
  | '/' => some '/'
  | 'b' => some '\x08'
  | 'f' => some '\x0c'
  | 'n' => some '\n'
  | 'r' => some '\r'
  | 't' => some '\t'
  | _ => none

/-- The pieces of a string up to its closing quote, and the rest. Control characters have to be
escaped. -/
def pieces? : List Char → Option (List Piece × List Char)
  | [] => none
  | c :: cs =>
    if c = '"' then some ([], cs)
    else if c = '\\' then
      match cs with
      | 'u' :: h₁ :: h₂ :: h₃ :: h₄ :: rest =>
        (unit? h₁ h₂ h₃ h₄).bind fun code =>
          (pieces? rest).map fun r => (.unit code :: r.1, r.2)
      | e :: rest =>
        (escaped? e).bind fun c => (pieces? rest).map fun r => (.char c :: r.1, r.2)
      | [] => none
    else if c.toNat < 0x20 then none
    else (pieces? cs).map fun r => (.char c :: r.1, r.2)

/-! ## The next token -/

/-- The token at the start of a text, and the rest. -/
def next? : List Char → Option (Token × List Char)
  | [] => none
  | c :: cs =>
    if c = '"' then (pieces? cs).map fun r => (.string r.1, r.2)
    else
      match mark? c with
      | some token => some (token, cs)
      | none =>
        match word? (c :: cs) with
        | some found => some found
        | none => (number? (c :: cs)).map fun r => (.number r.1, r.2)

/-! ## Each token takes a character -/

theorem after?_append (word rest : List Char) : after? word (word ++ rest) = some rest := by
  induction word with
  | nil => rfl
  | cons w word ih => rw [List.cons_append, after?, if_pos rfl, ih]

/-- What follows a word is the rest of a text that starts with the word. -/
theorem after?_eq_some_iff {word cs rest : List Char} :
    after? word cs = some rest ↔ cs = word ++ rest := by
  constructor
  · intro h
    induction word generalizing cs with
    | nil => exact Option.some.inj h
    | cons w word ih =>
      cases cs with
      | nil => cases h
      | cons c cs =>
        rw [after?] at h
        split at h
        · next hc => rw [hc, ih h, List.cons_append]
        · cases h
  · rintro rfl
    exact after?_append word rest

theorem after?_length {word cs rest : List Char} (h : after? word cs = some rest) :
    rest.length + word.length = cs.length := by
  rw [after?_eq_some_iff.mp h, List.length_append, Nat.add_comm]

theorem digits?_length {cs run rest : List Char} (h : digits? cs = some (run, rest)) :
    rest.length < cs.length := by
  simp only [digits?] at h
  split at h
  · simp at h
  · next hne =>
    simp only [Option.some.injEq, Prod.mk.injEq] at h
    obtain ⟨rfl, rfl⟩ := h
    have hlen := congrArg List.length
      (List.takeWhile_append_dropWhile (p := Char.isDigit) (l := cs))
    have hpos : 0 < (cs.takeWhile Char.isDigit).length := by
      rw [List.length_pos_iff]; simpa using hne
    simp only [List.length_append] at hlen
    omega

theorem whole?_length {cs run rest : List Char} (h : whole? cs = some (run, rest)) :
    rest.length < cs.length := by
  cases cs with
  | nil => simp [whole?] at h
  | cons c cs =>
    rw [whole?] at h
    split at h
    · simp at h; simp [h.2]
    · exact digits?_length h

theorem fraction?_length {cs rest : List Char} {f : Option (List Char)}
    (h : fraction? cs = some (f, rest)) : rest.length ≤ cs.length := by
  cases cs with
  | nil => simp [fraction?] at h; simp [h.2]
  | cons c cs =>
    rw [fraction?] at h
    split at h
    · obtain ⟨⟨_, _⟩, hr, he⟩ := Option.map_eq_some_iff.mp h
      have := digits?_length hr
      simp only [Prod.mk.injEq] at he
      rw [← he.2]; simp; omega
    · simp at h; simp [← h.2]

theorem sign_length (cs : List Char) : (sign cs).2.length ≤ cs.length := by
  unfold sign
  split
  · simp
  · split
    · simp
    · split <;> simp

theorem exponent?_length {cs rest : List Char} {e : Option (Bool × List Char)}
    (h : exponent? cs = some (e, rest)) : rest.length ≤ cs.length := by
  cases cs with
  | nil => simp [exponent?] at h; simp [h.2]
  | cons c cs =>
    rw [exponent?] at h
    split at h
    · obtain ⟨⟨_, _⟩, hr, he⟩ := Option.map_eq_some_iff.mp h
      have := digits?_length hr
      have := sign_length cs
      simp only [Prod.mk.injEq] at he
      rw [← he.2]; simp; omega
    · simp at h; simp [← h.2]

theorem number?_length {cs rest : List Char} {n : NumberText} (h : number? cs = some (n, rest)) :
    rest.length < cs.length := by
  simp only [number?, Option.bind_eq_bind, Option.pure_def] at h
  obtain ⟨⟨_, _⟩, hw, h⟩ := Option.bind_eq_some_iff.mp h
  obtain ⟨⟨_, _⟩, hf, h⟩ := Option.bind_eq_some_iff.mp h
  obtain ⟨⟨_, _⟩, he, h⟩ := Option.bind_eq_some_iff.mp h
  have h₁ := whole?_length hw
  have h₂ := fraction?_length hf
  have h₃ := exponent?_length he
  simp only [Option.some.injEq, Prod.mk.injEq] at h
  rw [← h.2]
  split at h₁ <;> simp at * <;> omega

theorem pieces?_length {cs rest : List Char} {ps : List Piece} (h : pieces? cs = some (ps, rest)) :
    rest.length < cs.length := by
  fun_induction pieces? cs generalizing ps rest with
  | case1 => simp at h
  | case2 cs => simp at h; simp [h.2]
  | case3 =>
    rename_i ih
    obtain ⟨code, -, h⟩ := Option.bind_eq_some_iff.mp h
    obtain ⟨⟨_, _⟩, hr, he⟩ := Option.map_eq_some_iff.mp h
    have := ih hr
    simp only [Prod.mk.injEq] at he
    rw [← he.2]; simp; omega
  | case4 =>
    rename_i ih
    obtain ⟨code, -, h⟩ := Option.bind_eq_some_iff.mp h
    obtain ⟨⟨_, _⟩, hr, he⟩ := Option.map_eq_some_iff.mp h
    have := ih hr
    simp only [Prod.mk.injEq] at he
    rw [← he.2]; simp; omega
  | case5 => simp at h
  | case6 => simp at h
  | case7 =>
    rename_i ih
    obtain ⟨⟨_, _⟩, hr, he⟩ := Option.map_eq_some_iff.mp h
    have := ih hr
    simp only [Prod.mk.injEq] at he
    rw [← he.2]; simp; omega

theorem word?_length {cs rest : List Char} {t : Token} (h : word? cs = some (t, rest)) :
    rest.length < cs.length := by
  obtain ⟨w, hw, h⟩ := List.exists_of_findSome?_eq_some h
  obtain ⟨r, hr, he⟩ := Option.map_eq_some_iff.mp h
  have := after?_length hr
  simp only [Prod.mk.injEq] at he
  rw [← he.2]
  simp only [List.mem_cons, List.not_mem_nil, or_false] at hw
  rcases hw with rfl | rfl | rfl <;> simp at this <;> omega

theorem next?_length {cs rest : List Char} {t : Token} (h : next? cs = some (t, rest)) :
    rest.length < cs.length := by
  cases cs with
  | nil => simp [next?] at h
  | cons c cs =>
    rw [next?] at h
    split at h
    · obtain ⟨⟨_, _⟩, hr, he⟩ := Option.map_eq_some_iff.mp h
      have := pieces?_length hr
      simp only [Prod.mk.injEq] at he
      rw [← he.2]; simp; omega
    · split at h
      · simp only [Option.some.injEq, Prod.mk.injEq] at h; simp [← h.2]
      · split at h
        · next hw => rw [Option.some.inj h] at hw; exact word?_length hw
        · obtain ⟨⟨_, _⟩, hr, he⟩ := Option.map_eq_some_iff.mp h
          have := number?_length hr
          simp only [Prod.mk.injEq] at he
          rw [← he.2]; exact this

end Token

/-- The tokens of a text. -/
def tokens? : List Char → Option (List Token)
  | [] => some []
  | c :: cs =>
    if Token.isSpace c then tokens? cs
    else
      match hn : Token.next? (c :: cs) with
      | none => none
      | some (token, rest) =>
        have : rest.length < (c :: cs).length := Token.next?_length hn
        (tokens? rest).map (token :: ·)
termination_by cs => cs.length
decreasing_by
  · exact Nat.lt_succ_self _
  · assumption

end PackedColumn.Json

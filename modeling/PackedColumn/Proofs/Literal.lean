import PackedColumn.Proofs.Offset
import PackedColumn.Value

/-!
# Literals at the start of a text

`unquote? quote cs` reads a string literal that stands at the start of `cs`: the text in it, and
what is behind it. Where the quote is not the backslash, a literal that the dialect writes is read
back whatever stands behind it (`unquote?_quoteString`), so its end is determined: equal texts that
start with literals start with the same one (`quoteString_append_inj`).

The literal of a scalar is such a literal or a numeral (`literal_cases`). A numeral ends before the
first blank, so these ends are determined as well (`literal_append_inj`).
-/

namespace PackedColumn

/-! ## String literals -/

/-- The characters up to the first quote that no backslash escapes, and what is behind it. -/
def unescape? (quote : Char) : List Char → Option (List Char × List Char)
  | [] => none
  | '\\' :: c :: rest => (unescape? quote rest).map fun found => (c :: found.1, found.2)
  | c :: rest =>
    if c = quote then some ([], rest)
    else (unescape? quote rest).map fun found => (c :: found.1, found.2)

/-- The text of the string literal at the start of a text, and what is behind the literal. -/
def unquote? (quote : Char) : List Char → Option (List Char × List Char)
  | [] => none
  | c :: rest => if c = quote then unescape? quote rest else none

namespace Dialect

variable {d : Dialect}

/-- Escaped characters are read up to the quote behind them. -/
theorem unescape?_flatMap_escape (hquote : d.stringQuote ≠ '\\') (cs rest : List Char) :
    unescape? d.stringQuote (cs.flatMap d.escape ++ d.stringQuote :: rest) = some (cs, rest) := by
  induction cs with
  | nil =>
    rw [List.flatMap_nil, List.nil_append, unescape?]
    · exact if_pos rfl
    · exact fun _ _ he => (hquote he).elim
  | cons c cs ih =>
    rw [List.flatMap_cons, List.append_assoc]
    by_cases hc : c = '\\' ∨ c = d.stringQuote
    · rw [escape, if_pos hc, List.cons_append, List.cons_append, List.nil_append, unescape?, ih]
      rfl
    · obtain ⟨hslash, hplain⟩ := not_or.mp hc
      rw [escape, if_neg hc, List.cons_append, List.nil_append, unescape?, if_neg hplain, ih]
      · rfl
      · exact fun _ _ he => (hslash he).elim

theorem toList_quoteString (text : String) : (d.quoteString text).toList =
    d.stringQuote :: (text.toList.flatMap d.escape ++ [d.stringQuote]) :=
  String.toList_ofList

/-- A string literal is read back, whatever is behind it. -/
theorem unquote?_quoteString (hquote : d.stringQuote ≠ '\\') (text : String) (rest : List Char) :
    unquote? d.stringQuote ((d.quoteString text).toList ++ rest) = some (text.toList, rest) := by
  rw [toList_quoteString, List.cons_append, unquote?, if_pos rfl, List.append_assoc,
    List.singleton_append, unescape?_flatMap_escape hquote]

/-- Equal texts that start with string literals start with the same one. -/
theorem quoteString_append_inj (hquote : d.stringQuote ≠ '\\') {s t : String} {x y : List Char}
    (h : (d.quoteString s).toList ++ x = (d.quoteString t).toList ++ y) : s = t ∧ x = y := by
  have hread := congrArg (unquote? d.stringQuote) h
  rw [unquote?_quoteString hquote, unquote?_quoteString hquote] at hread
  obtain ⟨hst, hxy⟩ : s.toList = t.toList ∧ x = y := by simpa using hread
  exact ⟨String.toList_inj.mp hst, hxy⟩

end Dialect

/-! ## Literals of scalars -/

namespace Scalar

/-- A character of a numeral: a digit, the point or the sign. -/
def InNumeral (c : Char) : Prop := Decimal.isNumeral c = true ∨ c = '-'

instance : DecidablePred InNumeral := fun c =>
  inferInstanceAs (Decidable (Decimal.isNumeral c = true ∨ c = '-'))

theorem inNumeral_of_mem_toDigits {n : Nat} {c : Char} (h : c ∈ Nat.toDigits 10 n) :
    InNumeral c := by
  have hdigit := Nat.isDigit_of_mem_toDigits (b := 10) (by decide) (by decide) h
  exact .inl (by simp [Decimal.isNumeral, hdigit])

/-- The literal of a scalar is a string literal or a numeral. -/
theorem literal_cases (d : Dialect) (s : Scalar) :
    (∃ text, s.literal d = d.quoteString text) ∨ ∀ c ∈ (s.literal d).toList, InNumeral c := by
  cases s with
  | text text => exact .inl ⟨text, rfl⟩
  | bool b =>
    refine .inr fun c hc => .inl ?_
    cases b <;> simp [literal] at hc <;> rw [hc] <;> decide
  | integer n =>
    refine .inr fun c hc => ?_
    cases n with
    | ofNat n => exact inNumeral_of_mem_toDigits (by simpa [literal, Int.repr] using hc)
    | negSucc n =>
      rcases (by simpa [literal, Int.repr] using hc) with hsign | hdigit
      · exact .inr hsign
      · exact inNumeral_of_mem_toDigits hdigit
  | unsigned n => exact .inr fun c hc => inNumeral_of_mem_toDigits (by simpa [literal] using hc)
  | double x =>
    refine .inr fun c hc => ?_
    rw [literal, Double.sqlText, String.toList_ofList] at hc
    split at hc
    · rcases List.mem_cons.mp hc with hsign | hdigit
      · exact .inr hsign
      · exact .inl (Decimal.isNumeral_of_mem_positional hdigit)
    · exact .inl (Decimal.isNumeral_of_mem_positional hc)

theorem toList_literal_ne_nil (d : Dialect) (s : Scalar) : (s.literal d).toList ≠ [] := by
  cases s with
  | text text => rw [literal, Dialect.toList_quoteString]; exact List.cons_ne_nil _ _
  | bool b => cases b <;> simp [literal]
  | integer n => cases n <;> simp [literal, Int.repr]
  | unsigned n => simp [literal]
  | double x =>
    rw [literal, Double.sqlText, String.toList_ofList]
    split
    · exact List.cons_ne_nil _ _
    · exact Decimal.positional_ne_nil _

variable {d : Dialect} {s r : Scalar} {x y : List Char}

/-- A numeral and the blank behind it start with one of their own characters. -/
theorem head_numeral {cs : List Char} (hnumeral : ∀ c ∈ cs, InNumeral c) {c : Char}
    (h : cs ++ ' ' :: x = c :: y) : InNumeral c ∨ c = ' ' := by
  cases cs with
  | nil => exact .inr (List.cons_eq_cons.mp h).1.symm
  | cons e rest =>
    obtain ⟨rfl, -⟩ := List.cons_eq_cons.mp h
    exact .inl (hnumeral _ List.mem_cons_self)

/-- A literal and the blank behind it start with the quote or like a numeral. -/
theorem head_literal (hquote : d.stringQuote = '\'') {c : Char}
    (h : (s.literal d).toList ++ ' ' :: x = c :: y) : c = '\'' ∨ InNumeral c ∨ c = ' ' := by
  rcases literal_cases d s with ⟨text, hs⟩ | hnumeral
  · rw [hs, Dialect.toList_quoteString, List.cons_append, hquote] at h
    exact .inl (List.cons_eq_cons.mp h).1.symm
  · exact .inr (head_numeral hnumeral h)

/-- A numeral with a blank behind it does not start like a string literal. -/
theorem numeral_ne_quoteString (hquote : d.stringQuote = '\'') {cs : List Char} {text : String}
    (hnumeral : ∀ c ∈ cs, InNumeral c) :
    cs ++ ' ' :: x ≠ (d.quoteString text).toList ++ y := by
  intro h
  rw [Dialect.toList_quoteString, hquote, List.cons_append] at h
  exact absurd (head_numeral hnumeral h) (by decide)

/-- Equal texts that start with literals and a blank behind them start with the same literal. -/
theorem literal_append_inj (hquote : d.stringQuote = '\'')
    (h : (s.literal d).toList ++ ' ' :: x = (r.literal d).toList ++ ' ' :: y) :
    s.literal d = r.literal d ∧ x = y := by
  have hblank : ∀ {t : Scalar}, (∀ c ∈ (t.literal d).toList, InNumeral c) →
      ' ' ∉ (t.literal d).toList := by
    exact fun ht hmem => absurd (ht ' ' hmem) (by decide)
  rcases literal_cases d s with ⟨text, hs⟩ | hs <;> rcases literal_cases d r with ⟨text', hr⟩ | hr
  · rw [hs, hr] at h ⊢
    obtain ⟨rfl, hxy⟩ := Dialect.quoteString_append_inj (by rw [hquote]; decide) h
    exact ⟨rfl, (List.cons_eq_cons.mp hxy).2⟩
  · rw [hs] at h
    exact (numeral_ne_quoteString hquote hr h.symm).elim
  · rw [hr] at h
    exact (numeral_ne_quoteString hquote hs h).elim
  · obtain ⟨hsr, hxy⟩ := Text.append_cons_inj_of_not_mem (hblank hs) (hblank hr) h
    exact ⟨String.toList_inj.mp hsr, hxy⟩

end Scalar

end PackedColumn

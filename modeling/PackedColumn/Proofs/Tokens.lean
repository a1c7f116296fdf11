import Mathlib.Data.List.Chain
import PackedColumn.Json.Token
import PackedColumn.Proofs.Blank

/-!
# Tokens of a JSON text and their spellings

`Token.Spells token cs` says by the grammar of JSON how a token is written, and `Spelt tokens cs`
that `cs` is a text of the tokens, with spaces wherever anyone likes. Each scanner takes a spelling
off the text (`digits?_sound`, …, `next?_sound`), and it takes off all of a spelling that the text
behind does not go on with (`digits?_append`, …, `next?_append`).

So a text is cut into tokens whose text it is (`spelt_of_tokens?`). A number is the one token that
could go on: its digits would run into those of a number behind it. So a text of tokens is cut into
these tokens where no number follows another (`tokens?_of_spelt`).
-/

namespace PackedColumn.Json

open Text

namespace Token

/-! ## Spellings -/

/-- The text is a run of spaces, or empty. -/
def Spaces (cs : List Char) : Prop := ∀ c ∈ cs, isSpace c = true

/-- The text is a run of digits, and not empty. -/
def Digits (cs : List Char) : Prop := cs ≠ [] ∧ ∀ c ∈ cs, c.isDigit = true

/-- The digits before the point: a zero stands alone. -/
def Whole (cs : List Char) : Prop := Digits cs ∧ (cs.head? = some '0' → cs = ['0'])

/-- The spellings of a fraction. -/
inductive Fraction : Option (List Char) → List Char → Prop
  | none : Fraction none []
  | some {digits : List Char} : Digits digits → Fraction (some digits) ('.' :: digits)

/-- The spellings of the sign of an exponent; `true` is a minus. -/
inductive Sign : Bool → List Char → Prop
  | none : Sign false []
  | plus : Sign false ['+']
  | minus : Sign true ['-']

/-- The spellings of an exponent. -/
inductive Exponent : Option (Bool × List Char) → List Char → Prop
  | none : Exponent none []
  | some {letter : Char} {negative : Bool} {sign digits : List Char} :
      letter = 'e' ∨ letter = 'E' → Sign negative sign → Digits digits →
      Exponent (some (negative, digits)) (letter :: (sign ++ digits))

/-- The spellings of a number. -/
inductive Number : NumberText → List Char → Prop
  | mk {whole point power : List Char} {fraction : Option (List Char)}
      {exponent : Option (Bool × List Char)} (negative : Bool) :
      Whole whole → Fraction fraction point → Exponent exponent power →
      Number ⟨negative, whole, fraction, exponent⟩
        ((if negative then ['-'] else []) ++ (whole ++ (point ++ power)))

/-- The spellings of the pieces of a string, without the quotes around them. -/
inductive Pieces : List Piece → List Char → Prop
  | nil : Pieces [] []
  | plain {c : Char} {ps : List Piece} {cs : List Char} : 0x20 ≤ c.toNat → c ≠ '"' → c ≠ '\\' →
      Pieces ps cs → Pieces (.char c :: ps) (c :: cs)
  | letter {e c : Char} {ps : List Piece} {cs : List Char} : escaped? e = some c →
      Pieces ps cs → Pieces (.char c :: ps) ('\\' :: e :: cs)
  | unit {h₁ h₂ h₃ h₄ : Char} {code : Nat} {ps : List Piece} {cs : List Char} :
      unit? h₁ h₂ h₃ h₄ = some code →
      Pieces ps cs → Pieces (.unit code :: ps) ('\\' :: 'u' :: h₁ :: h₂ :: h₃ :: h₄ :: cs)

/-- The spellings of a token. -/
inductive Spells : Token → List Char → Prop
  | mark {c : Char} {token : Token} : mark? c = some token → Spells token [c]
  | null : Spells .null ['n', 'u', 'l', 'l']
  | yes : Spells (.bool true) ['t', 'r', 'u', 'e']
  | no : Spells (.bool false) ['f', 'a', 'l', 's', 'e']
  | number {text : NumberText} {cs : List Char} : Number text cs → Spells (.number text) cs
  | string {pieces : List Piece} {cs : List Char} : Pieces pieces cs →
      Spells (.string pieces) ('"' :: (cs ++ ['"']))

/-- Whether the token is a number. -/
def isNumber : Token → Bool
  | .number _ => true
  | _ => false

/-- No number could go on with this text. -/
def Ends (cs : List Char) : Prop :=
  ∀ c ∈ cs.head?, c.isDigit = false ∧ c ≠ '.' ∧ c ≠ 'e' ∧ c ≠ 'E'

variable {cs rest run : List Char}

/-- A scanner that makes something else of what another one read takes off what that one took. -/
theorem exists_of_map_eq_some {α β : Type} {read? : Option (α × List Char)} {make : α → β} {b : β}
    (h : (read?.map fun r => (make r.1, r.2)) = some (b, rest)) :
    ∃ a, read? = some (a, rest) ∧ make a = b := by
  obtain ⟨⟨a, behind⟩, hread, hr⟩ := Option.map_eq_some_iff.mp h
  obtain ⟨hb, rfl⟩ := Prod.mk.inj hr
  exact ⟨a, hread, hb⟩

/-! ## Numbers -/

theorem digits?_append (h : Digits run) (hrest : ∀ c ∈ rest.head?, c.isDigit = false) :
    digits? (run ++ rest) = some (run, rest) := by
  obtain ⟨htake, hdrop⟩ := cut_append h.2 hrest
  simp only [digits?, htake, hdrop]
  exact if_neg (by rw [List.isEmpty_iff]; exact h.1)

theorem digits?_sound (h : digits? cs = some (run, rest)) : Digits run ∧ cs = run ++ rest := by
  simp only [digits?] at h
  split at h
  · cases h
  · next hne =>
    obtain ⟨rfl, rfl⟩ := Prod.mk.inj (Option.some.inj h)
    rw [List.isEmpty_iff] at hne
    exact ⟨⟨hne, fun c hc => List.mem_takeWhile_imp hc⟩, List.takeWhile_append_dropWhile.symm⟩

theorem whole?_append (h : Whole run) (hrest : ∀ c ∈ rest.head?, c.isDigit = false) :
    whole? (run ++ rest) = some (run, rest) := by
  obtain ⟨c, digits, rfl⟩ := List.exists_cons_of_ne_nil h.1.1
  rw [List.cons_append, whole?]
  split
  · next hzero =>
    obtain rfl : digits = [] := by simpa [hzero] using h.2
    rw [hzero]
    rfl
  · exact digits?_append h.1 hrest

theorem whole?_sound (h : whole? cs = some (run, rest)) : Whole run ∧ cs = run ++ rest := by
  cases cs with
  | nil => cases h
  | cons c cs =>
    rw [whole?] at h
    split at h
    · next hzero =>
      obtain ⟨rfl, rfl⟩ := Prod.mk.inj (Option.some.inj h)
      refine ⟨⟨⟨List.cons_ne_nil _ _, ?_⟩, fun _ => rfl⟩, by rw [hzero]; rfl⟩
      simp
    · next hzero =>
      obtain ⟨hdigits, hcs⟩ := digits?_sound h
      refine ⟨⟨hdigits, fun hhead => ?_⟩, hcs⟩
      obtain ⟨d, digits, rfl⟩ := List.exists_cons_of_ne_nil hdigits.1
      obtain ⟨rfl, -⟩ := List.cons_eq_cons.mp hcs
      exact (hzero (Option.some.inj hhead)).elim

theorem fraction?_append {fraction : Option (List Char)} (h : Fraction fraction run)
    (hdigit : ∀ c ∈ rest.head?, c.isDigit = false) (hpoint : ∀ c ∈ rest.head?, c ≠ '.') :
    fraction? (run ++ rest) = some (fraction, rest) := by
  cases h with
  | none =>
    cases rest with
    | nil => rfl
    | cons c rest => exact if_neg (hpoint c rfl)
  | some hdigits =>
    rw [List.cons_append, fraction?, if_pos rfl, digits?_append hdigits hdigit]
    rfl

theorem fraction?_sound {fraction : Option (List Char)}
    (h : fraction? cs = some (fraction, rest)) :
    ∃ run, Fraction fraction run ∧ cs = run ++ rest := by
  cases cs with
  | nil =>
    obtain ⟨rfl, rfl⟩ := Prod.mk.inj (Option.some.inj h)
    exact ⟨[], .none, rfl⟩
  | cons c cs =>
    rw [fraction?] at h
    split at h
    · next hpoint =>
      obtain ⟨digits, hdigits, rfl⟩ := exists_of_map_eq_some h
      obtain ⟨hrun, rfl⟩ := digits?_sound hdigits
      exact ⟨_, .some hrun, by rw [hpoint]; rfl⟩
    · obtain ⟨rfl, rfl⟩ := Prod.mk.inj (Option.some.inj h)
      exact ⟨[], .none, rfl⟩

theorem sign_append {negative : Bool} (h : Sign negative run) {c : Char} (hc : c.isDigit)
    (cs : List Char) : sign (run ++ c :: cs) = (negative, c :: cs) := by
  cases h with
  | none =>
    have hminus : c ≠ '-' := by rintro rfl; exact absurd hc (by decide)
    have hplus : c ≠ '+' := by rintro rfl; exact absurd hc (by decide)
    rw [List.nil_append, sign, if_neg hminus, if_neg hplus]
  | plus => rfl
  | minus => rfl

theorem sign_sound (cs : List Char) : ∃ run, Sign (sign cs).1 run ∧ cs = run ++ (sign cs).2 := by
  cases cs with
  | nil => exact ⟨[], .none, rfl⟩
  | cons c cs =>
    rw [sign]
    split
    · next hminus => exact ⟨_, .minus, by rw [hminus]; rfl⟩
    · split
      · next hplus => exact ⟨_, .plus, by rw [hplus]; rfl⟩
      · exact ⟨[], .none, rfl⟩

theorem exponent?_append {exponent : Option (Bool × List Char)} (h : Exponent exponent run)
    (hrest : Ends rest) : exponent? (run ++ rest) = some (exponent, rest) := by
  cases h with
  | none =>
    cases rest with
    | nil => rfl
    | cons c rest =>
      obtain ⟨-, -, he, hE⟩ := hrest c rfl
      exact if_neg (by rintro (h | h) <;> contradiction)
  | @some letter negative sign digits hletter hsign hdigits =>
    obtain ⟨c, tail, rfl⟩ := List.exists_cons_of_ne_nil hdigits.1
    have hdigit := hdigits.2 c List.mem_cons_self
    rw [List.cons_append, exponent?, if_pos hletter, List.append_assoc, List.cons_append,
      sign_append hsign hdigit, ← List.cons_append,
      digits?_append hdigits fun c hc => (hrest c hc).1]
    rfl

theorem exponent?_sound {exponent : Option (Bool × List Char)}
    (h : exponent? cs = some (exponent, rest)) :
    ∃ run, Exponent exponent run ∧ cs = run ++ rest := by
  cases cs with
  | nil =>
    obtain ⟨rfl, rfl⟩ := Prod.mk.inj (Option.some.inj h)
    exact ⟨[], .none, rfl⟩
  | cons c cs =>
    rw [exponent?] at h
    split at h
    · next hletter =>
      obtain ⟨⟨digits, tail⟩, hdigits, hr⟩ := Option.map_eq_some_iff.mp h
      obtain ⟨rfl, rfl⟩ := Prod.mk.inj hr
      obtain ⟨hrun, htail⟩ := digits?_sound hdigits
      obtain ⟨signRun, hsign, hcs⟩ := sign_sound cs
      refine ⟨_, .some hletter hsign hrun, ?_⟩
      rw [hcs, htail]
      simp
    · obtain ⟨rfl, rfl⟩ := Prod.mk.inj (Option.some.inj h)
      exact ⟨[], .none, rfl⟩

/-- No digit and no point stands behind the digits of a number, and no digit behind its fraction. -/
theorem head_exponent {exponent : Option (Bool × List Char)} (h : Exponent exponent run)
    (hrest : Ends rest) : ∀ c ∈ (run ++ rest).head?, c.isDigit = false ∧ c ≠ '.' := by
  cases h with
  | none => exact fun c hc => ⟨(hrest c hc).1, (hrest c hc).2.1⟩
  | some hletter _ _ =>
    rintro _ ⟨⟩
    rcases hletter with rfl | rfl <;> decide

theorem head_fraction {fraction : Option (List Char)} (h : Fraction fraction run)
    (hrest : ∀ c ∈ rest.head?, c.isDigit = false) :
    ∀ c ∈ (run ++ rest).head?, c.isDigit = false := by
  cases h with
  | none => exact hrest
  | some _ =>
    rintro _ ⟨⟩
    decide

theorem number?_append {text : NumberText} (h : Number text run) (hrest : Ends rest) :
    number? (run ++ rest) = some (text, rest) := by
  obtain @⟨whole, point, power, fraction, exponent, negative, hwhole, hfraction, hexponent⟩ := h
  have hpower := head_exponent hexponent hrest
  have hpoint := head_fraction hfraction fun c hc => (hpower c hc).1
  have hbody : number? ((if negative then ['-'] else []) ++ (whole ++ (point ++ (power ++ rest)))) =
      (whole? (whole ++ (point ++ (power ++ rest)))).bind fun w =>
        (fraction? w.2).bind fun f =>
          (exponent? f.2).bind fun e => some (⟨negative, w.1, f.1, e.1⟩, e.2) := by
    cases negative with
    | true => rfl
    | false =>
      obtain ⟨c, digits, rfl⟩ := List.exists_cons_of_ne_nil hwhole.1.1
      have hminus : c ≠ '-' := by
        rintro rfl
        exact absurd (hwhole.1.2 _ List.mem_cons_self) (by decide)
      simp [number?, hminus]
  rw [List.append_assoc, List.append_assoc, List.append_assoc, hbody, whole?_append hwhole hpoint,
    Option.bind_some, fraction?_append hfraction (fun c hc => (hpower c hc).1)
      (fun c hc => (hpower c hc).2), Option.bind_some, exponent?_append hexponent hrest]
  rfl

theorem number?_sound {text : NumberText} (h : number? cs = some (text, rest)) :
    ∃ run, Number text run ∧ cs = run ++ rest := by
  simp only [number?, Option.bind_eq_bind, Option.pure_def] at h
  obtain ⟨⟨whole, behindWhole⟩, hwhole, h⟩ := Option.bind_eq_some_iff.mp h
  obtain ⟨⟨fraction, behindFraction⟩, hfraction, h⟩ := Option.bind_eq_some_iff.mp h
  obtain ⟨⟨exponent, behindExponent⟩, hexponent, h⟩ := Option.bind_eq_some_iff.mp h
  obtain ⟨rfl, rfl⟩ := Prod.mk.inj (Option.some.inj h)
  obtain ⟨hdigits, hcs⟩ := whole?_sound hwhole
  obtain ⟨point, hpoint, rfl⟩ := fraction?_sound hfraction
  obtain ⟨power, hpower, rfl⟩ := exponent?_sound hexponent
  refine ⟨_, .mk _ hdigits hpoint hpower, ?_⟩
  rw [List.append_assoc, List.append_assoc, List.append_assoc, ← hcs]
  split <;> rfl

/-! ## Strings -/

theorem pieces?_append {pieces : List Piece} (h : Pieces pieces run) (rest : List Char) :
    pieces? (run ++ '"' :: rest) = some (pieces, rest) := by
  induction h with
  | nil =>
    unfold pieces?
    rfl
  | plain hcontrol hquote hbackslash _ ih =>
    rw [List.cons_append]
    unfold pieces?
    rw [if_neg hquote, if_neg hbackslash, if_neg (by omega), ih]
    rfl
  | letter he _ ih =>
    rw [List.cons_append, List.cons_append]
    unfold pieces?
    rw [if_neg (by decide), if_pos rfl]
    split
    · -- The letter of the escape of a code unit is no letter of a one-letter escape.
      next hcons =>
      obtain ⟨rfl, -⟩ := List.cons_eq_cons.mp hcons
      cases he
    · next hcons =>
      obtain ⟨rfl, rfl⟩ := List.cons_eq_cons.mp hcons
      rw [he, Option.bind_some, ih]
      rfl
    · next hcons => cases hcons
  | unit hcode _ ih =>
    simp only [List.cons_append]
    unfold pieces?
    rw [if_neg (by decide), if_pos rfl]
    show (unit? _ _ _ _).bind (fun code => (pieces? _).map fun r => (.unit code :: r.1, r.2)) = _
    rw [hcode, Option.bind_some, ih]
    rfl

theorem pieces?_sound {pieces : List Piece} (h : pieces? cs = some (pieces, rest)) :
    ∃ run, Pieces pieces run ∧ cs = run ++ '"' :: rest := by
  fun_induction pieces? cs generalizing pieces rest with
  | case1 => cases h
  | case2 =>
    obtain ⟨rfl, rfl⟩ := Prod.mk.inj (Option.some.inj h)
    exact ⟨[], .nil, rfl⟩
  | case3 h₁ h₂ h₃ h₄ tail _ ih =>
    obtain ⟨code, hcode, h⟩ := Option.bind_eq_some_iff.mp h
    obtain ⟨ps, htail, rfl⟩ := exists_of_map_eq_some h
    obtain ⟨run, hrun, rfl⟩ := ih htail
    exact ⟨_, .unit hcode hrun, rfl⟩
  | case4 e tail _ _ ih =>
    obtain ⟨c, he, h⟩ := Option.bind_eq_some_iff.mp h
    obtain ⟨ps, htail, rfl⟩ := exists_of_map_eq_some h
    obtain ⟨run, hrun, rfl⟩ := ih htail
    exact ⟨_, .letter he hrun, rfl⟩
  | case5 => cases h
  | case6 => cases h
  | case7 c tail hquote hbackslash hcontrol ih =>
    obtain ⟨ps, htail, rfl⟩ := exists_of_map_eq_some h
    obtain ⟨run, hrun, rfl⟩ := ih htail
    exact ⟨_, .plain (by omega) hquote hbackslash hrun, rfl⟩

/-! ## Tokens -/

/-- A number starts with a digit or a minus. -/
theorem Number.exists_cons {text : NumberText} (h : Number text run) :
    ∃ c tail, run = c :: tail ∧ (c.isDigit ∨ c = '-') := by
  obtain @⟨whole, point, power, fraction, exponent, negative, hwhole, -, -⟩ := h
  cases negative with
  | true => exact ⟨_, _, rfl, .inr rfl⟩
  | false =>
    obtain ⟨c, digits, rfl⟩ := List.exists_cons_of_ne_nil hwhole.1.1
    exact ⟨c, _, rfl, .inl (hwhole.1.2 c List.mem_cons_self)⟩

/-- A token starts with a character that is no space. -/
theorem Spells.exists_cons {token : Token} (h : Spells token run) :
    ∃ c tail, run = c :: tail ∧ isSpace c = false := by
  have hspace {c : Char} (hc : c ≠ ' ' ∧ c ≠ '\t' ∧ c ≠ '\n' ∧ c ≠ '\r') : isSpace c = false := by
    simp [isSpace, hc]
  cases h with
  | @mark c _ hmark =>
    refine ⟨c, [], rfl, hspace ⟨?_, ?_, ?_, ?_⟩⟩ <;> (rintro rfl; cases hmark)
  | null | yes | no | string => exact ⟨_, _, rfl, by decide⟩
  | number hnumber =>
    obtain ⟨c, tail, rfl, hc⟩ := hnumber.exists_cons
    refine ⟨c, tail, rfl, hspace ⟨?_, ?_, ?_, ?_⟩⟩ <;> (rintro rfl; exact absurd hc (by decide))

theorem word?_sound {token : Token} (h : word? cs = some (token, rest)) :
    ∃ run, Spells token run ∧ cs = run ++ rest := by
  obtain ⟨w, hw, h⟩ := List.exists_of_findSome?_eq_some h
  obtain ⟨behind, hafter, hr⟩ := Option.map_eq_some_iff.mp h
  obtain ⟨rfl, rfl⟩ := Prod.mk.inj hr
  refine ⟨w.1.toList, ?_, after?_eq_some_iff.mp hafter⟩
  simp only [List.mem_cons, List.not_mem_nil, or_false] at hw
  rcases hw with rfl | rfl | rfl
  · exact .null
  · exact .yes
  · exact .no

/-- A text that starts like a number is read as a number or not at all. -/
theorem next?_number {c : Char} (hc : c.isDigit ∨ c = '-') (cs : List Char) :
    next? (c :: cs) = (number? (c :: cs)).map fun r => (.number r.1, r.2) := by
  have hne {x : Char} (hx : ¬ (x.isDigit ∨ x = '-')) : c ≠ x := fun h => hx (h ▸ hc)
  have hmark : mark? c = none := by
    unfold mark?
    split <;> first | rfl | exact absurd hc (by decide)
  have hword : word? (c :: cs) = none := by
    simp [word?, after?, hne (x := 'n') (by decide), hne (x := 't') (by decide),
      hne (x := 'f') (by decide)]
  rw [next?, if_neg (hne (by decide)), hmark, hword]

theorem next?_append {token : Token} (h : Spells token run)
    (hrest : token.isNumber → Ends rest) : next? (run ++ rest) = some (token, rest) := by
  cases h with
  | @mark c _ hmark =>
    have hquote : c ≠ '"' := by rintro rfl; cases hmark
    rw [List.singleton_append, next?, if_neg hquote, hmark]
  | null | yes | no => rfl
  | string hpieces =>
    rw [List.cons_append, next?, if_pos rfl, List.append_assoc, List.singleton_append,
      pieces?_append hpieces]
    rfl
  | @number text _ hnumber =>
    obtain ⟨c, tail, rfl, hc⟩ := hnumber.exists_cons
    rw [List.cons_append, next?_number hc, ← List.cons_append,
      number?_append hnumber (hrest rfl)]
    rfl

theorem next?_sound {token : Token} (h : next? cs = some (token, rest)) :
    ∃ run, Spells token run ∧ cs = run ++ rest := by
  cases cs with
  | nil => cases h
  | cons c cs =>
    rw [next?] at h
    split at h
    · next hquote =>
      obtain ⟨pieces, hpieces, rfl⟩ := exists_of_map_eq_some h
      obtain ⟨run, hrun, rfl⟩ := pieces?_sound hpieces
      exact ⟨_, .string hrun, by rw [hquote]; simp⟩
    · split at h
      · next hmark =>
        obtain ⟨rfl, rfl⟩ := Prod.mk.inj (Option.some.inj h)
        exact ⟨_, .mark hmark, rfl⟩
      · split at h
        · next hword =>
          obtain rfl := Option.some.inj h
          exact word?_sound hword
        · obtain ⟨text, hnumber, rfl⟩ := exists_of_map_eq_some h
          obtain ⟨run, hrun, hcs⟩ := number?_sound hnumber
          exact ⟨run, .number hrun, hcs⟩

/-- No number goes on with a token that is none. -/
theorem Spells.ends {token : Token} (h : Spells token run) (hnumber : token.isNumber = false)
    (rest : List Char) : Ends (run ++ rest) := by
  cases h with
  | @mark c _ hmark =>
    rintro _ ⟨⟩
    unfold mark? at hmark
    split at hmark <;> first | decide | cases hmark
  | null | yes | no | string => rintro _ ⟨⟩; decide
  | number => cases hnumber

theorem Spaces.ends {spaces : List Char} (h : Spaces spaces) {cs : List Char} (hcs : Ends cs) :
    Ends (spaces ++ cs) := by
  refine forall_head?_append (fun c hc => ?_) hcs
  have hspace := h c hc
  simp only [isSpace, Bool.or_eq_true, beq_iff_eq] at hspace
  rcases hspace with ((rfl | rfl) | rfl) | rfl <;> decide

end Token

open Token

/-! ## Texts of tokens -/

/-- The texts of a list of tokens: the tokens in their order, with spaces before, between and behind
them. -/
inductive Spelt : List Token → List Char → Prop
  | nil {spaces : List Char} : Spaces spaces → Spelt [] spaces
  | cons {token : Token} {tokens : List Token} {spaces run rest : List Char} :
      Spaces spaces → Spells token run → Spelt tokens rest →
      Spelt (token :: tokens) (spaces ++ (run ++ rest))

/-- No number follows another. -/
def Separated (tokens : List Token) : Prop :=
  tokens.IsChain fun token next => token.isNumber → next.isNumber = false

theorem Spelt.ends {tokens : List Token} {cs : List Char} (h : Spelt tokens cs)
    (hnumber : ∀ token ∈ tokens.head?, token.isNumber = false) : Ends cs := by
  cases h with
  | nil hspaces => exact List.append_nil cs ▸ hspaces.ends (show Ends [] from nofun)
  | cons hspaces hspells _ => exact hspaces.ends (hspells.ends (hnumber _ rfl) _)

theorem tokens?_spaces {spaces : List Char} (h : Spaces spaces) (cs : List Char) :
    tokens? (spaces ++ cs) = tokens? cs := by
  induction spaces with
  | nil => rfl
  | cons c spaces ih =>
    rw [List.cons_append, tokens?, if_pos (h c List.mem_cons_self),
      ih fun c hc => h c (List.mem_cons_of_mem _ hc)]

theorem tokens?_token {token : Token} {run rest : List Char} (h : Spells token run)
    (hrest : token.isNumber → Ends rest) :
    tokens? (run ++ rest) = (tokens? rest).map (token :: ·) := by
  have hnext := next?_append h hrest
  obtain ⟨c, tail, rfl, hc⟩ := h.exists_cons
  rw [List.cons_append] at hnext ⊢
  rw [tokens?, if_neg (by rw [hc]; exact Bool.false_ne_true)]
  split
  · next hnone => rw [hnone] at hnext; cases hnext
  · next hsome =>
    rw [hsome] at hnext
    obtain ⟨rfl, rfl⟩ := Prod.mk.inj (Option.some.inj hnext)
    rfl

/-- A text of tokens is cut into them, where no number follows another. -/
theorem tokens?_of_spelt {tokens : List Token} {cs : List Char} (h : Spelt tokens cs)
    (hseparated : Separated tokens) : tokens? cs = some tokens := by
  induction h with
  | @nil spaces hspaces => rw [← List.append_nil spaces, tokens?_spaces hspaces, tokens?]
  | @cons token tokens spaces run rest hspaces hspells hrest ih =>
    obtain ⟨hnext, htail⟩ := List.isChain_cons.mp hseparated
    have hends (hnumber : token.isNumber) : Ends rest :=
      hrest.ends fun next hmem => hnext next hmem hnumber
    rw [tokens?_spaces hspaces, tokens?_token hspells hends, ih htail, Option.map_some]

/-- A text that is cut into tokens is a text of them. -/
theorem spelt_of_tokens? {tokens : List Token} {cs : List Char} (h : tokens? cs = some tokens) :
    Spelt tokens cs := by
  fun_induction tokens? cs generalizing tokens with
  | case1 =>
    obtain rfl := Option.some.inj h
    exact .nil nofun
  | case2 c cs hspace ih =>
    have hcons {spaces : List Char} (hspaces : Spaces spaces) : Spaces (c :: spaces) :=
      List.forall_mem_cons.mpr ⟨hspace, hspaces⟩
    cases ih h with
    | nil hspaces => exact .nil (hcons hspaces)
    | cons hspaces hspells hrest => exact .cons (hcons hspaces) hspells hrest
  | case3 => cases h
  | case4 c cs hspace token rest hnext _ ih =>
    obtain ⟨tail, htail, rfl⟩ := Option.map_eq_some_iff.mp h
    obtain ⟨run, hrun, hcs⟩ := next?_sound hnext
    have hspaces : Spaces [] := nofun
    rw [hcs]
    exact .cons hspaces hrun (ih htail)

end PackedColumn.Json

import PackedColumn.Proofs.Contents
import PackedColumn.SqlType

/-!
# The grammar of types

`SqlType.Written cs t` is the grammar of a type without the blanks around it: the words of a
keyword, blanks, and a parenthesised list of numbers if the keyword takes one. The words keep their
spelling, but for the blanks between them, and the list is kept character by character.

The reader takes what it can at each place: letters for a word, digits for a number, blanks between
them. No character is of two of these kinds, so there is only one way to take a text apart, and the
reader reads exactly the grammar (`parse?_eq_some_iff_written`).
-/

namespace PackedColumn

open Text Unicode

/-! ## Keywords -/

/-- Only a small letter has a capital of its own. -/
theorem Text.toUpper_cases (c : Char) : c.toUpper = c ∨ c.isLower ∧ c.toUpper.isUpper := by
  by_cases h : c.val ≥ 'a'.val ∧ c.val ≤ 'z'.val
  · have hlow := UInt32.le_iff_toNat_le.mp h.1
    have hhigh := UInt32.le_iff_toNat_le.mp h.2
    refine .inr ⟨Bool.and_eq_true_iff.mpr (h.imp decide_eq_true decide_eq_true), ?_⟩
    have hval : c.toUpper.val.toNat = c.val.toNat - 32 := by
      rw [show c.toUpper = _ from dif_pos h, UInt32.toNat_add]
      simp at hlow hhigh ⊢
      omega
    refine decide_eq_true ⟨UInt32.le_iff_toNat_le.mpr ?_, UInt32.le_iff_toNat_le.mpr ?_⟩ <;>
      rw [hval] <;> simp at hlow hhigh ⊢ <;> omega
  · exact .inl (dif_neg h)

namespace TypeKeyword

/-- The word is the keyword, in any case of its letters. -/
def Spells (k : TypeKeyword) (w : List Char) : Prop := w.map Char.toUpper = k.name.toList

instance (k : TypeKeyword) (w : List Char) : Decidable (k.Spells w) :=
  inferInstanceAs (Decidable (_ = _))

/-- The numbers of parameters that the keyword may have. -/
def arities : TypeKeyword → List Nat
  | binary | char | time | datetime => [0, 1]
  | decimal => [0, 1, 2]
  | double => [0, 2]
  | date | int | integer | signed | unsigned => [0]

theorem accepts_iff {k : TypeKeyword} {count : Nat} : k.accepts count ↔ count ∈ k.arities := by
  cases k <;> simp [accepts, arities] <;> omega

/-- The keyword of a word is the one that it spells. -/
theorem ofWord?_eq_some_iff {w : List Char} {k : TypeKeyword} :
    ofWord? w = some k ↔ k.Spells w := by
  constructor
  · intro h
    have hk := List.find?_some h
    exact (of_decide_eq_true hk).symm
  · intro h
    unfold ofWord?
    rw [show w.map Char.toUpper = k.name.toList from h]
    cases k <;> decide

theorem takesSecondWord_iff {k : TypeKeyword} :
    k.takesSecondWord ↔ k = .signed ∨ k = .unsigned := by
  cases k <;> decide

/-- What is a letter in capitals was a letter. -/
theorem isAlpha_of_toUpper {c : Char} (h : c.toUpper.isAlpha) : c.isAlpha := by
  rcases Text.toUpper_cases c with heq | ⟨hlower, -⟩
  · rwa [heq] at h
  · exact Bool.or_eq_true_iff.mpr (.inr hlower)

/-- A keyword is spelt in letters. -/
theorem Spells.isLetter {k : TypeKeyword} {w : List Char} (h : k.Spells w) :
    ∀ c ∈ w, SqlType.isLetter c := by
  have hname : k.name.toList.all Char.isAlpha := by cases k <;> decide
  intro c hc
  have hupper : c.toUpper ∈ k.name.toList := h ▸ List.mem_map_of_mem hc
  exact isAlpha_of_toUpper (List.all_eq_true.mp hname _ hupper)

theorem Spells.ne_nil {k : TypeKeyword} {w : List Char} (h : k.Spells w) : w ≠ [] := by
  rintro rfl
  cases k <;> exact absurd h (by decide)

end TypeKeyword

namespace SqlType

/-! ## The grammar -/

/-- A number: digits, at least one, with blanks around them. -/
inductive Numeral : List Char → Prop
  | mk {pre digits post : List Char} : Blanks pre → digits ≠ [] → (∀ c ∈ digits, isDigit c) →
      Blanks post → Numeral (pre ++ digits ++ post)

/-- A parenthesised list of one number or two. -/
inductive ParamList : List Char → Nat → Prop
  | one {n : List Char} : Numeral n → ParamList ('(' :: (n ++ [')'])) 1
  | two {n m : List Char} : Numeral n → Numeral m →
      ParamList ('(' :: (n ++ ',' :: (m ++ [')']))) 2

/-- What stands behind a keyword: nothing, or a list, which is kept as it is written. -/
inductive Params : List Char → Option String → Nat → Prop
  | none : Params [] none 0
  | list {cs : List Char} {count : Nat} : ParamList cs count →
      Params cs (some (String.ofList cs)) count

/-- The words of a keyword. Two words are kept with one space between them. -/
inductive Words : List Char → TypeKeyword → String → Prop
  | one {k : TypeKeyword} {w : List Char} : k.Spells w → Words w k (String.ofList w)
  | two {k second : TypeKeyword} {w blanks w₂ : List Char} : k.Spells w →
      k = .signed ∨ k = .unsigned → Blanks blanks → blanks ≠ [] → second.Spells w₂ →
      second = .int ∨ second = .integer →
      Words (w ++ blanks ++ w₂) k (String.ofList (w ++ ' ' :: w₂))

/-- A type without blanks around it. -/
inductive Written : List Char → SqlType → Prop
  | mk {words blanks list : List Char} {k : TypeKeyword} {text : String} {params : Option String}
      {count : Nat} : Words words k text → Blanks blanks → Params list params count →
      count ∈ k.arities → Written (words ++ blanks ++ list) ⟨k, text, params⟩

/-! ## Parameters -/

/-- A blank is no digit. -/
theorem isDigit_of_isBlank {c : Char} (h : isBlank c) : isDigit c = false := by
  have hnot := Path.isAlphanumeric_eq_false_of_isBlank h
  rw [isAlphanumeric, Bool.or_eq_false_iff, Bool.or_eq_false_iff] at hnot
  rw [isDigit, hnot.1.2, Bool.false_and]

/-- A digit is no blank. -/
theorem isBlank_of_isDigit {c : Char} (h : isDigit c) : isBlank c = false := by
  by_contra hblank
  rw [isDigit_of_isBlank (Bool.not_eq_false _ ▸ hblank)] at h
  cases h

/-- What is skipped as a number is one. -/
theorem numeral_of_afterDigits? {cs rest : List Char} (h : afterDigits? cs = some rest) :
    ∃ n, Numeral n ∧ cs = n ++ rest := by
  simp only [afterDigits?, Option.ite_none_left_eq_some, Option.some.injEq] at h
  obtain ⟨hne, hrest⟩ := h
  have hpre : Blanks (cs.takeWhile isBlank) := fun c => List.mem_takeWhile_imp
  have hpost : Blanks (((trimStart cs).dropWhile isDigit).takeWhile isBlank) :=
    fun c => List.mem_takeWhile_imp
  refine ⟨_, .mk hpre (mt List.isEmpty_iff.mpr hne) (fun c => List.mem_takeWhile_imp) hpost, ?_⟩
  unfold trimStart at hrest ⊢
  rw [← hrest, List.append_assoc, List.append_assoc, List.takeWhile_append_dropWhile,
    List.takeWhile_append_dropWhile, List.takeWhile_append_dropWhile]

/-- A number is skipped up to what is neither a blank nor a digit. -/
theorem Numeral.afterDigits? {n rest : List Char} (h : Numeral n)
    (hblank : ∀ c ∈ rest.head?, isBlank c = false) (hdigit : ∀ c ∈ rest.head?, isDigit c = false) :
    afterDigits? (n ++ rest) = some rest := by
  obtain @⟨pre, digits, post, hpre, hne, hdigits, hpost⟩ := h
  have hdigitsHead : ∀ c ∈ (digits ++ (post ++ rest)).head?, isBlank c = false :=
    forall_head?_of_ne_nil hne (fun c hc => isBlank_of_isDigit (hdigits c hc)) _
  have hpostHead : ∀ c ∈ (post ++ rest).head?, isDigit c = false :=
    forall_head?_append (fun c hc => isDigit_of_isBlank (hpost c hc)) hdigit
  have hstart : trimStart (pre ++ digits ++ post ++ rest) = digits ++ (post ++ rest) := by
    rw [List.append_assoc, List.append_assoc]
    exact (cut_append hpre hdigitsHead).2
  obtain ⟨htake, hdrop⟩ := cut_append hdigits hpostHead
  simp only [SqlType.afterDigits?, hstart, htake, hdrop]
  rw [if_neg (mt List.isEmpty_iff.mp hne), trimStart, (cut_append hpost hblank).2]

/-- A number is read up to a character that is neither a blank nor a digit. -/
theorem afterDigits?_eq_some_iff {cs rest : List Char} {c : Char} (hblank : isBlank c = false)
    (hdigit : isDigit c = false) :
    afterDigits? cs = some (c :: rest) ↔ ∃ n, Numeral n ∧ cs = n ++ c :: rest := by
  refine ⟨numeral_of_afterDigits?, ?_⟩
  rintro ⟨n, hn, rfl⟩
  refine hn.afterDigits? ?_ ?_ <;> rintro _ ⟨⟩ <;> assumption

/-- The parameters that are counted are those of a list. -/
theorem paramCount?_eq_some_iff {cs : List Char} {count : Nat} :
    paramCount? cs = some count ↔ ParamList cs count := by
  have hclose (cs : List Char) : afterDigits? cs = some [')'] ↔ ∃ n, Numeral n ∧ cs = n ++ [')'] :=
    afterDigits?_eq_some_iff (by decide) (by decide)
  have hcomma (cs rest : List Char) :
      afterDigits? cs = some (',' :: rest) ↔ ∃ n, Numeral n ∧ cs = n ++ ',' :: rest :=
    afterDigits?_eq_some_iff (by decide) (by decide)
  constructor
  · intro h
    unfold paramCount? at h
    split at h
    · split at h
      · next hone =>
        obtain ⟨n, hn, rfl⟩ := (hclose _).mp hone
        obtain rfl := Option.some.inj h
        exact .one hn
      · next rest htwo =>
        obtain ⟨hrest, hcount⟩ := Option.ite_none_right_eq_some.mp h
        obtain ⟨n, hn, rfl⟩ := (hcomma _ _).mp htwo
        obtain ⟨m, hm, rfl⟩ := (hclose _).mp hrest
        obtain rfl := Option.some.inj hcount
        exact .two hn hm
      · cases h
    · cases h
  · rintro (⟨hn⟩ | ⟨hn, hm⟩)
    · rw [paramCount?, (hclose _).mpr ⟨_, hn, rfl⟩]
      rfl
    · rw [paramCount?, (hcomma _ _).mpr ⟨_, hn, rfl⟩]
      exact if_pos ((hclose _).mpr ⟨_, hm, rfl⟩)

/-! ## Words -/

/-- A letter is no blank. -/
theorem isBlank_of_isLetter {c : Char} (h : isLetter c) : isBlank c = false := by
  have hall : ∀ n < 123, 65 ≤ n → inRanges whiteSpace n = false := by decide
  rcases Bool.or_eq_true_iff.mp h with hupper | hlower
  · obtain ⟨hlow, hhigh⟩ : c.val ≥ 65 ∧ c.val ≤ 90 := of_decide_eq_true hupper
    replace hlow := UInt32.le_iff_toNat_le.mp hlow
    replace hhigh := UInt32.le_iff_toNat_le.mp hhigh
    exact hall c.toNat (hhigh.trans_lt (by decide)) hlow
  · obtain ⟨hlow, hhigh⟩ := Bool.and_eq_true_iff.mp hlower
    replace hlow := UInt32.le_iff_toNat_le.mp (of_decide_eq_true hlow)
    replace hhigh := UInt32.le_iff_toNat_le.mp (of_decide_eq_true hhigh)
    exact hall c.toNat (hhigh.trans_lt (by decide)) (le_trans (by decide) hlow)

theorem isLetter_of_isBlank {c : Char} (h : isBlank c) : isLetter c = false := by
  by_contra hletter
  rw [isBlank_of_isLetter (Bool.not_eq_false _ ▸ hletter)] at h
  cases h

theorem isSecondWord_iff {w : List Char} :
    isSecondWord w ↔ ∃ k : TypeKeyword, k.Spells w ∧ (k = .int ∨ k = .integer) := by
  rw [isSecondWord, Bool.or_eq_true, beq_iff_eq, beq_iff_eq, TypeKeyword.ofWord?_eq_some_iff,
    TypeKeyword.ofWord?_eq_some_iff]
  constructor
  · rintro (h | h)
    · exact ⟨_, h, .inl rfl⟩
    · exact ⟨_, h, .inr rfl⟩
  · rintro ⟨_, h, rfl | rfl⟩
    · exact .inl h
    · exact .inr h

/-- The words as they are kept. -/
def keptWords (words : List (List Char)) : String := " ".intercalate (words.map String.ofList)

theorem keptWords_one (w : List Char) : keptWords [w] = String.ofList w :=
  String.intercalate_singleton

theorem keptWords_two (w w₂ : List Char) : keptWords [w, w₂] = String.ofList (w ++ ' ' :: w₂) := by
  rw [← String.toList_inj]
  simp [keptWords]

/-- What is read as a keyword are its words. -/
theorem words_of_keyword? {cs rest : List Char} {k : TypeKeyword} {words : List (List Char)}
    (h : keyword? cs = some (k, words, rest)) :
    ∃ w, Words w k (keptWords words) ∧ cs = w ++ rest := by
  obtain ⟨k', hword, h⟩ := Option.map_eq_some_iff.mp h
  have hfirst := TypeKeyword.ofWord?_eq_some_iff.mp hword
  have hcs : (word cs).1 ++ (word cs).2 = cs := List.takeWhile_append_dropWhile
  dsimp only at h
  split at h
  · next hcond =>
    obtain ⟨rfl, hwords⟩ := Prod.mk.inj h
    obtain ⟨rfl, rfl⟩ := Prod.mk.inj hwords
    rw [Bool.and_eq_true, Bool.and_eq_true, TypeKeyword.takesSecondWord_iff, isSecondWord_iff]
      at hcond
    obtain ⟨⟨htakes, hblank⟩, second, hspells, hsecond⟩ := hcond
    have hne : (word cs).2.takeWhile isBlank ≠ [] := by
      cases hrest : (word cs).2 with
      | nil => rw [hrest] at hblank; cases hblank
      | cons c tail =>
        rw [hrest] at hblank
        have hc : isBlank c = true := hblank
        rw [List.takeWhile_cons_of_pos hc]
        exact List.cons_ne_nil _ _
    rw [keptWords_two]
    refine ⟨_, .two hfirst htakes (fun c => List.mem_takeWhile_imp) hne hspells hsecond, ?_⟩
    have hblanks : (word cs).2.takeWhile isBlank ++ trimStart (word cs).2 = (word cs).2 :=
      List.takeWhile_append_dropWhile
    have hlast : (word (trimStart (word cs).2)).1 ++ (word (trimStart (word cs).2)).2 =
      trimStart (word cs).2 := List.takeWhile_append_dropWhile
    rw [List.append_assoc, hlast, List.append_assoc, hblanks, hcs]
  · obtain ⟨rfl, hwords⟩ := Prod.mk.inj h
    obtain ⟨rfl, rfl⟩ := Prod.mk.inj hwords
    rw [keptWords_one]
    exact ⟨_, .one hfirst, hcs.symm⟩

theorem word_append {w rest : List Char} (hw : ∀ c ∈ w, isLetter c)
    (hrest : ∀ c ∈ rest.head?, isLetter c = false) : word (w ++ rest) = (w, rest) :=
  Prod.ext_iff.mpr (cut_append hw hrest)

/-- The words of a keyword are read as such where no letter and no second word is behind them. -/
theorem keyword?_append {w rest : List Char} {k : TypeKeyword} {text : String}
    (h : Words w k text) (hletter : ∀ c ∈ rest.head?, isLetter c = false)
    (hsecond : (word (trimStart rest)).1 = []) :
    ∃ words, keyword? (w ++ rest) = some (k, words, rest) ∧ keptWords words = text := by
  cases h with
  | one hspells =>
    have hnot : isSecondWord [] = false := by decide
    refine ⟨[w], ?_, keptWords_one w⟩
    simp only [keyword?, word_append hspells.isLetter hletter, hsecond, hnot,
      TypeKeyword.ofWord?_eq_some_iff.mpr hspells, Option.map_some, Bool.and_false]
    rfl
  | @two _ second w blanks w₂ hspells htakes hblanks hne hspells₂ hint =>
    have hblanksHead : ∀ c ∈ (blanks ++ (w₂ ++ rest)).head?, isBlank c :=
      forall_head?_of_ne_nil hne hblanks _
    have hsecondHead : ∀ c ∈ (w₂ ++ rest).head?, isBlank c = false :=
      forall_head?_of_ne_nil hspells₂.ne_nil
        (fun c hc => isBlank_of_isLetter (hspells₂.isLetter c hc)) _
    have hfirst := word_append hspells.isLetter fun c hc => isLetter_of_isBlank (hblanksHead c hc)
    have hstart : trimStart (blanks ++ (w₂ ++ rest)) = w₂ ++ rest :=
      (cut_append hblanks hsecondHead).2
    have hcond : (k.takesSecondWord && (blanks ++ (w₂ ++ rest)).head?.any isBlank &&
        isSecondWord w₂) = true := by
      obtain ⟨b, bs, rfl⟩ := List.exists_cons_of_ne_nil hne
      rw [TypeKeyword.takesSecondWord_iff.mpr htakes,
        isSecondWord_iff.mpr ⟨second, hspells₂, hint⟩]
      simpa using hblanksHead b rfl
    refine ⟨[w, w₂], ?_, keptWords_two w w₂⟩
    rw [List.append_assoc, List.append_assoc]
    simp only [keyword?, hfirst, hstart, word_append hspells₂.isLetter hletter,
      TypeKeyword.ofWord?_eq_some_iff.mpr hspells, Option.map_some]
    rw [if_pos hcond]

/-! ## Types -/

/-- A list starts with its parenthesis. -/
theorem Params.head {list : List Char} {params : Option String} {count : Nat}
    (h : Params list params count) : ∀ c ∈ list.head?, c = '(' := by
  cases h with
  | none => exact nofun
  | list h => cases h <;> rintro _ ⟨⟩ <;> rfl

/-- Blanks before the parameters end the keyword, and there is no second word behind them. -/
theorem Params.after_blanks {blanks list : List Char} {params : Option String} {count : Nat}
    (h : Params list params count) (hblanks : Blanks blanks) :
    trimStart (blanks ++ list) = list ∧ (∀ c ∈ (blanks ++ list).head?, isLetter c = false) ∧
      (word (trimStart (blanks ++ list))).1 = [] := by
  have hblank : ∀ c ∈ list.head?, isBlank c = false := fun c hc => h.head c hc ▸ by decide
  have hletter : ∀ c ∈ list.head?, isLetter c = false := fun c hc => h.head c hc ▸ by decide
  have hstart : trimStart (blanks ++ list) = list := (cut_append hblanks hblank).2
  refine ⟨hstart, ?_, ?_⟩
  · exact forall_head?_append (fun c hc => isLetter_of_isBlank (hblanks c hc)) hletter
  · rw [hstart]
    exact (cut_append (List.forall_mem_nil _) hletter).1

/-- A text is read as a type when, without the blanks around it, it is written by the grammar, and
then as the type that the grammar says. -/
theorem parse?_eq_some_iff_written {text : String} {t : SqlType} :
    parse? text = some t ↔ Written (trim text.toList) t := by
  constructor
  · intro h
    obtain ⟨⟨k, words, rest⟩, hkeyword, h⟩ := Option.bind_eq_some_iff.mp h
    obtain ⟨w, hwords, hw⟩ := words_of_keyword? hkeyword
    have hrest : rest.takeWhile isBlank ++ trimStart rest = rest :=
      List.takeWhile_append_dropWhile
    have hblanks : Blanks (rest.takeWhile isBlank) := fun c => List.mem_takeWhile_imp
    rw [hw, ← hrest, ← List.append_assoc]
    dsimp only at h
    split at h
    · next hempty =>
      obtain ⟨haccepts, ht⟩ := Option.ite_none_right_eq_some.mp h
      obtain rfl := Option.some.inj ht
      rw [List.isEmpty_iff.mp hempty]
      exact .mk hwords hblanks .none (TypeKeyword.accepts_iff.mp haccepts)
    · obtain ⟨count, hcount, h⟩ := Option.bind_eq_some_iff.mp h
      obtain ⟨haccepts, ht⟩ := Option.ite_none_right_eq_some.mp h
      obtain rfl := Option.some.inj ht
      exact .mk hwords hblanks (.list (paramCount?_eq_some_iff.mp hcount))
        (TypeKeyword.accepts_iff.mp haccepts)
  · intro h
    generalize hcs : trim text.toList = cs at h
    obtain @⟨w, blanks, list, k, kept, params, count, hwords, hblanks, hparams, hcount⟩ := h
    -- No letter stands behind the words, so the reader takes just them.
    obtain ⟨hstart, hletter, hsecond⟩ := hparams.after_blanks hblanks
    obtain ⟨words, hkeyword, rfl⟩ := keyword?_append hwords hletter hsecond
    have haccepts := TypeKeyword.accepts_iff.mpr hcount
    rw [parse?, hcs, List.append_assoc, hkeyword, Option.bind_some]
    dsimp only
    rw [hstart]
    cases hparams with
    | none =>
      rw [if_pos List.isEmpty_nil, if_pos haccepts]
      rfl
    | list hlist =>
      have hne : ¬ list.isEmpty := by cases hlist <;> exact Bool.false_ne_true
      rw [if_neg hne, paramCount?_eq_some_iff.mpr hlist, Option.bind_some, if_pos haccepts]
      rfl

example : parse? " Unsigned\t integer " = some ⟨.unsigned, "Unsigned integer", none⟩ := by decide

-- The long s is a capital S only outside ASCII.
example : parse? "ſigned" = none := by decide

end SqlType

end PackedColumn

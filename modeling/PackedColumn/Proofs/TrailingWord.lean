import PackedColumn.Alias
import PackedColumn.Proofs.Blank

/-!
# The word at the end of an item

`Reading item g w`: the item ends in the word `w` of alias characters, blanks set it off, and `g` is
what it names: the text before those blanks, or, where that text ends in the keyword `AS`, the text
before the keyword. This is what `split?` finds (`split?_eq_some_iff_reading`); it finds nothing
where the last word of the item holds another character.

`Splits item g w` leaves it open how the item is cut: any blanks between `g` and `w`, with or
without a keyword among them, may be taken for the separator. The reading is the cut with the
shortest `g` (`split?_eq_some_iff_shortest`), so of several keywords in a row only the last one is
dropped, and no blanks are left at the end of `g`.
-/

namespace PackedColumn

open Unicode Text

namespace Text

/-- Blanks, at least one. -/
def Gap (cs : List Char) : Prop := cs ≠ [] ∧ Blanks cs

/-- The text ends in a blank. -/
def EndsBlank (cs : List Char) : Prop := ∃ c ∈ cs.getLast?, isBlank c

instance (cs : List Char) : Decidable (Gap cs) := inferInstanceAs (Decidable (_ ∧ _))

instance (cs : List Char) : Decidable (EndsBlank cs) :=
  decidable_of_iff (cs.getLast?.any isBlank = true) (Option.any_eq_true _ _)

theorem not_endsBlank_iff {cs : List Char} : ¬ EndsBlank cs ↔ trimEnd cs = cs := by
  rw [trimEnd_eq_self_iff]
  simp [EndsBlank]

theorem trimEnd_trimEnd (cs : List Char) : trimEnd (trimEnd cs) = trimEnd cs :=
  List.rdropWhile_idempotent _ _

theorem EndsBlank.append {cs : List Char} (h : EndsBlank cs) (before : List Char) :
    EndsBlank (before ++ cs) := by
  obtain ⟨c, hc, hblank⟩ := h
  exact ⟨c, List.mem_getLast?_append_of_mem_getLast? hc, hblank⟩

theorem Gap.endsBlank_append {gap : List Char} (h : Gap gap) (before : List Char) :
    EndsBlank (before ++ gap) := by
  have hgap : EndsBlank gap :=
    ⟨gap.getLast h.1, List.getLast?_eq_some_getLast h.1, h.2 _ (List.getLast_mem h.1)⟩
  exact hgap.append before

/-- A text that ends in a blank ends in a gap. -/
theorem EndsBlank.exists_gap {cs : List Char} (h : EndsBlank cs) :
    ∃ gap, Gap gap ∧ cs = trimEnd cs ++ gap := by
  have hcs : trimEnd cs ++ cs.rtakeWhile isBlank = cs := List.rdropWhile_append_rtakeWhile
  refine ⟨cs.rtakeWhile isBlank, ⟨fun hnil => ?_, fun c => List.mem_rtakeWhile_imp⟩, hcs.symm⟩
  rw [hnil, List.append_nil] at hcs
  exact not_endsBlank_iff.mpr hcs h

end Text

namespace Alias

/-- No blank is a character of a word. -/
theorem isWord_of_isBlank {c : Char} (h : isBlank c) : isWord c = false := by
  have hall : ∀ n ∈ whiteSpace.flatMap fun r => List.range' r.1 (r.2 + 1 - r.1),
      (inRanges alphabetic n || inRanges decimalDigit n || inRanges mark n || inRanges connector n
        || inRanges joinControl n) = false := by
    decide +kernel
  obtain ⟨r, hr, hlo, hhi⟩ := exists_range_of_inRanges h
  have hc := hall c.toNat (List.mem_flatMap.mpr ⟨r, hr, by rw [List.mem_range'_1]; omega⟩)
  rw [isWord, isAlphabetic, hc, Bool.false_and]

theorem isAliasChar_of_isBlank {c : Char} (h : isBlank c) : isAliasChar c = false := by
  have hhyphen : c ≠ '-' := by rintro rfl; revert h; decide
  have hdot : c ≠ '.' := by rintro rfl; revert h; decide
  simp [isAliasChar, isWord_of_isBlank h, hhyphen, hdot]

theorem isBlank_of_isAliasChar {c : Char} (h : isAliasChar c) : isBlank c = false := by
  by_contra hblank
  rw [isAliasChar_of_isBlank (Bool.not_eq_false _ ▸ hblank)] at h
  cases h

/-! ## Readings -/

/-- `rest` is `before`, a gap and the keyword. -/
def EndsInKeyword (before rest : List Char) : Prop :=
  ∃ gap a s, rest = before ++ gap ++ [a, s] ∧ Gap gap ∧ isA a ∧ isS s

theorem EndsInKeyword.append {before rest : List Char} (h : EndsInKeyword before rest)
    (front : List Char) : EndsInKeyword (front ++ before) (front ++ rest) := by
  obtain ⟨gap, a, s, rfl, hkeyword⟩ := h
  exact ⟨gap, a, s, by simp only [List.append_assoc], hkeyword⟩

/-- What the text `rest` before an alias says is named: all of it, or what stands before the
keyword at its end. -/
inductive Names : List Char → List Char → Prop
  | keyword {before rest : List Char} : before ≠ [] → EndsInKeyword before rest →
      Names rest (trimEnd before)
  | bare {rest : List Char} : (∀ before, before ≠ [] → ¬ EndsInKeyword before rest) →
      Names rest rest

/-- The item ends in the word `w`, set off by a gap, and names `g`. -/
inductive Reading : List Char → List Char → List Char → Prop
  | mk {rest gap w g : List Char} : ¬ EndsBlank rest → Gap gap → w ≠ [] →
      (∀ c ∈ w, isAliasChar c) → Names rest g → Reading (rest ++ gap ++ w) g w

/-- A run at the end of a text is cut off where a character of another kind stands before it. -/
theorem split?_append {before w : List Char} (hblank : EndsBlank before) (hne : w ≠ [])
    (hchars : ∀ c ∈ w, isAliasChar c) :
    split? (before ++ w) = some (dropKeyword (trimEnd before), w) := by
  obtain ⟨b, hb, hbblank⟩ := hblank
  have hrun : ∀ c ∈ w.reverse, isAliasChar c := fun c hc => hchars c (List.mem_reverse.mp hc)
  have hstop : ∀ c ∈ before.reverse.head?, isAliasChar c = false := by
    rw [List.head?_reverse, hb]
    rintro _ ⟨⟩
    exact isAliasChar_of_isBlank hbblank
  obtain ⟨htake, hdrop⟩ := cut_append hrun hstop
  have hcond : (!w.isEmpty && before.getLast?.any isBlank) = true := by
    rw [hb, Option.any_some, hbblank, Bool.and_true, Bool.not_eq_true', List.isEmpty_eq_false_iff]
    exact hne
  simp only [split?, List.reverse_append, htake, hdrop, List.reverse_reverse, hcond, if_true]

/-- An alias starts behind the last blank of the item. -/
theorem split?_eq_some_iff {item g w : List Char} : split? item = some (g, w) ↔
    ∃ before, item = before ++ w ∧ EndsBlank before ∧ w ≠ [] ∧ (∀ c ∈ w, isAliasChar c) ∧
      g = dropKeyword (trimEnd before) := by
  constructor
  · intro h
    simp only [split?, Option.ite_none_right_eq_some, Option.some.injEq, Prod.mk.injEq,
      Bool.and_eq_true, Bool.not_eq_true', List.isEmpty_eq_false_iff] at h
    obtain ⟨⟨hne, hblank⟩, rfl, rfl⟩ := h
    have hitem : item.rdropWhile isAliasChar ++ item.rtakeWhile isAliasChar = item :=
      List.rdropWhile_append_rtakeWhile
    exact ⟨_, hitem.symm, (Option.any_eq_true _ _).mp hblank, hne,
      fun c => List.mem_rtakeWhile_imp, rfl⟩
  · rintro ⟨before, rfl, hblank, hne, hchars, rfl⟩
    exact split?_append hblank hne hchars

theorem dropKeyword_of_endsInKeyword {before rest : List Char} (h : EndsInKeyword before rest) :
    dropKeyword rest = trimEnd before := by
  obtain ⟨gap, a, s, rfl, ⟨hne, hblanks⟩, ha, hs⟩ := h
  obtain ⟨gap, blank, rfl⟩ := List.eq_nil_or_concat' gap |>.resolve_left hne
  have hblank : isBlank blank := hblanks blank (by simp)
  have hreverse : (before ++ (gap ++ [blank]) ++ [a, s]).reverse =
      s :: a :: blank :: (gap.reverse ++ before.reverse) := by simp
  have hback : (blank :: (gap.reverse ++ before.reverse)).reverse = before ++ (gap ++ [blank]) := by
    simp
  simp only [dropKeyword, hreverse, hback, hs, ha, hblank, Bool.and_true, if_true]
  exact trimEnd_append hblanks before

theorem dropKeyword_eq_self {rest : List Char} (h : ∀ before, ¬ EndsInKeyword before rest) :
    dropKeyword rest = rest := by
  unfold dropKeyword
  split
  · next s a blank before hreverse =>
    refine if_neg fun hcond => h before.reverse ⟨[blank], a, s, ?_, ⟨List.cons_ne_nil _ _, ?_⟩, ?_⟩
    · have hrest := congrArg List.reverse hreverse
      simpa using hrest
    · simp only [Bool.and_eq_true] at hcond
      exact fun c hc => List.mem_singleton.mp hc ▸ hcond.2
    · simp only [Bool.and_eq_true] at hcond
      exact ⟨hcond.1.2, hcond.1.1⟩
  · rfl

/-- Behind a text that starts in no blank, something stands before the keyword. -/
theorem EndsInKeyword.ne_nil {before rest : List Char} (h : EndsInKeyword before rest)
    (hhead : ∀ c ∈ rest.head?, isBlank c = false) : before ≠ [] := by
  rintro rfl
  obtain ⟨gap, a, s, rfl, ⟨hne, hblanks⟩, -⟩ := h
  obtain ⟨blank, gap, rfl⟩ := List.exists_cons_of_ne_nil hne
  have hblank : isBlank blank := hblanks blank List.mem_cons_self
  rw [hhead blank rfl] at hblank
  cases hblank

theorem names_iff {rest g : List Char} (hhead : ∀ c ∈ rest.head?, isBlank c = false) :
    Names rest g ↔ dropKeyword rest = g := by
  constructor
  · rintro (⟨-, hkeyword⟩ | hbare)
    · exact dropKeyword_of_endsInKeyword hkeyword
    · exact dropKeyword_eq_self fun before hkeyword =>
        hbare before (hkeyword.ne_nil hhead) hkeyword
  · rintro rfl
    by_cases h : ∃ before, EndsInKeyword before rest
    · obtain ⟨before, hkeyword⟩ := h
      rw [dropKeyword_of_endsInKeyword hkeyword]
      exact .keyword (hkeyword.ne_nil hhead) hkeyword
    · rw [dropKeyword_eq_self (not_exists.mp h)]
      exact .bare fun before _ => not_exists.mp h before

/-- What is found in an item without blanks at its start is its reading. -/
theorem split?_eq_some_iff_reading {item g w : List Char}
    (hhead : ∀ c ∈ item.head?, isBlank c = false) :
    split? item = some (g, w) ↔ Reading item g w := by
  constructor
  · intro h
    obtain ⟨before, rfl, hblank, hne, hchars, rfl⟩ := split?_eq_some_iff.mp h
    obtain ⟨gap, hgap, hbefore⟩ := hblank.exists_gap
    have hstart : ∀ c ∈ (trimEnd before).head?, isBlank c = false := by
      intro c hc
      refine hhead c ?_
      rw [hbefore, List.append_assoc]
      exact List.mem_head?_append_of_mem_head? hc
    have hreading := Reading.mk (not_endsBlank_iff.mpr (trimEnd_trimEnd before)) hgap hne hchars
      ((names_iff hstart).mpr rfl)
    rwa [← hbefore] at hreading
  · rintro ⟨hrest, hgap, hne, hchars, hnames⟩
    next rest gap =>
    have hstart : ∀ c ∈ rest.head?, isBlank c = false := by
      intro c hc
      refine hhead c ?_
      rw [List.append_assoc]
      exact List.mem_head?_append_of_mem_head? hc
    rw [split?_append (hgap.endsBlank_append rest) hne hchars, trimEnd_append hgap.2,
      not_endsBlank_iff.mp hrest, (names_iff hstart).mp hnames]

/-! ## The shortest cut -/

/-- What may stand between an expression and its alias: blanks, or blanks and the keyword. -/
inductive Separator : List Char → Prop
  | blanks {gap : List Char} : Gap gap → Separator gap
  | keyword {gap gap' : List Char} {a s : Char} : Gap gap → isA a → isS s → Gap gap' →
      Separator (gap ++ [a, s] ++ gap')

/-- The item is `g`, a separator and the word `w`. -/
def Splits (item g w : List Char) : Prop :=
  ∃ sep, item = g ++ sep ++ w ∧ Separator sep ∧ w ≠ [] ∧ ∀ c ∈ w, isAliasChar c

theorem dropKeyword_length_le (rest : List Char) : (dropKeyword rest).length ≤ rest.length := by
  by_cases h : ∃ before, EndsInKeyword before rest
  · obtain ⟨before, hkeyword⟩ := h
    rw [dropKeyword_of_endsInKeyword hkeyword]
    obtain ⟨gap, a, s, rfl, -⟩ := hkeyword
    have hle := (trimEnd_sublist before).length_le
    simp only [List.length_append]
    omega
  · rw [dropKeyword_eq_self (not_exists.mp h)]

theorem isBlank_of_isS {s : Char} (h : isS s) : isBlank s = false := by
  simp only [isS, Bool.or_eq_true, beq_iff_eq] at h
  rcases h with (rfl | rfl) | rfl <;> decide

/-- However an item is cut, the same word is found at its end, and no longer text before it. -/
theorem Splits.exists_split? {item g w : List Char} (h : Splits item g w) :
    ∃ shortest, split? item = some (shortest, w) ∧ shortest.length ≤ g.length := by
  obtain ⟨sep, rfl, hsep, hne, hchars⟩ := h
  cases hsep with
  | @blanks gap hgap =>
    refine ⟨_, split?_append (hgap.endsBlank_append g) hne hchars, ?_⟩
    rw [trimEnd_append hgap.2]
    exact (dropKeyword_length_le _).trans (trimEnd_sublist g).length_le
  | @keyword gap gap' a s hgap ha hs hgap' =>
    rw [← List.append_assoc]
    refine ⟨_, split?_append (hgap'.endsBlank_append _) hne hchars, ?_⟩
    have hend : trimEnd (g ++ (gap ++ [a, s])) = g ++ gap ++ [a, s] := by
      rw [← List.append_assoc]
      refine trimEnd_eq_self_iff.mpr ?_
      rw [List.append_cons, List.getLast?_concat]
      rintro _ ⟨⟩
      exact isBlank_of_isS hs
    rw [trimEnd_append hgap'.2, hend, dropKeyword_of_endsInKeyword ⟨gap, a, s, rfl, hgap, ha, hs⟩]
    exact (trimEnd_sublist g).length_le

/-- What is found is one of the cuts. -/
theorem splits_of_split?_eq_some {item g w : List Char} (h : split? item = some (g, w)) :
    Splits item g w := by
  obtain ⟨before, rfl, hblank, hne, hchars, rfl⟩ := split?_eq_some_iff.mp h
  obtain ⟨gap, hgap, hbefore⟩ := hblank.exists_gap
  by_cases hkeyword : ∃ front, EndsInKeyword front (trimEnd before)
  · obtain ⟨front, hkeyword⟩ := hkeyword
    rw [dropKeyword_of_endsInKeyword hkeyword]
    obtain ⟨gap₀, a, s, hrest, hgap₀, ha, hs⟩ := hkeyword
    have hfront : trimEnd front ++ front.rtakeWhile isBlank = front :=
      List.rdropWhile_append_rtakeWhile
    have hwide : Gap (front.rtakeWhile isBlank ++ gap₀) := by
      refine ⟨List.append_ne_nil_of_right_ne_nil _ hgap₀.1, fun c hc => ?_⟩
      rcases List.mem_append.mp hc with hc | hc
      · exact List.mem_rtakeWhile_imp hc
      · exact hgap₀.2 c hc
    refine ⟨_, ?_, .keyword hwide ha hs hgap, hne, hchars⟩
    have hcut : before = trimEnd front ++ front.rtakeWhile isBlank ++ gap₀ ++ [a, s] ++ gap := by
      rw [hfront, ← hrest, ← hbefore]
    nth_rewrite 1 [hcut]
    simp only [List.append_assoc]
  · rw [dropKeyword_eq_self (not_exists.mp hkeyword)]
    exact ⟨gap, by rw [← hbefore], .blanks hgap, hne, hchars⟩

/-- What is found is the cut with the shortest text before its separator. -/
theorem split?_eq_some_iff_shortest {item g w : List Char} : split? item = some (g, w) ↔
    Splits item g w ∧ ∀ g' w', Splits item g' w' → g.length ≤ g'.length := by
  constructor
  · intro h
    refine ⟨splits_of_split?_eq_some h, fun g' w' hcut => ?_⟩
    obtain ⟨shortest, hfound, hle⟩ := hcut.exists_split?
    obtain ⟨rfl, -⟩ := Prod.mk.inj (Option.some.inj (h.symm.trans hfound))
    exact hle
  · rintro ⟨hcut, hshortest⟩
    obtain ⟨shortest, hfound, hle⟩ := hcut.exists_split?
    have hcut' := splits_of_split?_eq_some hfound
    have hlength : g.length = shortest.length := (hshortest _ _ hcut').antisymm hle
    -- Both are the start of the item.
    obtain ⟨sep, hitem, -⟩ := hcut
    obtain ⟨sep', hitem', -⟩ := hcut'
    rw [hitem, List.append_assoc, List.append_assoc] at hitem'
    rw [hfound, (List.append_inj hitem' hlength).1]

/-! ## The alias of an item -/

/-- The text behind the last blank. -/
def lastWord (cs : List Char) : List Char := cs.rtakeWhile fun c => !isBlank c

/-- The text has a blank, and behind the last one stand characters of an alias only. -/
def EndsInAlias (cs : List Char) : Prop := (∃ c ∈ cs, isBlank c) ∧ ∀ c ∈ lastWord cs, isAliasChar c

instance (cs : List Char) : Decidable (EndsInAlias cs) :=
  decidable_of_iff (cs.any isBlank = true ∧ (lastWord cs).all isAliasChar = true)
    (and_congr List.any_eq_true List.all_eq_true)

theorem lastWord_append {before w : List Char} (hblank : EndsBlank before)
    (hw : ∀ c ∈ w, isBlank c = false) : lastWord (before ++ w) = w := by
  obtain ⟨b, hb, hbblank⟩ := hblank
  have hrun : ∀ c ∈ w.reverse, (!isBlank c) = true := fun c hc => by
    rw [hw c (List.mem_reverse.mp hc), Bool.not_false]
  have hstop : ∀ c ∈ before.reverse.head?, (!isBlank c) = false := by
    rw [List.head?_reverse, hb]
    rintro _ ⟨⟩
    rw [hbblank, Bool.not_true]
  rw [lastWord, List.rtakeWhile, List.reverse_append, (cut_append hrun hstop).1,
    List.reverse_reverse]

/-- A text with a blank is cut behind its last one. -/
theorem exists_append_lastWord {cs : List Char} (h : ∃ c ∈ cs, isBlank c) :
    ∃ before, cs = before ++ lastWord cs ∧ EndsBlank before := by
  have hcs : cs.rdropWhile (fun c => !isBlank c) ++ lastWord cs = cs :=
    List.rdropWhile_append_rtakeWhile
  have hne : cs.rdropWhile (fun c => !isBlank c) ≠ [] := by
    intro hnil
    obtain ⟨c, hc, hblank⟩ := h
    have := List.rdropWhile_eq_nil_iff.mp hnil c hc
    rw [hblank] at this
    cases this
  have hlast := List.rdropWhile_last_not _ _ hne
  rw [Bool.not_eq_true, Bool.not_eq_false'] at hlast
  exact ⟨_, hcs.symm, _, List.getLast?_eq_some_getLast hne, hlast⟩

/-- In a text without blanks at its ends an alias is found just if its last word is one. -/
theorem isSome_split?_iff {item : List Char} (htrim : trim item = item) :
    (split? item).isSome ↔ EndsInAlias item := by
  rw [Option.isSome_iff_exists]
  constructor
  · rintro ⟨⟨g, w⟩, h⟩
    obtain ⟨before, rfl, hblank, hne, hchars, -⟩ := split?_eq_some_iff.mp h
    rw [EndsInAlias, lastWord_append hblank fun c hc => isBlank_of_isAliasChar (hchars c hc)]
    obtain ⟨b, hb, hbblank⟩ := hblank
    exact ⟨⟨b, List.mem_append_left _ (List.mem_of_getLast? hb), hbblank⟩, hchars⟩
  · rintro ⟨hblank, hchars⟩
    obtain ⟨before, hitem, hbefore⟩ := exists_append_lastWord hblank
    have hne : lastWord item ≠ [] := by
      intro hnil
      rw [hnil, List.append_nil] at hitem
      obtain ⟨b, hb, hbblank⟩ := hbefore
      rw [← hitem] at hb
      rw [(trim_eq_self_iff.mp htrim).2 b hb] at hbblank
      cases hbblank
    have hfound := split?_append hbefore hne hchars
    rw [← hitem] at hfound
    exact ⟨_, hfound⟩

/-- An item is taken without the blanks around it. If its last word, behind a blank, is one of alias
characters, that is its alias, and the item's reading says what it names; each is quoted. Any other
item is quoted as it is. The reading is the first match of the pattern of an expression, as short as
can be, a separator and an alias up to the end. -/
theorem assign_quotes_reading (d : Dialect) (item : String) :
    let t := trim item.toList
    (EndsInAlias t → ∃ g, Reading t g (lastWord t)) ∧
      (∀ g w, Reading t g w → EndsInAlias t ∧ w = lastWord t ∧ assign d item =
        d.quoteColumnName (.ofList g) ++ " AS " ++ d.quoteColumnName (.ofList w)) ∧
      (¬ EndsInAlias t → assign d item = d.quoteColumnName (.ofList t)) ∧
      ∀ g w, Reading t g w ↔
        Splits t g w ∧ ∀ g' w', Splits t g' w' → g.length ≤ g'.length := by
  intro t
  have htrim : trim t = t := trim_trim item.toList
  have hreading {g w : List Char} : split? t = some (g, w) ↔ Reading t g w :=
    split?_eq_some_iff_reading (trim_eq_self_iff.mp htrim).1
  have hword {g w : List Char} (h : split? t = some (g, w)) : w = lastWord t := by
    obtain ⟨before, ht, hblank, -, hchars, -⟩ := split?_eq_some_iff.mp h
    rw [ht, lastWord_append hblank fun c hc => isBlank_of_isAliasChar (hchars c hc)]
  refine ⟨fun halias => ?_, fun g w h => ?_, fun hno => ?_, fun g w => ?_⟩
  · obtain ⟨⟨g, w⟩, hfound⟩ := Option.isSome_iff_exists.mp ((isSome_split?_iff htrim).mpr halias)
    exact ⟨g, hword hfound ▸ hreading.mp hfound⟩
  · have hfound := hreading.mpr h
    refine ⟨(isSome_split?_iff htrim).mp (hfound ▸ rfl), hword hfound, ?_⟩
    rw [assign, hfound]
    rfl
  · have hnone : split? t = none :=
      Option.not_isSome_iff_eq_none.mp (mt (isSome_split?_iff htrim).mp hno)
    rw [assign, hnone]
  · rw [← hreading, split?_eq_some_iff_shortest]

/-- Of two keywords the last one is dropped, here with a long s in it and a wide blank before it. -/
theorem assign_quotes_reading_repeated_keyword :
    EndsInAlias "p.name as \u3000aſ n-m".toList ∧
      Reading "p.name as \u3000aſ n-m".toList "p.name as".toList "n-m".toList ∧
      assign .default " p.name as \u3000aſ n-m " = "`p`.`name as` AS `n-m`" ∧
      ¬ EndsInAlias "a b`".toList ∧ assign .default "a b`" = "a b`" := by
  have halias : EndsInAlias "p.name as \u3000aſ n-m".toList := by decide +kernel
  have hreading : Reading "p.name as \u3000aſ n-m".toList "p.name as".toList "n-m".toList :=
    (split?_eq_some_iff_reading (trim_eq_self_iff.mp (by decide)).1).mp (by decide +kernel)
  have hno : ¬ EndsInAlias "a b`".toList := by decide +kernel
  obtain ⟨-, hnamed, -⟩ := assign_quotes_reading .default " p.name as \u3000aſ n-m "
  obtain ⟨-, -, hplain, -⟩ := assign_quotes_reading .default "a b`"
  have htrim : trim " p.name as \u3000aſ n-m ".toList = "p.name as \u3000aſ n-m".toList := by decide
  have htrim' : trim "a b`".toList = "a b`".toList := by decide
  rw [htrim] at hnamed
  rw [htrim'] at hplain
  obtain ⟨-, -, hassign⟩ := hnamed _ _ hreading
  refine ⟨halias, hreading, hassign.trans ?_, hno, (hplain hno).trans ?_⟩ <;> decide +kernel

end Alias

end PackedColumn

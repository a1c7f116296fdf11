import PackedColumn.Proofs.Offset
import PackedColumn.Proofs.TrailingWord

/-!
# Quoted names

A name that is no expression is quoted part by part (`toList_quoteColumnName`), and `Quoted` says
that each part is one that stays as it is: the star, or a part with an identifier quote in it. A
quoted name is not quoted again (`quoteColumnName_of_quoted`), and text behind it leaves it quoted
if a quote stands in each part of that text (`Quoted.append`).

A quoted name starts as the name does, or with a quote (`exists_first`), and ends as the name does
from some quote on, or with a quote or a star (`exists_last`). None of these characters is a blank
or a character of an alias. So an entry of a projection, put in for an item, has no alias to be
found and no blanks to be taken off.
-/

namespace PackedColumn

open Unicode

namespace Text

theorem splitOn_of_splitLast {sep : Char} {cs before after : List Char}
    (h : splitLast sep cs = some (before, after)) :
    cs.splitOn sep = before.splitOn sep ++ [after] := by
  obtain ⟨rfl, hno⟩ := splitLast_eq_some h
  rw [List.splitOn_append_cons_self, List.splitOn_eq_singleton hno]

theorem exists_intercalate_cons (sep part : List Char) (parts : List (List Char)) :
    ∃ rest, sep.intercalate (part :: parts) = part ++ rest := by
  cases parts with
  | nil => exact ⟨[], by rw [List.intercalate_singleton, List.append_nil]⟩
  | cons next parts =>
    exact ⟨_, by rw [List.intercalate_cons_cons, List.append_assoc]⟩

/-- Text without separators before a text becomes the start of its first part. -/
theorem exists_suffix_of_mem_splitOn {sep : Char} {front cs part : List Char} (hfront : sep ∉ front)
    (h : part ∈ (front ++ cs).splitOn sep) : ∃ tail ∈ cs.splitOn sep, tail <:+ part := by
  by_cases hsep : sep ∈ cs
  · obtain ⟨first, rest, rfl, hfirst⟩ := List.eq_append_cons_of_mem hsep
    have hno : sep ∉ front ++ first := List.mem_append.not.mpr (not_or.mpr ⟨hfront, hfirst⟩)
    rw [← List.append_assoc, List.splitOn_append_cons_self_of_not_mem hno] at h
    rw [List.splitOn_append_cons_self_of_not_mem hfirst]
    rcases List.mem_cons.mp h with rfl | h
    · exact ⟨first, List.mem_cons_self, List.suffix_append front first⟩
    · exact ⟨part, List.mem_cons_of_mem first h, List.suffix_rfl⟩
  · have hno : sep ∉ front ++ cs := List.mem_append.not.mpr (not_or.mpr ⟨hfront, hsep⟩)
    rw [List.splitOn_eq_singleton hno, List.mem_singleton] at h
    rw [List.splitOn_eq_singleton hsep]
    exact ⟨cs, List.mem_singleton_self cs, h ▸ List.suffix_append front cs⟩

end Text

open Text

namespace Dialect

/-- The text is an expression: it holds a parenthesis or the brackets of a placeholder. -/
def IsExpression (cs : List Char) : Prop := '(' ∈ cs ∨ hasPair '[' cs ∨ hasPair '{' cs

instance (cs : List Char) : Decidable (IsExpression cs) := inferInstanceAs (Decidable (_ ∨ _))

theorem IsExpression.append {cs : List Char} (h : IsExpression cs) (rest : List Char) :
    IsExpression (cs ++ rest) :=
  h.imp (List.mem_append_left rest) (Or.imp (hasPair_append · rest) (hasPair_append · rest))

theorem isExpression_iff {name : String} : IsExpression name.toList ↔
    (isCall name || hasPair '[' name.toList || hasPair '{' name.toList) = true := by
  simp only [IsExpression, isCall, Bool.or_eq_true, List.contains_iff_mem, or_assoc]

variable (d : Dialect) {name : String}

theorem quoteColumnName_of_isExpression (h : IsExpression name.toList) :
    d.quoteColumnName name = name := by
  rw [quoteColumnName, if_pos (isExpression_iff.mp h)]

/-! ## Parts -/

/-- A part of a name that stays as it is: the star, or one with an identifier quote in it. -/
def Kept (part : List Char) : Prop := part = ['*'] ∨ d.identifierQuote ∈ part

/-- A part of a name, quoted. -/
def quotePart (part : List Char) : List Char := (d.quoteSimpleName (.ofList part)).toList

variable {d} {part : List Char}

theorem quotePart_of_kept (h : d.Kept part) : d.quotePart part = part := by
  have hcond : String.ofList part = "*" ∨ d.identifierQuote ∈ (String.ofList part).toList := by
    rw [← String.toList_inj, String.toList_ofList]
    exact h
  rw [quotePart, quoteSimpleName, if_pos hcond, String.toList_ofList]

theorem quotePart_of_not_kept (h : ¬ d.Kept part) :
    d.quotePart part = d.identifierQuote :: (part ++ [d.identifierQuote]) := by
  have hcond : ¬ (String.ofList part = "*" ∨ d.identifierQuote ∈ (String.ofList part).toList) := by
    rw [← String.toList_inj, String.toList_ofList]
    exact h
  rw [quotePart, quoteSimpleName, if_neg hcond, String.toList_ofList, String.toList_ofList]

theorem quote_mem_quotePart (h : part ≠ ['*']) : d.identifierQuote ∈ d.quotePart part := by
  by_cases hkept : d.Kept part
  · rw [quotePart_of_kept hkept]
    exact hkept.resolve_left h
  · rw [quotePart_of_not_kept hkept]
    exact List.mem_cons_self

theorem kept_quotePart (part : List Char) : d.Kept (d.quotePart part) := by
  by_cases h : part = ['*']
  · rw [quotePart_of_kept (.inl h)]
    exact .inl h
  · exact .inr (quote_mem_quotePart h)

theorem mem_quotePart {c : Char} (h : c ∈ d.quotePart part) : c = d.identifierQuote ∨ c ∈ part := by
  by_cases hkept : d.Kept part
  · rw [quotePart_of_kept hkept] at h
    exact .inr h
  · rw [quotePart_of_not_kept hkept] at h
    simpa [or_comm, or_assoc] using h

/-! ## Names -/

variable (d)

/-- The text stays as it is as the name of a table: it holds a parenthesis or the braces of a
placeholder. -/
def IsTableExpression (cs : List Char) : Prop := '(' ∈ cs ∨ hasPair '{' cs

instance (cs : List Char) : Decidable (IsTableExpression cs) := inferInstanceAs (Decidable (_ ∨ _))

theorem IsTableExpression.isExpression {cs : List Char} (h : IsTableExpression cs) :
    IsExpression cs := h.imp_right .inr

theorem isTableExpression_iff : IsTableExpression name.toList ↔
    (isCall name || hasPair '{' name.toList) = true := by
  rw [IsTableExpression, isCall, Bool.or_eq_true, List.contains_iff_mem]

theorem quoteTableName_of_isTableExpression (h : IsTableExpression name.toList) :
    d.quoteTableName name = name := by
  rw [quoteTableName, if_pos (isTableExpression_iff.mp h)]

theorem toList_quoteTableName (h : ¬ IsTableExpression name.toList) :
    (d.quoteTableName name).toList =
      ['.'].intercalate ((name.toList.splitOn '.').map d.quotePart) := by
  rw [quoteTableName, if_neg (mt isTableExpression_iff.mpr h), String.toList_intercalate,
    List.map_map]
  rfl

/-- A name that is no expression is quoted as its table's name is: part by part. -/
theorem quoteColumnName_eq_quoteTableName (h : ¬ IsExpression name.toList) :
    d.quoteColumnName name = d.quoteTableName name := by
  have hname : ¬ IsTableExpression name.toList := mt IsTableExpression.isExpression h
  rw [quoteColumnName, if_neg (mt isExpression_iff.mpr h), quoteTableName,
    if_neg (mt isTableExpression_iff.mpr hname)]
  cases hsplit : splitLast '.' name.toList with
  | none =>
    rw [List.splitOn_eq_singleton (splitLast_eq_none_iff.mp hsplit), List.map_singleton,
      String.intercalate_singleton, String.ofList_toList]
  | some cut =>
    obtain ⟨table, column⟩ := cut
    have htable : ¬ IsTableExpression (String.ofList table).toList := by
      rw [String.toList_ofList]
      refine fun hexpr => h ?_
      rw [(splitLast_eq_some hsplit).1]
      exact hexpr.isExpression.append _
    have hparts : (table.splitOn '.').map (fun part => d.quoteSimpleName (.ofList part)) ≠ [] :=
      mt List.map_eq_nil_iff.mp (List.splitOn_ne_nil _ _)
    rw [splitOn_of_splitLast hsplit, List.map_append, List.map_singleton,
      String.intercalate_append_of_ne_nil hparts (List.cons_ne_nil _ _),
      String.intercalate_singleton]
    dsimp only
    rw [quoteTableName, if_neg (mt isTableExpression_iff.mpr htable), String.toList_ofList]

theorem toList_quoteColumnName (h : ¬ IsExpression name.toList) :
    (d.quoteColumnName name).toList =
      ['.'].intercalate ((name.toList.splitOn '.').map d.quotePart) := by
  rw [d.quoteColumnName_eq_quoteTableName h]
  exact d.toList_quoteTableName (mt IsTableExpression.isExpression h)

/-- Each part of the name is one that stays as it is. -/
def Quoted (cs : List Char) : Prop := ∀ part ∈ cs.splitOn '.', d.Kept part

variable {d} in
/-- The parts of a quoted name are not quoted again. -/
theorem intercalate_quotePart_of_quoted {cs : List Char} (h : d.Quoted cs) :
    ['.'].intercalate ((cs.splitOn '.').map d.quotePart) = cs := by
  have hparts : (cs.splitOn '.').map d.quotePart = (cs.splitOn '.').map id :=
    List.map_congr_left fun part hpart => quotePart_of_kept (h part hpart)
  rw [hparts, List.map_id, List.intercalate_splitOn]

/-- A quoted name is not quoted again. -/
theorem quoteColumnName_of_quoted (h : d.Quoted name.toList) : d.quoteColumnName name = name := by
  by_cases hexpr : IsExpression name.toList
  · exact d.quoteColumnName_of_isExpression hexpr
  · rw [← String.toList_inj, d.toList_quoteColumnName hexpr, intercalate_quotePart_of_quoted h]

/-- The parts of a name whose parts are quoted are the parts of the name, quoted. -/
theorem splitOn_intercalate_quotePart (hdot : d.identifierQuote ≠ '.') (cs : List Char) :
    (['.'].intercalate ((cs.splitOn '.').map d.quotePart)).splitOn '.' =
      (cs.splitOn '.').map d.quotePart := by
  refine List.splitOn_intercalate '.' ?_ (mt List.map_eq_nil_iff.mp (List.splitOn_ne_nil _ _))
  rintro _ hquoted hmem
  obtain ⟨part, hpart, rfl⟩ := List.mem_map.mp hquoted
  rcases mem_quotePart hmem with heq | hmem
  · exact hdot heq.symm
  · exact (mem_of_mem_splitOn hpart hmem).2 rfl

theorem splitOn_quoteColumnName (hdot : d.identifierQuote ≠ '.')
    (h : ¬ IsExpression name.toList) :
    (d.quoteColumnName name).toList.splitOn '.' = (name.toList.splitOn '.').map d.quotePart := by
  rw [d.toList_quoteColumnName h, d.splitOn_intercalate_quotePart hdot]

theorem quoted_quoteColumnName (hdot : d.identifierQuote ≠ '.') (h : ¬ IsExpression name.toList) :
    d.Quoted (d.quoteColumnName name).toList := by
  rw [Quoted, d.splitOn_quoteColumnName hdot h]
  exact List.forall_mem_map.mpr fun part _ => kept_quotePart part

/-- A name without stars has a quote in each part. -/
theorem quote_mem_of_mem_splitOn (hdot : d.identifierQuote ≠ '.') (h : ¬ IsExpression name.toList)
    (hstar : '*' ∉ name.toList) :
    ∀ part ∈ (d.quoteColumnName name).toList.splitOn '.', d.identifierQuote ∈ part := by
  rw [d.splitOn_quoteColumnName hdot h]
  refine List.forall_mem_map.mpr fun part hpart => quote_mem_quotePart ?_
  rintro rfl
  exact hstar (mem_of_mem_splitOn hpart List.mem_cons_self).1

variable {d} in
/-- Text with a quote in each part leaves a quoted name before it quoted. -/
theorem Quoted.append {xs ys : List Char} (h : d.Quoted xs)
    (hquote : ∀ part ∈ ys.splitOn '.', d.identifierQuote ∈ part) : d.Quoted (xs ++ ys) := by
  have hlast {front part : List Char} (hfront : '.' ∉ front)
      (hpart : part ∈ (front ++ ys).splitOn '.') : d.Kept part := by
    obtain ⟨tail, htail, hsuffix⟩ := exists_suffix_of_mem_splitOn hfront hpart
    exact .inr (hsuffix.subset (hquote tail htail))
  intro part hpart
  cases hsplit : splitLast '.' xs with
  | none => exact hlast (splitLast_eq_none_iff.mp hsplit) hpart
  | some cut =>
    obtain ⟨before, after⟩ := cut
    obtain ⟨hxs, hno⟩ := splitLast_eq_some hsplit
    rw [hxs, List.append_assoc, List.cons_append, List.splitOn_append_cons_self] at hpart
    rcases List.mem_append.mp hpart with hpart | hpart
    · refine h part ?_
      rw [splitOn_of_splitLast hsplit]
      exact List.mem_append_left _ hpart
    · exact hlast hno hpart

/-! ## The ends of a quoted name -/

/-- A quoted name starts with a quote, or as the name does. -/
theorem exists_first (name : String) : ∃ c rest, (d.quoteColumnName name).toList = c :: rest ∧
    (c = d.identifierQuote ∨ c ∈ name.toList.head?) := by
  by_cases h : IsExpression name.toList
  · rw [d.quoteColumnName_of_isExpression h]
    cases hname : name.toList with
    | nil => exact absurd (hname ▸ h) (by decide)
    | cons c rest => exact ⟨c, rest, rfl, .inr rfl⟩
  · obtain ⟨part, parts, hparts⟩ :=
      List.exists_cons_of_ne_nil (List.splitOn_ne_nil '.' name.toList)
    obtain ⟨front, hfront⟩ := exists_intercalate_cons ['.'] part parts
    obtain ⟨rest, hrest⟩ :=
      exists_intercalate_cons ['.'] (d.quotePart part) (parts.map d.quotePart)
    rw [← hparts, List.intercalate_splitOn] at hfront
    rw [d.toList_quoteColumnName h, hparts, List.map_cons, hrest, hfront]
    by_cases hkept : d.Kept part
    · rw [quotePart_of_kept hkept]
      cases part with
      | nil => rcases hkept with hstar | hquote <;> contradiction
      | cons c part => exact ⟨c, part ++ rest, rfl, .inr rfl⟩
    · rw [quotePart_of_not_kept hkept]
      exact ⟨_, _, rfl, .inl rfl⟩

/-- A quoted name ends in the quoted last part of the name. -/
theorem exists_last_part (h : ¬ IsExpression name.toList) : ∃ front before part,
    name.toList = front ++ part ∧
      (d.quoteColumnName name).toList = before ++ d.quotePart part := by
  rw [quoteColumnName, if_neg (mt isExpression_iff.mpr h)]
  cases hsplit : splitLast '.' name.toList with
  | none => exact ⟨[], [], name.toList, rfl, by rw [quotePart, String.ofList_toList]; rfl⟩
  | some cut =>
    obtain ⟨table, column⟩ := cut
    refine ⟨table ++ ['.'], _, column, ?_, by rw [String.toList_append, quotePart]⟩
    rw [(splitLast_eq_some hsplit).1, List.append_assoc]
    rfl

/-- From some quote or star on a quoted name ends as the name does, or ends there. -/
theorem exists_last (h : ¬ IsExpression name.toList) : ∃ before c after,
    (d.quoteColumnName name).toList = before ++ c :: after ∧ (c = d.identifierQuote ∨ c = '*') ∧
      (after = [] ∨ ∃ front, name.toList = front ++ c :: after) := by
  obtain ⟨front, before, part, hname, hquoted⟩ := d.exists_last_part h
  rw [hname, hquoted]
  by_cases hkept : d.Kept part
  · rw [quotePart_of_kept hkept]
    rcases hkept with rfl | hquote
    · exact ⟨before, '*', [], rfl, .inr rfl, .inl rfl⟩
    · obtain ⟨start, after, rfl⟩ := List.append_of_mem hquote
      exact ⟨before ++ start, _, after, (List.append_assoc ..).symm, .inl rfl,
        .inr ⟨front ++ start, (List.append_assoc ..).symm⟩⟩
  · rw [quotePart_of_not_kept hkept]
    exact ⟨before ++ d.identifierQuote :: part, _, [], by simp, .inl rfl, .inl rfl⟩

end Dialect

namespace Alias

open Dialect

/-- An alias is looked for behind the last character that is neither a blank nor one of an
alias. -/
theorem split?_eq_none_append_iff {c : Char} (hblank : isBlank c = false)
    (hchar : isAliasChar c = false) (before after : List Char) :
    split? (before ++ c :: after) = none ↔ split? after = none := by
  rw [← Option.not_isSome_iff_eq_none, ← Option.not_isSome_iff_eq_none, not_iff_not,
    Option.isSome_iff_exists, Option.isSome_iff_exists]
  constructor
  · rintro ⟨⟨g, w⟩, h⟩
    obtain ⟨front, hcut, hfront, hne, hchars, -⟩ := split?_eq_some_iff.mp h
    obtain ⟨z, rfl, rfl⟩ :=
      exists_append_of_not_mem_right (not_mem_of_forall hchars hchar) hcut.symm
    have hz : EndsBlank z := by
      obtain ⟨b, hb, hbblank⟩ := hfront
      rw [List.getLast?_append_cons] at hb
      cases z with
      | nil =>
        rw [List.getLast?_singleton] at hb
        obtain rfl := Option.some.inj hb
        rw [hblank] at hbblank
        cases hbblank
      | cons a z => exact ⟨b, by rwa [List.getLast?_cons_cons] at hb, hbblank⟩
    exact ⟨_, split?_append hz hne hchars⟩
  · rintro ⟨⟨g, w⟩, h⟩
    obtain ⟨front, rfl, hfront, hne, hchars, -⟩ := split?_eq_some_iff.mp h
    have hcut : before ++ c :: (front ++ w) = (before ++ c :: front) ++ w := by simp
    rw [hcut]
    exact ⟨_, split?_append ((hfront.append [c]).append before) hne hchars⟩

/-- The identifier quote is neither a blank nor a character of an alias. -/
structure QuoteApart (d : Dialect) : Prop where
  isBlank_eq : isBlank d.identifierQuote = false
  isAliasChar_eq : isAliasChar d.identifierQuote = false

variable {d : Dialect} {name : String}

theorem QuoteApart.ne_dot (hq : QuoteApart d) : d.identifierQuote ≠ '.' := by
  intro h
  have hchar := hq.isAliasChar_eq
  rw [h] at hchar
  revert hchar
  decide

/-- From some character on that no alias holds, a quoted name ends as the name does, or ends
there. -/
theorem QuoteApart.exists_end (hq : QuoteApart d) (h : ¬ IsExpression name.toList) :
    ∃ before c after, (d.quoteColumnName name).toList = before ++ c :: after ∧
      isBlank c = false ∧ isAliasChar c = false ∧
      (after = [] ∨ ∃ front, name.toList = front ++ c :: after) := by
  obtain ⟨before, c, after, hquoted, rfl | rfl, hafter⟩ := d.exists_last h
  · exact ⟨before, _, after, hquoted, hq.isBlank_eq, hq.isAliasChar_eq, hafter⟩
  · exact ⟨before, _, after, hquoted, by decide, by decide, hafter⟩

theorem QuoteApart.exists_start (hq : QuoteApart d)
    (hstart : ∀ c ∈ name.toList.head?, isBlank c = false) :
    ∃ c rest, (d.quoteColumnName name).toList = c :: rest ∧ isBlank c = false := by
  obtain ⟨c, rest, hquoted, rfl | hc⟩ := d.exists_first name
  · exact ⟨_, rest, hquoted, hq.isBlank_eq⟩
  · exact ⟨c, rest, hquoted, hstart c hc⟩

theorem QuoteApart.quoteColumnName_idem (hq : QuoteApart d) (name : String) :
    d.quoteColumnName (d.quoteColumnName name) = d.quoteColumnName name := by
  by_cases h : IsExpression name.toList
  · rw [d.quoteColumnName_of_isExpression h, d.quoteColumnName_of_isExpression h]
  · exact d.quoteColumnName_of_quoted (d.quoted_quoteColumnName hq.ne_dot h)

theorem trim_quoteColumnName (hq : QuoteApart d) (h : trim name.toList = name.toList) :
    trim (d.quoteColumnName name).toList = (d.quoteColumnName name).toList := by
  obtain ⟨hstart, hend⟩ := trim_eq_self_iff.mp h
  refine trim_eq_self_iff.mpr ⟨?_, ?_⟩
  · obtain ⟨c, rest, hquoted, hc⟩ := hq.exists_start hstart
    rw [hquoted]
    rintro _ ⟨⟩
    exact hc
  · by_cases hexpr : IsExpression name.toList
    · rwa [d.quoteColumnName_of_isExpression hexpr]
    · obtain ⟨before, c, after, hquoted, hc, -, rfl | ⟨front, hname⟩⟩ := hq.exists_end hexpr
      · rw [hquoted, List.getLast?_concat]
        rintro _ ⟨⟩
        exact hc
      · rwa [hquoted, List.getLast?_append_cons, ← List.getLast?_append_cons front, ← hname]

theorem split?_quoteColumnName (hq : QuoteApart d) (h : split? name.toList = none) :
    split? (d.quoteColumnName name).toList = none := by
  by_cases hexpr : IsExpression name.toList
  · rwa [d.quoteColumnName_of_isExpression hexpr]
  · obtain ⟨before, c, after, hquoted, hc, hchar, hafter⟩ := hq.exists_end hexpr
    rw [hquoted, split?_eq_none_append_iff hc hchar]
    rcases hafter with rfl | ⟨front, hname⟩
    · rfl
    · rwa [hname, split?_eq_none_append_iff hc hchar] at h

/-! ## Items that are put in again -/

/-- An item stays as it is that has no blanks at its ends, no alias to be found and no name to be
quoted. -/
theorem assign_eq_self {item : String} (htrim : trim item.toList = item.toList)
    (hnone : split? item.toList = none) (hquoted : d.quoteColumnName item = item) :
    assign d item = item := by
  rw [assign, htrim, hnone]
  dsimp only
  rw [String.ofList_toList, hquoted]

theorem not_isExpression_of_forall_isAliasChar {w : List Char} (h : ∀ c ∈ w, isAliasChar c) :
    ¬ IsExpression w := by
  rintro (hmem | hpair | hpair)
  · exact not_mem_of_forall h (by decide) hmem
  · exact not_mem_of_forall h (by decide) (mem_of_hasPair hpair)
  · exact not_mem_of_forall h (by decide) (mem_of_hasPair hpair)

/-- A quoted name under a quoted alias stays as it is. -/
theorem assign_named (hq : QuoteApart d) {expression word : String}
    (hstart : ∀ c ∈ expression.toList.head?, isBlank c = false)
    (hchars : ∀ c ∈ word.toList, isAliasChar c) :
    assign d (named d (d.quoteColumnName expression) word) =
      named d (d.quoteColumnName expression) word := by
  have hword := not_isExpression_of_forall_isAliasChar hchars
  have hlist : (named d (d.quoteColumnName expression) word).toList =
      (d.quoteColumnName expression).toList ++
        (" AS ".toList ++ (d.quoteColumnName word).toList) := by
    rw [named, String.toList_append, String.toList_append, List.append_assoc]
  obtain ⟨first, rest, hfirst, hblank⟩ := hq.exists_start hstart
  obtain ⟨before, c, after, hlast, hc, hchar, hafter⟩ := hq.exists_end hword
  -- The alias holds no such character itself, so the entry ends in one and none is found behind it.
  have hnil : after = [] := hafter.resolve_right fun ⟨front, hname⟩ =>
    not_mem_of_forall hchars hchar (hname ▸ List.mem_append_right front List.mem_cons_self)
  have hend : (named d (d.quoteColumnName expression) word).toList =
      ((d.quoteColumnName expression).toList ++ (" AS ".toList ++ before)) ++ [c] := by
    rw [hlist, hlast, hnil]
    simp only [List.append_assoc]
  refine assign_eq_self (trim_eq_self_iff.mpr ⟨?_, ?_⟩) ?_ ?_
  · rw [hlist, hfirst]
    rintro _ ⟨⟩
    exact hblank
  · rw [hend, List.getLast?_concat]
    rintro _ ⟨⟩
    exact hc
  · rw [hend, split?_eq_none_append_iff hc hchar]
    rfl
  -- An expression makes the entry one; any other name is quoted, and the alias has no part that is
  -- not.
  · by_cases hexpr : IsExpression expression.toList
    · refine d.quoteColumnName_of_isExpression ?_
      rw [hlist, d.quoteColumnName_of_isExpression hexpr]
      exact hexpr.append _
    · refine d.quoteColumnName_of_quoted ?_
      rw [hlist]
      refine (d.quoted_quoteColumnName hq.ne_dot hexpr).append fun part hpart => ?_
      obtain ⟨tail, htail, hsuffix⟩ := exists_suffix_of_mem_splitOn (by decide) hpart
      have hstar : '*' ∉ word.toList := not_mem_of_forall hchars (by decide)
      exact hsuffix.subset (d.quote_mem_of_mem_splitOn hq.ne_dot hword hstar tail htail)

/-- An entry of a projection that is put in for an item stays as it is. -/
theorem assign_assign_of_quoteApart (hq : QuoteApart d) (item : String) :
    assign d (assign d item) = assign d item := by
  have htrim : trim (trim item.toList) = trim item.toList := trim_trim item.toList
  cases hsplit : split? (trim item.toList) with
  | none =>
    have hassign : assign d item = d.quoteColumnName (.ofList (trim item.toList)) := by
      rw [assign, hsplit]
    rw [hassign]
    refine assign_eq_self (trim_quoteColumnName hq ?_) (split?_quoteColumnName hq ?_)
      (hq.quoteColumnName_idem _) <;> rwa [String.toList_ofList]
  | some found =>
    obtain ⟨expression, word⟩ := found
    have hassign : assign d item =
        named d (d.quoteColumnName (.ofList expression)) (.ofList word) := by
      rw [assign, hsplit]
    obtain ⟨sep, hitem, -, -, hchars⟩ := splits_of_split?_eq_some hsplit
    rw [hassign]
    refine assign_named hq ?_ ?_
    · intro c hc
      refine (trim_eq_self_iff.mp htrim).1 c ?_
      rw [String.toList_ofList] at hc
      rw [hitem, List.append_assoc]
      exact List.mem_head?_append_of_mem_head? hc
    · rwa [String.toList_ofList]

/-- With the names of the default dialect, an entry of a projection that is put in for an item gains
neither a second alias nor further quotes. -/
theorem assign_assign (item : String) :
    assign .default (assign .default item) = assign .default item :=
  assign_assign_of_quoteApart ⟨by decide, by decide⟩ item

-- A part with one quote in it stays as it is, and so does the star.
example : assign .default "p.`x y.* n" = "`p`.`x y.* AS `n`" := by decide +kernel

end Alias

end PackedColumn

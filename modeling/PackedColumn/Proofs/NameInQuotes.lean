import PackedColumn.Proofs.QuotedName

/-!
# Names within quotes

A name is cut at its dots before any quote in it is looked at. So the quotes around a name guard its
first and its last part only: what stands between the first and the last dot (`innerParts`) has no
quote in it, and is quoted once more unless it is the star (`quoted_inQuotes_iff`).

A name that is no expression stays as it is exactly when each of its parts does
(`quoteColumnName_eq_self_iff`, `quoteTableName_eq_self_iff`). So a name within quotes stays as it
is if it has one dot or none, and of longer names only those do that are expressions or have
nothing but stars between their ends (`inQuotes_kept_iff`).
-/

namespace PackedColumn

namespace Text

/-- A character stands twice in a row somewhere if the pair is a part of the text. -/
theorem hasPair_iff {c : Char} {cs : List Char} : hasPair c cs ↔ [c, c] <:+: cs := by
  induction cs using hasPair.induct with
  | case1 a b rest ih =>
    have hstep : [c, c] <:+: a :: b :: rest ↔
        [c, c] <+: a :: b :: rest ∨ [c, c] <:+: b :: rest := List.infix_cons_iff
    rw [hasPair, Bool.or_eq_true, Bool.and_eq_true, beq_iff_eq, beq_iff_eq, ih, hstep,
      List.cons_prefix_cons, List.cons_prefix_cons]
    simp only [List.nil_prefix, and_true, eq_comm]
  | case2 cs hshort =>
    have hnot : ¬ [c, c] <:+: cs := fun h => by
      have hlength : 2 ≤ cs.length := h.length_le
      cases cs with
      | nil => simp at hlength
      | cons a tail =>
        cases tail with
        | nil => simp at hlength
        | cons b rest => exact hshort a b rest rfl
    simp [hasPair, hnot]

/-- Two other characters around a text make no pair. -/
theorem hasPair_surround_iff {c q : Char} (hq : c ≠ q) (cs : List Char) :
    hasPair c (q :: (cs ++ [q])) ↔ hasPair c cs := by
  have hlone : c ∉ [q] := mt List.mem_singleton.mp hq
  rw [hasPair_iff, hasPair_iff]
  refine ⟨fun h => ?_, fun h => h.trans ⟨[q], [q], by simp⟩⟩
  by_contra hnot
  exact not_infix_pad hlone hlone hnot (by simpa using h)

/-- Text without separators behind a text becomes the end of its last part. -/
theorem exists_splitOn_append {sep : Char} {ys : List Char} (hys : sep ∉ ys) (cs : List Char) :
    ∃ last, (cs ++ ys).splitOn sep = (cs.splitOn sep).dropLast ++ [last ++ ys] := by
  cases hsplit : splitLast sep cs with
  | none =>
    have hno : sep ∉ cs := splitLast_eq_none_iff.mp hsplit
    have hboth : sep ∉ cs ++ ys := List.mem_append.not.mpr (not_or.mpr ⟨hno, hys⟩)
    refine ⟨cs, ?_⟩
    rw [List.splitOn_eq_singleton hno, List.splitOn_eq_singleton hboth]
    rfl
  | some cut =>
    obtain ⟨before, last⟩ := cut
    obtain ⟨hcs, hno⟩ := splitLast_eq_some hsplit
    have hboth : sep ∉ last ++ ys := List.mem_append.not.mpr (not_or.mpr ⟨hno, hys⟩)
    refine ⟨last, ?_⟩
    rw [splitOn_of_splitLast hsplit, List.dropLast_concat, hcs, List.append_assoc,
      List.cons_append, List.splitOn_append_cons_self, List.splitOn_eq_singleton hboth]

/-- The parts of a name between its first and its last dot. -/
def innerParts (cs : List Char) : List (List Char) := (cs.splitOn '.').tail.dropLast

end Text

open Text

namespace Dialect

variable (d : Dialect) {name : String} {cs : List Char}

/-- The name between two identifier quotes. -/
def inQuotes (name : String) : String :=
  .ofList (d.identifierQuote :: (name.toList ++ [d.identifierQuote]))

/-! ## Names that stay as they are -/

theorem intercalate_quotePart_eq_self_iff (hdot : d.identifierQuote ≠ '.') :
    ['.'].intercalate ((cs.splitOn '.').map d.quotePart) = cs ↔ d.Quoted cs := by
  refine ⟨fun h => ?_, intercalate_quotePart_of_quoted⟩
  have hparts := d.splitOn_intercalate_quotePart hdot cs
  rw [h] at hparts
  rw [Quoted, hparts]
  exact List.forall_mem_map.mpr fun part _ => kept_quotePart part

theorem quoteColumnName_eq_self_iff (hdot : d.identifierQuote ≠ '.') :
    d.quoteColumnName name = name ↔ IsExpression name.toList ∨ d.Quoted name.toList := by
  by_cases h : IsExpression name.toList
  · exact iff_of_true (d.quoteColumnName_of_isExpression h) (.inl h)
  · rw [← String.toList_inj, d.toList_quoteColumnName h, d.intercalate_quotePart_eq_self_iff hdot,
      or_iff_right h]

theorem quoteTableName_eq_self_iff (hdot : d.identifierQuote ≠ '.') :
    d.quoteTableName name = name ↔ IsTableExpression name.toList ∨ d.Quoted name.toList := by
  by_cases h : IsTableExpression name.toList
  · exact iff_of_true (d.quoteTableName_of_isTableExpression h) (.inl h)
  · rw [← String.toList_inj, d.toList_quoteTableName h, d.intercalate_quotePart_eq_self_iff hdot,
      or_iff_right h]

/-! ## Names within quotes -/

/-- Of a name within quotes all parts have a quote in them but those between the first and the last
dot. -/
theorem quoted_inQuotes_iff (hdot : d.identifierQuote ≠ '.')
    (hquote : d.identifierQuote ∉ name.toList) :
    d.Quoted (d.inQuotes name).toList ↔ ∀ part ∈ innerParts name.toList, part = ['*'] := by
  have hlone : '.' ∉ [d.identifierQuote] := fun h => hdot (List.mem_singleton.mp h).symm
  rw [inQuotes, String.toList_ofList]
  by_cases hmem : '.' ∈ name.toList
  · obtain ⟨first, rest, hname, hfirst⟩ := List.eq_append_cons_of_mem hmem
    have hstart : '.' ∉ d.identifierQuote :: first :=
      fun h => (List.mem_cons.mp h).elim (hdot ·.symm) hfirst
    obtain ⟨last, hlast⟩ := exists_splitOn_append hlone rest
    have hcut : d.identifierQuote :: (name.toList ++ [d.identifierQuote]) =
        (d.identifierQuote :: first) ++ '.' :: (rest ++ [d.identifierQuote]) := by
      rw [hname, List.append_assoc]
      rfl
    have hinner : innerParts name.toList = (rest.splitOn '.').dropLast := by
      rw [innerParts, hname, List.splitOn_append_cons_self_of_not_mem hfirst, List.tail_cons]
    rw [Quoted, hcut, List.splitOn_append_cons_self_of_not_mem hstart, hlast, hinner,
      List.forall_mem_cons, List.forall_mem_append, List.forall_mem_singleton]
    have hends : d.Kept (d.identifierQuote :: first) ∧ d.Kept (last ++ [d.identifierQuote]) :=
      ⟨.inr List.mem_cons_self, .inr (List.mem_append_right last List.mem_cons_self)⟩
    constructor
    · rintro ⟨-, hkept, -⟩ part hpart
      refine (hkept part hpart).resolve_right fun h => hquote ?_
      have hrest := (mem_of_mem_splitOn ((List.dropLast_sublist _).subset hpart) h).1
      rw [hname]
      exact List.mem_append_right first (List.mem_cons_of_mem _ hrest)
    · exact fun h => ⟨hends.1, fun part hpart => .inl (h part hpart), hends.2⟩
  · have hno : '.' ∉ d.identifierQuote :: (name.toList ++ [d.identifierQuote]) := by
      rw [List.mem_cons, List.mem_append]
      rintro (h | h | h)
      · exact hdot h.symm
      · exact hmem h
      · exact hlone h
    rw [Quoted, List.splitOn_eq_singleton hno, innerParts, List.splitOn_eq_singleton hmem,
      List.forall_mem_singleton]
    exact iff_of_true (.inr List.mem_cons_self) fun part hpart => (List.not_mem_nil hpart).elim

/-- Quotes make no expression of a name, and take none away. -/
theorem isExpression_inQuotes_iff (hcall : d.identifierQuote ≠ '(')
    (hbracket : d.identifierQuote ≠ '[') (hbrace : d.identifierQuote ≠ '{') :
    IsExpression (d.inQuotes name).toList ↔ IsExpression name.toList := by
  rw [inQuotes, String.toList_ofList, IsExpression, IsExpression,
    hasPair_surround_iff hbracket.symm, hasPair_surround_iff hbrace.symm]
  simp [hcall.symm]

theorem isTableExpression_inQuotes_iff (hcall : d.identifierQuote ≠ '(')
    (hbrace : d.identifierQuote ≠ '{') :
    IsTableExpression (d.inQuotes name).toList ↔ IsTableExpression name.toList := by
  rw [inQuotes, String.toList_ofList, IsTableExpression, IsTableExpression,
    hasPair_surround_iff hbrace.symm]
  simp [hcall.symm]

/-- A name within the quotes of the default dialect stays as it is exactly if it is an expression,
or nothing but stars stands between its first and its last dot. -/
theorem inQuotes_kept_iff (h : '`' ∉ name.toList) :
    (default.quoteColumnName (default.inQuotes name) = default.inQuotes name ↔
        IsExpression name.toList ∨ ∀ part ∈ innerParts name.toList, part = ['*']) ∧
      (default.quoteTableName (default.inQuotes name) = default.inQuotes name ↔
        IsTableExpression name.toList ∨ ∀ part ∈ innerParts name.toList, part = ['*']) := by
  have hdot : default.identifierQuote ≠ '.' := by decide
  constructor
  · rw [default.quoteColumnName_eq_self_iff hdot, default.quoted_inQuotes_iff hdot h,
      default.isExpression_inQuotes_iff (by decide) (by decide) (by decide)]
  · rw [default.quoteTableName_eq_self_iff hdot, default.quoted_inQuotes_iff hdot h,
      default.isTableExpression_inQuotes_iff (by decide) (by decide)]

/-- Blanks, another quote, one dot and a star between two dots change nothing. -/
theorem inQuotes_kept_star_between :
    let name := "my table.*.it's"
    '`' ∉ name.toList ∧ default.inQuotes name = "`my table.*.it's`" ∧
      default.quoteColumnName "`my table.*.it's`" = "`my table.*.it's`" ∧
      default.quoteTableName "`my table.*.it's`" = "`my table.*.it's`" := by
  intro name
  have hquote : '`' ∉ name.toList := by decide
  have hname : default.inQuotes name = "`my table.*.it's`" := by decide +kernel
  have hinner : ∀ part ∈ innerParts name.toList, part = ['*'] := by decide +kernel
  obtain ⟨hcolumn, htable⟩ := inQuotes_kept_iff hquote
  rw [hname] at hcolumn htable
  exact ⟨hquote, hname, hcolumn.mpr (.inr hinner), htable.mpr (.inr hinner)⟩

/-- A name with two dots in its quotes is quoted once more in the middle. -/
theorem inQuotes_requoted :
    let name := "a.b.c"
    '`' ∉ name.toList ∧ default.inQuotes name = "`a.b.c`" ∧
      default.quoteColumnName "`a.b.c`" = "`a.`b`.c`" ∧
      default.quoteTableName "`a.b.c`" = "`a.`b`.c`" ∧
      default.quoteColumnName (default.inQuotes name) ≠ default.inQuotes name ∧
      default.quoteTableName (default.inQuotes name) ≠ default.inQuotes name := by
  decide +kernel

end Dialect

end PackedColumn

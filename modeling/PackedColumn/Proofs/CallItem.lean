import PackedColumn.Alias
import PackedColumn.Proofs.Blank

/-!
# Items with a call in them

The alias of an item is looked for from its right end. A closing parenthesis is neither a blank, nor
a character of an alias, nor a letter of the keyword, so what stands before one is not reached:
`trimEnd`, `dropKeyword` and `split?` work on the text from there on and leave the rest as it is
(`trimEnd_before`, `dropKeyword_before`, `split?_before`).

If an opening parenthesis stands before it, the expression of the item is a call and no name in it
is quoted. So the item is its text up to the closing parenthesis, less the blanks at its start, and
what `behindCall` makes of the text behind (`toList_assign_call`).
-/

namespace PackedColumn

open Unicode

namespace Text

/-- A run ends where a character of another kind stands. -/
theorem dropWhile_append_cons {p : Char → Bool} {c : Char} (hc : p c = false)
    (cs rest : List Char) : (cs ++ c :: rest).dropWhile p = cs.dropWhile p ++ c :: rest := by
  induction cs with
  | nil => simp [hc]
  | cons a cs ih => by_cases ha : p a <;> simp [ha, ih]

theorem takeWhile_append_cons {p : Char → Bool} {c : Char} (hc : p c = false)
    (cs rest : List Char) : (cs ++ c :: rest).takeWhile p = cs.takeWhile p := by
  induction cs with
  | nil => simp [hc]
  | cons a cs ih => by_cases ha : p a <;> simp [ha, ih]

theorem trimStart_before {c : Char} (hc : isBlank c = false) (cs rest : List Char) :
    trimStart (cs ++ c :: rest) = trimStart cs ++ c :: rest :=
  dropWhile_append_cons hc cs rest

theorem trimEnd_before {c : Char} (hc : isBlank c = false) (cs rest : List Char) :
    trimEnd (cs ++ c :: rest) = cs ++ c :: trimEnd rest := by
  have hreverse : (cs ++ c :: rest).reverse = rest.reverse ++ c :: cs.reverse := by simp
  rw [trimEnd, hreverse, dropWhile_append_cons hc, trimEnd]
  simp

theorem trimEnd_cons {c : Char} (hc : isBlank c = false) (rest : List Char) :
    trimEnd (c :: rest) = c :: trimEnd rest :=
  trimEnd_before hc [] rest

end Text

open Text

/-- A call is no name, and is not quoted. -/
theorem Dialect.quoteColumnName_of_isCall (d : Dialect) {name : String} (h : isCall name) :
    d.quoteColumnName name = name := by
  rw [quoteColumnName, h, Bool.true_or, Bool.true_or, if_pos rfl]

theorem Dialect.isCall_ofList {cs : List Char} (h : '(' ∈ cs) : isCall (.ofList cs) := by
  rw [isCall, String.toList_ofList]
  exact List.contains_iff_mem.mpr h

namespace Alias

/-- The keyword is looked for behind the last closing parenthesis only. -/
theorem dropKeyword_before (cs rest : List Char) :
    dropKeyword (cs ++ ')' :: rest) = cs ++ dropKeyword (')' :: rest) := by
  have hblank : isBlank ')' = false := by decide
  have hreverse : (cs ++ ')' :: rest).reverse = rest.reverse ++ ')' :: cs.reverse := by simp
  have hreverse' : (')' :: rest).reverse = rest.reverse ++ [')'] := List.reverse_cons
  unfold dropKeyword
  rw [hreverse, hreverse']
  -- The last three characters decide; the parenthesis, if it is one of them, decides against.
  match hrest : rest.reverse with
  | [] =>
    have hs : isS ')' = false := by decide
    cases hcs : cs.reverse with
    | nil => rfl
    | cons a before => cases before <;> simp [hs]
  | [s] =>
    have ha : isA ')' = false := by decide
    cases hcs : cs.reverse with
    | nil => rfl
    | cons a before => simp [ha]
  | [s, a] => simp [hblank]
  | s :: a :: blank :: before =>
    have hcut : (blank :: (before ++ ')' :: cs.reverse)).reverse =
        cs ++ ')' :: (blank :: before).reverse := by simp
    have hcut' : (blank :: (before ++ [')'])).reverse = ')' :: (blank :: before).reverse := by simp
    simp only [List.cons_append, hcut, hcut', trimEnd_before hblank, trimEnd_cons hblank]
    split <;> rfl

/-- The alias is looked for behind the last closing parenthesis only. -/
theorem split?_before (cs rest : List Char) :
    split? (cs ++ ')' :: rest) = (split? (')' :: rest)).map fun r => (cs ++ r.1, r.2) := by
  have hblank : isBlank ')' = false := by decide
  have hchar : isAliasChar ')' = false := by decide
  have hreverse : (cs ++ ')' :: rest).reverse = rest.reverse ++ ')' :: cs.reverse := by simp
  have hreverse' : (')' :: rest).reverse = rest.reverse ++ [')'] := List.reverse_cons
  unfold split?
  simp only [hreverse, hreverse', takeWhile_append_cons hchar, dropWhile_append_cons hchar]
  generalize (rest.reverse.takeWhile isAliasChar).reverse = word
  generalize rest.reverse.dropWhile isAliasChar = before
  have hcut : (before ++ ')' :: cs.reverse).reverse = cs ++ ')' :: before.reverse := by simp
  have hcut' : (before ++ [')']).reverse = ')' :: before.reverse := by simp
  have hlast : (cs ++ ')' :: before.reverse).getLast? = (')' :: before.reverse).getLast? := by
    rw [List.getLast?_append_of_ne_nil _ (List.cons_ne_nil _ _)]
  rw [hcut, hcut', hlast, trimEnd_before hblank, dropKeyword_before, trimEnd_cons hblank]
  split <;> rfl

/-- What becomes of the text from the last parenthesis of a call on. -/
def behindCall (d : Dialect) (rest : List Char) : List Char :=
  match split? (')' :: trimEnd rest) with
  | some (expression, word) => (named d (.ofList expression) (.ofList word)).toList
  | none => ')' :: trimEnd rest

/-- An item that holds a call keeps it, and only what stands behind it is looked at. -/
theorem toList_assign_call (d : Dialect) {cs : List Char} (hopen : '(' ∈ cs) (rest : List Char) :
    (assign d (.ofList (cs ++ ')' :: rest))).toList = trimStart cs ++ behindCall d rest := by
  have hblank : isBlank ')' = false := by decide
  have hmem : '(' ∈ trimStart cs := by
    obtain ⟨before, after, rfl⟩ := List.append_of_mem hopen
    rw [trimStart_before (by decide)]
    simp
  have hitem : trim (cs ++ ')' :: rest) = trimStart cs ++ ')' :: trimEnd rest := by
    rw [trim, trimStart_before hblank, trimEnd_before hblank]
  have hcall (tail : List Char) : d.quoteColumnName (.ofList (trimStart cs ++ tail)) =
      .ofList (trimStart cs ++ tail) :=
    d.quoteColumnName_of_isCall (Dialect.isCall_ofList (List.mem_append_left tail hmem))
  simp only [assign, String.toList_ofList, hitem, split?_before, behindCall]
  cases split? (')' :: trimEnd rest) with
  | none => simp only [Option.map_none, hcall, String.toList_ofList]
  | some found =>
    simp only [Option.map_some, hcall]
    simp [named]

end Alias

end PackedColumn

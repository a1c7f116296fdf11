import PackedColumn.Proofs.Contents
import PackedColumn.Proofs.Literal

/-!
# Where a string literal ends

A literal ends at the first quote behind an even run of backslashes. `IsBody quote body` says of the
text between the quotes that this quote is not in it and that it does not make the closing quote an
escaped one. The reader of a literal stops at just this quote (`exists_isBody_of_unescape?`), and it
reads no further than it: more text behind a literal leaves what is read alone
(`unescape?_append`).

So a literal that the dialect writes is read back to its end and not beyond, no shorter text is a
literal, and no two texts share one.
-/

namespace PackedColumn

open Marker (backslashes endsEscaped)

variable {quote : Char}

/-- What may stand between the quotes of a literal: each quote in it stands behind an odd run of
backslashes, and the closing quote behind an even one. -/
structure IsBody (quote : Char) (body : List Char) : Prop where
  escaped : ∀ before after, body = before ++ quote :: after → backslashes before % 2 = 1
  closed : backslashes body % 2 = 0

theorem isBody_iff {body : List Char} : IsBody quote body ↔
    (∀ before after, body = before ++ quote :: after → endsEscaped false before = true) ∧
      endsEscaped false body = false := by
  simp only [Marker.endsEscaped_false, decide_eq_true_eq, decide_eq_false_iff_not,
    Nat.mod_two_not_eq_one]
  exact ⟨fun h => ⟨h.escaped, h.closed⟩, fun h => ⟨h.1, h.2⟩⟩

/-- A character that is no quote and no backslash, in front of a body. -/
theorem IsBody.cons {body : List Char} (h : IsBody quote body) {c : Char} (hslash : c ≠ '\\')
    (hc : c ≠ quote) : IsBody quote (c :: body) := by
  rw [isBody_iff] at h ⊢
  have hplain : (c == '\\') = false := by simpa using hslash
  refine ⟨fun before after he => ?_, by simpa [hplain] using h.2⟩
  cases before with
  | nil => exact (hc (List.cons_eq_cons.mp he).1).elim
  | cons d before =>
    obtain ⟨rfl, rfl⟩ := List.cons_eq_cons.mp he
    simpa [hplain] using h.1 before after rfl

/-- An escaped character in front of a body. -/
theorem IsBody.cons_escaped {body : List Char} (h : IsBody quote body) (hquote : quote ≠ '\\')
    (c : Char) : IsBody quote ('\\' :: c :: body) := by
  rw [isBody_iff] at h ⊢
  refine ⟨fun before after he => ?_, by simpa using h.2⟩
  match before with
  | [] => exact (hquote (List.cons_eq_cons.mp he).1.symm).elim
  | [d] =>
    obtain ⟨rfl, -⟩ := List.cons_eq_cons.mp he
    rfl
  | d :: e :: before =>
    obtain ⟨rfl, htail⟩ := List.cons_eq_cons.mp he
    obtain ⟨rfl, rfl⟩ := List.cons_eq_cons.mp htail
    simpa using h.1 before after rfl

/-- The reader stops at the first quote behind an even run of backslashes. -/
theorem exists_isBody_of_unescape? (hquote : quote ≠ '\\') {cs text rest : List Char}
    (h : unescape? quote cs = some (text, rest)) :
    ∃ body, IsBody quote body ∧ cs = body ++ quote :: rest := by
  fun_induction unescape? quote cs generalizing text rest with
  | case1 => cases h
  | case2 c cs ih =>
    obtain ⟨⟨text', rest'⟩, hread, he⟩ := Option.map_eq_some_iff.mp h
    obtain ⟨rfl, rfl⟩ := Prod.mk.inj he
    obtain ⟨body, hbody, rfl⟩ := ih hread
    exact ⟨_, hbody.cons_escaped hquote c, rfl⟩
  | case3 cs hno =>
    obtain ⟨rfl, rfl⟩ := Prod.mk.inj (Option.some.inj h)
    exact ⟨[], ⟨by simp, rfl⟩, rfl⟩
  | case4 c cs hno hc ih =>
    obtain ⟨⟨text', rest'⟩, hread, he⟩ := Option.map_eq_some_iff.mp h
    obtain ⟨rfl, rfl⟩ := Prod.mk.inj he
    obtain ⟨body, hbody, rfl⟩ := ih hread
    refine ⟨_, hbody.cons ?_ hc, rfl⟩
    rintro rfl
    cases body with
    | nil => exact hno _ _ rfl rfl
    | cons d body => exact hno _ _ rfl rfl

/-- More text behind a literal is left where it is. -/
theorem unescape?_append (hquote : quote ≠ '\\') {cs text rest : List Char} (more : List Char)
    (h : unescape? quote cs = some (text, rest)) :
    unescape? quote (cs ++ more) = some (text, rest ++ more) := by
  fun_induction unescape? quote cs generalizing text rest with
  | case1 => cases h
  | case2 c cs ih =>
    obtain ⟨⟨text', rest'⟩, hread, he⟩ := Option.map_eq_some_iff.mp h
    obtain ⟨rfl, rfl⟩ := Prod.mk.inj he
    rw [List.cons_append, List.cons_append, unescape?, ih hread]
    rfl
  | case3 cs hno =>
    obtain ⟨rfl, rfl⟩ := Prod.mk.inj (Option.some.inj h)
    rw [List.cons_append, unescape?, if_pos rfl]
    exact fun _ _ he => (hquote he).elim
  | case4 c cs hno hc ih =>
    obtain ⟨⟨text', rest'⟩, hread, he⟩ := Option.map_eq_some_iff.mp h
    obtain ⟨rfl, rfl⟩ := Prod.mk.inj he
    cases cs with
    | nil => cases hread
    | cons d cs =>
      rw [List.cons_append, unescape?, if_neg hc, ih hread]
      · rfl
      · exact fun _ _ hslash _ => hno d cs hslash rfl

theorem unquote?_append (hquote : quote ≠ '\\') {cs text rest : List Char} (more : List Char)
    (h : unquote? quote cs = some (text, rest)) :
    unquote? quote (cs ++ more) = some (text, rest ++ more) := by
  cases cs with
  | nil => cases h
  | cons c cs =>
    rw [unquote?] at h
    split at h
    case isTrue hc => rw [List.cons_append, unquote?, if_pos hc, unescape?_append hquote more h]
    case isFalse => cases h

namespace Dialect

variable {d : Dialect}

/-- The body of a written literal. -/
theorem isBody_flatMap_escape (hquote : d.stringQuote ≠ '\\') (cs : List Char) :
    IsBody d.stringQuote (cs.flatMap d.escape) := by
  obtain ⟨body, hbody, he⟩ :=
    exists_isBody_of_unescape? hquote (unescape?_flatMap_escape hquote cs [])
  rwa [List.append_cancel_right he]

/-- A literal that is cut short is none. -/
theorem unquote?_eq_none_of_isPrefix (hquote : d.stringQuote ≠ '\\') {text : String}
    {start : List Char} (hstarts : start <+: (d.quoteString text).toList)
    (hproper : start ≠ (d.quoteString text).toList) : unquote? d.stringQuote start = none := by
  obtain ⟨more, hmore⟩ := hstarts
  refine Option.eq_none_iff_forall_ne_some.mpr fun ⟨read, rest⟩ hread => ?_
  -- What the reader makes of the cut literal, it would make of the whole one.
  have hwhole := unquote?_append hquote more hread
  rw [hmore, ← List.append_nil (d.quoteString text).toList, unquote?_quoteString hquote,
    Option.some_inj, Prod.mk.injEq] at hwhole
  have hnone : more = [] := (List.append_eq_nil_iff.mp hwhole.2.symm).2
  exact hproper (by rw [← hmore, hnone, List.append_nil])

/-- String literals are self-delimiting. -/
theorem quoteString_self_delimiting (hquote : d.stringQuote ≠ '\\') :
    (∀ (text : String) (rest : List Char),
      unquote? d.stringQuote ((d.quoteString text).toList ++ rest) = some (text.toList, rest)) ∧
    (∀ text : String, ∃ body, IsBody d.stringQuote body ∧
      (d.quoteString text).toList = d.stringQuote :: (body ++ [d.stringQuote])) ∧
    (∀ (text : String) (start : List Char), start <+: (d.quoteString text).toList →
      start ≠ (d.quoteString text).toList → unquote? d.stringQuote start = none) ∧
    (∀ (s t : String) (x y : List Char),
      (d.quoteString s).toList ++ x = (d.quoteString t).toList ++ y → s = t ∧ x = y) ∧
    Function.Injective d.quoteString ∧
    (∀ text : String, (Scalar.text text).literal d = d.quoteString text) := by
  refine ⟨unquote?_quoteString hquote, fun text => ?_,
    fun _ _ => unquote?_eq_none_of_isPrefix hquote, fun _ _ _ _ => quoteString_append_inj hquote,
    fun s t h => ?_, fun _ => rfl⟩
  · exact ⟨_, isBody_flatMap_escape hquote text.toList, toList_quoteString text⟩
  · exact (quoteString_append_inj (x := []) (y := []) hquote (by rw [h])).1

/-- Between double quotes, with such a quote between runs of backslashes, and a quote behind. -/
theorem quoteString_self_delimiting_runs :
    ({ Dialect.default with stringQuote := '"' } : Dialect).stringQuote ≠ '\\' ∧
    ({ Dialect.default with stringQuote := '"' } : Dialect).quoteString "\\\"\\\\" =
      "\"\\\\\\\"\\\\\\\\\"" ∧
    unquote? '"' ("\"\\\\\\\"\\\\\\\\\"".toList ++ ['"', '\\']) =
      some ("\\\"\\\\".toList, ['"', '\\']) ∧
    unquote? '"' "\"\\\\\\\"\\\\\\\\".toList = none := by
  have hwritten : ({ Dialect.default with stringQuote := '"' } : Dialect).quoteString
      "\\\"\\\\" = "\"\\\\\\\"\\\\\\\\\"" := by decide
  obtain ⟨hread, -, hcut, -⟩ :=
    quoteString_self_delimiting (d := { Dialect.default with stringQuote := '"' }) (by decide)
  refine ⟨by decide, hwritten, ?_, ?_⟩
  · have h := hread "\\\"\\\\" ['"', '\\']
    rwa [hwritten] at h
  · exact hcut "\\\"\\\\" _ ⟨['"'], by decide⟩ (by decide)

end Dialect

end PackedColumn

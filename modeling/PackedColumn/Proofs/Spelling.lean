import Mathlib.Data.Bool.AllAny
import PackedColumn.Proofs.LetterCase
import PackedColumn.Proofs.Named

/-!
# Types as they are written into SQL

A type is kept without the blanks that its text had around it and before its parameters. What is
written of it, as it was or in capitals, spells the type again (`Written.verbatim`,
`Written.inCapitals`), so a type that is read from what was written is the same type.

What is written is `Plain`: one word or two, and at most one list of digits, blanks and a comma. So
it is `Harmless`: no quote, backslash or semicolon is in it, and its parentheses are in pairs.
Whatever text a caller gives as a type, the expression that reads or writes the attribute holds no
casts but harmless ones and those that the dialect names itself (`castsAll_read`, `castsAll_write`).
-/

namespace PackedColumn

open Text Unicode

namespace Text

/-- Whether the parentheses are in pairs where `depth` of them are open before the text. -/
def balanced (depth : Nat) : List Char → Bool
  | [] => depth == 0
  | c :: rest =>
    if c = '(' then balanced (depth + 1) rest
    else if c = ')' then depth != 0 && balanced (depth - 1) rest
    else balanced depth rest

/-- What holds no parentheses leaves none open. -/
theorem balanced_append {cs : List Char} (hopen : '(' ∉ cs) (hclose : ')' ∉ cs) (depth : Nat)
    (rest : List Char) : balanced depth (cs ++ rest) = balanced depth rest := by
  induction cs with
  | nil => rfl
  | cons c cs ih =>
    rw [List.mem_cons, not_or] at hopen hclose
    rw [List.cons_append, balanced, if_neg (Ne.symm hopen.1), if_neg (Ne.symm hclose.1),
      ih hopen.2 hclose.2]

end Text

/-- A keyword is spelt in capitals too. -/
theorem TypeKeyword.Spells.map_toUpper {k : TypeKeyword} {w : List Char} (h : k.Spells w) :
    k.Spells (w.map Char.toUpper) := by
  rw [Spells, List.map_map, funext toUpper_toUpper (f := Char.toUpper ∘ Char.toUpper)]
  exact h

namespace SqlType

/-! ## Reading what is written -/

/-- The type with its keyword in capitals. -/
def inCapitals (t : SqlType) : SqlType :=
  { t with keywordText := t.keywordText.map Char.toUpper }

theorem normalized_eq (t : SqlType) : t.normalized = t.inCapitals.verbatim := rfl

theorem normalized_inCapitals (t : SqlType) : t.inCapitals.normalized = t.normalized := by
  have hword : (t.keywordText.map Char.toUpper).map Char.toUpper =
      t.keywordText.map Char.toUpper := by
    rw [← String.toList_inj, String.toList_map, String.toList_map, List.map_map]
    exact List.map_congr_left fun c _ => toUpper_toUpper c
  rw [normalized, normalized, inCapitals, hword]
  rfl

/-- What is kept of the words of a keyword spells it. -/
theorem Words.kept {words : List Char} {k : TypeKeyword} {text : String} (h : Words words k text) :
    Words text.toList k text := by
  cases h with
  | one hspells =>
    rw [String.toList_ofList]
    exact .one hspells
  | two hspells htakes _ _ hspells₂ hint =>
    have hspace : Blanks [' '] := by decide
    have hwords := Words.two hspells htakes hspace (List.cons_ne_nil _ _) hspells₂ hint
    rw [String.toList_ofList]
    simpa using hwords

theorem Words.map_toUpper {words : List Char} {k : TypeKeyword} {text : String}
    (h : Words words k text) :
    Words (text.map Char.toUpper).toList k (text.map Char.toUpper) := by
  have hmap (cs : List Char) : (String.ofList cs).map Char.toUpper =
      String.ofList (cs.map Char.toUpper) := by
    rw [← String.toList_inj]
    simp
  have hspace : ' '.toUpper = ' ' := by decide
  cases h with
  | one hspells =>
    rw [hmap]
    exact (Words.one hspells.map_toUpper).kept
  | two hspells htakes hblanks hne hspells₂ hint =>
    rw [hmap, List.map_append, List.map_cons, hspace]
    exact (Words.two hspells.map_toUpper htakes hblanks hne hspells₂.map_toUpper hint).kept

theorem Params.toList_getD {list : List Char} {params : Option String} {count : Nat}
    (h : Params list params count) : (params.getD "").toList = list := by
  cases h with
  | none => rfl
  | list _ => exact String.toList_ofList

/-- A type is written as it is spelt, but for blanks. -/
theorem Written.verbatim {cs : List Char} {t : SqlType} (h : Written cs t) :
    Written t.verbatim.toList t := by
  obtain ⟨hwords, -, hparams, hcount⟩ := h
  have hnone : Blanks [] := List.forall_mem_nil _
  rw [SqlType.verbatim, paramText, String.toList_append, hparams.toList_getD,
    ← List.append_nil (String.toList _)]
  exact .mk hwords.kept hnone hparams hcount

theorem Written.inCapitals {cs : List Char} {t : SqlType} (h : Written cs t) :
    Written t.inCapitals.verbatim.toList t.inCapitals := by
  obtain ⟨hwords, hblanks, hparams, hcount⟩ := h
  exact (Written.mk hwords.map_toUpper hblanks hparams hcount).verbatim

/-! ## What is written -/

/-- A word of letters. -/
def IsWord (cs : List Char) : Prop := cs ≠ [] ∧ ∀ c ∈ cs, isLetter c

/-- One word, or two with a space between them. -/
inductive PlainWords : List Char → Prop
  | one {w : List Char} : IsWord w → PlainWords w
  | two {w w₂ : List Char} : IsWord w → IsWord w₂ → PlainWords (w ++ ' ' :: w₂)

/-- Nothing, or digits, blanks and at most one comma in parentheses. -/
inductive PlainList : List Char → Prop
  | none : PlainList []
  | list {inner : List Char} : (∀ c ∈ inner, isDigit c ∨ isBlank c ∨ c = ',') →
      inner.count ',' ≤ 1 → PlainList ('(' :: (inner ++ [')']))

/-- One word or two, and at most one list. -/
inductive Plain : List Char → Prop
  | mk {words list : List Char} : PlainWords words → PlainList list → Plain (words ++ list)

/-- The characters that end a literal, a name or a statement, or take another's meaning. -/
def breakers : List Char := ['\'', '"', '`', '\\', ';']

/-- The text cannot break out of its place: it holds none of the breakers, and its parentheses are
in pairs. -/
structure Harmless (cs : List Char) : Prop where
  not_mem : ∀ c ∈ breakers, c ∉ cs
  balanced : Text.balanced 0 cs

theorem isWord_of_spells {k : TypeKeyword} {w : List Char} (h : k.Spells w) : IsWord w :=
  ⟨h.ne_nil, h.isLetter⟩

theorem Words.plain {words : List Char} {k : TypeKeyword} {text : String} (h : Words words k text) :
    PlainWords text.toList := by
  cases h with
  | one hspells =>
    rw [String.toList_ofList]
    exact .one (isWord_of_spells hspells)
  | two hspells _ _ _ hspells₂ _ =>
    rw [String.toList_ofList]
    exact .two (isWord_of_spells hspells) (isWord_of_spells hspells₂)

/-- A number is digits and blanks. -/
theorem Numeral.plain {n : List Char} (h : Numeral n) : ∀ c ∈ n, isDigit c ∨ isBlank c := by
  obtain ⟨hpre, -, hdigits, hpost⟩ := h
  intro c hc
  simp only [List.mem_append] at hc
  rcases hc with (hc | hc) | hc
  · exact .inr (hpre c hc)
  · exact .inl (hdigits c hc)
  · exact .inr (hpost c hc)

theorem Numeral.comma_not_mem {n : List Char} (h : Numeral n) : ',' ∉ n := fun hmem =>
  absurd (h.plain ',' hmem) (by decide)

theorem Params.plain {list : List Char} {params : Option String} {count : Nat}
    (h : Params list params count) : PlainList list := by
  cases h with
  | none => exact .none
  | list hlist =>
    cases hlist with
    | @one n hn =>
      refine .list (fun c hc => ?_) ?_
      · exact (hn.plain c hc).imp_right .inl
      · rw [List.count_eq_zero_of_not_mem hn.comma_not_mem]
        exact Nat.zero_le 1
    | @two n m hn hm =>
      have hcons : '(' :: (n ++ ',' :: (m ++ [')'])) = '(' :: ((n ++ ',' :: m) ++ [')']) := by simp
      rw [hcons]
      refine .list (fun c hc => ?_) ?_
      · simp only [List.mem_append, List.mem_cons] at hc
        rcases hc with hc | rfl | hc
        · exact (hn.plain c hc).imp_right .inl
        · exact .inr (.inr rfl)
        · exact (hm.plain c hc).imp_right .inl
      · simp [List.count_eq_zero_of_not_mem hn.comma_not_mem,
          List.count_eq_zero_of_not_mem hm.comma_not_mem]

theorem Written.plain {cs : List Char} {t : SqlType} (h : Written cs t) :
    Plain t.verbatim.toList := by
  obtain ⟨hwords, -, hparams, -⟩ := h
  rw [SqlType.verbatim, paramText, String.toList_append, hparams.toList_getD]
  exact .mk hwords.plain hparams.plain

/-! ## Nothing gets out of a cast -/

/-- The words hold letters and spaces. -/
theorem PlainWords.isLetter_or_eq {words : List Char} (h : PlainWords words) :
    ∀ c ∈ words, isLetter c ∨ c = ' ' := by
  cases h with
  | one hw => exact fun c hc => .inl (hw.2 c hc)
  | two hw hw₂ =>
    intro c hc
    rcases List.mem_append.mp hc with hc | hc
    · exact .inl (hw.2 c hc)
    · rcases List.mem_cons.mp hc with rfl | hc
      · exact .inr rfl
      · exact .inl (hw₂.2 c hc)

/-- The words start and end in letters. -/
theorem PlainWords.ends {words : List Char} (h : PlainWords words) :
    ∃ first last, words.head? = some first ∧ words.getLast? = some last ∧
      isLetter first ∧ isLetter last := by
  cases h with
  | one hw =>
    obtain ⟨hne, hletters⟩ := hw
    exact ⟨_, _, List.head?_eq_some_head hne, List.getLast?_eq_some_getLast hne,
      hletters _ (List.head_mem hne), hletters _ (List.getLast_mem hne)⟩
  | @two w w₂ hw hw₂ =>
    obtain ⟨hne, hletters⟩ := hw
    obtain ⟨hne₂, hletters₂⟩ := hw₂
    refine ⟨_, _, ?_, ?_, hletters _ (List.head_mem hne), hletters₂ _ (List.getLast_mem hne₂)⟩
    · rw [List.head?_append_of_ne_nil _ hne, List.head?_eq_some_head hne]
    · rw [List.getLast?_append_of_ne_nil _ (List.cons_ne_nil _ _),
        List.getLast?_cons_of_ne_nil hne₂, List.getLast?_eq_some_getLast hne₂]

/-- What is written has no blanks around it. -/
theorem Plain.trim_eq_self {cs : List Char} (h : Plain cs) : trim cs = cs := by
  obtain ⟨hwords, hlist⟩ := h
  obtain ⟨first, last, hfirst, hlast, hletter, hletter'⟩ := hwords.ends
  rw [trim_eq_self_iff]
  constructor
  · rw [List.head?_append, hfirst]
    rintro _ ⟨⟩
    exact isBlank_of_isLetter hletter
  · cases hlist with
    | none =>
      rw [List.append_nil, hlast]
      rintro _ ⟨⟩
      exact isBlank_of_isLetter hletter'
    | list =>
      have hclose : isBlank ')' = false := by decide
      rw [← List.cons_append, ← List.append_assoc, List.getLast?_concat]
      rintro _ ⟨⟩
      exact hclose

/-- The words hold no parentheses and nothing that could end them. -/
theorem PlainWords.not_mem {words : List Char} (h : PlainWords words) :
    ∀ c ∈ '(' :: ')' :: breakers, c ∉ words := by
  have hno : ∀ c ∈ '(' :: ')' :: breakers, ¬ (isLetter c ∨ c = ' ') :=
    List.all_iff_forall_prop.mp (by decide)
  exact fun c hc hmem => hno c hc (h.isLetter_or_eq c hmem)

theorem Plain.harmless {cs : List Char} (h : Plain cs) : Harmless cs := by
  obtain ⟨hwords, hlist⟩ := h
  have hno := hwords.not_mem
  have hopen : '(' ∉ _ := hno '(' (by decide)
  have hclose : ')' ∉ _ := hno ')' (by decide)
  cases hlist with
  | none =>
    constructor
    · intro c hc
      rw [List.append_nil]
      exact hno c (List.mem_cons_of_mem _ (List.mem_cons_of_mem _ hc))
    · rw [balanced_append hopen hclose]
      rfl
  | @list inner hchars =>
    have hinner : ∀ c ∈ '(' :: ')' :: breakers, c ∉ inner := by
      have hno : ∀ c ∈ '(' :: ')' :: breakers, ¬ (isDigit c ∨ isBlank c ∨ c = ',') :=
        List.all_iff_forall_prop.mp (by decide)
      exact fun c hc hmem => hno c hc (hchars c hmem)
    constructor
    · intro c hc hmem
      have hparens : ∀ c ∈ breakers, c ≠ '(' ∧ c ≠ ')' :=
        List.all_iff_forall_prop.mp (by decide)
      have hmore : c ∈ '(' :: ')' :: breakers := List.mem_cons_of_mem _ (List.mem_cons_of_mem _ hc)
      simp [hno c hmore, hinner c hmore, hparens c hc] at hmem
    · rw [balanced_append hopen hclose, balanced, if_pos rfl,
        balanced_append (hinner '(' (by decide)) (hinner ')' (by decide))]
      rfl

/-- A type is read from what is written of it. -/
theorem parse?_verbatim {cs : List Char} {t : SqlType} (h : Written cs t) :
    parse? t.verbatim = some t := by
  rw [parse?_eq_some_iff_written, h.plain.trim_eq_self]
  exact h.verbatim

theorem parse?_normalized {cs : List Char} {t : SqlType} (h : Written cs t) :
    parse? t.normalized = some t.inCapitals := by
  rw [normalized_eq]
  exact parse?_verbatim h.inCapitals

/-- In either case a type is written as one word or two, and at most one list. -/
theorem plain_render {text : String} {t : SqlType} (h : parse? text = some t) (case : TypeCase) :
    Plain (t.render case).toList := by
  have hwritten := parse?_eq_some_iff_written.mp h
  cases case with
  | verbatim => exact hwritten.plain
  | upper => exact hwritten.inCapitals.plain

end SqlType

/-! ## Casts of an expression -/

namespace Cast

/-- The cast is the dialect's own, or its text is harmless. -/
def Safe (d : Dialect) (cast : Cast) : Prop :=
  cast = intermediate ∨ cast = unnamed ∨ SqlType.Harmless (cast.render d).toList

/-- A type that some text spells is harmless in every dialect. -/
theorem safe_named (d : Dialect) {text : String} {t : SqlType} (h : SqlType.parse? text = some t) :
    (named t).Safe d :=
  .inr (.inr (SqlType.plain_render h d.typeCase).harmless)

theorem safe_ofType? (d : Dialect) (typeText? : Option String) :
    (ofType? (typeText?.bind SqlType.parse?)).Safe d := by
  cases htype : typeText?.bind SqlType.parse? with
  | none => exact .inr (.inl rfl)
  | some t =>
    obtain ⟨text, -, hparse⟩ := Option.bind_eq_some_iff.mp htype
    exact safe_named d hparse

/-- The type of a scalar for which none is named is spelt by a text as well. -/
theorem safe_defaultType (d : Dialect) (s : Scalar) : (named s.defaultType).Safe d := by
  have hinteger : SqlType.parse? "INTEGER" = some (.plain .integer) := by decide
  have hunsigned : SqlType.parse? "UNSIGNED INTEGER" =
      some ⟨.unsigned, "UNSIGNED INTEGER", none⟩ := by decide
  have hdouble : SqlType.parse? "DOUBLE" = some (.plain .double) := by decide
  have hchar : SqlType.parse? "CHAR" = some (.plain .char) := by decide
  cases s with
  | bool | integer => exact safe_named d hinteger
  | unsigned => exact safe_named d hunsigned
  | double => exact safe_named d hdouble
  | text => exact safe_named d hchar

end Cast

namespace Expr

mutual

/-- Every cast in the expression satisfies `p`. -/
def CastsAll (p : Cast → Prop) : Expr → Prop
  | column _ | literal _ | null => True
  | extract container _ cast => container.CastsAll p ∧ p cast
  | set container _ value cast => container.CastsAll p ∧ value.CastsAll p ∧ p cast
  | delete container _ => container.CastsAll p
  | create pairs => PairCastsAll p pairs

/-- Every cast in the entries satisfies `p`. -/
def PairCastsAll (p : Cast → Prop) : List (String × Expr × Cast) → Prop
  | [] => True
  | (_, value, cast) :: rest => value.CastsAll p ∧ p cast ∧ PairCastsAll p rest

end

variable {p : Cast → Prop} {e : Expr}

theorem castsAll_descend (h : p .intermediate) (he : e.CastsAll p) (keys : List String) :
    (e.descend keys).CastsAll p := by
  induction keys generalizing e with
  | nil => exact he
  | cons key rest ih => exact ih ⟨he, h⟩

theorem castsAll_rebuild (h : p .intermediate) {change : Expr → Expr}
    (hchange : ∀ e : Expr, e.CastsAll p → (change e).CastsAll p) (he : e.CastsAll p)
    (keys : List String) : (rebuild change keys e).CastsAll p := by
  induction keys generalizing e with
  | nil => exact hchange e he
  | cons key rest ih => exact ⟨he, ih ⟨he, h⟩, h⟩

variable (d : Dialect) (column : String) (path : Path) (typeText? : Option String)

/-- Reading an attribute as whatever text names a type casts safely. -/
theorem castsAll_read :
    ((Expr.column column).read path (typeText?.bind SqlType.parse?)).CastsAll (Cast.Safe d) := by
  have hcolumn : (Expr.column column).CastsAll (Cast.Safe d) := trivial
  exact ⟨castsAll_descend (.inl rfl) hcolumn path.parents, Cast.safe_ofType? d typeText?⟩

theorem castsAll_write (value : Value) : ((Expr.column column).write path value
    (typeText?.bind SqlType.parse?)).CastsAll (Cast.Safe d) := by
  have hcolumn : (Expr.column column).CastsAll (Cast.Safe d) := trivial
  refine castsAll_rebuild (.inl rfl) (fun e he => ?_) hcolumn path.parents
  cases value with
  | absent | null => exact he
  | scalar s =>
    refine ⟨he, trivial, ?_⟩
    cases htype : typeText?.bind SqlType.parse? with
    | none => exact Cast.safe_defaultType d s
    | some t =>
      have hsafe := Cast.safe_ofType? d typeText?
      rwa [htype] at hsafe

end Expr

/-! ## The result -/

/-- A type that a text spells is read again from what is written of it: the same type, or in
capitals the same but for the case of its keyword, so it is written the same again. What is written
is one word or two and at most one list, and harmless. So whatever text names the type, by a request
or in a marker, the expression for an attribute casts as the dialect says or harmlessly. -/
theorem SqlType.written_type_reads_back :
    (∀ text t, parse? text = some t →
      parse? t.verbatim = some t ∧
      parse? t.normalized = some { t with keywordText := t.keywordText.map Char.toUpper } ∧
      ∀ case, (∃ t', parse? (t.render case) = some t' ∧ t'.render case = t.render case) ∧
        Plain (t.render case).toList ∧ Harmless (t.render case).toList) ∧
    (∀ d column name path, Path.parse? name = some path → ∀ typeText? value,
      let reading := (Expr.column column).read path (typeText?.bind parse?)
      let writing := (Expr.column column).write path value (typeText?.bind parse?)
      (Access.readNamed d column name typeText?).outcome = .ok (reading.render d) ∧
        reading.CastsAll (Cast.Safe d) ∧
      (Access.writeNamed d column name value typeText?).outcome = .ok (writing.render d) ∧
        writing.CastsAll (Cast.Safe d)) ∧
    ∀ d column text, ∀ r ∈ Fragment.accessors d column text,
      let reading := (Expr.column column).read r.1.path r.1.type?
      r.2 = reading.render d ∧ reading.CastsAll (Cast.Safe d) := by
  refine ⟨fun text t h => ?_, fun d column name path hname typeText? value => ?_,
    fun d column text r hr => ?_⟩
  · have hwritten := parse?_eq_some_iff_written.mp h
    refine ⟨parse?_verbatim hwritten, parse?_normalized hwritten, fun case => ⟨?_, ?_, ?_⟩⟩
    · cases case with
      | verbatim => exact ⟨t, parse?_verbatim hwritten, rfl⟩
      | upper => exact ⟨t.inCapitals, parse?_normalized hwritten, normalized_inCapitals t⟩
    · exact plain_render h case
    · exact (plain_render h case).harmless
  · refine ⟨?_, Expr.castsAll_read d column path typeText?, ?_,
      Expr.castsAll_write d column path typeText? value⟩
    · rw [Access.outcome_readNamed d column hname, Access.value_namedType, Access.value_read]
    · rw [Access.outcome_writeNamed d column hname, Access.value_namedType, Access.value_write]
  · obtain ⟨m, -, rfl⟩ := List.mem_map.mp hr
    exact ⟨rfl, Expr.castsAll_read d column m.path m.typeText⟩

/-- Blanks and digits of any script stay inside the list; a type that is none leaves the cast to the
dialect. -/
theorem SqlType.written_type_reads_back_any_script :
    let t : SqlType := ⟨.decimal, "Decimal", some "(\u30006 ,\u0663)"⟩
    let path : Path := ⟨["a", "b"], by decide, by decide⟩
    parse? " Decimal\t(\u30006 ,\u0663) " = some t ∧ parse? "Decimal(\u30006 ,\u0663)" = some t ∧
      parse? "DECIMAL(\u30006 ,\u0663)" = some { t with keywordText := "DECIMAL" } ∧
      Path.parse? "a.b" = some path ∧
      (Access.readNamed .default "c" "a.b" (some "int); --")).outcome =
        .ok "COLUMN_GET(COLUMN_GET(c, 'a' AS BINARY), 'b' AS CHAR)" := by
  intro t path
  have hparse : parse? " Decimal\t(\u30006 ,\u0663) " = some t := by decide
  have hverbatim : t.verbatim = "Decimal(\u30006 ,\u0663)" := by decide
  have hcapitals : t.keywordText.map Char.toUpper = "DECIMAL" := by decide +kernel
  have hnormalized : t.normalized = "DECIMAL(\u30006 ,\u0663)" := by decide +kernel
  have hname : Path.parse? "a.b" = some path := by decide
  have hsql : (((Expr.column "c").read path ((some "int); --").bind parse?)).render .default) =
      "COLUMN_GET(COLUMN_GET(c, 'a' AS BINARY), 'b' AS CHAR)" := by decide +kernel
  obtain ⟨htypes, hrequests, -⟩ := written_type_reads_back
  obtain ⟨hsame, hupper, -⟩ := htypes _ t hparse
  obtain ⟨hread, -⟩ := hrequests .default "c" "a.b" path hname (some "int); --") .null
  rw [hverbatim] at hsame
  rw [hnormalized, hcapitals] at hupper
  rw [hsql] at hread
  exact ⟨hparse, hsame, hupper, hname, hread⟩

end PackedColumn

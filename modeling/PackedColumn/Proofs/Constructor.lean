import PackedColumn.Proofs.Pruned
import PackedColumn.Proofs.Reader

/-!
# Reading a constructor back

In a dialect that can be read, the text that builds a tree of attributes is read back as the pruned
tree (`create_reads_back`). Every full member is read from the start of any text that goes on with
the end of an entry (`reads_of_full`), and so are the entries of a constructor of such members
(`entries?_entriesText`).
-/

namespace PackedColumn

namespace Content

variable (d : Dialect)

mutual

/-- The content of the entry for a member that is kept. -/
def ofJson : Json → Content
  | .object ms => nested (ofMembers ms) d.intermediateType
  | j =>
    match j.scalar? with
    | some s => scalar (s.literal d) (s.defaultType.render d.typeCase)
    | none => scalar "NULL" d.defaultType

/-- The entries for members that are kept. -/
def ofMembers : List (String × Json) → List (String × Content)
  | [] => []
  | (key, j) :: rest => (key, ofJson j) :: ofMembers rest

end

theorem ofJson_of_scalar? {j : Json} {s : Scalar} (h : j.scalar? = some s) :
    ofJson d j = scalar (s.literal d) (s.defaultType.render d.typeCase) := by
  rw [ofJson, h]
  exact Json.ne_object_of_scalar? h

end Content

/-- A default type is written in capitals anyway. -/
theorem Scalar.render_defaultType (s : Scalar) (case : TypeCase) :
    s.defaultType.render case = s.defaultType.verbatim := by
  cases case with
  | verbatim => rfl
  | upper =>
    have hplain : ∀ k ∈ TypeKeyword.all,
        (SqlType.plain k).normalized = (SqlType.plain k).verbatim := by
      decide +kernel
    cases s with
    | bool | integer => exact hplain .integer (by decide)
    | unsigned =>
      have hunsigned : SqlType.normalized ⟨.unsigned, "UNSIGNED INTEGER", none⟩ =
          SqlType.verbatim ⟨.unsigned, "UNSIGNED INTEGER", none⟩ := by decide +kernel
      exact hunsigned
    | double => exact hplain .double (by decide)
    | text => exact hplain .char (by decide)

namespace Constructor

open Json.Token (after? after?_append)
open Sql (castWord literal? literal?_literal after?_literal)

variable {d : Dialect}

/-! ## Types -/

/-- A type is read up to the end of its entry. -/
theorem type?_append {type : String} (htype : type.toList.all inType) {c : Char}
    (hc : inType c = false) (rest : List Char) :
    type? d (castWord d ++ (type.toList ++ c :: rest)) = some (type, c :: rest) := by
  have hend : ∀ e ∈ (c :: rest).head?, inType e = false := by
    rintro _ ⟨⟩
    exact hc
  obtain ⟨htake, hdrop⟩ := Text.cut_append (List.all_eq_true.mp htype) hend
  rw [type?, after?_append, Option.map_some, htake, hdrop, String.ofList_toList]

/-- No default type holds a character that ends an entry. -/
theorem all_inType_defaultType (s : Scalar) (case : TypeCase) :
    (s.defaultType.render case).toList.all inType := by
  have hplain : TypeKeyword.all.all fun k => (SqlType.plain k).verbatim.toList.all inType := by
    decide
  rw [List.all_eq_true] at hplain
  rw [Scalar.render_defaultType]
  cases s with
  | bool | integer => exact hplain .integer (by decide)
  | unsigned => exact (by decide : "UNSIGNED INTEGER".toList.all inType = true)
  | double => exact hplain .double (by decide)
  | text => exact hplain .char (by decide)

/-! ## Entries -/

variable (d) in
/-- The value and the type of an entry. -/
def typedText (e : Expr × Cast) : List Char :=
  (e.1.render d).toList ++ (castWord d ++ (e.2.render d).toList)

variable (d) in
/-- The entries of a constructor. -/
def entriesText : List (String × Expr × Cast) → List Char
  | [] => []
  | [(key, e)] => (d.quoteString key).toList ++ ([',', ' '] ++ typedText d e)
  | (key, e) :: next :: rest =>
    (d.quoteString key).toList ++
      ([',', ' '] ++ (typedText d e ++ ([',', ' '] ++ entriesText (next :: rest))))

theorem builtPairs_ne_nil {ms : Entries Json} (h : ms ≠ []) : Expr.builtPairs ms ≠ [] := by
  rwa [Expr.builtPairs_eq, Ne, List.map_eq_nil_iff]

theorem entriesText_cons {pairs : List (String × Expr × Cast)} (h : pairs ≠ []) (key : String)
    (e : Expr × Cast) : entriesText d ((key, e) :: pairs) =
      (d.quoteString key).toList ++
        ([',', ' '] ++ (typedText d e ++ ([',', ' '] ++ entriesText d pairs))) := by
  obtain ⟨next, rest, rfl⟩ := List.exists_cons_of_ne_nil h
  rw [entriesText]

theorem toList_createPair (key : String) (e : Expr × Cast) :
    (d.createPair key (e.1.render d) (e.2.render d)).toList =
      (d.quoteString key).toList ++ ([',', ' '] ++ typedText d e) := by
  simp [Dialect.createPair, typedText, castWord]

theorem toList_intercalate_renderPairs (pairs : List (String × Expr × Cast)) :
    (", ".intercalate ((Expr.renderPairs d pairs).map fun (key, value, cast) =>
      d.createPair key value cast)).toList = entriesText d pairs := by
  induction pairs using entriesText.induct with
  | case1 => rw [Expr.renderPairs, entriesText]; rfl
  | case2 key e =>
    rw [Expr.renderPairs, entriesText, Expr.renderPairs, ← toList_createPair]
    simp
  | case3 key e next rest ih =>
    rw [Expr.renderPairs, entriesText, ← ih, Expr.renderPairs]
    simp [toList_createPair]

theorem toList_render_create (pairs : List (String × Expr × Cast)) :
    ((Expr.create pairs).render d).toList =
      d.createFunction.toList ++ ['('] ++ (entriesText d pairs ++ [')']) := by
  rw [Expr.render, Dialect.create, String.toList_append, String.toList_append,
    String.toList_append, toList_intercalate_renderPairs, List.append_assoc]
  rfl

theorem render_create_ne_null (pairs : List (String × Expr × Cast)) :
    (Expr.create pairs).render d ≠ "NULL" := by
  intro h
  have hparen : '(' ∈ "NULL".toList := by
    rw [← h, toList_render_create]
    simp
  exact absurd hparen (by decide)

/-! ## Reading back -/

variable (d) in
/-- The entry for a value that is kept is read from the start of any text that goes on with the end
of an entry, when the fuel exceeds its length. -/
def Reads (j : Json) : Prop :=
  ∀ (fuel : Nat) (c : Char) (rest : List Char), inType c = false →
    (typedText d (Expr.built j)).length < fuel →
      content? d fuel (typedText d (Expr.built j) ++ c :: rest) = some (.ofJson d j, c :: rest)

/-- An entry is read, and then what is behind it. -/
theorem entries?_entry (hd : d.Legible) {j : Json} (h : Reads d j) (key : String) {fuel : Nat}
    (hfuel : (typedText d (Expr.built j)).length < fuel) {c : Char} (hc : inType c = false)
    (rest : List Char) :
    entries? d (fuel + 1) ((d.quoteString key).toList ++
        ([',', ' '] ++ (typedText d (Expr.built j) ++ c :: rest))) =
      entriesFrom? (entries? d fuel) (key, .ofJson d j) (c :: rest) := by
  simp only [entries?, Dialect.unquote?_quoteString hd.quote_ne_backslash, Option.bind_some,
    after?_append, h fuel c rest hc hfuel, String.ofList_toList]

/-- The entries of a constructor whose values are read are read up to its end. -/
theorem entries?_entriesText (hd : d.Legible) {ms : Entries Json} (hne : ms ≠ [])
    (h : ∀ m ∈ ms, Reads d m.2) {fuel : Nat}
    (hfuel : (entriesText d (Expr.builtPairs ms)).length < fuel) (rest : List Char) :
    entries? d fuel (entriesText d (Expr.builtPairs ms) ++ ')' :: rest) =
      some (Content.ofMembers d ms, rest) := by
  induction ms generalizing fuel with
  | nil => exact (hne rfl).elim
  | cons m others ih =>
    obtain ⟨key, j⟩ := m
    obtain ⟨hj : Reads d j, hothers⟩ := List.forall_mem_cons.mp h
    obtain ⟨fuel, rfl⟩ := Nat.exists_eq_add_one_of_ne_zero (Nat.ne_zero_of_lt hfuel)
    cases others with
    | nil =>
      rw [Expr.builtPairs, Expr.builtPairs, entriesText] at hfuel ⊢
      have hvalue : (typedText d (Expr.built j)).length < fuel := by
        simp only [List.length_append, Dialect.toList_quoteString, List.length_cons] at hfuel
        omega
      rw [List.append_assoc, List.append_assoc, entries?_entry hd hj key hvalue rfl]
      rfl
    | cons next others =>
      have hne' : next :: others ≠ [] := List.cons_ne_nil _ _
      rw [Expr.builtPairs, entriesText_cons (builtPairs_ne_nil hne')] at hfuel ⊢
      have hvalue : (typedText d (Expr.built j)).length < fuel ∧
          (entriesText d (Expr.builtPairs (next :: others))).length < fuel := by
        simp only [List.length_append, Dialect.toList_quoteString, List.length_cons] at hfuel
        omega
      have hcomma : ∀ cs, [',', ' '] ++ cs = ',' :: ' ' :: cs := fun _ => rfl
      rw [List.append_assoc, List.append_assoc, List.append_assoc, List.append_assoc,
        hcomma (entriesText d _ ++ _), entries?_entry hd hj key hvalue.1 rfl]
      exact congrArg (Option.map fun found => ((key, Content.ofJson d j) :: found.1, found.2))
        (ih hne' hothers hvalue.2)

/-- Full values are read back. -/
theorem reads_of_full (hd : d.Legible) {j : Json} (h : j.Full) : Reads d j := by
  have hcreate : d.createFunction ∈ d.functions := by simp [Dialect.functions]
  induction h with
  | @scalar j s hs =>
    intro fuel c rest hc hfuel
    rw [Expr.built_of_scalar? hs] at hfuel ⊢
    rw [Content.ofJson_of_scalar? d hs]
    obtain ⟨fuel, rfl⟩ := Nat.exists_eq_add_one_of_ne_zero (Nat.ne_zero_of_lt hfuel)
    -- The literal ends at the blank before the type.
    have hblank : ∀ cs, castWord d ++ cs = ' ' :: (d.castKeyword.toList ++ [' '] ++ cs) :=
      fun _ => rfl
    have htype := type?_append (d := d) (all_inType_defaultType s d.typeCase) hc rest
    rw [hblank] at htype
    rw [typedText, List.append_assoc, List.append_assoc, hblank, content?, Expr.render,
      after?_literal hd hcreate, literal?_literal hd]
    exact congrArg
      (Option.map fun found => (Content.scalar (s.literal d) found.1, found.2)) htype
  | @object ms hne _ ih =>
    intro fuel c rest hc hfuel
    obtain ⟨fuel, rfl⟩ := Nat.exists_eq_add_one_of_ne_zero (Nat.ne_zero_of_lt hfuel)
    rw [Expr.built] at hfuel ⊢
    rw [typedText, toList_render_create] at hfuel ⊢
    have hentries : (entriesText d (Expr.builtPairs ms)).length < fuel := by
      simp only [List.length_append, List.length_cons] at hfuel
      omega
    -- The entries are read up to their own end, however many ends of entries stand in them.
    have hin := entries?_entriesText hd hne ih hentries
      (castWord d ++ d.intermediateType.toList ++ c :: rest)
    have htext (cs : List Char) : d.createFunction.toList ++ ['('] ++ (cs ++ [')']) ++
        (castWord d ++ d.intermediateType.toList) ++ c :: rest =
          d.createFunction.toList ++ ['('] ++ (cs ++ ')' ::
            (castWord d ++ d.intermediateType.toList ++ c :: rest)) := by
      simp
    rw [Cast.render, htext, content?, after?_append]
    dsimp only
    rw [hin, Option.bind_some]
    dsimp only
    rw [after?_append, Content.ofJson]
    rfl

theorem read?_create (hd : d.Legible) {ms : Entries Json} (hne : ms ≠ [])
    (h : ∀ m ∈ ms, m.2.Full) :
    read? d ((Expr.create (Expr.builtPairs ms)).render d) = some (Content.ofMembers d ms) := by
  have hentries := entries?_entriesText hd hne (fun m hm => reads_of_full hd (h m hm))
    (Nat.lt_add_one _) []
  rw [read?, if_neg (render_create_ne_null _), toList_render_create, after?_append,
    Option.bind_some, List.length_append, List.length_singleton, hentries]

end Constructor

/-- The text that builds a tree without arrays is read back as the pruned tree, every level of which
holds something. It is `NULL` where no scalar stands in the tree. -/
theorem create_reads_back {members : Entries Json} (h : (Json.object members).ArrayFree) :
    ∃ sql, Access.create .default members = .ok sql ∧
      Constructor.read? .default sql =
        some (Content.ofMembers .default (Json.pruneMembers members)) ∧
      (∀ member ∈ Json.pruneMembers members, member.2.Full) ∧
      (sql = "NULL" ↔ (Json.object members).holdsScalar = false) := by
  have hfull := Json.full_of_mem_pruneMembers h
  rw [Access.create, Expr.ofMembers_eq h]
  cases hscalar : (Json.object members).holdsScalar with
  | false =>
    refine ⟨"NULL", rfl, ?_, hfull, ⟨fun _ => rfl, fun _ => rfl⟩⟩
    rw [Json.pruneMembers_eq_nil_iff.mpr hscalar]
    rfl
  | true =>
    have hne : Json.pruneMembers members ≠ [] := by
      rw [Ne, Json.pruneMembers_eq_nil_iff, Bool.not_eq_false]
      exact hscalar
    have hread := Constructor.read?_create Dialect.legible_default hne hfull
    exact ⟨_, rfl, hread, hfull,
      fun hnull => (Constructor.render_create_ne_null _ hnull).elim, nofun⟩

/-- Keys and texts that look like syntax, a level that is empty once its members are gone, and a
level that is left in part. -/
theorem create_reads_back_syntax_in_text :
    let members : Entries Json := [
      ("", .string "it's \\ 'x' AS CHAR)"),
      ("a', COLUMN_CREATE('", .object [("n", .null), ("e", .object [("f", .object [])]),
        ("k\\", .number (.whole (-5)))]),
      ("gone", .object [("x", .null), ("y", .object [("z", .null)])]),
      ("big", .number (.whole 18446744073709551615))]
    (Json.object members).ArrayFree ∧
      ∃ sql, Access.create .default members = .ok sql ∧ sql ≠ "NULL" ∧
        Constructor.read? .default sql = some [
          ("", .scalar "'it\\'s \\\\ \\'x\\' AS CHAR)'" "CHAR"),
          ("a', COLUMN_CREATE('", .nested [("k\\", .scalar "-5" "INTEGER")] "BINARY"),
          ("big", .scalar "18446744073709551615" "UNSIGNED INTEGER")] := by
  intro members
  have h : (Json.object members).ArrayFree := by
    refine .object ?_
    simp only [members, List.forall_mem_cons]
    refine ⟨.string _, .object ?_, .object ?_, .number _, nofun⟩
    · simp only [List.forall_mem_cons]
      refine ⟨.null, .object ?_, .number _, nofun⟩
      simp only [List.forall_mem_cons]
      exact ⟨.object nofun, nofun⟩
    · simp only [List.forall_mem_cons]
      refine ⟨.null, .object ?_, nofun⟩
      simp only [List.forall_mem_cons]
      exact ⟨.null, nofun⟩
  obtain ⟨sql, hcreate, hread, -, hnull⟩ := create_reads_back h
  refine ⟨h, sql, hcreate, ?_, ?_⟩
  · rw [Ne, hnull]
    decide +kernel
  · rw [hread]
    rfl

end PackedColumn

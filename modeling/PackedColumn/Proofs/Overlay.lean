import PackedColumn.Proofs.KnownMembers

/-!
# Partial configurations

A partial configuration says of each member whether it is given, and as what. It is laid over the
defaults: a given member counts as it is, a missing one as its default (`Config.Given.overlay`).

`Written` says how a partial configuration is written: its dialect, its entities and itself each as
an object with the given members, in any order and with any members of unknown names between them.
What is read from such a text is the overlay (`Config.Given.ofRaw?_of_written`).

`Config.Rearranged` is a single change of order, or of an unknown member, at one of these levels. It
is not seen, whatever the document is (`Config.Rearranged.ofRaw?_eq`).
-/

namespace PackedColumn

open Json (Piece Raw)
open Json.Raw (ObjectOf Outline field? text? optionalText? char? listOf?)

/-! ## Values -/

namespace Json.Raw

/-- A string whose pieces make `s`. -/
inductive IsText (s : String) : Raw → Prop
  | mk {pieces : List Piece} (htext : Piece.text? pieces = some s) : IsText s (.string pieces)

/-- A string with one character. -/
def IsChar (c : Char) : Raw → Prop := IsText (.singleton c)

/-- A string, or null for none. -/
inductive IsOptionalText : Option String → Raw → Prop
  | null : IsOptionalText none .null
  | text {s : String} {raw : Raw} (h : IsText s raw) : IsOptionalText (some s) raw

/-- An array of such items. -/
inductive IsListOf {α : Type} (IsItem : α → Raw → Prop) (xs : List α) : Raw → Prop
  | mk {items : List Raw} (hitems : List.Forall₂ IsItem xs items) :
      IsListOf IsItem xs (.array items)

variable {s : String} {c : Char} {raw : Raw}

theorem IsText.text?_eq (h : IsText s raw) : text? raw = some s := by
  obtain ⟨htext⟩ := h
  exact htext

theorem IsChar.char?_eq (h : IsChar c raw) : char? raw = some c := by
  rw [char?, IsText.text?_eq h, Option.bind_some, String.toList_singleton]

theorem IsOptionalText.optionalText?_eq {s? : Option String} (h : IsOptionalText s? raw) :
    optionalText? raw = some s? := by
  cases h with
  | null => rfl
  | text h =>
    obtain ⟨htext⟩ := h
    exact congrArg (Option.map some) htext

/-- Where every item is read as its value, the list is read. -/
theorem IsListOf.listOf?_eq {α β : Type} {IsItem : α → Raw → Prop} {item? : Raw → Option β}
    {val : α → β} {xs : List α} (h : IsListOf IsItem xs raw)
    (hitem : ∀ x raw, IsItem x raw → item? raw = some (val x)) :
    listOf? item? raw = some (xs.map val) := by
  obtain ⟨hitems⟩ := h
  refine mapM_of_forall₂ (List.forall₂_map_right_iff.mpr ?_)
  exact hitems.flip.imp fun raw x => hitem x raw

end Json.Raw

open Json.Raw (IsText IsChar IsOptionalText IsListOf)

/-- A letter case: its name, or an object with its name as the only member and no value. -/
inductive TypeCase.IsCase (c : TypeCase) : Raw → Prop
  | name {raw : Raw} (h : IsText c.name raw) : IsCase c raw
  | tagged {key : List Piece} (hkey : Piece.text? key = some c.name) :
      IsCase c (.object [(key, .null)])

theorem TypeCase.IsCase.ofRaw?_eq {c : TypeCase} {raw : Raw} (h : c.IsCase raw) :
    ofRaw? raw = some c := by
  cases h with
  | name h =>
    obtain ⟨htext⟩ := h
    show (Piece.text? _).bind ofName? = some c
    rw [htext, Option.bind_some, ofName?_name]
  | tagged hkey => rw [ofRaw?, hkey, Option.bind_some, ofName?_name]

/-! ## Partial configurations -/

/-- The members that are given of a dialect. -/
structure Dialect.Given where
  getFunction : Option String := none
  addFunction : Option String := none
  deleteFunction : Option String := none
  createFunction : Option String := none
  dumpFunction : Option String := none
  castKeyword : Option String := none
  intermediateType : Option String := none
  defaultType : Option String := none
  dumpAlias : Option String := none
  stringQuote : Option Char := none
  identifierQuote : Option Char := none
  typeCase : Option TypeCase := none

namespace Dialect.Given

/-- The default dialect with what is given in its place. -/
def overlay (g : Given) : Dialect where
  getFunction := g.getFunction.getD default.getFunction
  addFunction := g.addFunction.getD default.addFunction
  deleteFunction := g.deleteFunction.getD default.deleteFunction
  createFunction := g.createFunction.getD default.createFunction
  dumpFunction := g.dumpFunction.getD default.dumpFunction
  castKeyword := g.castKeyword.getD default.castKeyword
  intermediateType := g.intermediateType.getD default.intermediateType
  defaultType := g.defaultType.getD default.defaultType
  dumpAlias := g.dumpAlias.getD default.dumpAlias
  stringQuote := g.stringQuote.getD default.stringQuote
  identifierQuote := g.identifierQuote.getD default.identifierQuote
  typeCase := g.typeCase.getD default.typeCase

/-- The members of the object. -/
def outline (g : Given) : Outline :=
  [("get_function", g.getFunction.map IsText), ("add_function", g.addFunction.map IsText),
   ("delete_function", g.deleteFunction.map IsText),
   ("create_function", g.createFunction.map IsText), ("dump_function", g.dumpFunction.map IsText),
   ("cast_keyword", g.castKeyword.map IsText), ("intermediate_type", g.intermediateType.map IsText),
   ("default_type", g.defaultType.map IsText), ("dump_alias", g.dumpAlias.map IsText),
   ("string_quote", g.stringQuote.map IsChar), ("identifier_quote", g.identifierQuote.map IsChar),
   ("type_case", g.typeCase.map TypeCase.IsCase)]

/-- An object that holds what is given, and of the known members nothing else. -/
def Written (g : Given) : Raw → Prop := ObjectOf g.outline

theorem ofRaw?_of_written {g : Given} {raw : Raw} (h : g.Written raw) :
    ofRaw? raw = some g.overlay := by
  obtain ⟨fields, hread, hfields⟩ := ObjectOf.exists_fields h
  have hnames : Entries.names g.outline = fieldNames := rfl
  have htext (name : String) (s? : Option String)
      (hget : Entries.get? name g.outline = some (s?.map IsText)) :=
    hfields.field?_eq_getD s? hget fun _ _ => IsText.text?_eq
  have hchar (name : String) (c? : Option Char)
      (hget : Entries.get? name g.outline = some (c?.map IsChar)) :=
    hfields.field?_eq_getD c? hget fun _ _ => IsChar.char?_eq
  have hcase (c? : Option TypeCase)
      (hget : Entries.get? "type_case" g.outline = some (c?.map TypeCase.IsCase)) :=
    hfields.field?_eq_getD c? hget fun _ _ => TypeCase.IsCase.ofRaw?_eq
  rw [ofRaw?, ← hnames, hread]
  simp only [Option.bind_eq_bind, Option.bind_some, Option.pure_def,
    htext "get_function" g.getFunction rfl, htext "add_function" g.addFunction rfl,
    htext "delete_function" g.deleteFunction rfl, htext "create_function" g.createFunction rfl,
    htext "dump_function" g.dumpFunction rfl, htext "cast_keyword" g.castKeyword rfl,
    htext "intermediate_type" g.intermediateType rfl, htext "default_type" g.defaultType rfl,
    htext "dump_alias" g.dumpAlias rfl, hchar "string_quote" g.stringQuote rfl,
    hchar "identifier_quote" g.identifierQuote rfl, hcase g.typeCase rfl]
  rfl

end Dialect.Given

/-- The members that are given of an entity. -/
structure Entity.Given where
  table : String
  /-- The name of the column, or null. -/
  dynamicColumn : Option (Option String) := none
  columns : Option (List String) := none

namespace Entity.Given

/-- The entity with no column and no known columns, but with what is given. -/
def overlay (g : Given) : Entity where
  table := g.table
  dynamicColumn := g.dynamicColumn.getD none
  columns := g.columns.getD []

/-- The members of the object. -/
def outline (g : Given) : Outline :=
  [("table_name", some (IsText g.table)), ("dynamic_column", g.dynamicColumn.map IsOptionalText),
   ("columns", g.columns.map (IsListOf IsText))]

/-- An object that holds what is given, and of the known members nothing else. -/
def Written (g : Given) : Raw → Prop := ObjectOf g.outline

theorem ofRaw?_of_written {g : Given} {raw : Raw} (h : g.Written raw) :
    ofRaw? raw = some g.overlay := by
  obtain ⟨fields, hread, hfields⟩ := ObjectOf.exists_fields h
  have hnames : Entries.names g.outline = fieldNames := rfl
  have htable : field? fields "table_name" text? none = some g.table :=
    hfields.field?_eq_or (some g.table) id (P := IsText) rfl (fun _ _ => IsText.text?_eq) none
  have hcolumn : field? fields "dynamic_column" optionalText? (some none) =
      some (g.dynamicColumn.getD none) :=
    hfields.field?_eq_getD g.dynamicColumn (P := IsOptionalText) rfl
      (fun _ _ => IsOptionalText.optionalText?_eq) none
  have hcolumns : field? fields "columns" (listOf? text?) (some []) = some (g.columns.getD []) := by
    refine hfields.field?_eq_getD g.columns rfl (fun names raw h => ?_) []
    rw [h.listOf?_eq fun _ _ => IsText.text?_eq, List.map_id']
  rw [ofRaw?, ← hnames, hread]
  simp only [Option.bind_eq_bind, Option.bind_some, Option.pure_def, htable, hcolumn, hcolumns]
  rfl

end Entity.Given

/-- The members that are given of a configuration. -/
structure Config.Given where
  dialect : Option Dialect.Given := none
  entities : Option (List Entity.Given) := none

namespace Config.Given

/-- The default dialect and no entities, or what is given in their place. -/
def overlay (g : Given) : Config where
  dialect := (g.dialect.map Dialect.Given.overlay).getD .default
  entities := (g.entities.map (List.map Entity.Given.overlay)).getD []

/-- The members of the object. -/
def outline (g : Given) : Outline :=
  [("dialect", g.dialect.map Dialect.Given.Written),
   ("entities", g.entities.map (IsListOf Entity.Given.Written))]

/-- An object that holds what is given, and of the known members nothing else. -/
def Written (g : Given) : Raw → Prop := ObjectOf g.outline

theorem ofRaw?_of_written {g : Given} {raw : Raw} (h : g.Written raw) :
    ofRaw? raw = some g.overlay := by
  obtain ⟨fields, hread, hfields⟩ := ObjectOf.exists_fields h
  have hnames : Entries.names g.outline = fieldNames := rfl
  have hdialect : field? fields "dialect" Dialect.ofRaw? (some .default) =
      (g.dialect.map Dialect.Given.overlay).or (some .default) :=
    hfields.field?_eq_or g.dialect Dialect.Given.overlay (P := Dialect.Given.Written) rfl
      (fun _ _ => Dialect.Given.ofRaw?_of_written) _
  have hentities : field? fields "entities" (listOf? Entity.ofRaw?) (some []) =
      (g.entities.map (List.map Entity.Given.overlay)).or (some []) :=
    hfields.field?_eq_or g.entities (List.map Entity.Given.overlay) rfl
      (fun _ _ h => h.listOf?_eq fun _ _ => Entity.Given.ofRaw?_of_written) _
  rw [ofRaw?, ← hnames, hread]
  simp only [Option.bind_eq_bind, Option.bind_some, Option.pure_def, hdialect, hentities,
    Option.or_some]
  rfl

end Config.Given

/-! ## Changes of a document -/

/-- A change inside the object of a dialect. -/
def Dialect.Rearranged : Raw → Raw → Prop :=
  Json.Raw.Rearranged fieldNames fun _ _ _ => False

theorem Dialect.Rearranged.ofRaw?_eq {raw raw' : Raw} (h : Rearranged raw raw') :
    ofRaw? raw = ofRaw? raw' := by
  rw [ofRaw?, ofRaw?]
  refine h.bind_eq fun fields fields' halike => ?_
  simp only [halike.field?_eq_of_false]

/-- A change inside the object of an entity. -/
def Entity.Rearranged : Raw → Raw → Prop :=
  Json.Raw.Rearranged fieldNames fun _ _ _ => False

theorem Entity.Rearranged.ofRaw?_eq {raw raw' : Raw} (h : Rearranged raw raw') :
    ofRaw? raw = ofRaw? raw' := by
  rw [ofRaw?, ofRaw?]
  refine h.bind_eq fun fields fields' halike => ?_
  simp only [halike.field?_eq_of_false]

namespace Config

/-- A change inside the dialect, or inside one of the entities. -/
inductive RearrangedInside (name : String) : Raw → Raw → Prop
  | dialect {raw raw' : Raw} (hname : name = "dialect") (h : Dialect.Rearranged raw raw') :
      RearrangedInside name raw raw'
  | entity {before after : List Raw} {item item' : Raw} (hname : name = "entities")
      (h : Entity.Rearranged item item') :
      RearrangedInside name (.array (before ++ item :: after)) (.array (before ++ item' :: after))

/-- Members in another order, or one more of an unknown name, at some level of a configuration. -/
def Rearranged : Raw → Raw → Prop := Json.Raw.Rearranged fieldNames RearrangedInside

theorem Rearranged.ofRaw?_eq {raw raw' : Raw} (h : Rearranged raw raw') :
    ofRaw? raw = ofRaw? raw' := by
  rw [ofRaw?, ofRaw?]
  refine h.bind_eq fun fields fields' halike => ?_
  have hdialect : field? fields "dialect" Dialect.ofRaw? (some .default) =
      field? fields' "dialect" Dialect.ofRaw? (some .default) := by
    refine halike.field?_eq (fun _ _ hinside => ?_) _
    cases hinside with
    | dialect _ h => exact h.ofRaw?_eq
    | entity hname => exact absurd hname (by decide)
  have hentities : field? fields "entities" (listOf? Entity.ofRaw?) (some []) =
      field? fields' "entities" (listOf? Entity.ofRaw?) (some []) := by
    refine halike.field?_eq (fun _ _ hinside => ?_) _
    cases hinside with
    | dialect hname => exact absurd hname (by decide)
    | entity _ h => simp only [listOf?, List.mapM_append, List.mapM_cons, h.ofRaw?_eq]
  simp only [hdialect, hentities]

theorem ofRaw?_eq_of_eqvGen {raw raw' : Raw} (h : Relation.EqvGen Rearranged raw raw') :
    ofRaw? raw = ofRaw? raw' := by
  induction h with
  | rel _ _ h => exact h.ofRaw?_eq
  | refl => rfl
  | symm _ _ _ ih => exact ih.symm
  | trans _ _ _ _ _ ih ih' => exact ih.trans ih'

/-- A document in which any members are left out is read as what is given, laid over the defaults;
and whatever a document is, the order of its members and its members of unknown names are not
seen. -/
theorem parse_overlays_defaults :
    (∀ (g : Given) (raw : Raw) (text : String), g.Written raw → raw.Spells text →
      parse text = .ok g.overlay) ∧
    ∀ (raw raw' : Raw) (text text' : String), Relation.EqvGen Rearranged raw raw' →
      raw.Spells text → raw'.Spells text' → parse text = parse text' := by
  refine ⟨fun g raw text hwritten hspells => ?_, fun raw raw' text text' h hspells hspells' => ?_⟩
  · rw [parse, Raw.parse?_eq_some_iff.mpr hspells, Option.bind_some,
      Given.ofRaw?_of_written hwritten]
  · rw [parse, parse, Raw.parse?_eq_some_iff.mpr hspells, Raw.parse?_eq_some_iff.mpr hspells',
      Option.bind_some, Option.bind_some, ofRaw?_eq_of_eqvGen h]

open Json.Piece (ofText) in
/-- An escape in a known name, a letter case written as an object, unknown members twice and with
values that nothing could be made of; and the same members without two of the unknown ones and the
other way round. -/
theorem parse_overlays_defaults_mixed :
    let dialect : Raw := .object
      [(ofText "", .array []),
       (ofText "type" ++ .unit 0x5f :: ofText "case", .object [(ofText "upper", .null)])]
    let entity : Raw := .object
      [(ofText "y", .object []), (ofText "table_name", .string (ofText "t")),
       (ofText "dynamic_column", .null)]
    let plain : Raw := .object [(ofText "dialect", dialect), (ofText "entities", .array [entity])]
    let mixed : Raw := .object
      [(ofText "x", .number ⟨false, ['1'], none, some (false, ['9', '9', '9'])⟩),
       (ofText "entities", .array [entity]), (ofText "x", .string [.unit 0xd800]),
       (ofText "dialect", dialect)]
    let given : Given := ⟨some { typeCase := some .upper }, some [⟨"t", some none, none⟩]⟩
    let dialectText := "\x7b\"\":[],\"type\\u005fcase\":\x7b\"upper\":null\x7d\x7d"
    let entityText := "\x7b\"y\":\x7b\x7d,\"table_name\":\"t\",\"dynamic_column\":null\x7d"
    let plainText := "\x7b\"dialect\":" ++ dialectText ++ ",\"entities\":[" ++ entityText ++ "]\x7d"
    let mixedText := "\x7b\"x\":1e999,\"entities\":[" ++ entityText ++ "],\"x\":\"\\ud800\"," ++
      "\"dialect\":" ++ dialectText ++ "\x7d"
    given.Written mixed ∧ mixed.Spells mixedText ∧ plain.Spells plainText ∧
      Relation.EqvGen Rearranged plain mixed ∧
      parse mixedText =
        .ok ⟨{ Dialect.default with typeCase := .upper }, [⟨"t", none, []⟩]⟩ ∧
      parse plainText = parse mixedText := by
  intro dialect entity plain mixed given dialectText entityText plainText mixedText
  have hmixed : mixed.Spells mixedText := Json.spelt_of_tokens? (by decide +kernel)
  have hplain : plain.Spells plainText := Json.spelt_of_tokens? (by decide +kernel)
  have hdialect : Dialect.Given.Written { typeCase := some .upper } dialect := by
    refine ObjectOf.mk ⟨⟨by decide, by decide⟩, ?_, by decide⟩
    have hcase : TypeCase.upper.IsCase (.object [(ofText "upper", .null)]) := .tagged (by decide)
    simpa [Dialect.Given.outline] using ⟨_, ⟨_, .tail _ (.head _), by decide, rfl⟩, hcase⟩
  have hentity : Entity.Given.Written ⟨"t", some none, none⟩ entity := by
    refine ObjectOf.mk ⟨⟨by decide, by decide⟩, ?_, by decide⟩
    have htable : IsText "t" (.string (ofText "t")) := .mk (by decide)
    simpa [Entity.Given.outline] using
      ⟨⟨_, ⟨_, .tail _ (.head _), by decide, rfl⟩, htable⟩,
        ⟨_, ⟨_, .tail _ (.tail _ (.head _)), by decide, rfl⟩, IsOptionalText.null⟩⟩
  have hwritten : given.Written mixed := by
    refine ObjectOf.mk ⟨⟨by decide, by decide⟩, ?_, by decide⟩
    simpa [given, Given.outline] using
      ⟨⟨_, ⟨_, .tail _ (.tail _ (.tail _ (.head _))), by decide, rfl⟩, hdialect⟩,
        ⟨_, ⟨_, .tail _ (.head _), by decide, rfl⟩, IsListOf.mk (.cons hentity .nil)⟩⟩
  have hrearranged : Relation.EqvGen Rearranged plain mixed := by
    have hname : Piece.text? (ofText "x") = some "x" := by decide
    have hunknown : "x" ∉ fieldNames := by decide
    have hperm (x y z : List Piece × Raw) : [x, y, z].Perm [z, x, y] := by
      show ([x, y] ++ [z]).Perm ([z] ++ [x, y])
      exact List.perm_append_comm
    exact .trans _ _ _ (.rel _ _ (.added hname hunknown))
      (.trans _ _ _ (.rel _ _ (.permuted (hperm _ _ _))) (.rel _ _ (.added hname hunknown)))
  obtain ⟨hread, hsame⟩ := parse_overlays_defaults
  exact ⟨hwritten, hmixed, hplain, hrearranged, hread given mixed mixedText hwritten hmixed,
    hsame plain mixed plainText mixedText hrearranged hplain hmixed⟩

end Config

end PackedColumn

import PackedColumn.Config
import PackedColumn.Proofs.Compact

/-!
# Configurations and their documents

`Json.ReadsBack read? j a` says that `read?` makes `a` of the compact text of `j`. A text is read as
one structure only, so a reader that gives a value back gives it back wherever the value stands.

* A string, an optional string, a character and the name of a letter case are given back, and a list
  is if its items are (`ReadsBack.list`).
* Of an object the fields are found under their names, each with what is written for it
  (`exists_fields`).

So a dialect, an entity and a configuration are read from the text of their document as they were
written (`parse_compact_toJson`).
-/

namespace PackedColumn

/-- Elements that are read one by one are read as a list. -/
theorem mapM_of_forall₂ {α β : Type} {read? : α → Option β} {as : List α} {bs : List β}
    (h : List.Forall₂ (fun a b => read? a = some b) as bs) : as.mapM read? = some bs := by
  induction h with
  | nil => rfl
  | cons hread _ ih =>
    rw [List.mapM_cons, hread, ih]
    rfl

/-- A list is read exactly where its elements are read one by one. -/
theorem mapM_eq_some_iff {α β : Type} {read? : α → Option β} {as : List α} {bs : List β} :
    as.mapM read? = some bs ↔ List.Forall₂ (fun a b => read? a = some b) as bs := by
  refine ⟨fun h => ?_, mapM_of_forall₂⟩
  induction as generalizing bs with
  | nil =>
    obtain rfl := Option.some.inj h
    exact .nil
  | cons a as ih =>
    rw [List.mapM_cons, Option.bind_eq_bind] at h
    obtain ⟨b, hb, h⟩ := Option.bind_eq_some_iff.mp h
    obtain ⟨rest, hrest, h⟩ := Option.bind_eq_some_iff.mp h
    obtain rfl := Option.some.inj h
    exact .cons hb (ih hrest)

/-- Where every element has a partner, a list has a list of them. -/
theorem exists_forall₂ {α β : Type} {R : α → β → Prop} {as : List α} (h : ∀ a ∈ as, ∃ b, R a b) :
    ∃ bs, List.Forall₂ R as bs := by
  induction as with
  | nil => exact ⟨[], .nil⟩
  | cons a as ih =>
    obtain ⟨⟨b, hb⟩, hrest⟩ := List.forall_mem_cons.mp h
    obtain ⟨bs, hbs⟩ := ih hrest
    exact ⟨b :: bs, .cons hb hbs⟩

theorem Entries.exists_get?_of_forall₂ {α β : Type} {R : α → β → Prop} {es : Entries α}
    {fields : Entries β} (h : List.Forall₂ (fun e f => f.1 = e.1 ∧ R e.2 f.2) es fields)
    {name : String} {a : α} (ha : get? name es = some a) :
    ∃ b, get? name fields = some b ∧ R a b := by
  induction h with
  | nil => cases ha
  | @cons e f es fields hhead _ ih =>
    rw [get?] at ha ⊢
    rw [hhead.1]
    split at ha
    · next hname =>
      obtain rfl := Option.some.inj ha
      exact ⟨f.2, if_pos hname, hhead.2⟩
    · next hname =>
      rw [if_neg hname]
      exact ih ha

namespace Json

open Raw (text? optionalText? char? listOf? fields? field?)

variable {α : Type} {read? : Raw → Option α} {j : Json} {a : α}

/-- The compact text of `j` is read by `read?`, and as `a`. -/
def ReadsBack (read? : Raw → Option α) (j : Json) (a : α) : Prop :=
  ∃ raw, raw.Spells j.compact ∧ read? raw = some a

theorem readsBack_iff : ReadsBack read? j a ↔ (Raw.parse? j.compact).bind read? = some a := by
  simp only [ReadsBack, Option.bind_eq_some_iff, Raw.parse?_eq_some_iff]

namespace ReadsBack

theorem exists_spells (h : ReadsBack read? j a) : ∃ raw : Raw, raw.Spells j.compact :=
  h.imp fun _ => And.left

/-- A text has one structure, so the value is read from it as well. -/
theorem eq_some (h : ReadsBack read? j a) {raw : Raw} (hraw : raw.Spells j.compact) :
    read? raw = some a := by
  rw [readsBack_iff, Raw.parse?_eq_some_iff.mpr hraw] at h
  exact h

theorem text (s : String) : ReadsBack text? (.string s) s :=
  ⟨_, spells_string s, Piece.text?_ofText s⟩

theorem optionalText (s? : Option String) :
    ReadsBack optionalText? ((s?.map Json.string).getD .null) s? := by
  cases s? with
  | none => exact ⟨_, spells_null, rfl⟩
  | some s => exact ⟨_, spells_string s, congrArg (Option.map some) (Piece.text?_ofText s)⟩

theorem char (c : Char) : ReadsBack char? (.string (.singleton c)) c := by
  refine ⟨_, spells_string _, ?_⟩
  rw [char?, text?, Piece.text?_ofText, Option.bind_some, String.toList_singleton]

/-- A reader of the items that gives each of them back gives the list back. -/
theorem list {write : α → Json} {as : List α} (h : ∀ a ∈ as, ReadsBack read? (write a) a) :
    ReadsBack (listOf? read?) (.array (as.map write)) as := by
  obtain ⟨raws, hraws⟩ := exists_forall₂ h
  refine ⟨.array raws, spells_array ?_, mapM_of_forall₂ (hraws.flip.imp fun _ _ => And.right)⟩
  rw [List.forall₂_map_left_iff]
  exact hraws.imp fun _ _ => And.left

end ReadsBack

/-- Members with known and distinct names are the fields. -/
theorem fields?_object {known : List String} {fields : Entries Raw}
    (hknown : Entries.names fields ⊆ known) (hnodup : (Entries.names fields).Nodup) :
    fields? known (.object (fields.map fun f => (Piece.ofText f.1, f.2))) = some fields := by
  have hnamed : (fields.map fun f => (Piece.ofText f.1, f.2)).mapM
      (fun m => (Piece.text? m.1).map fun name => (name, m.2)) = some fields := by
    refine mapM_of_forall₂ (List.forall₂_map_left_iff.mpr (List.forall₂_same.mpr fun f _ => ?_))
    rw [Piece.text?_ofText, Option.map_some]
  have hfilter : fields.filter (fun f => known.contains f.1) = fields :=
    List.filter_eq_self.mpr fun f hf =>
      List.contains_iff_mem.mpr (hknown (List.mem_map_of_mem hf))
  rw [fields?, hnamed, Option.bind_eq_bind, Option.bind_some, hfilter, if_pos hnodup]

/-- A written object is read as fields, and the field of a name as what is written for it. -/
theorem exists_fields {members : Entries Json} {known : List String}
    (hknown : Entries.names members = known) (hnodup : known.Nodup)
    (hmembers : ∀ m ∈ members, ∃ raw : Raw, raw.Spells m.2.compact) :
    ∃ fields, ReadsBack (fields? known) (.object members) fields ∧
      ∀ {α : Type} (name : String) {j : Json} {read? : Raw → Option α} {a : α},
        Entries.get? name members = some j → ReadsBack read? j a →
          ∀ default, field? fields name read? default = some a := by
  have hfield : ∀ m ∈ members, ∃ f : String × Raw, f.1 = m.1 ∧ f.2.Spells m.2.compact :=
    fun m hm => (hmembers m hm).elim fun raw hraw => ⟨(m.1, raw), rfl, hraw⟩
  obtain ⟨fields, hfields⟩ := exists_forall₂ hfield
  have hnames : List.Forall₂ Eq (Entries.names fields) (Entries.names members) := by
    rw [Entries.names, Entries.names, List.forall₂_map_left_iff, List.forall₂_map_right_iff]
    exact hfields.flip.imp fun _ _ => And.left
  rw [List.forall₂_eq_eq_eq, hknown] at hnames
  subst hnames
  have hread := fields?_object (List.Subset.refl _) hnodup
  refine ⟨fields, ⟨_, spells_object hfields, hread⟩, fun name j read? a hget hvalue default => ?_⟩
  have hfound := Entries.exists_get?_of_forall₂
    (R := fun (j : Json) (raw : Raw) => raw.Spells j.compact) hfields hget
  obtain ⟨raw, hraw, hspells⟩ := hfound
  rw [field?, hraw]
  exact hvalue.eq_some hspells

end Json

/-! ## Configurations -/

open Json (ReadsBack exists_fields)

theorem TypeCase.ofName?_name (c : TypeCase) : ofName? c.name = some c := by
  cases c <;> decide

theorem TypeCase.readsBack_name (c : TypeCase) : ReadsBack ofRaw? (.string c.name) c := by
  refine ⟨_, Json.spells_string c.name, ?_⟩
  show (Json.Piece.text? (Json.Piece.ofText c.name)).bind ofName? = some c
  rw [Json.Piece.text?_ofText, Option.bind_some, ofName?_name]

theorem Dialect.readsBack_toJson (d : Dialect) : ReadsBack ofRaw? d.toJson d := by
  have hnames : Entries.names d.toJson.members = fieldNames := rfl
  have hstring : ∀ m ∈ d.toJson.members, ∃ s, m.2 = .string s := by simp [toJson, Json.members]
  have hmembers : ∀ m ∈ d.toJson.members, ∃ raw : Json.Raw, raw.Spells m.2.compact := by
    intro m hm
    obtain ⟨s, hs⟩ := hstring m hm
    exact ⟨_, hs ▸ Json.spells_string s⟩
  obtain ⟨fields, ⟨raw, hspells, hread⟩, hfield⟩ := exists_fields hnames (by decide) hmembers
  have htext (name s : String) (hget : Entries.get? name d.toJson.members = some (.string s)) :=
    hfield name hget (.text s)
  have hchar (name : String) (c : Char)
      (hget : Entries.get? name d.toJson.members = some (.string (.singleton c))) :=
    hfield name hget (.char c)
  have hcase := hfield "type_case" rfl d.typeCase.readsBack_name
  refine ⟨raw, hspells, ?_⟩
  rw [ofRaw?, hread]
  simp only [Option.bind_eq_bind, Option.bind_some, Option.pure_def,
    htext "get_function" _ rfl, htext "add_function" _ rfl, htext "delete_function" _ rfl,
    htext "create_function" _ rfl, htext "dump_function" _ rfl, htext "cast_keyword" _ rfl,
    htext "intermediate_type" _ rfl, htext "default_type" _ rfl, htext "dump_alias" _ rfl,
    hchar "string_quote" _ rfl, hchar "identifier_quote" _ rfl, hcase]

theorem Entity.readsBack_toJson (e : Entity) : ReadsBack ofRaw? e.toJson e := by
  have htable := ReadsBack.text e.table
  have hcolumn := ReadsBack.optionalText e.dynamicColumn
  have hcolumns := ReadsBack.list fun name (_ : name ∈ e.columns) => .text name
  have hnames : Entries.names e.toJson.members = fieldNames := rfl
  have hmembers : ∀ m ∈ e.toJson.members, ∃ raw : Json.Raw, raw.Spells m.2.compact :=
    List.forall_mem_cons.mpr ⟨htable.exists_spells, List.forall_mem_cons.mpr
      ⟨hcolumn.exists_spells, List.forall_mem_singleton.mpr hcolumns.exists_spells⟩⟩
  obtain ⟨fields, ⟨raw, hspells, hread⟩, hfield⟩ := exists_fields hnames (by decide) hmembers
  refine ⟨raw, hspells, ?_⟩
  rw [ofRaw?, hread]
  simp only [Option.bind_eq_bind, Option.bind_some, Option.pure_def,
    hfield "table_name" rfl htable, hfield "dynamic_column" rfl hcolumn,
    hfield "columns" rfl hcolumns]

theorem Config.readsBack_toJson (c : Config) : ReadsBack ofRaw? c.toJson c := by
  have hdialect := c.dialect.readsBack_toJson
  have hentities := ReadsBack.list fun e (_ : e ∈ c.entities) => e.readsBack_toJson
  have hnames : Entries.names c.toJson.members = fieldNames := rfl
  have hmembers : ∀ m ∈ c.toJson.members, ∃ raw : Json.Raw, raw.Spells m.2.compact :=
    List.forall_mem_cons.mpr
      ⟨hdialect.exists_spells, List.forall_mem_singleton.mpr hentities.exists_spells⟩
  obtain ⟨fields, ⟨raw, hspells, hread⟩, hfield⟩ := exists_fields hnames (by decide) hmembers
  refine ⟨raw, hspells, ?_⟩
  rw [ofRaw?, hread]
  simp only [Option.bind_eq_bind, Option.bind_some, Option.pure_def,
    hfield "dialect" rfl hdialect, hfield "entities" rfl hentities]

/-- Every configuration is read from the compact text of its document. -/
theorem Config.parse_compact_toJson (c : Config) : parse c.toJson.compact = .ok c := by
  rw [parse, Json.readsBack_iff.mp (readsBack_toJson c)]

end PackedColumn

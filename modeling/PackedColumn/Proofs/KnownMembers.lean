import Mathlib.Data.List.Count
import Mathlib.Data.List.Nodup
import PackedColumn.Proofs.Document
import PackedColumn.Proofs.Leaves

/-!
# The known members of an object

An object is read as fields by the names that its reader knows. There are fields exactly if every
key spells a name and no known name is there twice (`exists_fields?_iff`), and a field holds what
its member holds (`get?_of_fields?`). Neither depends on the order of the members or on the members
of other names.

* An `Outline` says of each known name what its member is to hold, or that there is none. Of an
  object of this outline the fields are found accordingly (`ObjectOf.exists_fields`): the given
  ones are read, and the others take their defaults (`FieldsFit.field?_eq_or`).
* `Rearranged` says of two objects that one is made from the other by a change that a reader does
  not see. It makes the same of both (`Rearranged.bind_eq`).
-/

namespace PackedColumn.Json.Raw

variable {α β : Type} {known : List String} {members members' : List (List Piece × Raw)}
  {fields fields' : Entries Raw} {name : String}

/-! ## What an object is read as -/

/-- The names that the keys of the members spell; `none` where a key spells none. -/
def keys (members : List (List Piece × Raw)) : List (Option String) :=
  members.map fun m => Piece.text? m.1

/-- A member is called `name` and holds `value`. -/
def HasMember (members : List (List Piece × Raw)) (name : String) (value : Raw) : Prop :=
  ∃ m ∈ members, Piece.text? m.1 = some name ∧ m.2 = value

/-- Every key spells a name, and no known name is there twice. -/
structure KeysReadable (known : List String) (ks : List (Option String)) : Prop where
  spelt : none ∉ ks
  once : ∀ name ∈ known, ks.count (some name) ≤ 1

theorem KeysReadable.perm {ks ks' : List (Option String)} (h : KeysReadable known ks)
    (hperm : ks.Perm ks') : KeysReadable known ks' where
  spelt := fun hmem => h.spelt (hperm.mem_iff.mpr hmem)
  once := fun name hname => hperm.count_eq (some name) ▸ h.once name hname

theorem keysReadable_cons_iff {ks : List (Option String)} (hunknown : name ∉ known) :
    KeysReadable known (some name :: ks) ↔ KeysReadable known ks := by
  have hcount : ∀ other ∈ known, (some name :: ks).count (some other) = ks.count (some other) := by
    intro other hother
    refine List.count_cons_of_ne fun he => ?_
    obtain rfl := Option.some.inj he
    exact hunknown hother
  constructor
  · intro h
    refine ⟨fun hmem => h.spelt (List.mem_cons_of_mem _ hmem), fun other hother => ?_⟩
    rw [← hcount other hother]
    exact h.once other hother
  · intro h
    refine ⟨by simpa using h.spelt, fun other hother => ?_⟩
    rw [hcount other hother]
    exact h.once other hother

/-- The keys are all read exactly where each of them spells a name. -/
theorem mapM_members_eq_some_iff {named : Entries Raw} :
    (members.mapM fun m => (Piece.text? m.1).map fun name => (name, m.2)) = some named ↔
      (members.map fun m => (Piece.text? m.1, m.2)) = named.map fun e => (some e.1, e.2) := by
  have hone : (fun (m : List Piece × Raw) (e : String × Raw) =>
      ((Piece.text? m.1).map fun name => (name, m.2)) = some e) =
        fun m e => (Piece.text? m.1, m.2) = (some e.1, e.2) := by
    funext m e
    cases Piece.text? m.1 <;> simp [Prod.ext_iff]
  rw [mapM_eq_some_iff, hone, ← List.forall₂_eq_eq_eq, List.forall₂_map_left_iff,
    List.forall₂_map_right_iff]

theorem fields?_eq_some_iff : fields? known (.object members) = some fields ↔
    ∃ named : Entries Raw,
      (members.map fun m => (Piece.text? m.1, m.2)) = named.map (fun e => (some e.1, e.2)) ∧
        fields = named.filter (fun e => known.contains e.1) ∧ (Entries.names fields).Nodup := by
  rw [fields?, Option.bind_eq_bind, Option.bind_eq_some_iff]
  simp only [mapM_members_eq_some_iff, Option.ite_none_right_eq_some, Option.some.injEq]
  constructor
  · rintro ⟨named, hnamed, hnodup, rfl⟩
    exact ⟨named, hnamed, rfl, hnodup⟩
  · rintro ⟨named, hnamed, rfl, hnodup⟩
    exact ⟨named, hnamed, hnodup, rfl⟩

/-- The known names are each there once at most exactly where the fields have no name twice. -/
theorem nodup_names_filter_iff {named : Entries Raw} :
    (Entries.names (named.filter fun e => known.contains e.1)).Nodup ↔
      ∀ name ∈ known, (Entries.names named).count name ≤ 1 := by
  have hnames : Entries.names (named.filter fun e => known.contains e.1) =
      (Entries.names named).filter known.contains := by
    rw [Entries.names, Entries.names, List.filter_map]
    rfl
  rw [hnames, List.nodup_iff_count_le_one]
  constructor
  · intro h name hname
    rw [← List.count_filter (p := known.contains) (List.contains_iff_mem.mpr hname)]
    exact h name
  · intro h name
    by_cases hname : name ∈ known
    · rw [List.count_filter (List.contains_iff_mem.mpr hname)]
      exact h name hname
    · rw [List.count_eq_zero_of_not_mem]
      · exact Nat.zero_le 1
      · exact fun hmem => hname (List.contains_iff_mem.mp (List.mem_filter.mp hmem).2)

theorem keys_eq {named : Entries Raw}
    (h : (members.map fun m => (Piece.text? m.1, m.2)) = named.map fun e => (some e.1, e.2)) :
    keys members = (Entries.names named).map some := by
  have := congrArg (List.map Prod.fst) h
  simpa only [List.map_map, keys, Entries.names, Function.comp_def] using this

/-- There are fields exactly where the keys are readable. -/
theorem exists_fields?_iff :
    (∃ fields, fields? known (.object members) = some fields) ↔
      KeysReadable known (keys members) := by
  have hcount (names : List String) (name : String) :
      (names.map some).count (some name) = names.count name :=
    List.count_map_of_injective names some (fun _ _ => Option.some.inj) name
  constructor
  · rintro ⟨fields, h⟩
    obtain ⟨named, hnamed, rfl, hnodup⟩ := fields?_eq_some_iff.mp h
    have hkeys := keys_eq hnamed
    refine ⟨by simp [hkeys], fun name hname => ?_⟩
    rw [hkeys, hcount]
    exact nodup_names_filter_iff.mp hnodup name hname
  · intro h
    have hspelt : ∀ m ∈ members, ∃ e : String × Raw, (Piece.text? m.1, m.2) = (some e.1, e.2) := by
      intro m hm
      cases hname : Piece.text? m.1 with
      | none => exact (h.spelt (List.mem_map.mpr ⟨m, hm, hname⟩)).elim
      | some name => exact ⟨(name, m.2), rfl⟩
    obtain ⟨named, hall⟩ := exists_forall₂ hspelt
    have hnamed : (members.map fun m => (Piece.text? m.1, m.2)) =
        named.map fun e => (some e.1, e.2) := by
      rwa [← List.forall₂_eq_eq_eq, List.forall₂_map_left_iff, List.forall₂_map_right_iff]
    refine ⟨_, fields?_eq_some_iff.mpr ⟨named, hnamed, rfl, nodup_names_filter_iff.mpr ?_⟩⟩
    intro name hname
    rw [← hcount, ← keys_eq hnamed]
    exact h.once name hname

/-- A field holds what the member of its name holds. -/
theorem get?_of_fields? (h : fields? known (.object members) = some fields) {value : Raw} :
    Entries.get? name fields = some value ↔ name ∈ known ∧ HasMember members name value := by
  obtain ⟨named, hnamed, rfl, hnodup⟩ := fields?_eq_some_iff.mp h
  have hmem : HasMember members name value ↔ (name, value) ∈ named := by
    have hpair : (some name, value) ∈ members.map (fun m => (Piece.text? m.1, m.2)) ↔
        (some name, value) ∈ named.map fun e => (some e.1, e.2) := by rw [hnamed]
    simpa [HasMember] using hpair
  rw [hmem]
  constructor
  · intro hget
    have hin := List.mem_filter.mp (Entries.mem_of_get? hget)
    exact ⟨List.contains_iff_mem.mp hin.2, hin.1⟩
  · rintro ⟨hname, hin⟩
    exact Entries.get?_of_mem hnodup
      (List.mem_filter.mpr ⟨hin, List.contains_iff_mem.mpr hname⟩)

/-! ## Objects that hold what they are to hold -/

/-- What an object is to hold under its known names: the condition on the value of a member, or
nothing where there is to be no member. -/
abbrev Outline := Entries (Option (Raw → Prop))

/-- The object holds what the outline says, in any order and beside members of any other names. -/
structure Fits (outline : Outline) (members : List (List Piece × Raw)) : Prop
    extends KeysReadable (Entries.names outline) (keys members) where
  given : ∀ e ∈ outline, ∀ P, e.2 = some P → ∃ value, HasMember members e.1 value ∧ P value
  missing : ∀ e ∈ outline, e.2 = none → some e.1 ∉ keys members

/-- An object that holds what the outline says. -/
inductive ObjectOf (outline : Outline) : Raw → Prop
  | mk {members : List (List Piece × Raw)} (h : Fits outline members) :
      ObjectOf outline (.object members)

/-- The fields hold what the outline says. -/
structure FieldsFit (outline : Outline) (fields : Entries Raw) : Prop where
  given : ∀ name P, Entries.get? name outline = some (some P) →
    ∃ value, Entries.get? name fields = some value ∧ P value
  missing : ∀ name, Entries.get? name outline = some none → Entries.get? name fields = none

theorem ObjectOf.exists_fields {outline : Outline} {raw : Raw} (h : ObjectOf outline raw) :
    ∃ fields, fields? (Entries.names outline) raw = some fields ∧ FieldsFit outline fields := by
  obtain ⟨h⟩ := h
  obtain ⟨fields, hfields⟩ := exists_fields?_iff.mpr h.toKeysReadable
  refine ⟨fields, hfields, fun name P hget => ?_, fun name hget => ?_⟩
  · have hentry := Entries.mem_of_get? hget
    obtain ⟨value, hvalue, hP⟩ := h.given _ hentry P rfl
    exact ⟨value, (get?_of_fields? hfields).mpr ⟨List.mem_map_of_mem hentry, hvalue⟩, hP⟩
  · refine Option.eq_none_iff_forall_ne_some.mpr fun value hvalue => ?_
    obtain ⟨-, m, hm, hname, -⟩ := (get?_of_fields? hfields).mp hvalue
    exact h.missing _ (Entries.mem_of_get? hget) rfl (List.mem_map.mpr ⟨m, hm, hname⟩)

namespace FieldsFit

variable {outline : Outline} {read? : Raw → Option α}

/-- A field that is given is read as it is given, and another takes its default. -/
theorem field?_eq_or (h : FieldsFit outline fields) (x? : Option β) (val : β → α)
    {P : β → Raw → Prop} (hget : Entries.get? name outline = some (x?.map P))
    (hread : ∀ x raw, P x raw → read? raw = some (val x)) (default : Option α) :
    field? fields name read? default = (x?.map val).or default := by
  cases x? with
  | some x =>
    obtain ⟨value, hvalue, hP⟩ := h.given name (P x) hget
    rw [field?, hvalue]
    exact hread x value hP
  | none =>
    rw [field?, h.missing name hget]
    rfl

theorem field?_eq_getD (h : FieldsFit outline fields) (x? : Option α) {P : α → Raw → Prop}
    (hget : Entries.get? name outline = some (x?.map P))
    (hread : ∀ x raw, P x raw → read? raw = some x) (default : α) :
    field? fields name read? (some default) = some (x?.getD default) := by
  rw [h.field?_eq_or x? id hget hread, Option.map_id_fun, id, Option.or_some]

end FieldsFit

/-! ## Changes that are not seen -/

/-- The second object is the first with its members in another order, with one more member of an
unknown name, or with a known member's value changed as `inner` allows it for the name. -/
inductive Rearranged (known : List String) (inner : String → Raw → Raw → Prop) : Raw → Raw → Prop
  | permuted {members members' : List (List Piece × Raw)} (hperm : members.Perm members') :
      Rearranged known inner (.object members) (.object members')
  | added {members : List (List Piece × Raw)} {key : List Piece} {name : String} {value : Raw}
      (hkey : Piece.text? key = some name) (hunknown : name ∉ known) :
      Rearranged known inner (.object members) (.object ((key, value) :: members))
  | within {members : List (List Piece × Raw)} {key : List Piece} {name : String}
      {value value' : Raw} (hkey : Piece.text? key = some name) (hinner : inner name value value') :
      Rearranged known inner (.object ((key, value) :: members))
        (.object ((key, value') :: members))

/-- Each field is the same in both, or changed as `inner` allows it. -/
def FieldsAlike (inner : String → Raw → Raw → Prop) (fields fields' : Entries Raw) : Prop :=
  ∀ name, Entries.get? name fields = Entries.get? name fields' ∨
    ∃ value value', Entries.get? name fields = some value ∧
      Entries.get? name fields' = some value' ∧ inner name value value'

theorem FieldsAlike.field?_eq {inner : String → Raw → Raw → Prop}
    (h : FieldsAlike inner fields fields') {read? : Raw → Option α}
    (hread : ∀ value value', inner name value value' → read? value = read? value')
    (default : Option α) :
    field? fields name read? default = field? fields' name read? default := by
  rcases h name with hsame | ⟨value, value', hvalue, hvalue', hinner⟩
  · rw [field?, field?, hsame]
  · rw [field?, field?, hvalue, hvalue']
    exact hread value value' hinner

/-- Where nothing is changed inside the members, the fields are the same. -/
theorem FieldsAlike.field?_eq_of_false (h : FieldsAlike (fun _ _ _ => False) fields fields')
    (name : String) (read? : Raw → Option α) (default : Option α) :
    field? fields name read? default = field? fields' name read? default :=
  h.field?_eq (fun _ _ => False.elim) default

namespace Rearranged

variable {inner : String → Raw → Raw → Prop} {raw raw' : Raw}

/-- Rearranged objects are readable together. -/
theorem readable_iff (h : Rearranged known inner (.object members) (.object members')) :
    KeysReadable known (keys members) ↔ KeysReadable known (keys members') := by
  cases h with
  | permuted hperm =>
    have hkeys : (keys members).Perm (keys members') := hperm.map _
    exact ⟨fun h => h.perm hkeys, fun h => h.perm hkeys.symm⟩
  | added hkey hunknown =>
    rw [keys, keys, List.map_cons, hkey, keysReadable_cons_iff hunknown]
  | within => exact Iff.rfl

theorem alike (h : Rearranged known inner (.object members) (.object members'))
    (hfields : fields? known (.object members) = some fields)
    (hfields' : fields? known (.object members') = some fields') :
    FieldsAlike inner fields fields' := by
  intro name
  have hsame (hholds : name ∈ known → ∀ value, HasMember members name value ↔
      HasMember members' name value) : Entries.get? name fields = Entries.get? name fields' := by
    refine Option.ext fun value => ?_
    rw [get?_of_fields? hfields, get?_of_fields? hfields']
    exact and_congr_right fun hname => hholds hname value
  -- Only under the name of a changed member do known members hold anything else.
  cases h with
  | permuted hperm =>
    refine .inl (hsame fun _ value => ?_)
    simp only [HasMember, hperm.mem_iff]
  | added hkey hunknown =>
    refine .inl (hsame fun hname value => ?_)
    have hne : Piece.text? _ ≠ some name := fun he =>
      hunknown (Option.some.inj (hkey.symm.trans he) ▸ hname)
    simp [HasMember, hne]
  | @within _ _ changed value value' hkey hinner =>
    by_cases hname : name = changed ∧ name ∈ known
    · obtain ⟨rfl, hname⟩ := hname
      refine .inr ⟨value, value', ?_, ?_, hinner⟩
      · exact (get?_of_fields? hfields).mpr ⟨hname, _, List.mem_cons_self, hkey, rfl⟩
      · exact (get?_of_fields? hfields').mpr ⟨hname, _, List.mem_cons_self, hkey, rfl⟩
    · refine .inl (hsame fun hknown v => ?_)
      have hne : changed ≠ name := fun he => hname ⟨he.symm, hknown⟩
      simp [HasMember, hkey, hne]

/-- What is made of the fields is the same, if it is the same for fields that are alike. -/
theorem bind_eq (h : Rearranged known inner raw raw') {make : Entries Raw → Option α}
    (hmake : ∀ fields fields', FieldsAlike inner fields fields' → make fields = make fields') :
    (fields? known raw).bind make = (fields? known raw').bind make := by
  obtain ⟨members, members', rfl, rfl⟩ : ∃ members members', raw = .object members ∧
      raw' = .object members' := by
    cases h <;> exact ⟨_, _, rfl, rfl⟩
  have hiff := h.readable_iff
  rw [← exists_fields?_iff, ← exists_fields?_iff] at hiff
  cases hfields : fields? known (.object members) with
  | none =>
    have hnone : fields? known (.object members') = none := by
      refine Option.eq_none_iff_forall_ne_some.mpr fun fields' hfields' => ?_
      obtain ⟨fields, hsome⟩ := hiff.mpr ⟨fields', hfields'⟩
      rw [hfields] at hsome
      cases hsome
    rw [hnone]
  | some fields =>
    obtain ⟨fields', hfields'⟩ := hiff.mp ⟨fields, hfields⟩
    rw [hfields']
    exact hmake fields fields' (h.alike hfields hfields')

end Rearranged

end PackedColumn.Json.Raw

import PackedColumn.Proofs.Members

/-!
# Distinct names

`Json.Distinct` says that no object at any level has two members of one name. A decoded value is so
(`distinct_of_parse?`), because a decoded object keeps one member of each name, and what a record
does to its attributes keeps it so (`distinct_set`, `distinct_unset`).
-/

namespace PackedColumn

namespace Json

/-- No object at any level has two members of one name. -/
inductive Distinct : Json → Prop
  | null : Distinct .null
  | bool (b : Bool) : Distinct (.bool b)
  | number (n : Json.Number) : Distinct (.number n)
  | string (s : String) : Distinct (.string s)
  | array {items : List Json} : (∀ item ∈ items, Distinct item) → Distinct (.array items)
  | object {members : Entries Json} : (Entries.names members).Nodup →
      (∀ member ∈ members, Distinct member.2) → Distinct (.object members)

namespace Distinct

theorem nodup_members {j : Json} (h : j.Distinct) : (Entries.names j.members).Nodup := by
  cases h with
  | object hnodup _ => exact hnodup
  | null | bool | number | string | array => exact List.nodup_nil

theorem of_mem_members {j : Json} (h : j.Distinct) : ∀ member ∈ j.members, member.2.Distinct := by
  cases h with
  | object _ hmembers => exact hmembers
  | null | bool | number | string | array => exact fun _ hm => by cases hm

theorem of_get? {j child : Json} {name : String} (h : j.Distinct)
    (hget : Entries.get? name j.members = some child) : child.Distinct :=
  h.of_mem_members _ (Entries.mem_of_get? hget)

/-- Setting a value makes no second member of any name. -/
theorem setAt {value : Json} (hvalue : value.Distinct) {j : Json} (h : j.Distinct)
    (names : List String) : (Json.setAt value names j).Distinct := by
  induction names generalizing j with
  | nil => exact hvalue
  | cons name rest ih =>
    have hold : ((Entries.get? name j.members).getD .null).Distinct := by
      cases hget : Entries.get? name j.members with
      | none => exact .null
      | some child => exact h.of_get? hget
    refine .object (Entries.nodup_put h.nodup_members) fun member hmember => ?_
    rcases Entries.mem_put hmember with rfl | hmember
    · exact ih hold
    · exact h.of_mem_members member hmember

/-- Taking a value out leaves the other members as they are. -/
theorem takeAt? {names : List String} {j removed rest : Json} (h : j.Distinct)
    (htake : j.takeAt? names = some (removed, rest)) : rest.Distinct := by
  induction names generalizing j rest with
  | nil => cases htake
  | cons name names ih =>
    rcases takeAt?_cons_cases htake with
      ⟨-, others, hfound, rfl⟩ | ⟨child, left, hget, hfound, rfl⟩
    · have hsub := Entries.sublist_of_take? hfound
      refine .object (h.nodup_members.sublist (hsub.map _)) fun member hmember => ?_
      exact h.of_mem_members member (hsub.subset hmember)
    · refine .object (Entries.nodup_put h.nodup_members) fun member hmember => ?_
      rcases Entries.mem_put hmember with rfl | hmember
      · exact ih (h.of_get? hget) hfound
      · exact h.of_mem_members member hmember

end Distinct

/-! ## Decoding -/

namespace Raw

mutual

/-- Whatever structure is read, its value has no two members of one name. -/
theorem distinct_of_value? : ∀ {raw : Raw} {j : Json}, raw.value? = some j → j.Distinct
  | .null, j, h => by obtain rfl := Option.some.inj h; exact .null
  | .bool b, j, h => by obtain rfl := Option.some.inj h; exact .bool b
  | .number text, j, h => by
    obtain ⟨n, -, rfl⟩ := Option.map_eq_some_iff.mp h
    exact .number n
  | .string pieces, j, h => by
    obtain ⟨s, -, rfl⟩ := Option.map_eq_some_iff.mp h
    exact .string s
  | .array items, j, h => by
    obtain ⟨values, hitems, rfl⟩ := Option.map_eq_some_iff.mp h
    exact .array (distinct_of_items? hitems)
  | .object members, j, h => by
    obtain ⟨ms, hmembers, rfl⟩ := Option.map_eq_some_iff.mp h
    refine .object (Entries.nodup_collect ms) fun member hmember => ?_
    exact distinct_of_members? hmembers member (Entries.mem_collect hmember)

theorem distinct_of_items? : ∀ {items : List Raw} {values : List Json},
    items? items = some values → ∀ value ∈ values, value.Distinct
  | [], values, h => by
    obtain rfl := Option.some.inj h
    exact fun _ hv => by cases hv
  | item :: rest, values, h => by
    obtain ⟨v, hitem, h⟩ := Option.bind_eq_some_iff.mp h
    obtain ⟨vs, hrest, rfl⟩ := Option.map_eq_some_iff.mp h
    intro value hvalue
    rcases List.mem_cons.mp hvalue with rfl | hvalue
    · exact distinct_of_value? hitem
    · exact distinct_of_items? hrest value hvalue

theorem distinct_of_members? : ∀ {members : List (List Piece × Raw)} {ms : List (String × Json)},
    members? members = some ms → ∀ member ∈ ms, member.2.Distinct
  | [], ms, h => by
    obtain rfl := Option.some.inj h
    exact fun _ hm => by cases hm
  | (key, item) :: rest, ms, h => by
    obtain ⟨name, -, h⟩ := Option.bind_eq_some_iff.mp h
    obtain ⟨v, hitem, h⟩ := Option.bind_eq_some_iff.mp h
    obtain ⟨tail, hrest, rfl⟩ := Option.map_eq_some_iff.mp h
    intro member hmember
    rcases List.mem_cons.mp hmember with rfl | hmember
    · exact distinct_of_value? hitem
    · exact distinct_of_members? hrest member hmember

end

end Raw

theorem distinct_of_parse? {text : String} {j : Json} (h : parse? text = some j) : j.Distinct := by
  obtain ⟨raw, -, h⟩ := Option.bind_eq_some_iff.mp h
  split at h
  · exact Raw.distinct_of_value? h
  · cases h

end Json

/-! ## Records -/

namespace Record

theorem distinct_ofJson {j : Json} {r : Record} (hj : j.Distinct) (h : ofJson j = .ok r) :
    r.toJson.Distinct := by
  cases j with
  | null =>
    obtain rfl := Except.ok.inj h
    exact .object List.nodup_nil fun _ hm => by cases hm
  | object members =>
    obtain rfl := Except.ok.inj h
    exact hj
  | bool | number | string | array => cases h

theorem distinct_ofDump {dump : String} {r : Record} (h : ofDump dump = .ok r) :
    r.toJson.Distinct := by
  unfold ofDump at h
  split at h
  · exact distinct_ofJson .null h
  · split at h
    · next value hparse => exact distinct_ofJson (Json.distinct_of_parse? hparse) h
    · cases h

theorem distinct_set {r r' : Record} {name : String} {value : Json} (hvalue : value.Distinct)
    (hr : r.toJson.Distinct) (h : r.set name value = .ok r') : r'.toJson.Distinct := by
  cases hp : Path.parse? name with
  | none =>
    rw [set, Path.parse, hp] at h
    cases h
  | some p =>
    obtain ⟨r'', hset, hjson⟩ := toJson_set (r := r) hp value
    obtain rfl := Except.ok.inj (hset.symm.trans h)
    rw [hjson]
    exact hvalue.setAt hr p.segments

theorem distinct_unset {r : Record} {name : String} (hr : r.toJson.Distinct) :
    (r.unset name).2.toJson.Distinct := by
  cases hp : Path.parse? name with
  | none =>
    rw [unset, hp]
    exact hr
  | some p =>
    rw [toJson_unset hp]
    cases htake : r.toJson.takeAt? p.segments with
    | none => exact hr
    | some found => exact hr.takeAt? htake

end Record

end PackedColumn

import PackedColumn.Proofs.Distinct
import PackedColumn.Proofs.Eval

/-!
# Writing to a column and to a record

`Packed.ofJson` is the tree of a JSON value. It commutes with what a record does: a walk along names
(`walk_ofJson`), setting a value (`ofJson_setAt`) and taking one out (`ofJson_takeAt?`). So the
write of an attribute makes of the column that holds a record the column that holds the record after
the same change (`write_refines_record`).
-/

namespace PackedColumn

open Packed

/-- The scalar, if the value is one. -/
def Json.scalar? : Json → Option Scalar
  | .bool b => some (.bool b)
  | .number n => some (.ofNumber n)
  | .string s => some (.text s)
  | .null | .array _ | .object _ => none

theorem Value.ofJson_of_scalar? {j : Json} {s : Scalar} (h : j.scalar? = some s) (path : String) :
    Value.ofJson path j = .ok (.scalar s) := by
  cases j with
  | bool | number | string => obtain rfl := Option.some.inj h; rfl
  | null | array | object => cases h

namespace Packed

variable (d : Dialect)

mutual

/-- The tree of a JSON value. An object is a map, and anything else is a scalar, with the literal
and the type that it is written with. -/
def ofJson : Json → Packed
  | .object ms => .map (ofMembers ms)
  | j => .scalar (j.scalar?.map (·.literal d)) (j.scalar?.map (·.defaultType.render d.typeCase))

/-- The entries of an object. -/
def ofMembers : List (String × Json) → String → Option Packed
  | [], _ => none
  | (k, j) :: rest, key => if k = key then some (ofJson j) else ofMembers rest key

end

theorem ofMembers_eq (ms : Entries Json) (key : String) :
    ofMembers d ms key = (Entries.get? key ms).map (ofJson d) := by
  induction ms with
  | nil => rw [ofMembers]; rfl
  | cons e rest ih =>
    obtain ⟨k, j⟩ := e
    rw [ofMembers, Entries.get?]
    split
    · rfl
    · exact ih

theorem ofJson_leaf {j : Json} (h : ∀ ms, j ≠ .object ms) :
    ofJson d j =
      .scalar (j.scalar?.map (·.literal d)) (j.scalar?.map (·.defaultType.render d.typeCase)) := by
  rw [ofJson]
  exact h

/-- A scalar stands in a column as the write without a type leaves it. -/
theorem ofJson_of_scalar? {j : Json} {s : Scalar} (h : j.scalar? = some s) :
    some (ofJson d j) = Value.stored d none (.scalar s) := by
  have hleaf : ∀ ms, j ≠ .object ms := by
    rintro ms rfl
    cases h
  rw [ofJson_leaf d hleaf, h]
  rfl

/-- The entries of the tree are the trees of the members. -/
theorem entry_ofJson (key : String) (j : Json) :
    entry key (some (ofJson d j)) = (Entries.get? key j.members).map (ofJson d) := by
  cases j with
  | object ms => rw [ofJson, entry_map, ofMembers_eq]; rfl
  | null | bool | number | string | array => rw [ofJson_leaf d (by rintro ms ⟨⟩)]; rfl

/-- Putting a member is putting an entry. -/
theorem ofJson_put (key : String) (value j : Json) :
    some (ofJson d (.object (Entries.put key value j.members))) =
      put key (some (ofJson d value)) (some (ofJson d j)) := by
  rw [ofJson, put]
  congr 2
  funext k
  rw [ofMembers_eq, Entries.get?_put, entry_ofJson]
  split <;> rfl

/-- Taking a member is putting nothing in its place. -/
theorem ofJson_take? {key : String} {removed j : Json} {rest : Entries Json}
    (hnodup : (Entries.names j.members).Nodup)
    (h : Entries.take? key j.members = some (removed, rest)) :
    some (ofJson d (.object rest)) = put key none (some (ofJson d j)) := by
  rw [ofJson, put]
  congr 2
  funext k
  rw [ofMembers_eq, Entries.get?_of_take? hnodup h, entry_ofJson]
  split <;> rfl

theorem walk_ofJson (names : List String) (j : Json) :
    walk names (some (ofJson d j)) = (j.at? names).map (ofJson d) := by
  induction names generalizing j with
  | nil => rfl
  | cons name rest ih =>
    rw [walk_cons, entry_ofJson, Json.at?_cons]
    cases Entries.get? name j.members with
    | none => exact walk_none rest
    | some child => exact ih child

/-- Setting a value along names stores its tree along them. -/
theorem ofJson_setAt (value : Json) (names : List String) (j : Json) :
    some (ofJson d (Json.setAt value names j)) =
      store (some (ofJson d value)) names (some (ofJson d j)) := by
  induction names generalizing j with
  | nil => rfl
  | cons name rest ih =>
    rw [Json.setAt, ofJson_put, ih, store, entry_ofJson]
    cases Entries.get? name j.members with
    | some child => rfl
    | none =>
      -- The record goes on from null where the column goes on from nothing.
      have hnull : ∀ k, entry k (some (ofJson d .null)) = entry k none := fun k =>
        entry_ofJson d k .null
      show put name (store _ rest (some (ofJson d .null))) _ = put name (store _ rest none) _
      rw [store_congr hnull]

/-- Taking a value out along names stores nothing along them. -/
theorem ofJson_takeAt? {names : List String} {j removed rest : Json} (hj : j.Distinct)
    (h : j.takeAt? names = some (removed, rest)) :
    some (ofJson d rest) = store none names (some (ofJson d j)) := by
  induction names generalizing j rest with
  | nil => cases h
  | cons name names ih =>
    rcases Json.takeAt?_cons_cases h with
      ⟨rfl, others, htake, rfl⟩ | ⟨child, left, hget, htake, rfl⟩
    · exact ofJson_take? d hj.nodup_members htake
    · rw [ofJson_put, ih (hj.of_get? hget) htake, store, entry_ofJson, hget]
      rfl

end Packed

/-! ## Records -/

namespace Record

variable (d : Dialect)

/-- What a column holds that holds the record. -/
def packed (r : Record) : Option Packed := some (Packed.ofJson d r.toJson)

theorem walk_packed {r : Record} {name : String} {q : Path} (h : Path.parse? name = some q) :
    walk q.segments (r.packed d) = (r.get? name).map (Packed.ofJson d) := by
  rw [packed, walk_ofJson, get?_of_parse? h]

/-- After a removal the record reads as the column does in which nothing is stored at the path. -/
theorem walk_packed_unset {r : Record} {name other : String} {p q : Path}
    (hr : r.toJson.Distinct) (hp : Path.parse? name = some p) (hq : Path.parse? other = some q)
    (habove : q.segments <+: p.segments → q.segments = p.segments) :
    walk q.segments (store none p.segments (r.packed d)) =
      ((r.unset name).2.get? other).map (Packed.ofJson d) := by
  rw [← walk_packed d hq]
  unfold packed
  rw [toJson_unset hp]
  cases htake : r.toJson.takeAt? p.segments with
  | some found =>
    rw [← ofJson_takeAt? d hr htake]
    rfl
  | none =>
    have hmissing : walk p.segments (some (Packed.ofJson d r.toJson)) = none := by
      rw [walk_ofJson, ← Json.takeAt?_fst p.segments_ne_nil, htake]
      rfl
    exact walk_store_none hmissing habove

end Record

/-! ## Requests -/

namespace Entity

variable {e : Entity} {c : Column} {name : String} {p : Path} (d : Dialect)

theorem outcome_columnFor (hc : e.column? = some c) :
    (Request.ofExcept (e.columnFor name)).outcome = .ok c := by
  rw [Request.outcome_ofExcept, columnFor, hc]

theorem outcome_read (hc : e.column? = some c) (hp : Path.parse? name = some p)
    (typeText? : Option String) :
    (e.read d name typeText?).outcome = .ok (((Expr.column (c.qualified d)).read p
      (Access.namedType name typeText?).value).render d) := by
  rw [read, Request.outcome_bind_of_ok _ (outcome_columnFor hc),
    Access.outcome_readNamed _ _ hp, Access.value_read]

theorem outcome_write (hc : e.column? = some c) (hp : Path.parse? name = some p) (v : Value)
    (typeText? : Option String) :
    (e.write d name v typeText?).outcome = .ok (((Expr.column (c.qualified d)).write p v
      (Access.namedType name typeText?).value).render d) := by
  rw [write, Request.outcome_bind_of_ok _ (outcome_columnFor hc),
    Access.outcome_writeNamed _ _ hp, Access.value_write]

/-- Writing what the record has is writing the value that the record has. -/
theorem outcome_writeCurrent {r : Record} {v : Value} (h : r.value name = .ok v)
    (typeText? : Option String) :
    (e.writeCurrent d r name typeText?).outcome = (e.write d name v typeText?).outcome := by
  have hvalue : (Request.ofExcept (r.value name)).outcome = .ok v := by
    rw [Request.outcome_ofExcept, h]
  rw [writeCurrent, Request.outcome_bind_of_ok _ hvalue]

end Entity

/-- On a column that holds a record, the write of an attribute as the record has it after `set`
yields the column that holds the record after it. The write of a removal yields a column in which
every name that leads to no place above the attribute reads as in the record after `unset`. -/
theorem write_refines_record (d : Dialect) (hd : d.Legible) (e : Entity) (c : Column) (r : Record)
    (name : String) (p : Path) (hc : e.column? = some c) (hp : Path.parse? name = some p)
    (hr : r.toJson.Distinct) :
    (∀ value s, value.scalar? = some s → ∃ r' sql, r.set name value = .ok r' ∧
        (e.writeCurrent d r' name none).outcome = .ok sql ∧
        Sql.eval? d (c.qualified d) (r.packed d) sql = some (r'.packed d)) ∧
      ∀ v : Value, v.isRemoval → ∀ typeText?, ∃ sql t,
        (e.write d name v typeText?).outcome = .ok sql ∧
        Sql.eval? d (c.qualified d) (r.packed d) sql = some t ∧
        ∀ other q, Path.parse? other = some q →
          (q.segments <+: p.segments → q.segments = p.segments) →
            ∃ text, (e.read d other none).outcome = .ok text ∧
              Sql.eval? d (c.qualified d) t text =
                some (((r.unset name).2.get? other).map (Packed.ofJson d)) := by
  refine ⟨fun value s hs => ?_, fun v hv typeText? => ?_⟩
  · obtain ⟨r', hset, hjson⟩ := Record.toJson_set hp value
    have hvalue : r'.value name = .ok (.scalar s) := by
      rw [Record.value, Record.get?_of_parse? hp, hjson, Json.at?_setAt]
      exact Value.ofJson_of_scalar? hs name
    refine ⟨r', _, hset, (Entity.outcome_writeCurrent d hvalue none).trans
      (Entity.outcome_write d hc hp (.scalar s) none), ?_⟩
    rw [← Access.value_write, Sql.eval?_write hd, Record.packed, Record.packed, hjson,
      ofJson_setAt, ofJson_of_scalar? d hs]
    rfl
  · refine ⟨_, _, Entity.outcome_write d hc hp v typeText?, Sql.eval?_write hd p v _,
      fun other q hq habove => ⟨_, Entity.outcome_read d hc hq none, ?_⟩⟩
    rw [← Access.value_read, Sql.eval?_read hd, Value.stored_of_isRemoval d hv]
    exact congrArg some (Record.walk_packed_unset d hr hp hq habove)

/-- A member of a nested object is set, and is taken away from beside another. -/
theorem write_refines_record_nested :
    let e : Entity := ⟨"t", some "dyn", []⟩
    let c : Column := ⟨some "t", "dyn"⟩
    let r : Record := ⟨[("a", .object [("b", .string "x"), ("c", .bool true)])]⟩
    let p : Path := ⟨["a", "b"], by decide, by decide⟩
    let column := c.qualified .default
    Dialect.default.Legible ∧ e.column? = some c ∧ Path.parse? "a.b" = some p ∧
      r.toJson.Distinct ∧
      (∃ r' sql, r.set "a.b" (.bool false) = .ok r' ∧
        (e.writeCurrent .default r' "a.b" none).outcome = .ok sql ∧
        Sql.eval? .default column (r.packed .default) sql = some (r'.packed .default)) ∧
      ∃ sql t text, (e.write .default "a.b" .null none).outcome = .ok sql ∧
        Sql.eval? .default column (r.packed .default) sql = some t ∧
        (e.read .default "a.c" none).outcome = .ok text ∧
        Sql.eval? .default column t text =
          some (((r.unset "a.b").2.get? "a.c").map (ofJson .default)) := by
  intro e c r p column
  have hd := Dialect.legible_default
  have hc : e.column? = some c := by decide
  have hp : Path.parse? "a.b" = some p := by decide +kernel
  have hq : Path.parse? "a.c" = some ⟨["a", "c"], by decide, by decide⟩ := by decide +kernel
  have hr : r.toJson.Distinct := by
    refine .object (by decide) fun member hmember => ?_
    obtain rfl := List.mem_singleton.mp hmember
    refine .object (by decide) fun member hmember => ?_
    cases hmember with
    | head => exact .string "x"
    | tail _ hmember =>
      obtain rfl := List.mem_singleton.mp hmember
      exact .bool true
  obtain ⟨hset, hunset⟩ := write_refines_record .default hd e c r "a.b" p hc hp hr
  obtain ⟨sql, t, hwrite, ht, hreads⟩ := hunset .null rfl none
  obtain ⟨text, hread, hfound⟩ := hreads "a.c" _ hq (by decide)
  exact ⟨hd, hc, hp, hr, hset (.bool false) (.bool false) rfl, sql, t, text, hwrite, ht, hread,
    hfound⟩

end PackedColumn

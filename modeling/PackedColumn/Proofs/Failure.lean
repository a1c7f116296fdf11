import PackedColumn.Proofs.Levels
import PackedColumn.Proofs.Refinement
import PackedColumn.Proofs.Statement

/-!
# What a request fails with

A request can fail for want of a dynamic column or for the name of its attribute, and for nothing
else: a type outside the grammar is left out of account, and every value can be written. Only where
the value is the one that a record holds, it may be none that can be written.

* `Entity.HasColumn e` says of the configuration alone that `e` has a dynamic column
  (`isSome_column?_iff`).
* A query fails without a column, whatever its clauses are, and names the configured one
  (`Query.outcome_build_eq_error_iff`).
* `Entity.Answers e name r` says when the request `r` of the attribute `name` fails and with what.
  The column comes first: without one, an invalid name is not looked at. Any request that resolves
  the column and then takes the name apart answers so (`Entity.answers_bind`).
* The value of a record comes before the column: without a column an array or an object is what the
  write of the current value fails with (`Entity.writeCurrent_without_column`).
-/

namespace PackedColumn

namespace Entity

variable {e : Entity} {name : String}

/-- A dynamic column is configured, and the table is not known to lack it. -/
def HasColumn (e : Entity) : Prop :=
  ∃ column, e.dynamicColumn = some column ∧ column ≠ "" ∧ (e.columns = [] ∨ column ∈ e.columns)

theorem isSome_column?_iff : e.column?.isSome ↔ e.HasColumn := by
  unfold column? columnName HasColumn
  cases hcolumn : e.dynamicColumn with
  | none => simp
  | some column =>
    by_cases hempty : column = ""
    · simp [hempty]
    · by_cases hknown : e.columns = [] ∨ column ∈ e.columns <;> simp [hempty, hknown]

theorem column?_eq_none_iff : e.column? = none ↔ ¬ e.HasColumn := by
  rw [← isSome_column?_iff, Option.not_isSome_iff_eq_none]

theorem column_eq_ok_iff : (∃ c, e.column = .ok c) ↔ e.HasColumn := by
  rw [← isSome_column?_iff, column]
  cases e.column? <;> simp

theorem column_eq_error_iff {err : CompileError} : e.column = .error err ↔
    ¬ e.HasColumn ∧ err = .unknownAttribute e.table (e.dynamicColumn.getD "") := by
  rw [← column?_eq_none_iff, column]
  cases e.column? <;> simp [columnName, eq_comm]

/-! ## Requests by name -/

/-- The request of the attribute `name` fails without a dynamic column, else for an invalid name,
and else gives a text. -/
structure Answers (e : Entity) (name : String) (r : Request String) : Prop where
  unknown_iff : r.outcome = .error (.unknownAttribute e.table name) ↔ ¬ e.HasColumn
  invalid_iff : e.HasColumn →
    (r.outcome = .error (.invalidPath name) ↔ name = "" ∨ "" ∈ Path.pieces name)
  exists_text : e.HasColumn → ¬ (name = "" ∨ "" ∈ Path.pieces name) → ∃ sql, r.outcome = .ok sql

/-- A request that resolves the column first and then fails for an invalid name only. -/
theorem answers_bind {f : Column → Request String}
    (hinvalid : ∀ c, e.column? = some c → Path.parse? name = none →
      (f c).outcome = .error (.invalidPath name))
    (hvalid : ∀ c p, e.column? = some c → Path.parse? name = some p →
      ∃ sql, (f c).outcome = .ok sql) :
    e.Answers name (Request.ofExcept (e.columnFor name) >>= f) := by
  cases hc : e.column? with
  | none =>
    have hnot : ¬ e.HasColumn := column?_eq_none_iff.mp hc
    have herror : (Request.ofExcept (e.columnFor name)).outcome =
        .error (.unknownAttribute e.table name) := by
      rw [Request.outcome_ofExcept, columnFor, hc]
    have houtcome := Request.outcome_bind_of_error f herror
    exact ⟨⟨fun _ => hnot, fun _ => houtcome⟩, fun h => (hnot h).elim, fun h => (hnot h).elim⟩
  | some c =>
    have hhas : e.HasColumn := isSome_column?_iff.mp (by rw [hc]; rfl)
    have hcolumn : (Request.ofExcept (e.columnFor name)).outcome = .ok c := outcome_columnFor hc
    have houtcome := Request.outcome_bind_of_ok f hcolumn
    cases hp : Path.parse? name with
    | none =>
      have hbad := Path.parse?_eq_none_iff.mp hp
      rw [hinvalid c hc hp] at houtcome
      refine ⟨?_, fun _ => ⟨fun _ => hbad, fun _ => houtcome⟩, fun _ h => (h hbad).elim⟩
      rw [houtcome]
      exact ⟨fun h => (by cases h), fun h => (h hhas).elim⟩
    | some p =>
      have hgood : ¬ (name = "" ∨ "" ∈ Path.pieces name) := by
        rw [← Path.parse?_eq_none_iff, hp]
        exact Option.some_ne_none p
      obtain ⟨sql, hsql⟩ := hvalid c p hc hp
      rw [hsql] at houtcome
      refine ⟨?_, fun _ => ?_, fun _ _ => ⟨sql, houtcome⟩⟩
      · rw [houtcome]
        exact ⟨fun h => (by cases h), fun h => (h hhas).elim⟩
      · rw [houtcome]
        exact ⟨fun h => (by cases h), fun h => (hgood h).elim⟩

theorem outcome_parse_of_none (h : Path.parse? name = none) :
    (Request.ofExcept (Path.parse name)).outcome = .error (.invalidPath name) := by
  rw [Request.outcome_ofExcept, Path.parse, h]

variable (d : Dialect)

theorem answers_read (e : Entity) (name : String) (typeText? : Option String) :
    e.Answers name (e.read d name typeText?) := by
  refine answers_bind (fun c _ hp => ?_) (fun c p _ hp => ?_)
  · exact Request.outcome_bind_of_error _ (outcome_parse_of_none hp)
  · exact ⟨_, Access.outcome_readNamed d (c.qualified d) hp typeText?⟩

theorem answers_write (e : Entity) (name : String) (v : Value) (typeText? : Option String) :
    e.Answers name (e.write d name v typeText?) := by
  refine answers_bind (fun c _ hp => ?_) (fun c p _ hp => ?_)
  · exact Request.outcome_bind_of_error _ (outcome_parse_of_none hp)
  · exact ⟨_, Access.outcome_writeNamed d (c.qualified d) hp v typeText?⟩

theorem answers_assign (e : Entity) (name : String) (v : Value) (typeText? : Option String) :
    e.Answers name (e.assign d name v typeText?) := by
  -- The write resolves the column once more, and finds what the assignment has found.
  refine answers_bind (fun c hc hp => ?_) (fun c p hc hp => ?_)
  · have hhas : e.HasColumn := isSome_column?_iff.mp (by rw [hc]; rfl)
    have hbad := Path.parse?_eq_none_iff.mp hp
    exact Request.outcome_bind_of_error _
      (((answers_write d e name v typeText?).invalid_iff hhas).mpr hbad)
  · have hwrite := outcome_write d hc hp v typeText?
    exact ⟨_, (Request.outcome_bind_of_ok _ hwrite).trans (Request.outcome_pure _)⟩

end Entity

/-! ## The value that a record holds -/

/-- Why a JSON value has no scalar form, if it has none. -/
def Json.unsupported? : Json → Option UnsupportedReason
  | .array _ => some .array
  | .object _ => some .object
  | .null | .bool _ | .number _ | .string _ => none

theorem Json.unsupported?_eq_none_iff {j : Json} : j.unsupported? = none ↔
    (∀ items, j ≠ .array items) ∧ ∀ members, j ≠ .object members := by
  cases j <;> simp [unsupported?]

theorem Value.ofJson_of_unsupported? {j : Json} {reason : UnsupportedReason}
    (h : j.unsupported? = some reason) (path : String) :
    Value.ofJson path j = .error (.unsupportedValue path reason) := by
  cases j with
  | array | object => obtain rfl := Option.some.inj h; rfl
  | null | bool | number | string => cases h

theorem Value.exists_ofJson {j : Json} (h : j.unsupported? = none) (path : String) :
    ∃ v, Value.ofJson path j = .ok v := by
  cases j with
  | null | bool | number | string => exact ⟨_, rfl⟩
  | array | object => cases h

namespace Entity

variable {e : Entity} {r : Record} {name : String} (d : Dialect)

/-- A value without a scalar form is not written, whatever the entity is. -/
theorem outcome_writeCurrent_of_unsupported? {j : Json} {reason : UnsupportedReason}
    (hget : r.get? name = some j) (h : j.unsupported? = some reason) (typeText? : Option String) :
    (e.writeCurrent d r name typeText?).outcome = .error (.unsupportedValue name reason) := by
  have hvalue : (Request.ofExcept (r.value name)).outcome =
      .error (.unsupportedValue name reason) := by
    rw [Request.outcome_ofExcept, Record.value, hget]
    exact Value.ofJson_of_unsupported? h name
  exact Request.outcome_bind_of_error _ hvalue

/-- Where the record holds no array and no object, its value is written as any other. -/
theorem exists_outcome_writeCurrent (h : ∀ j, r.get? name = some j → j.unsupported? = none)
    (typeText? : Option String) : ∃ v,
      (e.writeCurrent d r name typeText?).outcome = (e.write d name v typeText?).outcome := by
  have hvalue : ∃ v, r.value name = .ok v := by
    rw [Record.value]
    cases hget : r.get? name with
    | none => exact ⟨.absent, rfl⟩
    | some j => exact Value.exists_ofJson (h j hget) name
  obtain ⟨v, hv⟩ := hvalue
  exact ⟨v, outcome_writeCurrent d hv typeText?⟩

/-- Without a dynamic column every request of an attribute names the attribute, but for the write of
the value that a record holds: an array or an object is found first, and is what it fails with. -/
theorem writeCurrent_without_column (he : ¬ e.HasColumn) (r : Record) (name : String)
    (typeText? : Option String) :
    ((e.read d name typeText?).outcome = .error (.unknownAttribute e.table name) ∧
        ∀ v, (e.write d name v typeText?).outcome = .error (.unknownAttribute e.table name) ∧
          (e.assign d name v typeText?).outcome = .error (.unknownAttribute e.table name)) ∧
      (∀ items, r.get? name = some (.array items) →
        (e.writeCurrent d r name typeText?).outcome = .error (.unsupportedValue name .array)) ∧
      (∀ members, r.get? name = some (.object members) →
        (e.writeCurrent d r name typeText?).outcome = .error (.unsupportedValue name .object)) ∧
      ((∀ items, r.get? name ≠ some (.array items)) →
        (∀ members, r.get? name ≠ some (.object members)) →
          (e.writeCurrent d r name typeText?).outcome =
            .error (.unknownAttribute e.table name)) := by
  have hwrite (v : Value) :
      (e.write d name v typeText?).outcome = .error (.unknownAttribute e.table name) :=
    (answers_write d e name v typeText?).unknown_iff.mpr he
  have hread := (answers_read d e name typeText?).unknown_iff.mpr he
  refine ⟨⟨hread, fun v => ⟨hwrite v, ?_⟩⟩, ?_, ?_, ?_⟩
  · exact (answers_assign d e name v typeText?).unknown_iff.mpr he
  · exact fun items hget => outcome_writeCurrent_of_unsupported? d hget rfl typeText?
  · exact fun members hget => outcome_writeCurrent_of_unsupported? d hget rfl typeText?
  · intro harray hobject
    have hscalar : ∀ j, r.get? name = some j → j.unsupported? = none := fun j hget =>
      Json.unsupported?_eq_none_iff.mpr ⟨fun items hj => harray items (hj ▸ hget),
        fun members hj => hobject members (hj ▸ hget)⟩
    obtain ⟨v, hv⟩ := exists_outcome_writeCurrent d hscalar typeText?
    exact hv.trans (hwrite v)

/-- The table is known to lack the configured column. -/
theorem writeCurrent_without_column_of_array :
    let e : Entity := ⟨"t", some "dyn", ["id"]⟩
    let r : Record := ⟨[("a", .array [.null]), ("b", .bool true)]⟩
    ¬ e.HasColumn ∧
      (e.write .default "a" .null none).outcome = .error (.unknownAttribute "t" "a") ∧
      (e.writeCurrent .default r "a" none).outcome = .error (.unsupportedValue "a" .array) ∧
      (e.writeCurrent .default r "b" none).outcome = .error (.unknownAttribute "t" "b") := by
  intro e r
  have he : ¬ e.HasColumn := column?_eq_none_iff.mp (by decide)
  have hpa : Path.parse? "a" = some ⟨["a"], by decide, by decide⟩ := by decide +kernel
  have hpb : Path.parse? "b" = some ⟨["b"], by decide, by decide⟩ := by decide +kernel
  have ha : r.get? "a" = some (.array [.null]) := Record.get?_of_parse? hpa
  have hb : r.get? "b" = some (.bool true) := Record.get?_of_parse? hpb
  obtain ⟨⟨-, hother⟩, harray, -, -⟩ := writeCurrent_without_column .default he r "a" none
  obtain ⟨-, -, -, hscalar⟩ := writeCurrent_without_column .default he r "b" none
  refine ⟨he, (hother .null).1, harray _ ha, hscalar ?_ ?_⟩
  · simp [hb]
  · simp [hb]

/-- Without a column an object is what the write of the current value fails with, where a read of
the same name fails for the column. -/
theorem writeCurrent_finds_object_first :
    let e : Entity := ⟨"t", none, []⟩
    let r : Record := ⟨[("a", .object [])]⟩
    ¬ e.HasColumn ∧
      (e.read .default "a" none).outcome = .error (.unknownAttribute "t" "a") ∧
      (e.writeCurrent .default r "a" none).outcome = .error (.unsupportedValue "a" .object) ∧
      (e.writeCurrent .default r "a" none).outcome ≠ .error (.unknownAttribute "t" "a") := by
  intro e r
  have he : ¬ e.HasColumn := column?_eq_none_iff.mp (by decide)
  have hpa : Path.parse? "a" = some ⟨["a"], by decide, by decide⟩ := by decide +kernel
  have hget : r.get? "a" = some (.object []) := Record.get?_of_parse? hpa
  have hcurrent : (e.writeCurrent .default r "a" none).outcome =
      .error (.unsupportedValue "a" .object) :=
    outcome_writeCurrent_of_unsupported? .default hget rfl none
  refine ⟨he, (answers_read .default e "a" none).unknown_iff.mpr he, hcurrent, ?_⟩
  rw [hcurrent]
  nofun

end Entity

/-! ## Queries -/

/-- A query fails for want of a dynamic column only, and names the configured one. -/
theorem Query.outcome_build_eq_error_iff (e : Entity) (d : Dialect) (steps : List Query.Step)
    {err : CompileError} : ((on e d).applyAll steps).build.outcome = .error err ↔
      ¬ e.HasColumn ∧ err = .unknownAttribute e.table (e.dynamicColumn.getD "") := by
  rw [(collected_applyAll e d steps).outcome_build, ← Entity.column_eq_error_iff]
  cases e.column <;> simp [Except.map]

/-! ## The result -/

/-- The configuration decides whether an entity has a dynamic column. A query fails just without
one, and names the column that was configured; a request of an attribute fails just without one,
and names the attribute, or else for an invalid name. -/
theorem failures_of_requests (d : Dialect) (e : Entity) :
    ((∃ c, e.column = .ok c) ↔ e.HasColumn) ∧
      (∀ steps err, ((Query.on e d).applyAll steps).build.outcome = .error err ↔
        ¬ e.HasColumn ∧ err = .unknownAttribute e.table (e.dynamicColumn.getD "")) ∧
      ∀ name v typeText?, e.Answers name (e.read d name typeText?) ∧
        e.Answers name (e.write d name v typeText?) ∧
        e.Answers name (e.assign d name v typeText?) :=
  ⟨Entity.column_eq_ok_iff,
    fun steps _ => Query.outcome_build_eq_error_iff e d steps,
    fun name v typeText? => ⟨Entity.answers_read d e name typeText?,
      Entity.answers_write d e name v typeText?, Entity.answers_assign d e name v typeText?⟩⟩

end PackedColumn

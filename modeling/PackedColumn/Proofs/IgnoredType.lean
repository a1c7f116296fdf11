import PackedColumn.Proofs.Containers
import PackedColumn.Proofs.Failure
import PackedColumn.Proofs.Report

/-!
# Types that are left out of account

A caller may give the type of an attribute as a text. `Lenient name r` says of a request `r` of the
attribute `name`, which takes such a text or none, that a text outside the grammar counts as none:
the answer is the same, and of an answer that is a text a warning is reported first. A request that
fails reports nothing.

The type is read once, behind everything that can fail. So a request is lenient that goes on from
the type without failing (`lenient_fromType`), and it stays so behind a step that may fail
(`Lenient.after`) and before one that cannot (`Lenient.before`). All requests of an attribute are
put together in this way.

A type within the grammar is the one that the leaf is read or set as (`Entity.outcome_read_named`,
`Entity.outcome_write_named`).
-/

namespace PackedColumn

/-- The line that warns of a type outside the grammar. -/
def ignoredLine (name typeText : String) : Event.Line :=
  (.warn, "unrecognized dynamic attribute type, using default",
    [("attribute", .text name), ("type_text", .text typeText)])

/-- None of the events is a warning. -/
def Calm (events : List Event) : Prop := ∀ event ∈ events, event.level ≠ .warn

/-- The request of the attribute `name`, given the text of a type or none, takes a text outside the
grammar for none, and warns of it if it succeeds. Nothing else is warned of, and a failure reports
nothing. -/
structure Lenient (name : String) (r : Option String → Request String) : Prop where
  outcome_eq : ∀ {typeText}, SqlType.parse? typeText = none →
    (r (some typeText)).outcome = (r none).outcome
  warned : ∀ {typeText sql}, SqlType.parse? typeText = none → (r none).outcome = .ok sql →
    ∃ warning : Event, warning.line = ignoredLine name typeText ∧
      (r (some typeText)).events = warning :: (r none).events
  calm_none : Calm (r none).events
  calm_some : ∀ {typeText type}, SqlType.parse? typeText = some type →
    Calm (r (some typeText)).events
  silent : ∀ {typeText? err}, (r typeText?).outcome = .error err → (r typeText?).events = []

namespace Access

variable {name typeText : String}

theorem namedType_of_parse?_eq_none (h : SqlType.parse? typeText = none) :
    namedType name (some typeText) = ⟨none, [.typeIgnored name typeText]⟩ := by
  rw [namedType, h]
  rfl

theorem namedType_of_parse?_eq_some {type : SqlType} (h : SqlType.parse? typeText = some type) :
    namedType name (some typeText) = ⟨some type, []⟩ := by
  rw [namedType, h]
  rfl

/-- The request that goes on with `f` from the type of a text, and cannot fail. -/
def fromType (name : String) (f : Option SqlType → Traced String) (typeText? : Option String) :
    Request String := do
  let type? ← namedType name typeText?
  f type?

variable (name) (f : Option SqlType → Traced String) (typeText? : Option String)

theorem outcome_fromType :
    (fromType name f typeText?).outcome = .ok (f (namedType name typeText?).value).value := by
  rw [fromType, Request.outcome_bind_of_ok _ (Request.outcome_lift _)]
  rfl

theorem events_fromType : (fromType name f typeText?).events =
    (namedType name typeText?).events ++ (f (namedType name typeText?).value).events := by
  rw [fromType, Request.events_bind_of_ok _ (Request.outcome_lift _)]
  exact congrArg₂ _ (Request.events_lift _) (Request.events_lift _)

end Access

open Access in
theorem lenient_fromType (name : String) {f : Option SqlType → Traced String}
    (hf : ∀ type?, Calm (f type?).events) : Lenient name (fromType name f) := by
  constructor
  case outcome_eq =>
    intro typeText h
    rw [outcome_fromType, outcome_fromType, namedType_of_parse?_eq_none h]
    rfl
  case warned =>
    intro typeText sql h _
    refine ⟨.typeIgnored name typeText, rfl, ?_⟩
    rw [events_fromType, events_fromType, namedType_of_parse?_eq_none h]
    rfl
  case calm_none =>
    rw [events_fromType]
    exact hf none
  case calm_some =>
    intro typeText type h
    rw [events_fromType, namedType_of_parse?_eq_some h]
    exact hf (some type)
  case silent =>
    intro typeText? err h
    rw [outcome_fromType] at h
    cases h

namespace Lenient

variable {α : Type} {name : String} {r : Option String → Request String}

/-- A step before the request, which may fail. -/
theorem after {x : Except CompileError α} {f : α → Option String → Request String}
    (h : ∀ a, x = .ok a → Lenient name (f a)) :
    Lenient name fun typeText? => Request.ofExcept x >>= fun a => f a typeText? := by
  cases x with
  | ok a => exact h a rfl
  | error err =>
    have houtcome (typeText? : Option String) :
        (Request.ofExcept (.error err) >>= fun a => f a typeText?).outcome = .error err :=
      Request.outcome_bind_of_error _ (Request.outcome_ofExcept _)
    have hevents (typeText? : Option String) :
        (Request.ofExcept (.error err) >>= fun a => f a typeText?).events = [] :=
      Request.events_bind_of_error _ (Request.outcome_ofExcept _)
    constructor
    case outcome_eq => exact fun _ => (houtcome _).trans (houtcome none).symm
    case warned => exact fun _ hsql => nomatch (houtcome none).symm.trans hsql
    case calm_none => rw [hevents]; nofun
    case calm_some => intro typeText type _; rw [hevents]; nofun
    case silent => exact fun _ => hevents _

/-- A step behind the request, which cannot fail and reports nothing. -/
theorem before (h : Lenient name r) (g : String → String) :
    Lenient name fun typeText? => r typeText? >>= fun sql => pure (g sql) := by
  have houtcome (typeText? : Option String) :
      (r typeText? >>= fun sql => pure (g sql)).outcome = (r typeText?).outcome.map g := by
    cases hr : (r typeText?).outcome with
    | ok sql => exact Request.outcome_bind_of_ok _ hr
    | error err => exact Request.outcome_bind_of_error _ hr
  have hevents (typeText? : Option String) :
      (r typeText? >>= fun sql => pure (g sql)).events = (r typeText?).events := by
    cases hr : (r typeText?).outcome with
    | ok sql => rw [Request.events_bind_of_ok _ hr, Request.events_pure, List.append_nil]
    | error err => exact Request.events_bind_of_error _ hr
  constructor
  case outcome_eq =>
    intro typeText htype
    rw [houtcome, houtcome, h.outcome_eq htype]
  case warned =>
    intro typeText sql htype hsql
    rw [houtcome] at hsql
    rw [hevents, hevents]
    cases hr : (r none).outcome with
    | ok inner => exact h.warned htype hr
    | error err => rw [hr] at hsql; cases hsql
  case calm_none =>
    rw [hevents]
    exact h.calm_none
  case calm_some =>
    intro typeText type htype
    rw [hevents]
    exact h.calm_some htype
  case silent =>
    intro typeText? err herr
    rw [houtcome] at herr
    rw [hevents]
    cases hr : (r typeText?).outcome with
    | ok sql => rw [hr] at herr; cases herr
    | error err' => exact h.silent hr

end Lenient

/-! ## The requests of an attribute -/

namespace Access

variable (d : Dialect) (column name : String)

theorem calm_read (path : Path) (type? : Option SqlType) : Calm (read d column path type?).events :=
  List.forall_mem_singleton.mpr nofun

theorem calm_write (path : Path) (value : Value) (type? : Option SqlType) :
    Calm (write d column path value type?).events :=
  List.forall_mem_singleton.mpr nofun

theorem lenient_readNamed : Lenient name (readNamed d column name) :=
  Lenient.after fun path _ => lenient_fromType name (calm_read d column path)

theorem lenient_writeNamed (value : Value) : Lenient name (writeNamed d column name value) :=
  Lenient.after fun path _ => lenient_fromType name (calm_write d column path value)

end Access

namespace Entity

variable (d : Dialect) (e : Entity) (name : String)

theorem lenient_read : Lenient name (e.read d name) :=
  Lenient.after fun c _ => Access.lenient_readNamed d (c.qualified d) name

theorem lenient_write (value : Value) : Lenient name (e.write d name value) :=
  Lenient.after fun c _ => Access.lenient_writeNamed d (c.qualified d) name value

theorem lenient_assign (value : Value) : Lenient name (e.assign d name value) :=
  Lenient.after fun c _ => (lenient_write d e name value).before (c.quoted d ++ " = " ++ ·)

theorem lenient_writeCurrent (r : Record) : Lenient name (e.writeCurrent d r name) :=
  Lenient.after fun value _ => lenient_write d e name value

variable {e name} {c : Column} {p : Path} {typeText : String} {type : SqlType}

/-- The type that is named is the one that the leaf is read as. -/
theorem outcome_read_named (hc : e.column? = some c) (hp : Path.parse? name = some p)
    (htype : SqlType.parse? typeText = some type) : (e.read d name (some typeText)).outcome =
      .ok (d.extract (d.innermost (c.qualified d) p.parents) p.leaf
        (type.render d.typeCase)) := by
  rw [outcome_read d hc hp, Access.namedType_of_parse?_eq_some htype, ← Access.value_read,
    Access.value_read_eq]
  rfl

/-- The type that is named is the one that the leaf is set as. -/
theorem outcome_write_named (hc : e.column? = some c) (hp : Path.parse? name = some p)
    (htype : SqlType.parse? typeText = some type) (s : Scalar) :
    (e.write d name (.scalar s) (some typeText)).outcome =
      .ok (d.setBack ((d.containers (c.qualified d) p.parents).zip p.parents)
        (d.set (d.innermost (c.qualified d) p.parents) p.leaf (s.literal d)
          (type.render d.typeCase))) := by
  rw [outcome_write d hc hp, Access.namedType_of_parse?_eq_some htype, ← Access.value_write,
    Access.value_write_eq]
  rfl

/-- An assignment gives what the write gives, behind the name of the column. -/
theorem outcome_assign (hc : e.column? = some c) {value : Value} {typeText? : Option String}
    {written : String} (h : (e.write d name value typeText?).outcome = .ok written) :
    (e.assign d name value typeText?).outcome = .ok (c.quoted d ++ " = " ++ written) := by
  rw [assign, Request.outcome_bind_of_ok _ (outcome_columnFor hc), Request.outcome_bind_of_ok _ h,
    Request.outcome_pure]

end Entity

/-- The text of a type outside the grammar counts as none, and is warned of, once and before all
else, if the request succeeds. A type within the grammar is warned of by nothing, and is what the
leaf is read or set as. Whatever the type, a request that fails reports nothing. -/
theorem unknown_type_counts_as_none (d : Dialect) (e : Entity) (name : String) (value : Value) :
    (Lenient name (e.read d name) ∧ Lenient name (e.write d name value) ∧
        Lenient name (e.assign d name value) ∧
        ∀ r : Record, Lenient name (e.writeCurrent d r name)) ∧
      ∀ c p typeText type, e.column? = some c → Path.parse? name = some p →
        SqlType.parse? typeText = some type →
          let container := d.innermost (c.qualified d) p.parents
          (e.read d name (some typeText)).outcome =
              .ok (d.extract container p.leaf (type.render d.typeCase)) ∧
            ∀ s, value = .scalar s →
              let written := d.setBack ((d.containers (c.qualified d) p.parents).zip p.parents)
                (d.set container p.leaf (s.literal d) (type.render d.typeCase))
              (e.write d name value (some typeText)).outcome = .ok written ∧
                (e.assign d name value (some typeText)).outcome =
                  .ok (c.quoted d ++ " = " ++ written) := by
  refine ⟨⟨Entity.lenient_read d e name, Entity.lenient_write d e name value,
    Entity.lenient_assign d e name value, Entity.lenient_writeCurrent d e name⟩, ?_⟩
  intro c p typeText type hc hp htype container
  refine ⟨Entity.outcome_read_named d hc hp htype, ?_⟩
  rintro s rfl written
  have hwrite := Entity.outcome_write_named d hc hp htype s
  exact ⟨hwrite, Entity.outcome_assign d hc hwrite⟩

/-- A type of another system counts as none and is warned of, unless the request fails; one in
unusual letters is written as it stands. -/
theorem unknown_type_counts_as_none_bigint :
    let e : Entity := ⟨"t", some "dyn", []⟩
    let value : Value := .scalar (.bool true)
    SqlType.parse? "bigint" = none ∧
      (e.write .default "a" value none).outcome = .ok "COLUMN_ADD(`t`.`dyn`, 'a', 1 AS INTEGER)" ∧
      (e.write .default "a" value (some "bigint")).outcome =
        (e.write .default "a" value none).outcome ∧
      (∃ warning : Event, warning.line = ignoredLine "a" "bigint" ∧
        (e.write .default "a" value (some "bigint")).events =
          warning :: (e.write .default "a" value none).events) ∧
      (e.read .default "a..b" (some "bigint")).outcome = .error (.invalidPath "a..b") ∧
      (e.read .default "a..b" (some "bigint")).events = [] ∧
      SqlType.parse? " uNsigned" = some ⟨.unsigned, "uNsigned", none⟩ ∧
      (e.assign .default "a" value (some " uNsigned")).outcome =
        .ok "`dyn` = COLUMN_ADD(`t`.`dyn`, 'a', 1 AS uNsigned)" := by
  intro e value
  have hc : e.column? = some ⟨some "t", "dyn"⟩ := by decide
  have hp : Path.parse? "a" = some ⟨["a"], by decide, by decide⟩ := by decide +kernel
  have hout : SqlType.parse? "bigint" = none := by decide +kernel
  have hin : SqlType.parse? " uNsigned" = some ⟨.unsigned, "uNsigned", none⟩ := by decide +kernel
  have hwrite : (e.write .default "a" value none).outcome =
      .ok "COLUMN_ADD(`t`.`dyn`, 'a', 1 AS INTEGER)" :=
    (Entity.outcome_write .default hc hp value none).trans
      (congrArg Except.ok (by decide +kernel))
  have hbad : (e.read .default "a..b" (some "bigint")).outcome = .error (.invalidPath "a..b") :=
    ((Entity.answers_read .default e "a..b" _).invalid_iff (Entity.isSome_column?_iff.mp rfl)).mpr
      (.inr (by decide +kernel))
  obtain ⟨⟨-, hlenient, -, -⟩, hnamed⟩ := unknown_type_counts_as_none .default e "a" value
  obtain ⟨⟨hread, -, -, -⟩, -⟩ := unknown_type_counts_as_none .default e "a..b" value
  refine ⟨hout, hwrite, hlenient.outcome_eq hout, hlenient.warned hout hwrite, hbad,
    hread.silent hbad, hin, ?_⟩
  exact ((hnamed _ _ _ _ hc hp hin).2 _ rfl).2.trans (congrArg Except.ok (by decide +kernel))

end PackedColumn

import PackedColumn.Error

/-!
# Events

What a request reports on its way, beside its answer. A `Traced` computation carries its events; a
`Request` can fail as well, and keeps the events from before the failure.
-/

namespace PackedColumn

/-- Something worth reporting. -/
inductive Event where
  /-- A delimited text whose contents are no path was left alone. -/
  | malformedMarker (start : Nat) (text : String)
  /-- The read expression of a path was written, with the type of its leaf. -/
  | readCompiled (path cast : String)
  /-- The write expression of a path was written. -/
  | writeCompiled (path value : String) (removal : Bool)
  /-- A type outside the grammar was given for an attribute and left out of account. -/
  | typeIgnored (name typeText : String)
  /-- A whole query was written. -/
  | queryBuilt (table sql : String)
deriving DecidableEq

/-- How much an event matters. -/
inductive Event.Level where
  | trace
  | debug
  | warn
deriving DecidableEq

/-- The value of a field of an event. -/
inductive Event.Field where
  | text (s : String)
  | number (n : Nat)
  | flag (b : Bool)
deriving DecidableEq

namespace Event

/-- The level in capitals. -/
def Level.name : Level → String
  | .trace => "TRACE"
  | .debug => "DEBUG"
  | .warn => "WARN"

/-- The level of the event: an ignored type deserves a warning, and what is passed over in silence
only a trace. -/
def level : Event → Level
  | malformedMarker .. => .trace
  | readCompiled .. => .debug
  | writeCompiled .. => .debug
  | typeIgnored .. => .warn
  | queryBuilt .. => .debug

/-- The event in words. -/
def message : Event → String
  | malformedMarker .. => "skipping malformed marker"
  | readCompiled .. => "compiled dynamic attribute accessor"
  | writeCompiled .. => "compiled dynamic attribute write"
  | typeIgnored .. => "unrecognized dynamic attribute type, using default"
  | queryBuilt .. => "built dynamic query"

/-- The particulars of the event. -/
def fields : Event → List (String × Field)
  | malformedMarker start text => [("start", .number start), ("text", .text text)]
  | readCompiled path cast => [("path", .text path), ("cast", .text cast)]
  | writeCompiled path value removal =>
    [("path", .text path), ("value", .text value), ("removal", .flag removal)]
  | typeIgnored name typeText => [("attribute", .text name), ("type_text", .text typeText)]
  | queryBuilt table sql => [("table", .text table), ("sql", .text sql)]

end Event

/-- A result and the events on the way to it. -/
structure Traced (α : Type) where
  value : α
  events : List Event

namespace Traced

variable {α β : Type}

instance : Monad Traced where
  pure a := ⟨a, []⟩
  bind x f := ⟨(f x.value).value, x.events ++ (f x.value).events⟩

@[ext] theorem ext {x y : Traced α} (hvalue : x.value = y.value) (hevents : x.events = y.events) :
    x = y := by
  cases x
  cases y
  congr

/-- Reports an event. -/
def emit (e : Event) : Traced Unit := ⟨(), [e]⟩

/-- The results of `f` on each element, with the events of all in order. -/
def each (xs : List α) (f : α → Traced β) : Traced (List β) :=
  ⟨xs.map fun x => (f x).value, xs.flatMap fun x => (f x).events⟩

@[simp] theorem value_pure (a : α) : (pure a : Traced α).value = a := rfl

@[simp] theorem events_pure (a : α) : (pure a : Traced α).events = [] := rfl

@[simp] theorem value_bind (x : Traced α) (f : α → Traced β) :
    (x >>= f).value = (f x.value).value := rfl

@[simp] theorem events_bind (x : Traced α) (f : α → Traced β) :
    (x >>= f).events = x.events ++ (f x.value).events := rfl

@[simp] theorem value_map (f : α → β) (x : Traced α) : (f <$> x).value = f x.value := rfl

@[simp] theorem events_map (f : α → β) (x : Traced α) : (f <$> x).events = x.events := by
  simp [Functor.map]

@[simp] theorem events_emit (e : Event) : (emit e).events = [e] := rfl

@[simp] theorem value_each (xs : List α) (f : α → Traced β) :
    (each xs f).value = xs.map fun x => (f x).value := rfl

@[simp] theorem events_each (xs : List α) (f : α → Traced β) :
    (each xs f).events = xs.flatMap fun x => (f x).events := rfl

instance : LawfulMonad Traced := LawfulMonad.mk' Traced
  (fun x => by cases x; simp [Functor.map])
  (fun _ _ => by simp [bind, pure])
  (fun _ _ _ => by simp [bind])

end Traced

/-- A computation that may fail, and the events on its way. -/
abbrev Request (α : Type) := ExceptT CompileError Traced α

namespace Request

variable {α β : Type}

/-- The result or the error. -/
def outcome (r : Request α) : Except CompileError α := r.run.value

/-- The events, those before a failure included. -/
def events (r : Request α) : List Event := r.run.events

/-- The request that gives a known result or error and reports nothing. -/
def ofExcept (r : Except CompileError α) : Request α := ExceptT.mk (pure r)

@[simp] theorem outcome_pure (a : α) : outcome (pure a) = .ok a := rfl

@[simp] theorem events_pure (a : α) : events (pure a : Request α) = [] := rfl

@[simp] theorem outcome_ofExcept (r : Except CompileError α) : (ofExcept r).outcome = r := rfl

@[simp] theorem events_ofExcept (r : Except CompileError α) : (ofExcept r).events = [] := rfl

/-- A computation that cannot fail succeeds with its value. -/
@[simp] theorem outcome_lift (x : Traced α) : (monadLift x : Request α).outcome = .ok x.value := rfl

@[simp] theorem events_lift (x : Traced α) : (monadLift x : Request α).events = x.events :=
  Traced.events_map Except.ok x

theorem outcome_bind_of_ok {x : Request α} {a : α} (f : α → Request β) (h : x.outcome = .ok a) :
    (x >>= f).outcome = (f a).outcome := by
  unfold outcome at h ⊢
  rw [ExceptT.run_bind, Traced.value_bind, h]

theorem events_bind_of_ok {x : Request α} {a : α} (f : α → Request β) (h : x.outcome = .ok a) :
    (x >>= f).events = x.events ++ (f a).events := by
  unfold outcome at h
  unfold events
  rw [ExceptT.run_bind, Traced.events_bind, h]

theorem outcome_bind_of_error {x : Request α} {e : CompileError} (f : α → Request β)
    (h : x.outcome = .error e) : (x >>= f).outcome = .error e := by
  unfold outcome at h ⊢
  rw [ExceptT.run_bind, Traced.value_bind, h]
  rfl

/-- What follows a failure reports nothing. -/
theorem events_bind_of_error {x : Request α} {e : CompileError} (f : α → Request β)
    (h : x.outcome = .error e) : (x >>= f).events = x.events := by
  unfold outcome at h
  unfold events
  rw [ExceptT.run_bind, Traced.events_bind, h]
  exact List.append_nil _

end Request

end PackedColumn

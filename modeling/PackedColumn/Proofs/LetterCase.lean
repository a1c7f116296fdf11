import PackedColumn.Proofs.CallItem
import PackedColumn.Proofs.Splice
import PackedColumn.Proofs.Statement
import PackedColumn.Proofs.TypeGrammar

/-!
# The letter case of types

A dialect writes the types that callers name as they were written, or with the keyword in capitals.
Nothing but the case of letters depends on it: `Alike` texts become the same text in capitals.

* A type is written alike in both cases, so every expression is (`alike_render`).
* A compiled fragment is the same text in both cases if it has no marker. Else what differs stands
  before the closing parenthesis of its last accessor (`Twins`, `twins_compile`).
* The alias and the quotes of an item depend on what stands behind that parenthesis, which is the
  same in both cases. So items stay alike, though the search for an alias and the quoting of names
  look at single letters (`Twins.alike_assign`).
* The statement of a query is put together from such parts (`alike_statement`), and requests of
  attributes from expressions.
-/

namespace PackedColumn

open Text

/-! ## Texts alike but for the case of letters -/

/-- The texts are the same in capitals. -/
def Alike (a b : String) : Prop := a.toUpper = b.toUpper

/-- A capital is its own capital. -/
theorem Text.toUpper_of_isUpper {c : Char} (h : c.isUpper) : c.toUpper = c := by
  have hrange : c.val ≥ 'A'.val ∧ c.val ≤ 'Z'.val := of_decide_eq_true h
  exact dif_neg fun hlow => absurd (UInt32.le_trans hlow.1 hrange.2) (by decide)

theorem Text.toUpper_toUpper (c : Char) : c.toUpper.toUpper = c.toUpper := by
  rcases toUpper_cases c with h | ⟨-, h⟩
  · rw [h, h]
  · exact toUpper_of_isUpper h

/-- A letter takes as many bytes in capitals. -/
theorem Text.utf8Size_toUpper (c : Char) : c.toUpper.utf8Size = c.utf8Size := by
  rcases toUpper_cases c with h | ⟨hlower, hupper⟩
  · rw [h]
  · have hsize {x y : Char} (hx : x.val ≤ y.val) (hy : y.val ≤ 127) : x.utf8Size = 1 :=
      Char.utf8Size_eq_one_iff.mpr (UInt32.le_trans hx hy)
    have hupper : c.toUpper.val ≤ 'Z'.val := (of_decide_eq_true hupper).2
    have hlower : c.val ≤ 'z'.val := of_decide_eq_true (Bool.and_eq_true_iff.mp hlower).2
    rw [hsize hupper (by decide), hsize hlower (by decide)]

theorem Text.byteLength_map_toUpper (cs : List Char) :
    byteLength (cs.map Char.toUpper) = byteLength cs := by
  induction cs with
  | nil => rfl
  | cons c rest ih => rw [List.map_cons, byteLength_cons, byteLength_cons, ih, utf8Size_toUpper]

theorem Text.toList_toUpper (s : String) : s.toUpper.toList = s.toList.map Char.toUpper := by
  simp [String.toUpper]

theorem Text.toUpper_append (a b : String) : (a ++ b).toUpper = a.toUpper ++ b.toUpper := by
  rw [← String.toList_inj]
  simp only [toList_toUpper, String.toList_append, List.map_append]

namespace Alike

variable {a b x y : String}

theorem refl (a : String) : Alike a a := rfl

theorem iff_toList : Alike a b ↔ a.toList.map Char.toUpper = b.toList.map Char.toUpper := by
  rw [← toList_toUpper, ← toList_toUpper, String.toList_inj]
  rfl

theorem append (h : Alike a b) (h' : Alike x y) : Alike (a ++ x) (b ++ y) := by
  unfold Alike at *
  rw [toUpper_append, toUpper_append, h, h']

/-- Alike texts have the same number of bytes. -/
theorem utf8ByteSize_eq (h : Alike a b) : a.utf8ByteSize = b.utf8ByteSize := by
  rw [← byteLength_toList, ← byteLength_toList, ← byteLength_map_toUpper, iff_toList.mp h,
    byteLength_map_toUpper]

theorem length_eq (h : Alike a b) : a.length = b.length := by
  have := congrArg List.length (iff_toList.mp h)
  simpa only [List.length_map, String.length_toList] using this

/-- The texts of two lists are alike, one by one. -/
def Each (xs ys : List String) : Prop := List.Forall₂ Alike xs ys

theorem Each.map {α : Type} {f g : α → String} (h : ∀ x, Alike (f x) (g x)) (xs : List α) :
    Each (xs.map f) (xs.map g) := by
  induction xs with
  | nil => exact .nil
  | cons x rest ih => exact .cons (h x) ih

theorem Each.congr {f : String → String} {xs ys : List String} (h : Each xs ys)
    (hf : ∀ {a b}, Alike a b → Alike (f a) (f b)) : Each (xs.map f) (ys.map f) := by
  induction h with
  | nil => exact .nil
  | cons hhead _ ih => exact .cons (hf hhead) ih

theorem Each.append {xs ys xs' ys' : List String} (h : Each xs ys) (h' : Each xs' ys') :
    Each (xs ++ xs') (ys ++ ys') := by
  induction h with
  | nil => exact h'
  | cons hhead _ ih => exact .cons hhead ih

theorem intercalate (sep : String) {xs ys : List String} (h : Each xs ys) :
    Alike (sep.intercalate xs) (sep.intercalate ys) := by
  induction h with
  | nil => exact refl _
  | cons hhead htail ih =>
    cases htail with
    | nil => simpa using hhead
    | cons =>
      rw [String.intercalate_cons_cons, String.intercalate_cons_cons]
      exact (hhead.append (refl sep)).append ih

end Alike

/-! ## Types and expressions -/

namespace Dialect

/-- The dialect that writes types in the given case. -/
def inCase (d : Dialect) (c : TypeCase) : Dialect := { d with typeCase := c }

variable (d : Dialect) (c : TypeCase)

/-! Calls, literals and names do not depend on the case. -/

theorem extract_inCase : (d.inCase c).extract = d.extract := rfl

theorem set_inCase : (d.inCase c).set = d.set := rfl

theorem delete_inCase : (d.inCase c).delete = d.delete := rfl

theorem create_inCase : (d.inCase c).create = d.create := rfl

theorem quoteSimpleName_inCase : (d.inCase c).quoteSimpleName = d.quoteSimpleName := rfl

theorem quoteTableName_inCase : (d.inCase c).quoteTableName = d.quoteTableName := by
  funext name
  rw [quoteTableName, quoteTableName, quoteSimpleName_inCase]

theorem quoteColumnName_inCase : (d.inCase c).quoteColumnName = d.quoteColumnName := by
  funext name
  rw [quoteColumnName, quoteColumnName, quoteTableName_inCase, quoteSimpleName_inCase]

theorem literal_inCase (s : Scalar) : s.literal (d.inCase c) = s.literal d := by
  cases s <;> rfl

variable {container container' value value' cast cast' : String} (key : String)

theorem alike_extract (hcontainer : Alike container container') (hcast : Alike cast cast') :
    Alike (d.extract container key cast) (d.extract container' key cast') := by
  unfold Alike at *
  simp only [extract, toUpper_append, hcontainer, hcast]

theorem alike_set (hcontainer : Alike container container') (hvalue : Alike value value')
    (hcast : Alike cast cast') :
    Alike (d.set container key value cast) (d.set container' key value' cast') := by
  unfold Alike at *
  simp only [set, toUpper_append, hcontainer, hvalue, hcast]

theorem alike_delete (hcontainer : Alike container container') :
    Alike (d.delete container key) (d.delete container' key) := by
  unfold Alike at *
  simp only [delete, toUpper_append, hcontainer]

theorem alike_createPair (hvalue : Alike value value') (hcast : Alike cast cast') :
    Alike (d.createPair key value cast) (d.createPair key value' cast') := by
  unfold Alike at *
  simp only [createPair, toUpper_append, hvalue, hcast]

end Dialect

variable (d : Dialect) (c c' : TypeCase)

theorem SqlType.alike_render (t : SqlType) : Alike (t.render c) (t.render c') := by
  have hnormalized : Alike t.verbatim t.normalized := by
    refine Alike.append ?_ (Alike.refl _)
    rw [Alike.iff_toList, String.toList_map, List.map_map]
    exact List.map_congr_left fun x _ => (toUpper_toUpper x).symm
  cases c <;> cases c'
  · exact Alike.refl _
  · exact hnormalized
  · exact hnormalized.symm
  · exact Alike.refl _

theorem Cast.alike_render (cast : Cast) :
    Alike (cast.render (d.inCase c)) (cast.render (d.inCase c')) := by
  cases cast with
  | intermediate | unnamed => exact Alike.refl _
  | named type => exact SqlType.alike_render c c' type

namespace Expr

mutual

/-- An expression is alike in both cases. -/
theorem alike_render : ∀ e : Expr, Alike (e.render (d.inCase c)) (e.render (d.inCase c'))
  | column _ => Alike.refl _
  | literal s => by
    rw [render, render, Dialect.literal_inCase, Dialect.literal_inCase]
    exact Alike.refl _
  | null => Alike.refl _
  | extract container key cast => by
    rw [render, render, Dialect.extract_inCase, Dialect.extract_inCase]
    exact d.alike_extract key (alike_render container) (cast.alike_render d c c')
  | set container key value cast => by
    rw [render, render, Dialect.set_inCase, Dialect.set_inCase]
    exact d.alike_set key (alike_render container) (alike_render value) (cast.alike_render d c c')
  | delete container key => by
    rw [render, render, Dialect.delete_inCase, Dialect.delete_inCase]
    exact d.alike_delete key (alike_render container)
  | create pairs => by
    rw [render, render, Dialect.create_inCase, Dialect.create_inCase, Dialect.create,
      Dialect.create]
    have hpairs := Alike.intercalate ", " (alike_renderPairs pairs)
    exact ((Alike.refl _).append hpairs).append (Alike.refl _)

theorem alike_renderPairs : ∀ pairs : List (String × Expr × Cast),
    Alike.Each
      ((renderPairs (d.inCase c) pairs).map fun (key, value, cast) => d.createPair key value cast)
      ((renderPairs (d.inCase c') pairs).map fun (key, value, cast) => d.createPair key value cast)
  | [] => .nil
  | (key, value, cast) :: rest =>
    .cons (d.alike_createPair key (alike_render value) (cast.alike_render d c c'))
      (alike_renderPairs rest)

end

end Expr

/-! ## Fragments -/

/-- Two calls that are alike: each ends in a closing parenthesis and holds an opening one before
it. -/
def TwinCalls (xs ys : List Char) : Prop :=
  ∃ x y, xs = x ++ [')'] ∧ ys = y ++ [')'] ∧ '(' ∈ x ∧ '(' ∈ y ∧
    x.map Char.toUpper = y.map Char.toUpper

/-- The same text, or texts that are the same behind two calls that are alike. -/
def Twins (xs ys : List Char) : Prop :=
  xs = ys ∨ ∃ x y rest, TwinCalls x y ∧ xs = x ++ rest ∧ ys = y ++ rest

namespace TwinCalls

variable {x y x' y' xs ys : List Char}

theorem prepend (h : TwinCalls x y) (before : List Char) :
    TwinCalls (before ++ x) (before ++ y) := by
  obtain ⟨x, y, rfl, rfl, hx, hy, halike⟩ := h
  refine ⟨before ++ x, before ++ y, (List.append_assoc _ _ _).symm, (List.append_assoc _ _ _).symm,
    List.mem_append_right _ hx, List.mem_append_right _ hy, ?_⟩
  rw [List.map_append, List.map_append, halike]

theorem append (h : TwinCalls x y) (h' : TwinCalls x' y') : TwinCalls (x ++ x') (y ++ y') := by
  obtain ⟨x, y, rfl, rfl, -, -, halike⟩ := h
  obtain ⟨x', y', rfl, rfl, hx, hy, halike'⟩ := h'
  refine ⟨x ++ ')' :: x', y ++ ')' :: y', by simp, by simp,
    List.mem_append_right _ (List.mem_cons_of_mem _ hx),
    List.mem_append_right _ (List.mem_cons_of_mem _ hy), ?_⟩
  simp only [List.map_append, List.map_cons, halike, halike']

/-- A call goes before twins. -/
theorem append_twins (h : TwinCalls x y) (htwins : Twins xs ys) :
    Twins (x ++ xs) (y ++ ys) := by
  rcases htwins with rfl | ⟨x', y', rest, h', rfl, rfl⟩
  · exact .inr ⟨x, y, xs, h, rfl, rfl⟩
  · exact .inr ⟨x ++ x', y ++ y', rest, h.append h', by rw [List.append_assoc],
      by rw [List.append_assoc]⟩

end TwinCalls

namespace Fragment

/-- What reads an attribute is a call, and alike in both cases. -/
theorem twinCalls_read (column : String) (path : Path) (type? : Option SqlType) :
    TwinCalls (Access.read (d.inCase c) column path type?).value.toList
      (Access.read (d.inCase c') column path type?).value.toList := by
  have halike := Alike.iff_toList.mp
    (Expr.alike_render d c c' ((Expr.column column).read path type?))
  simp only [Access.value_read, Expr.read, Expr.render] at halike ⊢
  simp only [Dialect.extract, String.toList_append, List.map_append] at halike ⊢
  refine ⟨_, _, rfl, rfl, ?_, ?_, ?_⟩
  · simp
  · simp
  · simpa only [List.map_append] using List.append_cancel_right halike

/-- A text is spliced into twins where each span is replaced by calls that are alike. -/
theorem twins_spliceFrom {f g : Marker → String} (h : ∀ m, TwinCalls (f m).toList (g m).toList)
    (cs : List Char) (pos : Nat) (ms : List Marker) :
    Twins (spliceFrom cs pos (ms.map fun m => (m, f m)))
      (spliceFrom cs pos (ms.map fun m => (m, g m))) := by
  induction ms generalizing pos with
  | nil => exact .inl rfl
  | cons m rest ih => exact ((h m).prepend (slice pos m.start cs)).append_twins (ih m.stop)

/-- Compiled as it is, a fragment is the splice of its text with the accessors of its markers. -/
theorem value_compile_eq_splice (column text : String) :
    (compile d column text).value = splice text (accessors d column text) := by
  rw [value_compile]
  exact replaceMarkers_of_replaceEach?
    (replaceEach?_eq_some (replaceable_of_map_fst (map_fst_accessors d column text)))

theorem twins_compile (column text : String) :
    Twins (compile (d.inCase c) column text).value.toList
      (compile (d.inCase c') column text).value.toList := by
  rw [value_compile_eq_splice, value_compile_eq_splice, splice, splice, String.toList_ofList,
    String.toList_ofList]
  exact twins_spliceFrom (fun m => twinCalls_read d c c' column m.path m.type?) text.toList 0 _

end Fragment

/-- Twins are alike. -/
theorem Twins.alike {a b : String} (h : Twins a.toList b.toList) : Alike a b := by
  rw [Alike.iff_toList]
  rcases h with h | ⟨_, _, rest, ⟨x, y, rfl, rfl, -, -, halike⟩, hx, hy⟩
  · rw [h]
  · rw [hx, hy]
    simp only [List.map_append, halike]

/-! ## Items of a projection -/

/-- A letter is no blank in either case. -/
theorem Text.isBlank_toUpper (x : Char) : Unicode.isBlank x.toUpper = Unicode.isBlank x := by
  rcases toUpper_cases x with h | ⟨hlower, hupper⟩
  · rw [h]
  · rw [SqlType.isBlank_of_isLetter (Bool.or_eq_true_iff.mpr (.inl hupper)),
      SqlType.isBlank_of_isLetter (Bool.or_eq_true_iff.mpr (.inr hlower))]

theorem Text.map_toUpper_trimStart (cs : List Char) :
    (trimStart cs).map Char.toUpper = trimStart (cs.map Char.toUpper) := by
  have hblank : Unicode.isBlank ∘ Char.toUpper = Unicode.isBlank := funext isBlank_toUpper
  rw [trimStart, trimStart, List.dropWhile_map, hblank]

theorem Alias.assign_inCase : assign (d.inCase c) = assign d := by
  funext item
  simp only [assign, named, Dialect.quoteColumnName_inCase]

theorem Alias.assignExplicit_inCase : assignExplicit (d.inCase c) = assignExplicit d := by
  funext expression name
  simp only [assignExplicit, named, Dialect.quoteColumnName_inCase]

theorem Column.qualified_inCase (column : Column) :
    column.qualified (d.inCase c) = column.qualified d := by
  simp only [qualified, quoted, Dialect.quoteTableName_inCase, Dialect.quoteSimpleName_inCase]

namespace Twins

variable {a b : String}

/-- Behind the calls in it an item is the same in both cases, and there its alias is found. -/
theorem alike_assign (h : Twins a.toList b.toList) :
    Alike (Alias.assign d a) (Alias.assign d b) := by
  rcases h with h | ⟨_, _, rest, ⟨x, y, rfl, rfl, hx, hy, halike⟩, ha, hb⟩
  · rw [String.toList_inj.mp h]
    exact Alike.refl _
  · have ha : a = .ofList (x ++ ')' :: rest) := by rw [← String.toList_inj, ha]; simp
    have hb : b = .ofList (y ++ ')' :: rest) := by rw [← String.toList_inj, hb]; simp
    rw [Alike.iff_toList, ha, hb, Alias.toList_assign_call d hx, Alias.toList_assign_call d hy,
      List.map_append, List.map_append, map_toUpper_trimStart, halike, ← map_toUpper_trimStart]

/-- With a name for it that the caller gives, an item is left alone if it is a call. -/
theorem alike_assignExplicit (h : Twins a.toList b.toList) (name : String) :
    Alike (Alias.assignExplicit d a name) (Alias.assignExplicit d b name) := by
  rcases h with h | ⟨_, _, rest, ⟨x, y, rfl, rfl, hx, hy, halike⟩, ha, hb⟩
  · rw [String.toList_inj.mp h]
    exact Alike.refl _
  · have hcall : Dialect.isCall a := by rw [Dialect.isCall, ha]; simp [hx]
    have hcall' : Dialect.isCall b := by rw [Dialect.isCall, hb]; simp [hy]
    have htwins : Twins a.toList b.toList :=
      .inr ⟨_, _, rest, ⟨x, y, rfl, rfl, hx, hy, halike⟩, ha, hb⟩
    rw [Alias.assignExplicit, Alias.assignExplicit, if_pos hcall, if_pos hcall', Alias.named,
      Alias.named]
    exact (htwins.alike.append (Alike.refl _)).append (Alike.refl _)

end Twins

theorem SelectItem.alike_compile (column : String) (item : SelectItem) :
    Alike (item.compile (d.inCase c) column).value (item.compile (d.inCase c') column).value := by
  cases item with
  | expression text =>
    rw [compile, compile, Traced.value_map, Traced.value_map, Alias.assign_inCase,
      Alias.assign_inCase]
    exact (Fragment.twins_compile d c c' column text).alike_assign d
  | aliased text name =>
    rw [compile, compile, Traced.value_map, Traced.value_map, Alias.assignExplicit_inCase,
      Alias.assignExplicit_inCase]
    exact (Fragment.twins_compile d c c' column text).alike_assignExplicit d name

theorem Projection.each_compile (column : Column) (items : List SelectItem) :
    Alike.Each (Projection.compile (d.inCase c) column items).value
      (Projection.compile (d.inCase c') column items).value := by
  have hdump (k : TypeCase) : dumpItem (d.inCase k) column = dumpItem d column := by
    simp only [dumpItem, Alias.named, Column.qualified_inCase, Dialect.quoteColumnName_inCase]
    rfl
  simp only [compile, Traced.value_bind, Traced.value_each, Traced.value_pure,
    Column.qualified_inCase, hdump]
  refine Alike.Each.append ?_ ?_
  · exact Alike.Each.map (SelectItem.alike_compile d c c' (column.qualified d)) (effective items)
  · split
    · exact .cons (Alike.refl _) .nil
    · exact .nil

/-! ## Statements -/

namespace Query.Step

variable {xs ys : List String}

theorem alike_whereClause (h : Alike.Each xs ys) : Alike (whereClause xs) (whereClause ys) := by
  have hparen {a b : String} (hab : Alike a b) : Alike ("(" ++ a ++ ")") ("(" ++ b ++ ")") :=
    ((Alike.refl _).append hab).append (Alike.refl _)
  have hparens := h.congr hparen
  cases h with
  | nil => exact Alike.refl _
  | cons hhead htail =>
    cases htail with
    | nil => exact (Alike.refl _).append hhead
    | cons => exact (Alike.refl _).append (Alike.intercalate _ hparens)

theorem alike_listClause (keyword : String) (h : Alike.Each xs ys) :
    Alike (listClause keyword xs) (listClause keyword ys) := by
  cases h with
  | nil => exact Alike.refl _
  | cons hhead htail => exact (Alike.refl _).append (Alike.intercalate _ (.cons hhead htail))

theorem alike_havingClause {f g : String → String} (h : ∀ text, Alike (f text) (g text))
    (condition : Option String) :
    Alike (havingClause (condition.map f)) (havingClause (condition.map g)) := by
  cases condition with
  | none => exact Alike.refl _
  | some text => exact (Alike.refl " HAVING ").append (h text)

theorem alike_statement (e : Entity) (steps : List Step) :
    Alike (statement (d.inCase c) e steps) (statement (d.inCase c') e steps) := by
  have hfragment (text : String) : Alike (Fragment.compile (d.inCase c) e.columnName text).value
      (Fragment.compile (d.inCase c') e.columnName text).value :=
    (Fragment.twins_compile d c c' e.columnName text).alike
  have hprojection := Alike.intercalate ", "
    (Projection.each_compile d c c' ⟨some e.table, e.columnName⟩ (items steps))
  have hconditions := alike_whereClause (Alike.Each.map hfragment (conditions steps))
  have hgroups := alike_listClause " GROUP BY " (Alike.Each.map hfragment (groups steps))
  have hhaving := alike_havingClause hfragment (having steps)
  have horders := alike_listClause " ORDER BY " (Alike.Each.map hfragment (orders steps))
  unfold Alike at hprojection hconditions hgroups hhaving horders ⊢
  simp only [statement, Dialect.quoteTableName_inCase, toUpper_append, hprojection, hconditions,
    hgroups, hhaving, horders]

end Query.Step

/-! ## Requests -/

/-- Both requests fail with the same error, or both give texts, and these are alike. -/
def AlikeOutcomes : Except CompileError String → Except CompileError String → Prop
  | .ok a, .ok b => Alike a b
  | .error e, .error e' => e = e'
  | _, _ => False

variable {α : Type}

/-- Requests that go on alike from the same result are alike. -/
theorem Request.alike_bind (r : Request α) {f g : α → Request String}
    (h : ∀ a, AlikeOutcomes (f a).outcome (g a).outcome) :
    AlikeOutcomes (r >>= f).outcome (r >>= g).outcome := by
  cases hr : r.outcome with
  | error e =>
    rw [outcome_bind_of_error f hr, outcome_bind_of_error g hr]
    exact rfl
  | ok a =>
    rw [outcome_bind_of_ok f hr, outcome_bind_of_ok g hr]
    exact h a

/-- Alike requests stay so when a text is put before their results. -/
theorem Request.alike_prepend {r r' : Request String} (h : AlikeOutcomes r.outcome r'.outcome)
    (before : String) : AlikeOutcomes (r >>= fun sql => pure (before ++ sql)).outcome
      (r' >>= fun sql => pure (before ++ sql)).outcome := by
  cases hr : r.outcome with
  | error e =>
    cases hr' : r'.outcome with
    | error e' =>
      rw [outcome_bind_of_error _ hr, outcome_bind_of_error _ hr']
      rwa [hr, hr'] at h
    | ok b => rw [hr, hr'] at h; exact h.elim
  | ok a =>
    cases hr' : r'.outcome with
    | error e' => rw [hr, hr'] at h; exact h.elim
    | ok b =>
      rw [outcome_bind_of_ok _ hr, outcome_bind_of_ok _ hr']
      rw [hr, hr'] at h
      exact (Alike.refl before).append h

namespace Access

variable (column name : String) (typeText? : Option String)

theorem alike_readNamed : AlikeOutcomes (readNamed (d.inCase c) column name typeText?).outcome
    (readNamed (d.inCase c') column name typeText?).outcome := by
  refine Request.alike_bind _ fun path => Request.alike_bind _ fun type? => ?_
  rw [Request.outcome_lift, Request.outcome_lift, value_read, value_read]
  exact Expr.alike_render d c c' _

theorem alike_writeNamed (v : Value) :
    AlikeOutcomes (writeNamed (d.inCase c) column name v typeText?).outcome
      (writeNamed (d.inCase c') column name v typeText?).outcome := by
  refine Request.alike_bind _ fun path => Request.alike_bind _ fun type? => ?_
  rw [Request.outcome_lift, Request.outcome_lift, value_write, value_write]
  exact Expr.alike_render d c c' _

theorem alike_create (members : Entries Json) :
    AlikeOutcomes (create (d.inCase c) members) (create (d.inCase c') members) := by
  unfold create
  cases Expr.ofMembers members with
  | error e => exact rfl
  | ok e => exact Expr.alike_render d c c' e

end Access

namespace Entity

variable (e : Entity) (name : String) (v : Value) (typeText? : Option String)

theorem alike_read : AlikeOutcomes (e.read (d.inCase c) name typeText?).outcome
    (e.read (d.inCase c') name typeText?).outcome := by
  refine Request.alike_bind _ fun column => ?_
  rw [Column.qualified_inCase, Column.qualified_inCase]
  exact Access.alike_readNamed d c c' _ name typeText?

theorem alike_write : AlikeOutcomes (e.write (d.inCase c) name v typeText?).outcome
    (e.write (d.inCase c') name v typeText?).outcome := by
  refine Request.alike_bind _ fun column => ?_
  rw [Column.qualified_inCase, Column.qualified_inCase]
  exact Access.alike_writeNamed d c c' _ name typeText? v

theorem alike_assign : AlikeOutcomes (e.assign (d.inCase c) name v typeText?).outcome
    (e.assign (d.inCase c') name v typeText?).outcome := by
  refine Request.alike_bind _ fun column => ?_
  rw [Column.quoted, Column.quoted, Dialect.quoteSimpleName_inCase, Dialect.quoteSimpleName_inCase]
  exact Request.alike_prepend (alike_write d c c' e name v typeText?) _

end Entity

theorem Query.alike_build (e : Entity) (steps : List Query.Step) :
    AlikeOutcomes ((on e (d.inCase c)).applyAll steps).build.outcome
      ((on e (d.inCase c')).applyAll steps).build.outcome := by
  rw [(collected_applyAll e (d.inCase c) steps).outcome_build,
    (collected_applyAll e (d.inCase c') steps).outcome_build]
  cases e.column with
  | error err => exact rfl
  | ok column => exact Step.alike_statement d c c' e steps

/-! ## The result -/

/-- Both fail with the same error, or both give texts of the same size that are equal in
capitals. -/
def EqualButCase : Except CompileError String → Except CompileError String → Prop
  | .ok a, .ok b =>
    a.length = b.length ∧ a.utf8ByteSize = b.utf8ByteSize ∧ a.toUpper = b.toUpper
  | .error e, .error e' => e = e'
  | _, _ => False

theorem AlikeOutcomes.equalButCase {x y : Except CompileError String} (h : AlikeOutcomes x y) :
    EqualButCase x y := by
  match x, y, h with
  | .ok _, .ok _, h => exact ⟨h.length_eq, h.utf8ByteSize_eq, h⟩
  | .error _, .error _, h => exact h

/-- The letter case in which types are written changes nothing but the case of letters: in a query
after any steps, in a read, a write or an assignment by any name, and in a whole column. -/
theorem typeCase_changes_letter_case_only (d : Dialect) (e : Entity) :
    let verbatim := { d with typeCase := .verbatim }
    let upper := { d with typeCase := .upper }
    (∀ steps, EqualButCase ((Query.on e verbatim).applyAll steps).build.outcome
      ((Query.on e upper).applyAll steps).build.outcome) ∧
    (∀ name typeText?, EqualButCase (e.read verbatim name typeText?).outcome
      (e.read upper name typeText?).outcome) ∧
    (∀ name v typeText?, EqualButCase (e.write verbatim name v typeText?).outcome
      (e.write upper name v typeText?).outcome) ∧
    (∀ name v typeText?, EqualButCase (e.assign verbatim name v typeText?).outcome
      (e.assign upper name v typeText?).outcome) ∧
    ∀ members, EqualButCase (Access.create verbatim members) (Access.create upper members) :=
  ⟨fun steps => (Query.alike_build d .verbatim .upper e steps).equalButCase,
    fun name typeText? => (Entity.alike_read d .verbatim .upper e name typeText?).equalButCase,
    fun name v typeText? => (Entity.alike_write d .verbatim .upper e name v typeText?).equalButCase,
    fun name v typeText? =>
      (Entity.alike_assign d .verbatim .upper e name v typeText?).equalButCase,
    fun members => (Access.alike_create d .verbatim .upper members).equalButCase⟩

end PackedColumn

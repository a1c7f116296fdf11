import Mathlib.Data.List.DropRight
import Mathlib.Data.List.Induction
import PackedColumn.Query

/-!
# The statement that a query builds

A query is made by steps, each of which changes one clause. `Step.statement` says what the SELECT is
from the list of the steps alone, without a query that is changed on the way:

* the items are those of the last `select` and then the aliased ones added after it, and the
  conditions start with the last `filter` likewise (`sinceLast`);
* every grouping and every order counts, in the order of the steps;
* of the conditions on groups the last one counts.

`Collected e d q steps` says that the query holds just that. A new query does so for no steps and
each step keeps it, so it is so after every run, and a query that is built gives the statement.

As each part of the statement depends on the steps of one clause only, steps of different clauses
may be taken in any order (`build_eq_statement`).
-/

namespace PackedColumn.Query

namespace Step

/-! ## What the steps ask for -/

variable {α : Type}

/-- What the last restart gives, and after it what each step behind that restart adds. -/
def sinceLast (restart? : Step → Option (List α)) (added? : Step → Option α)
    (steps : List Step) : List α :=
  (steps.reverse.findSome? restart?).getD [] ++
    (steps.rtakeWhile fun s => (restart? s).isNone).filterMap added?

/-- The items with which the projection starts anew. -/
def newItems? : Step → Option (List SelectItem)
  | select items => some items
  | _ => none

/-- The item that is added to the projection. -/
def addedItem? : Step → Option SelectItem
  | selectAliased expression name => some (.aliased expression name)
  | _ => none

/-- The condition with which the conditions start anew. -/
def newConditions? : Step → Option (List String)
  | filter condition => some [condition]
  | _ => none

/-- The condition that is added to the conditions. -/
def addedCondition? : Step → Option String
  | andFilter condition => some condition
  | _ => none

/-- The expression to group by. -/
def grouping? : Step → Option String
  | groupBy expression => some expression
  | _ => none

/-- The condition on the groups. -/
def groupCondition? : Step → Option String
  | filterGroups condition => some condition
  | _ => none

/-- The expression to order by. -/
def order? : Step → Option String
  | orderBy expression => some expression
  | _ => none

/-- The items that the steps ask for. -/
def items (steps : List Step) : List SelectItem := sinceLast newItems? addedItem? steps

/-- The conditions that the steps ask for. -/
def conditions (steps : List Step) : List String := sinceLast newConditions? addedCondition? steps

/-- The expressions to group by. -/
def groups (steps : List Step) : List String := steps.filterMap grouping?

/-- The condition on the groups that counts, if there is one. -/
def having (steps : List Step) : Option String := (steps.filterMap groupCondition?).getLast?

/-- The expressions to order by. -/
def orders (steps : List Step) : List String := steps.filterMap order?

/-! ## The statement of the steps -/

/-- A single condition stands as it is, several stand in parentheses. -/
def whereClause : List String → String
  | [] => ""
  | [condition] => " WHERE " ++ condition
  | conditions => " WHERE " ++ " AND ".intercalate (conditions.map fun c => "(" ++ c ++ ")")

/-- A keyword and expressions, if there are any. -/
def listClause (keyword : String) : List String → String
  | [] => ""
  | expressions => keyword ++ ", ".intercalate expressions

/-- The condition on the groups, if there is one. -/
def havingClause : Option String → String
  | none => ""
  | some condition => " HAVING " ++ condition

/-- The SELECT that the steps ask for. Markers of the items read the column behind its table, all
others its bare name. -/
def statement (d : Dialect) (e : Entity) (steps : List Step) : String :=
  let fragment := fun text => (Fragment.compile d e.columnName text).value
  let projection := Projection.compile d ⟨some e.table, e.columnName⟩ (items steps)
  "SELECT " ++ ", ".intercalate projection.value
    ++ " FROM " ++ d.quoteTableName e.table
    ++ whereClause ((conditions steps).map fragment)
    ++ listClause " GROUP BY " ((groups steps).map fragment)
    ++ havingClause ((having steps).map fragment)
    ++ listClause " ORDER BY " ((orders steps).map fragment)

/-! ## The list with one step more -/

/-- A step at the end restarts the list, or keeps it and adds to it. -/
theorem sinceLast_concat (restart? : Step → Option (List α)) (added? : Step → Option α)
    (steps : List Step) (s : Step) :
    sinceLast restart? added? (steps ++ [s]) =
      (restart? s).getD (sinceLast restart? added? steps ++ (added? s).toList) := by
  cases h : restart? s with
  | some restarted =>
    rw [sinceLast, List.rtakeWhile_concat_neg _ _ _ (by simp [h])]
    simp [h]
  | none =>
    rw [sinceLast, List.rtakeWhile_concat_pos _ _ _ (by simp [h]), List.filterMap_append]
    cases hadded : added? s <;> simp [sinceLast, h, hadded]

theorem filterMap_concat (part? : Step → Option α) (steps : List Step) (s : Step) :
    (steps ++ [s]).filterMap part? = steps.filterMap part? ++ (part? s).toList := by
  rw [List.filterMap_append]
  cases h : part? s <;> simp [h]

end Step

/-! ## One step of the query -/

variable {q : Query} {steps : List Step}

theorem items_apply (q : Query) (s : Step) :
    (q.apply s).items = s.newItems?.getD (q.items ++ s.addedItem?.toList) := by
  cases s with
  | select | selectAliased => rfl
  | filter | andFilter | groupBy | filterGroups | orderBy => exact (List.append_nil _).symm

theorem conditions_apply (q : Query) (s : Step) :
    (q.apply s).conditions = s.newConditions?.getD (q.conditions ++ s.addedCondition?.toList) := by
  cases s with
  | filter | andFilter => rfl
  | select | selectAliased | groupBy | filterGroups | orderBy => exact (List.append_nil _).symm

theorem groups_apply (q : Query) (s : Step) :
    (q.apply s).groups = q.groups ++ s.grouping?.toList := by
  cases s with
  | groupBy => rfl
  | select | selectAliased | filter | andFilter | filterGroups | orderBy =>
    exact (List.append_nil _).symm

theorem having_apply (q : Query) (s : Step) :
    (q.apply s).having = s.groupCondition?.or q.having := by
  cases s <;> rfl

theorem orders_apply (q : Query) (s : Step) :
    (q.apply s).orders = q.orders ++ s.order?.toList := by
  cases s with
  | orderBy => rfl
  | select | selectAliased | filter | andFilter | groupBy | filterGroups =>
    exact (List.append_nil _).symm

/-! ## A run of steps -/

/-- The query on the entity holds what the steps ask for. -/
structure Collected (e : Entity) (d : Dialect) (q : Query) (steps : List Step) : Prop where
  entity : q.entity = e
  dialect : q.dialect = d
  items : q.items = Step.items steps
  conditions : q.conditions = Step.conditions steps
  groups : q.groups = Step.groups steps
  having : q.having = Step.having steps
  orders : q.orders = Step.orders steps

variable {e : Entity} {d : Dialect}

theorem collected_on : Collected e d (on e d) [] := ⟨rfl, rfl, rfl, rfl, rfl, rfl, rfl⟩

theorem Collected.apply (h : Collected e d q steps) (s : Step) :
    Collected e d (q.apply s) (steps ++ [s]) where
  entity := by rw [← h.entity]; cases s <;> rfl
  dialect := by rw [← h.dialect]; cases s <;> rfl
  items := by rw [items_apply, h.items, Step.items, Step.items, Step.sinceLast_concat]
  conditions := by
    rw [conditions_apply, h.conditions, Step.conditions, Step.conditions, Step.sinceLast_concat]
  groups := by rw [groups_apply, h.groups, Step.groups, Step.groups, Step.filterMap_concat]
  having := by
    rw [having_apply, h.having, Step.having, Step.having, Step.filterMap_concat]
    cases hs : s.groupCondition? <;> simp
  orders := by rw [orders_apply, h.orders, Step.orders, Step.orders, Step.filterMap_concat]

/-- After every run the new query holds what the steps of the run ask for. -/
theorem collected_applyAll (e : Entity) (d : Dialect) (steps : List Step) :
    Collected e d ((on e d).applyAll steps) steps := by
  -- A run grows at its right end: what counts is decided by the last steps.
  induction steps using List.reverseRecOn with
  | nil => exact collected_on
  | append_singleton steps s ih =>
    rw [applyAll, List.foldl_concat]
    exact ih.apply s

/-! ## The built query -/

theorem clause_cons (keyword separator part : String) (parts : List String) :
    clause keyword separator (part :: parts) =
      " " ++ keyword ++ " " ++ separator.intercalate (part :: parts) :=
  rfl

theorem clause_eq_listClause (keyword : String) (expressions : List String) :
    clause keyword ", " expressions = Step.listClause (" " ++ keyword ++ " ") expressions := by
  cases expressions <;> rfl

theorem clause_bracketed (conditions : List String) :
    clause "WHERE" " AND " (bracketed conditions) = Step.whereClause conditions := by
  have hkeyword : " " ++ "WHERE" ++ " " = " WHERE " := by decide
  match conditions with
  | [] => rfl
  | [condition] =>
    rw [bracketed, clause_cons, String.intercalate_singleton, hkeyword, Step.whereClause]
  | _ :: _ :: _ =>
    simp only [bracketed, List.map_cons, clause_cons, hkeyword, Step.whereClause]

theorem clause_having (condition : Option String) :
    clause "HAVING" ", " condition.toList = Step.havingClause condition := by
  have hkeyword : " " ++ "HAVING" ++ " " = " HAVING " := by decide
  cases condition with
  | none => rfl
  | some condition =>
    rw [Option.toList_some, clause_cons, String.intercalate_singleton, hkeyword, Step.havingClause]

/-- The column of an entity, where there is one, is the configured one behind the table. -/
theorem eq_of_column_eq_ok {c : Column} (h : e.column = .ok c) :
    c = ⟨some e.table, e.columnName⟩ := by
  unfold Entity.column at h
  split at h
  · next hc =>
    obtain rfl := Except.ok.inj h
    simp only [Entity.column?, Option.ite_none_left_eq_some, Option.ite_none_right_eq_some,
      Option.some.injEq] at hc
    exact hc.2.2.symm
  · cases h

/-- A query that holds what the steps ask for is built into their statement. -/
theorem Collected.outcome_build (h : Collected e d q steps) :
    q.build.outcome = e.column.map fun _ => Step.statement d e steps := by
  obtain ⟨rfl, rfl, hitems, hconditions, hgroups, hhaving, horders⟩ := h
  cases hcolumn : q.entity.column with
  | error err =>
    exact Request.outcome_bind_of_error _ hcolumn
  | ok c =>
    obtain rfl := eq_of_column_eq_ok hcolumn
    have hok := (Request.outcome_ofExcept q.entity.column).trans hcolumn
    rw [build, Request.outcome_bind_of_ok _ hok]
    simp only [Request.outcome_bind_of_ok _ (Request.outcome_lift _), Request.outcome_pure,
      Traced.value_each, hitems, hconditions, hgroups, hhaving, horders]
    rw [clause_bracketed, clause_eq_listClause "GROUP BY", ← Option.toList_map, clause_having,
      clause_eq_listClause "ORDER BY"]
    rfl

/-! ## Steps of different clauses -/

namespace Step

/-- The clauses of a statement that steps change. -/
inductive Clause where
  | projection
  | conditions
  | groups
  | having
  | orders
deriving DecidableEq

/-- The clause that a step changes. -/
def clause : Step → Clause
  | select _ | selectAliased _ _ => .projection
  | filter _ | andFilter _ => .conditions
  | groupBy _ => .groups
  | filterGroups _ => .having
  | orderBy _ => .orders

/-- The steps of one clause. -/
def ofClause (k : Clause) (steps : List Step) : List Step := steps.filter fun s => s.clause = k

variable {α : Type} {k : Clause}

theorem ofClause_concat (steps : List Step) (s : Step) :
    ofClause k (steps ++ [s]) =
      if s.clause = k then ofClause k steps ++ [s] else ofClause k steps := by
  rw [ofClause, List.filter_append]
  split_ifs with hs <;> simp [ofClause, hs]

/-- Only the steps of a clause count for a list that no other step restarts or adds to. -/
theorem sinceLast_ofClause {restart? : Step → Option (List α)} {added? : Step → Option α}
    (h : ∀ s, s.clause ≠ k → restart? s = none ∧ added? s = none) (steps : List Step) :
    sinceLast restart? added? (ofClause k steps) = sinceLast restart? added? steps := by
  induction steps using List.reverseRecOn with
  | nil => rfl
  | append_singleton steps s ih =>
    rw [ofClause_concat, sinceLast_concat, ← ih]
    split_ifs with hs
    · exact sinceLast_concat restart? added? (ofClause k steps) s
    · obtain ⟨hrestart, hadded⟩ := h s hs
      rw [hrestart, hadded]
      exact (List.append_nil _).symm

/-- Only the steps of a clause count for the parts that no other step has. -/
theorem filterMap_ofClause {part? : Step → Option α} (h : ∀ s, s.clause ≠ k → part? s = none)
    (steps : List Step) : (ofClause k steps).filterMap part? = steps.filterMap part? := by
  rw [ofClause, List.filterMap_filter]
  refine List.filterMap_congr fun s _ => ?_
  by_cases hs : s.clause = k
  · exact if_pos (decide_eq_true hs)
  · rw [h s hs, if_neg (by simpa using hs)]

/-- Clause by clause, the two runs have the same steps in the same order. -/
def SameClauses (steps steps' : List Step) : Prop := ∀ k, ofClause k steps = ofClause k steps'

variable {steps steps' : List Step}

theorem SameClauses.sinceLast_eq {restart? : Step → Option (List α)} {added? : Step → Option α}
    (hsame : SameClauses steps steps')
    (h : ∀ s, s.clause ≠ k → restart? s = none ∧ added? s = none) :
    sinceLast restart? added? steps = sinceLast restart? added? steps' := by
  rw [← sinceLast_ofClause h steps, hsame k, sinceLast_ofClause h steps']

theorem SameClauses.filterMap_eq {part? : Step → Option α} (hsame : SameClauses steps steps')
    (h : ∀ s, s.clause ≠ k → part? s = none) :
    steps.filterMap part? = steps'.filterMap part? := by
  rw [← filterMap_ofClause h steps, hsame k, filterMap_ofClause h steps']

end Step

/-- A query that holds what the steps ask for holds what they ask for in any other order of the
clauses. -/
theorem Collected.of_sameClauses {steps' : List Step} (h : Collected e d q steps)
    (hsame : Step.SameClauses steps steps') : Collected e d q steps' where
  entity := h.entity
  dialect := h.dialect
  items := by
    have hother (s : Step) (hs : s.clause ≠ .projection) :
        s.newItems? = none ∧ s.addedItem? = none := by
      cases s <;> first | exact ⟨rfl, rfl⟩ | exact absurd rfl hs
    exact h.items.trans (hsame.sinceLast_eq hother)
  conditions := by
    have hother (s : Step) (hs : s.clause ≠ .conditions) :
        s.newConditions? = none ∧ s.addedCondition? = none := by
      cases s <;> first | exact ⟨rfl, rfl⟩ | exact absurd rfl hs
    exact h.conditions.trans (hsame.sinceLast_eq hother)
  groups := by
    have hother (s : Step) (hs : s.clause ≠ .groups) : s.grouping? = none := by
      cases s <;> first | rfl | exact absurd rfl hs
    exact h.groups.trans (hsame.filterMap_eq hother)
  having := by
    have hother (s : Step) (hs : s.clause ≠ .having) : s.groupCondition? = none := by
      cases s <;> first | rfl | exact absurd rfl hs
    exact h.having.trans (congrArg List.getLast? (hsame.filterMap_eq hother))
  orders := by
    have hother (s : Step) (hs : s.clause ≠ .orders) : s.order? = none := by
      cases s <;> first | rfl | exact absurd rfl hs
    exact h.orders.trans (hsame.filterMap_eq hother)

/-- The steps say what the query is. -/
theorem Collected.eq {q' : Query} (h : Collected e d q steps) (h' : Collected e d q' steps) :
    q = q' := by
  cases q
  cases q'
  obtain ⟨rfl, rfl, rfl, rfl, rfl, rfl, rfl⟩ := h
  obtain ⟨rfl, rfl, rfl, rfl, rfl, rfl, rfl⟩ := h'
  rfl

/-! ## The result -/

/-- A run of steps on a new query builds the statement that the steps ask for, or fails for want of
a dynamic column; and steps of different clauses may be taken in any order, with the same statement
and the same reports. -/
theorem build_eq_statement (e : Entity) (d : Dialect) (steps : List Step) :
    ((on e d).applyAll steps).build.outcome =
      e.column.map (fun _ => Step.statement d e steps) ∧
    ∀ steps', Step.SameClauses steps steps' →
      ((on e d).applyAll steps).build = ((on e d).applyAll steps').build := by
  have hcollected := collected_applyAll e d steps
  refine ⟨hcollected.outcome_build, fun steps' hsame => ?_⟩
  rw [(hcollected.of_sameClauses hsame).eq (collected_applyAll e d steps')]

/-- The two conditions before the last `filter` are gone, and the order of the rows may be asked for
first. -/
theorem build_eq_statement_reordered :
    let e : Entity := ⟨"t", some "c", []⟩
    let steps : List Step := [.filter "x = 1", .selectAliased "(!a!)" "first", .andFilter "y = 2",
      .orderBy "(!b!)", .filter "z = 3", .andFilter "(!c|int!) = 4"]
    let steps' : List Step := [.orderBy "(!b!)", .filter "x = 1", .andFilter "y = 2",
      .filter "z = 3", .andFilter "(!c|int!) = 4", .selectAliased "(!a!)" "first"]
    Step.SameClauses steps steps' ∧
      ((on e .default).applyAll steps).build.outcome =
        .ok ("SELECT COLUMN_GET(`t`.`c`, 'a' AS CHAR) AS `first` FROM `t`" ++
          " WHERE (z = 3) AND (COLUMN_GET(c, 'c' AS int) = 4)" ++
          " ORDER BY COLUMN_GET(c, 'b' AS CHAR)") ∧
      ((on e .default).applyAll steps).build = ((on e .default).applyAll steps').build := by
  intro e steps steps'
  have hsame : Step.SameClauses steps steps' := by intro k; cases k <;> decide
  obtain ⟨houtcome, hreorder⟩ := build_eq_statement e .default steps
  refine ⟨hsame, houtcome.trans (congrArg Except.ok ?_), hreorder steps' hsame⟩
  show Step.statement .default e steps = _
  decide +kernel

end PackedColumn.Query

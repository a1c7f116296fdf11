import PackedColumn.Access
import PackedColumn.Proofs.Refinement

/-!
# What a new column holds of a tree of attributes

A null is no entry of a column, and an object without any scalar in it is none either, however many
objects stand in it. `Json.prune` is the tree without them: it keeps the members in which a scalar
stands at some depth. What is left is `Json.Full`: scalars, and objects that are not empty
(`full_prune`).

Where there is no array in the tree, the expression for it is that of the pruned tree, member for
member (`Expr.ofMembers_eq`).
-/

namespace PackedColumn

namespace Json

theorem ne_object_of_scalar? {j : Json} {s : Scalar} (h : j.scalar? = some s) :
    ∀ ms, j ≠ .object ms := by
  rintro ms rfl
  cases h

/-! ## Trees without arrays -/

/-- No array stands in the value at any depth. -/
inductive ArrayFree : Json → Prop
  | null : ArrayFree .null
  | bool (b : Bool) : ArrayFree (.bool b)
  | number (n : Json.Number) : ArrayFree (.number n)
  | string (s : String) : ArrayFree (.string s)
  | object {ms : Entries Json} : (∀ member ∈ ms, ArrayFree member.2) → ArrayFree (.object ms)

/-! ## Pruning -/

mutual

/-- Whether a scalar stands in the value at some depth; null is none. -/
def holdsScalar : Json → Bool
  | .object ms => membersHoldScalar ms
  | j => j.scalar?.isSome

/-- `holdsScalar` of some member. -/
def membersHoldScalar : List (String × Json) → Bool
  | [] => false
  | (_, j) :: rest => j.holdsScalar || membersHoldScalar rest

end

mutual

/-- The value without the members, at any depth, in which no scalar stands. -/
def prune : Json → Json
  | .object ms => .object (pruneMembers ms)
  | j => j

/-- The members in which a scalar stands, in their order, each of them pruned. -/
def pruneMembers : List (String × Json) → List (String × Json)
  | [] => []
  | (key, j) :: rest =>
    if j.holdsScalar then (key, j.prune) :: pruneMembers rest else pruneMembers rest

end

/-- A scalar, or an object of some members that are all full. -/
inductive Full : Json → Prop
  | scalar {j : Json} {s : Scalar} : j.scalar? = some s → Full j
  | object {ms : Entries Json} : ms ≠ [] → (∀ member ∈ ms, Full member.2) → Full (.object ms)

theorem pruneMembers_eq (ms : Entries Json) :
    pruneMembers ms = (ms.filter (·.2.holdsScalar)).map fun m => (m.1, m.2.prune) := by
  induction ms with
  | nil => rw [pruneMembers]; rfl
  | cons m rest ih =>
    rw [pruneMembers, ih, List.filter_cons]
    by_cases hm : m.2.holdsScalar
    · rw [if_pos hm, if_pos hm, List.map_cons]
    · rw [if_neg hm, if_neg hm]

theorem exists_of_mem_pruneMembers {ms : Entries Json} {member : String × Json}
    (h : member ∈ pruneMembers ms) :
    ∃ m ∈ ms, m.2.holdsScalar ∧ (m.1, m.2.prune) = member := by
  rw [pruneMembers_eq] at h
  obtain ⟨m, hm, hmember⟩ := List.mem_map.mp h
  obtain ⟨hmem, hholds⟩ := List.mem_filter.mp hm
  exact ⟨m, hmem, hholds, hmember⟩

/-- Nothing is left of members in which no scalar stands. -/
theorem pruneMembers_eq_nil_iff {ms : Entries Json} :
    pruneMembers ms = [] ↔ membersHoldScalar ms = false := by
  induction ms with
  | nil => rw [pruneMembers, membersHoldScalar]; exact ⟨fun _ => rfl, fun _ => rfl⟩
  | cons m rest ih =>
    rw [pruneMembers, membersHoldScalar]
    by_cases hm : m.2.holdsScalar
    · rw [if_pos hm, hm, Bool.true_or]
      exact ⟨nofun, nofun⟩
    · rw [if_neg hm, ih, Bool.eq_false_iff.mpr hm, Bool.false_or]

/-- What is left of a value in which a scalar stands is full. -/
theorem full_prune {j : Json} (h : j.ArrayFree) (hscalar : j.holdsScalar) : j.prune.Full := by
  induction h with
  | null => cases hscalar
  | bool | number | string => exact .scalar rfl
  | @object ms _ ih =>
    rw [prune]
    refine .object ?_ ?_
    · rw [Ne, pruneMembers_eq_nil_iff, Bool.not_eq_false]
      exact hscalar
    · intro member hmember
      obtain ⟨m, hm, hholds, rfl⟩ := exists_of_mem_pruneMembers hmember
      exact ih m hm hholds

theorem full_of_mem_pruneMembers {ms : Entries Json} (h : (Json.object ms).ArrayFree) :
    ∀ member ∈ pruneMembers ms, member.2.Full := by
  intro member hmember
  obtain ⟨m, hm, hholds, rfl⟩ := exists_of_mem_pruneMembers hmember
  cases h with
  | object hms => exact full_prune (hms m hm) hholds

end Json

/-! ## Building -/

namespace Expr

open Json

mutual

/-- The value and the type that stand for a member that is kept. -/
def built : Json → Expr × Cast
  | .object ms => (create (builtPairs ms), .intermediate)
  | j =>
    match j.scalar? with
    | some s => (literal s, .named s.defaultType)
    | none => (null, .unnamed)

/-- The entries that stand for members that are kept. -/
def builtPairs : List (String × Json) → List (String × Expr × Cast)
  | [] => []
  | (key, j) :: rest => (key, built j) :: builtPairs rest

end

theorem built_of_scalar? {j : Json} {s : Scalar} (h : j.scalar? = some s) :
    built j = (literal s, .named s.defaultType) := by
  rw [built, h]
  exact ne_object_of_scalar? h

theorem builtPairs_eq (ms : Entries Json) :
    builtPairs ms = ms.map fun m => (m.1, built m.2) := by
  induction ms with
  | nil => rw [builtPairs]; rfl
  | cons m rest ih => rw [builtPairs, ih, List.map_cons]

/-- The container of the entries that are left, if any are. -/
theorem create?_builtPairs (ms : Entries Json) :
    create? (builtPairs (pruneMembers ms)) =
      if membersHoldScalar ms then some (create (builtPairs (pruneMembers ms))) else none := by
  have hempty : (builtPairs (pruneMembers ms)).isEmpty = !membersHoldScalar ms := by
    rw [Bool.eq_iff_iff, List.isEmpty_iff, builtPairs_eq, List.map_eq_nil_iff,
      pruneMembers_eq_nil_iff, Bool.not_eq_true']
  rw [create?, hempty]
  cases membersHoldScalar ms <;> rfl

/-- Members whose values stand for what is left of them give the entries of what is left of them
all. -/
theorem pairsOf_eq {ms : Entries Json}
    (h : ∀ m ∈ ms, ∀ name,
      ofMember name m.2 = .ok (if m.2.holdsScalar then some (built m.2.prune) else none))
    (outer : String) : pairsOf outer ms = .ok (builtPairs (pruneMembers ms)) := by
  induction ms with
  | nil => rw [pairsOf, pruneMembers, builtPairs]
  | cons m rest ih =>
    obtain ⟨hm, hrest⟩ := List.forall_mem_cons.mp h
    rw [pairsOf, hm, ih hrest, pruneMembers]
    by_cases hscalar : m.2.holdsScalar
    · rw [if_pos hscalar, if_pos hscalar, builtPairs]
      rfl
    · rw [if_neg hscalar, if_neg hscalar]
      rfl

theorem ofMember_eq {j : Json} (h : j.ArrayFree) (name : String) :
    ofMember name j = .ok (if j.holdsScalar then some (built j.prune) else none) := by
  -- The name is for errors only, and another one is told at each level.
  induction h generalizing name with
  | null | bool | number | string => rfl
  | @object ms _ ih =>
    rw [ofMember, pairsOf_eq ih, Except.map, create?_builtPairs, holdsScalar, prune, built]
    cases membersHoldScalar ms <;> rfl

/-- The expression for a tree without arrays is that of what is left of the tree. -/
theorem ofMembers_eq {ms : Entries Json} (h : (Json.object ms).ArrayFree) :
    ofMembers ms = .ok (if (Json.object ms).holdsScalar
      then create (builtPairs (pruneMembers ms)) else null) := by
  cases h with
  | object hms =>
    rw [ofMembers, pairsOf_eq fun m hm => ofMember_eq (hms m hm), Except.map, create?_builtPairs,
      holdsScalar]
    cases membersHoldScalar ms <;> rfl

end Expr

end PackedColumn

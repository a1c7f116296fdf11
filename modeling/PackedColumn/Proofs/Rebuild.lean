import PackedColumn.Proofs.Leaves
import PackedColumn.Proofs.Order

/-!
# Setting the leaves of a record one by one

A flattened record is put together again by setting each of its leaves, in stored order, in a record
without attributes. The leaves of a member come one after the other, so they fill the member while
nothing else changes (`setAll_under`), and each member comes last in its object (`setAll_members`).
Only an object that no leaf stands in is lost, because nothing is set there: what is rebuilt is
`Json.dropHollow` of the record (`rebuild_flatten`).
-/

namespace PackedColumn

namespace Entries

variable {α : Type}

/-- Of two values that are put under one name the second counts. -/
theorem put_put (key : String) (old value : α) (es : Entries α) :
    put key value (put key old es) = put key value es := by
  induction es with
  | nil => simp [put]
  | cons e rest ih =>
    obtain ⟨k, v⟩ := e
    rw [put]
    split
    · next hk => rw [put, if_pos hk, put, if_pos hk]
    · next hk => rw [put, if_neg hk, ih, put, if_neg hk]

end Entries

namespace Json

/-! ## Objects without leaves -/

mutual

/-- Whether a leaf stands in the value at some depth. -/
def holdsLeaf : Json → Bool
  | .object ms => membersHoldLeaf ms
  | _ => true

/-- `holdsLeaf` of some member. -/
def membersHoldLeaf : List (String × Json) → Bool
  | [] => false
  | (_, j) :: rest => j.holdsLeaf || membersHoldLeaf rest

end

mutual

/-- The value without the members, at any depth, in which no leaf stands. -/
def dropHollow : Json → Json
  | .object ms => .object (dropHollowMembers ms)
  | j => j

/-- The members in which a leaf stands, in their order, each of them without what is hollow. -/
def dropHollowMembers : List (String × Json) → List (String × Json)
  | [] => []
  | (key, j) :: rest =>
    if j.holdsLeaf then (key, j.dropHollow) :: dropHollowMembers rest else dropHollowMembers rest

end

/-- A value has leaves to list when a leaf stands in it. -/
theorem leafPaths_eq_nil_iff {j : Json} : j.leafPaths = [] ↔ j.holdsLeaf = false := by
  induction j using leaf_induct with
  | leaf j hj =>
    rw [leafPaths_of_leaf hj, holdsLeaf]
    · exact ⟨nofun, nofun⟩
    · exact hj
  | object ms ih =>
    rw [leafPaths, holdsLeaf]
    induction ms with
    | nil => rw [memberPaths, membersHoldLeaf]; exact ⟨fun _ => rfl, fun _ => rfl⟩
    | cons m rest ihrest =>
      obtain ⟨hm, hrest⟩ := List.forall_mem_cons.mp ih
      rw [memberPaths, membersHoldLeaf, List.append_eq_nil_iff, List.map_eq_nil_iff, hm,
        ihrest hrest, Bool.or_eq_false_iff]

/-! ## Setting leaves -/

/-- The value with each of the leaves set at the end of its path. -/
def setAll (leaves : List (List String × Json)) (j : Json) : Json :=
  leaves.foldl (fun j leaf => setAt leaf.2 leaf.1 j) j

theorem setAll_append (leaves more : List (List String × Json)) (j : Json) :
    setAll (leaves ++ more) j = setAll more (setAll leaves j) := List.foldl_append

/-- Leaves that are set under one name are set in the member of that name. -/
theorem setAll_under (key : String) {leaves : List (List String × Json)} (h : leaves ≠ [])
    (j : Json) : setAll (leaves.map (under key)) j =
      .object (Entries.put key (setAll leaves ((Entries.get? key j.members).getD .null))
        j.members) := by
  induction leaves generalizing j with
  | nil => exact (h rfl).elim
  | cons leaf rest ih =>
    rw [List.map_cons, setAll, List.foldl_cons, under, setAt, ← setAll]
    cases rest with
    | nil => rfl
    | cons next rest =>
      rw [ih (List.cons_ne_nil _ _), members, Entries.get?_put, if_pos rfl, Entries.put_put]
      rfl

/-- Members are set behind the members that are there. -/
theorem setAll_members {ms : Entries Json} (hnodup : (Entries.names ms).Nodup)
    (h : ∀ m ∈ ms, m.2.holdsLeaf → setAll m.2.leafPaths .null = m.2.dropHollow)
    {acc : Entries Json} (hacc : ∀ key ∈ Entries.names ms, key ∉ Entries.names acc) :
    setAll (memberPaths ms) (.object acc) = .object (acc ++ dropHollowMembers ms) := by
  induction ms generalizing acc with
  | nil => rw [memberPaths, dropHollowMembers, List.append_nil]; rfl
  | cons m rest ih =>
    obtain ⟨hm, hrest⟩ := List.forall_mem_cons.mp h
    obtain ⟨hnew, hothers⟩ := List.forall_mem_cons.mp hacc
    obtain ⟨hfirst, hnodup⟩ := List.nodup_cons.mp hnodup
    rw [memberPaths, dropHollowMembers, setAll_append]
    by_cases hleaf : m.2.holdsLeaf
    · have hne : m.2.leafPaths ≠ [] := mt leafPaths_eq_nil_iff.mp (ne_false_of_eq_true hleaf)
      have hacc' : ∀ key ∈ Entries.names rest,
          key ∉ Entries.names (acc ++ [(m.1, m.2.dropHollow)]) := by
        intro key hkey hmem
        rw [Entries.names, List.map_append, List.mem_append] at hmem
        rcases hmem with hmem | hmem
        · exact hothers key hkey hmem
        · obtain rfl := List.mem_singleton.mp hmem
          exact hfirst hkey
      rw [if_pos hleaf, setAll_under m.1 hne, members, Entries.get?_eq_none hnew, Option.getD_none,
        hm hleaf, Entries.put_of_not_mem hnew, ih hnodup hrest hacc', List.append_assoc,
        List.singleton_append]
    · rw [if_neg hleaf, leafPaths_eq_nil_iff.mpr (Bool.eq_false_iff.mpr hleaf)]
      exact ih hnodup hrest hothers

/-- A value counts by its members where something is set below it. -/
theorem setAll_congr {j k : Json} (h : j.members = k.members) {leaves : List (List String × Json)}
    (hne : leaves ≠ []) (hbelow : ∀ leaf ∈ leaves, leaf.1 ≠ []) :
    setAll leaves j = setAll leaves k := by
  obtain ⟨⟨path, value⟩, rest, rfl⟩ := List.exists_cons_of_ne_nil hne
  obtain ⟨key, below, rfl⟩ := List.exists_cons_of_ne_nil (hbelow _ List.mem_cons_self)
  rw [setAll, List.foldl_cons, setAt, h]
  rfl

/-- The leaves of a value, all set where nothing was, make the value without what is hollow. -/
theorem setAll_leafPaths {j : Json} (hj : j.Distinct) (h : j.holdsLeaf) :
    setAll j.leafPaths .null = j.dropHollow := by
  induction hj with
  | null | bool | number | string | array => rfl
  | @object ms hnodup _ ih =>
    have hne : (Json.object ms).leafPaths ≠ [] :=
      mt leafPaths_eq_nil_iff.mp (ne_false_of_eq_true h)
    have hbelow : ∀ leaf ∈ (Json.object ms).leafPaths, leaf.1 ≠ [] := by
      intro leaf hleaf
      rw [leafPaths] at hleaf
      obtain ⟨m, -, below, -, rfl⟩ := mem_memberPaths.mp hleaf
      exact List.cons_ne_nil _ _
    -- The first leaf makes an object of null, as it does of the object without members.
    rw [setAll_congr (j := .null) (k := .object []) rfl hne hbelow, leafPaths, dropHollow]
    exact setAll_members hnodup ih fun _ _ => List.not_mem_nil

end Json

/-! ## Rebuilding -/

namespace Record

theorem applyAll_cons (r : Record) (edit : Edit) (rest : List Edit) :
    r.applyAll (edit :: rest) = ((r.apply edit).1 :: ((r.apply edit).2.applyAll rest).1,
      ((r.apply edit).2.applyAll rest).2) := rfl

/-- Attributes that are set at the paths of leaves are all set. -/
theorem applyAll_set (r : Record) {leaves : List (List String × Json)}
    (h : ∀ leaf ∈ leaves, ∃ p, Path.parse? (dotted leaf).1 = some p ∧ p.segments = leaf.1) :
    ∃ after, after.toJson = Json.setAll leaves r.toJson ∧
      r.applyAll ((leaves.map dotted).map fun e => .set e.1 e.2) =
        ((leaves.map dotted).map fun _ => .done, after) := by
  induction leaves generalizing r with
  | nil => exact ⟨r, rfl, rfl⟩
  | cons leaf rest ih =>
    obtain ⟨⟨p, hp, hsegments⟩, hrest⟩ := List.forall_mem_cons.mp h
    obtain ⟨next, happly, hnext⟩ := apply_set_of_some hp r (dotted leaf).2
    obtain ⟨after, hafter, hrun⟩ := ih next hrest
    refine ⟨after, ?_, ?_⟩
    · rw [hafter, hnext, hsegments]
      rfl
    · rw [List.map_cons, List.map_cons, applyAll_cons, happly, hrun]
      rfl

/-- Setting every leaf of the flattened record in its order, from a record without attributes on,
sets them all and makes the record again, every object in the stored order of its members, but for
the objects in which no leaf stands. -/
theorem rebuild_flatten {r : Record} (hr : r.toJson.Distinct) (hnames : r.toJson.PlainNames) :
    Record.empty.applyAll (r.flatten.map fun e => .set e.1 e.2) =
      (r.flatten.map fun _ => .done, ⟨Json.dropHollowMembers r.entries⟩) := by
  obtain ⟨after, hafter, hrun⟩ := applyAll_set Record.empty
    fun leaf hleaf => parse?_of_mem_leafPaths hnames hleaf
  have hentries : after = ⟨Json.dropHollowMembers r.entries⟩ := by
    have hall : after.toJson = .object ([] ++ Json.dropHollowMembers r.entries) := by
      rw [hafter, toJson, Json.leafPaths]
      exact Json.setAll_members hr.nodup_members
        (fun m hm => Json.setAll_leafPaths (hr.of_mem_members m hm)) fun _ _ => List.not_mem_nil
    obtain ⟨entries⟩ := after
    exact congrArg Record.mk (Json.object.inj hall)
  rw [flatten_eq hr hnames, hrun, hentries]

/-- An array and a null are leaves that are set again in their places; objects of nothing but empty
objects are gone. -/
theorem rebuild_flatten_nested :
    let r : Record := ⟨[("a", .object [("x", .object []), ("b", .array [.object [("", .null)]])]),
      ("h", .object [("g", .object [])]), ("0", .null)]⟩
    r.toJson.Distinct ∧ r.toJson.PlainNames ∧
      Record.empty.applyAll (r.flatten.map fun e => .set e.1 e.2) =
        ([.done, .done],
          ⟨[("a", .object [("b", .array [.object [("", .null)]])]), ("0", .null)]⟩) := by
  intro r
  have hr : r.toJson.Distinct := by
    refine .object (by decide) (List.forall_mem_cons.mpr ⟨?_, List.forall_mem_cons.mpr ⟨?_, ?_⟩⟩)
    · refine .object (by decide) (List.forall_mem_cons.mpr ⟨.object (by decide) nofun, ?_⟩)
      refine List.forall_mem_singleton.mpr (.array (List.forall_mem_singleton.mpr ?_))
      exact .object (by decide) (List.forall_mem_singleton.mpr .null)
    · exact .object (by decide) (List.forall_mem_singleton.mpr (.object (by decide) nofun))
    · exact List.forall_mem_singleton.mpr .null
  have hnames : r.toJson.PlainNames := by
    refine .object (by decide) (List.forall_mem_cons.mpr ⟨?_, List.forall_mem_cons.mpr ⟨?_, ?_⟩⟩)
    · refine .object (by decide) (List.forall_mem_cons.mpr ⟨.object nofun nofun, ?_⟩)
      exact List.forall_mem_singleton.mpr (.leaf nofun)
    · exact .object (by decide) (List.forall_mem_singleton.mpr (.object nofun nofun))
    · exact List.forall_mem_singleton.mpr (.leaf nofun)
  exact ⟨hr, hnames, rebuild_flatten hr hnames⟩

end Record

end PackedColumn

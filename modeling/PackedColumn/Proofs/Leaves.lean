import PackedColumn.Proofs.Distinct
import PackedColumn.Proofs.Levels

/-!
# The leaves of a record

A leaf is a value that is no object, null and arrays included. `Json.leafPaths` lists the leaves of
a value with the names that lead to each of them.

* No leaf stands below another, so the paths of two leaves are apart (`pairwise_apart_leafPaths`),
  and a leaf is listed under the path that leads to it (`mem_leafPaths_iff`).
* Where every name is a piece of a dotted name (`Json.PlainNames`), a path and its dotted name
  spell each other (`parse?_joined`), and the flattened record lists the leaves under these names
  (`flatten_eq`).
-/

namespace PackedColumn

namespace Entries

variable {α : Type}

theorem get?_of_mem {es : Entries α} (h : (names es).Nodup) {key : String} {value : α}
    (hmem : (key, value) ∈ es) : get? key es = some value := by
  obtain ⟨before, after, rfl⟩ := List.append_of_mem hmem
  have hbefore : key ∉ names before := by
    unfold names at h ⊢
    rw [List.map_append, List.nodup_append] at h
    exact fun hkey => h.2.2 _ hkey _ List.mem_cons_self rfl
  rw [get?_append, get?_eq_none hbefore, get?, if_pos rfl]
  rfl

/-- A new name is put last. -/
theorem put_of_not_mem {key : String} {es : Entries α} (h : key ∉ names es) (value : α) :
    put key value es = es ++ [(key, value)] := by
  induction es with
  | nil => rfl
  | cons e rest ih =>
    obtain ⟨hkey, hrest⟩ := List.ne_and_not_mem_of_not_mem_cons h
    rw [put, if_neg hkey.symm, ih hrest, List.cons_append]

/-- Entries without a second one of any name are collected as they are. -/
theorem collect_eq_self {es : Entries α} (h : (names es).Nodup) : collect es = es := by
  have hrun : ∀ acc : Entries α, (names (acc ++ es)).Nodup →
      es.foldl (fun acc e => put e.1 e.2 acc) acc = acc ++ es := by
    clear h
    induction es with
    | nil => exact fun acc _ => (List.append_nil acc).symm
    | cons e rest ih =>
      intro acc h
      have hnew : e.1 ∉ names acc := by
        unfold names at h ⊢
        rw [List.map_append, List.nodup_append] at h
        exact fun hmem => h.2.2 _ hmem _ List.mem_cons_self rfl
      rw [List.append_cons] at h
      rw [List.foldl_cons, put_of_not_mem hnew, ih _ h, ← List.append_cons]
  exact hrun [] h

end Entries

/-! ## Leaves and their paths -/

namespace Json

/-- Values by their members: a value is a leaf, or an object of values. -/
@[elab_as_elim]
theorem leaf_induct {motive : Json → Prop} (leaf : ∀ j, (∀ ms, j ≠ .object ms) → motive j)
    (object : ∀ ms : Entries Json, (∀ member ∈ ms, motive member.2) → motive (.object ms))
    (j : Json) : motive j :=
  match j with
  | .object ms => object ms fun member _ => leaf_induct leaf object member.2
  | .null | .bool _ | .number _ | .string _ | .array _ => leaf _ nofun
termination_by sizeOf j
decreasing_by
  next hmember =>
  have hlt := List.sizeOf_lt_of_mem hmember
  obtain ⟨key, value⟩ := member
  simp only [Prod.mk.sizeOf_spec, Json.object.sizeOf_spec] at hlt ⊢
  omega

/-- A leaf with one name more on the way to it. -/
def under (key : String) (leaf : List String × Json) : List String × Json := (key :: leaf.1, leaf.2)

mutual

/-- The leaves of the value in stored order, each with the names that lead to it. -/
def leafPaths : Json → List (List String × Json)
  | .object ms => memberPaths ms
  | leaf => [([], leaf)]

/-- The leaves of the members of an object. -/
def memberPaths : List (String × Json) → List (List String × Json)
  | [] => []
  | (key, j) :: rest => j.leafPaths.map (under key) ++ memberPaths rest

end

theorem leafPaths_of_leaf {j : Json} (h : ∀ ms, j ≠ .object ms) : j.leafPaths = [([], j)] := by
  rw [leafPaths]
  exact h

theorem memberPaths_eq (ms : Entries Json) :
    memberPaths ms = ms.flatMap fun m => m.2.leafPaths.map (under m.1) := by
  induction ms with
  | nil => rw [memberPaths]; rfl
  | cons m rest ih => rw [memberPaths, ih, List.flatMap_cons]

theorem mem_memberPaths {ms : Entries Json} {leaf : List String × Json} :
    leaf ∈ memberPaths ms ↔ ∃ m ∈ ms, ∃ below ∈ m.2.leafPaths, under m.1 below = leaf := by
  rw [memberPaths_eq, List.mem_flatMap]
  simp only [List.mem_map]

/-- The leaves of a value stand in different places, and none stands below another. -/
theorem pairwise_apart_leafPaths {j : Json} (hj : j.Distinct) :
    j.leafPaths.Pairwise fun a b => Apart a.1 b.1 := by
  induction hj with
  | null | bool | number | string | array =>
    rw [leafPaths_of_leaf (by rintro ms ⟨⟩)]
    exact List.pairwise_singleton _ _
  | @object ms hnodup _ ih =>
    rw [leafPaths, memberPaths_eq, List.pairwise_flatMap]
    refine ⟨fun m hm => ?_, ?_⟩
    · rw [List.pairwise_map]
      exact (ih m hm).imp fun h => apart_cons.mpr fun _ => h
    · refine (List.pairwise_map.mp hnodup).imp fun hne a ha b hb => ?_
      obtain ⟨_, -, rfl⟩ := List.mem_map.mp ha
      obtain ⟨_, -, rfl⟩ := List.mem_map.mp hb
      exact apart_cons.mpr fun heq => (hne heq).elim

/-- A leaf is listed under the path that leads to it, and under no other. -/
theorem mem_leafPaths_iff {j : Json} (hj : j.Distinct) {path : List String} {value : Json} :
    (path, value) ∈ j.leafPaths ↔ j.at? path = some value ∧ ∀ ms, value ≠ .object ms := by
  induction hj generalizing path with
  | null | bool | number | string | array =>
    rw [leafPaths_of_leaf (by rintro ms ⟨⟩), List.mem_singleton, Prod.mk.injEq]
    cases path with
    | nil =>
      refine ⟨?_, fun h => ⟨rfl, (Option.some.inj h.1).symm⟩⟩
      rintro ⟨-, rfl⟩
      exact ⟨rfl, nofun⟩
    | cons name rest => exact ⟨nofun, nofun⟩
  | @object ms hnodup _ ih =>
    rw [leafPaths, mem_memberPaths]
    constructor
    · rintro ⟨⟨key, child⟩, hm, ⟨below, leaf⟩, hbelow, heq⟩
      obtain ⟨rfl, rfl⟩ := Prod.mk.inj heq
      rw [at?_cons, members, Entries.get?_of_mem hnodup hm]
      exact (ih _ hm).mp hbelow
    · rintro ⟨hat, hleaf⟩
      cases path with
      | nil => exact (hleaf ms (Option.some.inj hat).symm).elim
      | cons key below =>
        rw [at?_cons] at hat
        obtain ⟨child, hget, hchild⟩ := Option.bind_eq_some_iff.mp hat
        have hm := Entries.mem_of_get? hget
        exact ⟨_, hm, _, (ih _ hm).mpr ⟨hchild, hleaf⟩, rfl⟩

/-! ## Plain names -/

/-- Every name, at every level of nested objects, is a piece of a dotted name: it is not empty and
holds no dot. -/
inductive PlainNames : Json → Prop
  | leaf {j : Json} : (∀ ms, j ≠ .object ms) → PlainNames j
  | object {ms : Entries Json} : (∀ member ∈ ms, member.1 ≠ "" ∧ '.' ∉ member.1.toList) →
      (∀ member ∈ ms, PlainNames member.2) → PlainNames (.object ms)

/-- The names on the way to a leaf are plain. -/
theorem PlainNames.of_mem_leafPaths {j : Json} (h : j.PlainNames) {leaf : List String × Json}
    (hmem : leaf ∈ j.leafPaths) : ∀ s ∈ leaf.1, s ≠ "" ∧ '.' ∉ s.toList := by
  induction h generalizing leaf with
  | leaf hj =>
    rw [leafPaths_of_leaf hj] at hmem
    obtain rfl := List.mem_singleton.mp hmem
    exact nofun
  | object hnames _ ih =>
    rw [leafPaths] at hmem
    obtain ⟨m, hm, below, hbelow, rfl⟩ := mem_memberPaths.mp hmem
    exact List.forall_mem_cons.mpr ⟨hnames m hm, ih m hm hbelow⟩

end Json

namespace Path

theorem joined_singleton (key : String) : joined [key] = key := String.intercalate_singleton

theorem joined_concat {segments : List String} (h : segments ≠ []) (key : String) :
    joined (segments ++ [key]) = joined segments ++ "." ++ key := by
  unfold joined
  rw [String.intercalate_append_of_ne_nil h (List.cons_ne_nil _ _), String.intercalate_singleton]

/-- Plain names that are joined are the pieces of the name that they make. -/
theorem pieces_joined {segments : List String} (hne : segments ≠ [])
    (h : ∀ s ∈ segments, '.' ∉ s.toList) : pieces (joined segments) = segments := by
  have hdot : ∀ part ∈ segments.map String.toList, '.' ∉ part := by
    intro part hpart
    obtain ⟨s, hs, rfl⟩ := List.mem_map.mp hpart
    exact h s hs
  have htext : (joined segments).toList = ['.'].intercalate (segments.map String.toList) := by
    simp [joined]
  unfold pieces
  rw [htext, List.splitOn_intercalate _ hdot (by simpa using hne)]
  simp [Function.comp_def]

/-- Plain names that are joined spell the path that they are. -/
theorem parse?_joined {segments : List String} (hne : segments ≠ [])
    (h : ∀ s ∈ segments, s ≠ "" ∧ '.' ∉ s.toList) :
    ∃ p, parse? (joined segments) = some p ∧ p.segments = segments :=
  ⟨⟨segments, hne, fun s hs => (h s hs).1⟩,
    parse?_eq_some_iff.mpr (pieces_joined hne fun s hs => (h s hs).2).symm, rfl⟩

end Path

/-! ## Flattening -/

namespace Record

open Json

/-- A leaf under the dotted name of its path. -/
def dotted (leaf : List String × Json) : String × Json := (Path.joined leaf.1, leaf.2)

theorem memberLeaves_eq (name : String) (ms : Entries Json) :
    memberLeaves name ms = ms.flatMap fun m => leaves (name ++ "." ++ m.1) m.2 := by
  induction ms with
  | nil => rw [memberLeaves]; rfl
  | cons m rest ih => rw [memberLeaves, ih, List.flatMap_cons]

/-- Below a name each leaf has the dotted name of its whole path. -/
theorem leaves_joined {above : List String} (h : above ≠ []) (j : Json) :
    leaves (Path.joined above) j =
      j.leafPaths.map fun leaf => dotted (above ++ leaf.1, leaf.2) := by
  induction j using leaf_induct generalizing above with
  | leaf j hj =>
    rw [leafPaths_of_leaf hj, List.map_singleton, List.append_nil, leaves]
    · rfl
    · exact hj
  | object ms ih =>
    rw [leaves, leafPaths, memberLeaves_eq, memberPaths_eq, List.map_flatMap]
    refine List.flatMap_congr fun m hm => ?_
    rw [← Path.joined_concat h, ih m hm (by simp), List.map_map]
    refine List.map_congr_left fun leaf _ => ?_
    rw [Function.comp_apply, under, List.append_assoc]
    rfl

theorem flatMap_leaves (r : Record) :
    (r.entries.flatMap fun e => leaves e.1 e.2) = r.toJson.leafPaths.map dotted := by
  rw [toJson, leafPaths, memberPaths_eq, List.map_flatMap]
  refine List.flatMap_congr fun m _ => ?_
  rw [List.map_map, ← Path.joined_singleton m.1, leaves_joined (List.cons_ne_nil _ _)]
  rfl

variable {r : Record}

/-- A dotted name of a leaf spells the path of the leaf. -/
theorem parse?_of_mem_leafPaths (h : r.toJson.PlainNames) {leaf : List String × Json}
    (hmem : leaf ∈ r.toJson.leafPaths) :
    ∃ p, Path.parse? (dotted leaf).1 = some p ∧ p.segments = leaf.1 := by
  refine Path.parse?_joined ?_ (h.of_mem_leafPaths hmem)
  rw [toJson, leafPaths] at hmem
  obtain ⟨m, -, below, -, rfl⟩ := mem_memberPaths.mp hmem
  exact List.cons_ne_nil _ _

/-- The flattened record lists the leaves under the dotted names of their paths. -/
theorem flatten_eq (hr : r.toJson.Distinct) (h : r.toJson.PlainNames) :
    r.flatten = r.toJson.leafPaths.map dotted := by
  have hnodup : (Entries.names (r.toJson.leafPaths.map dotted)).Nodup := by
    unfold Entries.names
    rw [List.map_map, List.Nodup, List.pairwise_map]
    refine (pairwise_apart_leafPaths hr).imp_of_mem fun {a b} ha hb hapart heq => ?_
    obtain ⟨p, hp, hpa⟩ := parse?_of_mem_leafPaths h ha
    obtain ⟨q, hq, hqb⟩ := parse?_of_mem_leafPaths h hb
    obtain rfl : p = q := by
      rw [show (dotted a).1 = (dotted b).1 from heq, hq] at hp
      exact (Option.some.inj hp).symm
    rw [← hpa, ← hqb] at hapart
    exact hapart.1 (List.prefix_refl _)
  rw [flatten, flatMap_leaves, Entries.collect_eq_self hnodup]

end Record

end PackedColumn

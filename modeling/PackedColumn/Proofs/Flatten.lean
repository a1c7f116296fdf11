import PackedColumn.Proofs.Leaves
import PackedColumn.Proofs.Order

/-!
# What the flattened record lists

Where every name is a piece of a dotted name, the flattened record lists a name with a value exactly
if the name reads the value and the value is no object (`mem_flatten_iff`). So no listed name goes
on from another: it would have to lead on from a leaf.

The leaves are listed depth first: of two of them the one comes first whose key is stored first at
the level where their paths part (`Json.StoredBefore`, `Json.pairwise_storedBefore`).
-/

namespace PackedColumn

namespace Json

/-- The walk along `ks` comes before the walk along `ls` in stored order: they part at some level,
and the key that the first one takes there is stored before the key that the second one takes. -/
def StoredBefore (j : Json) (ks ls : List String) : Prop :=
  ∃ shared k ks' l ls', k ≠ l ∧ ks = shared ++ k :: ks' ∧ ls = shared ++ l :: ls' ∧
    [k, l].Sublist (j.namesAt shared)

/-- The names at a level of a member are those at a level of its object. -/
theorem namesAt_cons {key : String} {ms : Entries Json} {child : Json}
    (h : Entries.get? key ms = some child) (level : List String) :
    (Json.object ms).namesAt (key :: level) = child.namesAt level := by
  unfold namesAt
  rw [at?_cons, members, h, Option.bind_some]

/-- Walks within a member are ordered as in the member. -/
theorem StoredBefore.cons {key : String} {ms : Entries Json} {child : Json} {ks ls : List String}
    (h : Entries.get? key ms = some child) (hbefore : child.StoredBefore ks ls) :
    (Json.object ms).StoredBefore (key :: ks) (key :: ls) := by
  obtain ⟨shared, k, ks', l, ls', hne, rfl, rfl, hsub⟩ := hbefore
  rw [← namesAt_cons h] at hsub
  exact ⟨key :: shared, k, ks', l, ls', hne, rfl, rfl, hsub⟩

/-- The leaves of a value are listed in stored order. -/
theorem pairwise_storedBefore {j : Json} (hj : j.Distinct) :
    j.leafPaths.Pairwise fun a b => j.StoredBefore a.1 b.1 := by
  induction hj with
  | null | bool | number | string | array =>
    rw [leafPaths_of_leaf (by rintro ms ⟨⟩)]
    exact List.pairwise_singleton _ _
  | @object ms hnodup _ ih =>
    rw [leafPaths, memberPaths_eq, List.pairwise_flatMap]
    refine ⟨fun m hm => ?_, ?_⟩
    · rw [List.pairwise_map]
      exact (ih m hm).imp fun hbefore => hbefore.cons (Entries.get?_of_mem hnodup hm)
    · -- Leaves of two members part at the object itself.
      refine List.pairwise_iff_forall_sublist.mpr fun {m n} hmn a ha b hb => ?_
      obtain ⟨below, -, rfl⟩ := List.mem_map.mp ha
      obtain ⟨below', -, rfl⟩ := List.mem_map.mp hb
      have hnames : [m.1, n.1].Sublist (Entries.names ms) := hmn.map _
      have hne : m.1 ≠ n.1 := by simpa using hnodup.sublist hnames
      exact ⟨[], m.1, below.1, n.1, below'.1, hne, rfl, rfl, hnames⟩

end Json

/-- A dot joins the pieces of two names. -/
theorem Path.pieces_append_dot (name rest : String) :
    pieces (name ++ "." ++ rest) = pieces name ++ pieces rest := by
  unfold pieces
  rw [String.toList_append, String.toList_append, List.append_assoc, ← List.map_append]
  exact congrArg _ (List.splitOn_append_cons_self name.toList rest.toList)

namespace Record

variable {r : Record}

/-- The flattened record lists what a name reads that is no object. -/
theorem mem_flatten_iff (hr : r.toJson.Distinct) (hnames : r.toJson.PlainNames) {name : String}
    {value : Json} :
    (name, value) ∈ r.flatten ↔ r.get? name = some value ∧ ∀ ms, value ≠ .object ms := by
  rw [flatten_eq hr hnames, List.mem_map]
  constructor
  · rintro ⟨leaf, hleaf, heq⟩
    obtain ⟨p, hp, hsegments⟩ := parse?_of_mem_leafPaths hnames hleaf
    obtain ⟨rfl, rfl⟩ := Prod.mk.inj heq
    rw [show Path.joined leaf.1 = (dotted leaf).1 from rfl, get?_of_parse? hp, hsegments]
    exact (Json.mem_leafPaths_iff hr).mp hleaf
  · rintro ⟨hget, hvalue⟩
    obtain ⟨p, hp, hat⟩ := Option.bind_eq_some_iff.mp hget
    refine ⟨(p.segments, value), (Json.mem_leafPaths_iff hr).mpr ⟨hat, hvalue⟩, ?_⟩
    rw [dotted, Path.parse?_eq_some_iff.mp hp, Path.joined_pieces]

/-- A name that goes on from one that reads no object reads nothing. -/
theorem get?_append_dot {name : String} {value : Json} (h : r.get? name = some value)
    (hvalue : ∀ ms, value ≠ .object ms) (rest : String) : r.get? (name ++ "." ++ rest) = none := by
  obtain ⟨key, below, hbelow⟩ := List.exists_cons_of_ne_nil (Path.pieces_ne_nil rest)
  rw [get?_eq_bind] at h
  obtain ⟨-, -, hat⟩ := Option.bind_eq_some_iff.mp h
  have hend : Json.at? (key :: below) value = none := by
    cases value with
    | object ms => exact (hvalue ms rfl).elim
    | null | bool | number | string | array => rfl
  rw [get?_eq_bind, Path.pieces_append_dot, Json.at?_append, hat, Option.bind_some, hbelow, hend,
    Option.bind_fun_none]

/-- The flattened record lists exactly the names that read a value other than an object, each once
and with its value. No listed name goes on from another behind a dot, and the listing goes through
the record depth first, in stored order. -/
theorem flatten_lists_leaves (hr : r.toJson.Distinct) (hnames : r.toJson.PlainNames) :
    (∀ name value,
      (name, value) ∈ r.flatten ↔ r.get? name = some value ∧ ∀ ms, value ≠ .object ms) ∧
    (Entries.names r.flatten).Nodup ∧
    (∀ a ∈ r.flatten, ∀ b ∈ r.flatten, ∀ rest, b.1 ≠ a.1 ++ "." ++ rest) ∧
    r.flatten.Pairwise fun a b => r.toJson.StoredBefore (Path.pieces a.1) (Path.pieces b.1) := by
  refine ⟨fun name value => mem_flatten_iff hr hnames, Entries.nodup_collect _, ?_, ?_⟩
  · intro a ha b hb rest hrest
    obtain ⟨hget, hvalue⟩ := (mem_flatten_iff hr hnames).mp ha
    obtain ⟨hget', -⟩ := (mem_flatten_iff hr hnames).mp hb
    rw [hrest, get?_append_dot hget hvalue rest] at hget'
    cases hget'
  · rw [flatten_eq hr hnames, List.pairwise_map]
    refine (Json.pairwise_storedBefore hr).imp_of_mem fun {a b} ha hb hbefore => ?_
    obtain ⟨p, hp, hpa⟩ := parse?_of_mem_leafPaths hnames ha
    obtain ⟨q, hq, hqb⟩ := parse?_of_mem_leafPaths hnames hb
    rwa [← Path.parse?_eq_some_iff.mp hp, ← Path.parse?_eq_some_iff.mp hq, hpa, hqb]

/-- An array is listed and nothing in it is; an object without members is not listed. -/
theorem flatten_lists_leaves_nested :
    let inner : Json := .array [.object [("", .null)]]
    let r : Record := ⟨[("z", .null), ("a", .object [("c", inner), ("b", .object [])])]⟩
    r.toJson.Distinct ∧ r.toJson.PlainNames ∧ ("a.c", inner) ∈ r.flatten ∧
      (∀ value, ("a.b", value) ∉ r.flatten) ∧
      (∀ rest value, ("a.c" ++ "." ++ rest, value) ∉ r.flatten) ∧
      r.flatten.Pairwise fun a b => r.toJson.StoredBefore (Path.pieces a.1) (Path.pieces b.1) := by
  intro inner r
  have hr : r.toJson.Distinct := by
    refine .object (by decide) (List.forall_mem_cons.mpr ⟨.null, List.forall_mem_singleton.mpr ?_⟩)
    refine .object (by decide) (List.forall_mem_cons.mpr ⟨.array (List.forall_mem_singleton.mpr ?_),
      List.forall_mem_singleton.mpr (.object (by decide) nofun)⟩)
    exact .object (by decide) (List.forall_mem_singleton.mpr .null)
  have hnames : r.toJson.PlainNames := by
    refine .object (by decide) (List.forall_mem_cons.mpr ⟨.leaf nofun, ?_⟩)
    refine List.forall_mem_singleton.mpr (.object (by decide) (List.forall_mem_cons.mpr ⟨?_, ?_⟩))
    · exact .leaf nofun
    · exact List.forall_mem_singleton.mpr (.object nofun nofun)
  have hc : Path.parse? "a.c" = some ⟨["a", "c"], by decide, by decide⟩ := by decide +kernel
  have hb : Path.parse? "a.b" = some ⟨["a", "b"], by decide, by decide⟩ := by decide +kernel
  obtain ⟨hlisted, -, hapart, horder⟩ := flatten_lists_leaves hr hnames
  have hmem : ("a.c", inner) ∈ r.flatten := (hlisted "a.c" inner).mpr ⟨get?_of_parse? hc, nofun⟩
  refine ⟨hr, hnames, hmem, fun value hvalue => ?_, fun rest value hvalue => ?_, horder⟩
  · obtain ⟨hget, hleaf⟩ := (hlisted "a.b" value).mp hvalue
    exact hleaf [] (Option.some.inj (hget.symm.trans (get?_of_parse? hb)))
  · exact hapart _ hmem _ hvalue rest rfl

end Record

end PackedColumn

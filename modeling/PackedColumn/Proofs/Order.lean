import PackedColumn.Edit
import PackedColumn.Proofs.Distinct
import PackedColumn.Proofs.Levels

/-!
# The order of names under edits

`Json.namesAt` is the list of names at a level. An edit that sets keeps this list at every level of
its path, or puts one name behind it (`namesAt_setAt`). An edit that takes out drops one name at the
level of its attribute (`namesAt_of_takeAt?_leaf`) and none at the levels above
(`namesAt_of_takeAt?_above`). Any other edit leaves the record as it is.

Names stay distinct under all of this, so the same holds wherever a run of edits has led
(`edits_keep_order`).
-/

namespace PackedColumn

/-! ## One edit -/

namespace Record

theorem apply_set_of_none {name : String} (h : Path.parse? name = none) (r : Record)
    (value : Json) : r.apply (.set name value) = (.failed (.invalidPath name), r) := by
  rw [apply, set_of_parse?_eq_none h]

/-- Setting along a path sets in the one object that the record is. -/
theorem apply_set_of_some {name : String} {p : Path} (h : Path.parse? name = some p) (r : Record)
    (value : Json) : ∃ after, r.apply (.set name value) = (.done, after) ∧
      after.toJson = Json.setAt value p.segments r.toJson := by
  obtain ⟨after, hset, hjson⟩ := toJson_set (r := r) h value
  refine ⟨after, ?_, hjson⟩
  rw [apply, hset]

theorem apply_unset_of_none {name : String} {r : Record} (h : r.get? name = none) :
    r.apply (.unset name) = (.removed none, r) := by
  cases hp : Path.parse? name with
  | none => rw [apply, unset, hp, Option.bind_none]
  | some p =>
    have htake : r.toJson.takeAt? p.segments = none := by
      rw [← Option.map_eq_none_iff, Json.takeAt?_fst p.segments_ne_nil, ← get?_of_parse? hp]
      exact h
    rw [apply, unset, hp, Option.bind_some, htake]

/-- Taking out an attribute that is there answers it, and takes it out of the one object that the
record is. -/
theorem apply_unset_of_some {name : String} {r : Record} {removed : Json}
    (h : r.get? name = some removed) : ∃ p after, Path.parse? name = some p ∧
      r.apply (.unset name) = (.removed (some removed), after) ∧
      r.toJson.takeAt? p.segments = some (removed, after.toJson) := by
  obtain ⟨p, hp, hat⟩ := Option.bind_eq_some_iff.mp h
  rw [← Json.takeAt?_fst p.segments_ne_nil] at hat
  obtain ⟨⟨value, rest⟩, htake, rfl⟩ := Option.map_eq_some_iff.mp hat
  refine ⟨p, ⟨rest.members⟩, hp, ?_, ?_⟩
  · rw [apply, unset, hp, Option.bind_some, htake]
  · rw [htake, toJson, Json.object_members_of_takeAt? htake]

/-- Taking out answers what the name read. -/
theorem answer_unset (r : Record) (name : String) :
    (r.apply (.unset name)).1 = .removed (r.get? name) := by
  cases h : r.get? name with
  | none => rw [apply_unset_of_none h]
  | some removed =>
    obtain ⟨-, after, -, happly, -⟩ := apply_unset_of_some h
    rw [happly]

/-- An edit that fails or finds nothing leaves the record as it is. -/
theorem apply_of_idle {r : Record} {edit : Edit}
    (h : (∃ e, (r.apply edit).1 = .failed e) ∨ (r.apply edit).1 = .removed none) :
    (r.apply edit).2 = r := by
  cases edit with
  | set name value =>
    cases hp : Path.parse? name with
    | none => rw [apply_set_of_none hp]
    | some p =>
      obtain ⟨after, happly, -⟩ := apply_set_of_some hp r value
      rw [happly] at h
      rcases h with ⟨e, h⟩ | h <;> cases h
  | unset name =>
    cases hget : r.get? name with
    | none => rw [apply_unset_of_none hget]
    | some removed =>
      rw [answer_unset, hget] at h
      rcases h with ⟨e, h⟩ | h <;> cases h

end Record

/-! ## Names at a level -/

namespace Json

/-- The names at the level that the walk along `level` leads to, in their order. A level that is
missing or no object has none. -/
def namesAt (level : List String) (j : Json) : List String :=
  Entries.names ((j.at? level).getD .null).members

/-- A value that is set leaves the names of a level on its path, with the next key as the last of
them if it is new. -/
theorem namesAt_setAt (value : Json) (level : List String) (key : String) (below : List String)
    (j : Json) : namesAt level (setAt value (level ++ key :: below) j) =
      if key ∈ j.namesAt level then j.namesAt level else j.namesAt level ++ [key] := by
  unfold namesAt
  rw [at?_setAt_append, Option.getD_some, setAt, members, Entries.names_put]

/-- A value that is taken out takes its name along. -/
theorem namesAt_of_takeAt?_leaf {above : List String} {leaf : String} {j removed rest : Json}
    (h : takeAt? (above ++ [leaf]) j = some (removed, rest)) :
    leaf ∈ j.namesAt above ∧ rest.namesAt above = (j.namesAt above).erase leaf := by
  obtain ⟨level, left, hlevel, htake, hleft⟩ := exists_level_of_takeAt? (List.cons_ne_nil _ _) h
  unfold namesAt
  rw [hlevel, hleft, Option.getD_some, Option.getD_some]
  rw [takeAt?_singleton] at htake
  obtain ⟨⟨value, others⟩, hfound, he⟩ := Option.map_eq_some_iff.mp htake
  obtain ⟨rfl, rfl⟩ := Prod.mk.inj he
  obtain ⟨before, after, hbefore, rfl, hnot⟩ := Entries.exists_append_of_take? hfound
  rw [hbefore, members]
  unfold Entries.names at hnot ⊢
  rw [List.map_append, List.map_append, List.map_cons, List.erase_append_right _ hnot,
    List.erase_cons_head]
  exact ⟨List.mem_append_right _ List.mem_cons_self, rfl⟩

/-- A value that is taken out further down leaves the names of a level. -/
theorem namesAt_of_takeAt?_above {level : List String} {key : String} {below : List String}
    (hbelow : below ≠ []) {j removed rest : Json}
    (h : takeAt? (level ++ key :: below) j = some (removed, rest)) :
    rest.namesAt level = j.namesAt level := by
  obtain ⟨here, left, hlevel, htake, hleft⟩ := exists_level_of_takeAt? (List.cons_ne_nil _ _) h
  unfold namesAt
  rw [hlevel, hleft, Option.getD_some, Option.getD_some]
  rcases takeAt?_cons_cases htake with ⟨hnil, -⟩ | ⟨child, left', hget, -, rfl⟩
  · exact (hbelow hnil).elim
  · have hmem : key ∈ Entries.names here.members :=
      List.mem_map.mpr ⟨_, Entries.mem_of_get? hget, rfl⟩
    rw [members, Entries.names_put, if_pos hmem]

end Json

/-! ## Runs -/

/-- No object in a value that the edit hands in has two members of one name. -/
def Edit.Distinct : Edit → Prop
  | .set _ value => value.Distinct
  | .unset _ => True

namespace Record

/-- A record as it is made: without attributes, or decoded. A decoded object that is handed in has
no two members of one name. -/
inductive IsStart : Record → Prop
  | empty : IsStart empty
  | ofDump {dump : String} {r : Record} : ofDump dump = .ok r → IsStart r
  | ofJson {j : Json} {r : Record} : j.Distinct → ofJson j = .ok r → IsStart r
  | ofRow {row : Entries Json} {name : String} {r : Record} :
      (Json.object row).Distinct → ofRow row name = .ok r → IsStart r

theorem distinct_ofRow {row : Entries Json} {name : String} {r : Record}
    (hrow : (Json.object row).Distinct) (h : ofRow row name = .ok r) : r.toJson.Distinct := by
  unfold ofRow at h
  split at h
  · obtain rfl := Except.ok.inj h
    exact .object List.nodup_nil fun _ hm => by cases hm
  · exact distinct_ofDump h
  · next value hget => exact distinct_ofJson (hrow.of_get? hget) h

theorem IsStart.distinct {r : Record} (h : r.IsStart) : r.toJson.Distinct := by
  cases h with
  | empty => exact .object List.nodup_nil fun _ hm => by cases hm
  | ofDump h => exact distinct_ofDump h
  | ofJson hj h => exact distinct_ofJson hj h
  | ofRow hrow h => exact distinct_ofRow hrow h

theorem distinct_apply {r : Record} {edit : Edit} (hedit : edit.Distinct)
    (hr : r.toJson.Distinct) : (r.apply edit).2.toJson.Distinct := by
  cases edit with
  | set name value =>
    rw [apply]
    cases hset : r.set name value with
    | ok after => exact distinct_set hedit hr hset
    | error e => exact hr
  | unset name => exact distinct_unset hr

theorem distinct_applyAll {r : Record} (hr : r.toJson.Distinct) {edits : List Edit}
    (hedits : ∀ edit ∈ edits, edit.Distinct) : (r.applyAll edits).2.toJson.Distinct := by
  induction edits generalizing r with
  | nil => exact hr
  | cons edit rest ih =>
    obtain ⟨hedit, hrest⟩ := List.forall_mem_cons.mp hedits
    exact ih (distinct_apply hedit hr) hrest

end Record

/-- Wherever a run of edits has led, no object has two members of one name, and the next edit keeps
the order of names: one that sets leaves the names of every level on its path, and a new key comes
last; one that takes out drops one name at its level, none at the levels above, and leaves
everything else; and one that fails or finds nothing changes nothing. -/
theorem edits_keep_order {start : Record} (hstart : start.IsStart) (edits : List Edit)
    (hedits : ∀ edit ∈ edits, edit.Distinct) :
    let r := (start.applyAll edits).2
    r.toJson.Distinct ∧
      (∀ name value after, r.apply (.set name value) = (.done, after) →
        ∀ level key below, Path.pieces name = level ++ key :: below →
          after.toJson.namesAt level =
            if key ∈ r.toJson.namesAt level then r.toJson.namesAt level
            else r.toJson.namesAt level ++ [key]) ∧
      (∀ name removed after, r.apply (.unset name) = (.removed (some removed), after) →
        ∃ above leaf, Path.pieces name = above ++ [leaf] ∧ leaf ∈ r.toJson.namesAt above ∧
          after.toJson.namesAt above = (r.toJson.namesAt above).erase leaf ∧
          (∀ level, level <+: above → level ≠ above →
            after.toJson.namesAt level = r.toJson.namesAt level) ∧
          ∀ level, Apart (Path.pieces name) level →
            after.toJson.at? level = r.toJson.at? level) ∧
      (∀ name value, Path.parse? name = none →
        (r.apply (.set name value)).1 = .failed (.invalidPath name)) ∧
      (∀ name, r.get? name = none → (r.apply (.unset name)).1 = .removed none) ∧
      ∀ edit, (∃ e, (r.apply edit).1 = .failed e) ∨ (r.apply edit).1 = .removed none →
        (r.apply edit).2 = r := by
  intro r
  refine ⟨Record.distinct_applyAll hstart.distinct hedits, ?_, ?_, ?_, ?_, ?_⟩
  · intro name value after happly level key below hpieces
    cases hp : Path.parse? name with
    | none =>
      rw [Record.apply_set_of_none hp] at happly
      cases happly
    | some p =>
      obtain ⟨after', happly', hjson⟩ := Record.apply_set_of_some hp r value
      obtain ⟨-, rfl⟩ := Prod.mk.inj (happly'.symm.trans happly)
      rw [hjson, Path.parse?_eq_some_iff.mp hp, hpieces]
      exact Json.namesAt_setAt value level key below r.toJson
  · intro name removed after happly
    have hget : r.get? name = some removed := by
      have hanswer := r.answer_unset name
      rw [happly] at hanswer
      injection hanswer with hremoved
      exact hremoved.symm
    obtain ⟨p, after', hp, happly', htake⟩ := Record.apply_unset_of_some hget
    obtain ⟨-, rfl⟩ := Prod.mk.inj (happly'.symm.trans happly)
    have hpieces := Path.parse?_eq_some_iff.mp hp
    rw [← p.parents_append_leaf] at htake hpieces
    obtain ⟨hmem, herase⟩ := Json.namesAt_of_takeAt?_leaf htake
    refine ⟨p.parents, p.leaf, hpieces.symm, hmem, herase, ?_, ?_⟩
    · rintro level ⟨rest, hrest⟩ hne
      cases rest with
      | nil => exact (hne (by rw [← hrest, List.append_nil])).elim
      | cons key rest =>
        rw [← hrest, List.append_assoc, List.cons_append] at htake
        exact Json.namesAt_of_takeAt?_above (by simp) htake
    · intro level hapart
      rw [← hpieces] at hapart
      exact Json.at?_of_takeAt?_of_apart hapart htake
  · intro name value hp
    rw [Record.apply_set_of_none hp]
  · intro name hget
    rw [Record.apply_unset_of_none hget]
  · exact fun edit h => Record.apply_of_idle h

/-- After a set that makes a level and an unset, a new key comes last beside the one that is left,
and a removal keeps the order of the others. -/
theorem edits_keep_order_after_two :
    let start : Record := ⟨[("z", .null), ("a", .object [("x", .null), ("y", .null)])]⟩
    let edits : List Edit := [.set "b.c" .null, .unset "a.x"]
    let r := (start.applyAll edits).2
    start.IsStart ∧ (∀ edit ∈ edits, edit.Distinct) ∧ r.toJson.Distinct ∧
      (∃ after, r.apply (.set "a.n" .null) = (.done, after) ∧
        after.toJson.namesAt ["a"] = ["y", "n"]) ∧
      ∃ after, r.apply (.unset "z") = (.removed (some .null), after) ∧
        after.toJson.namesAt [] = ["a", "b"] := by
  intro start edits r
  have hstart : start.IsStart := by
    refine .ofJson (j := start.toJson) ?_ rfl
    refine .object (by decide) fun member hmember => ?_
    rcases List.mem_cons.mp hmember with rfl | hmember
    · exact .null
    · obtain rfl := List.mem_singleton.mp hmember
      refine .object (by decide) fun member hmember => ?_
      rcases List.mem_cons.mp hmember with rfl | hmember
      · exact .null
      · obtain rfl := List.mem_singleton.mp hmember
        exact .null
  have hedits : ∀ edit ∈ edits, edit.Distinct := by
    intro edit hedit
    rcases List.mem_cons.mp hedit with rfl | hedit
    · exact Json.Distinct.null
    · obtain rfl := List.mem_singleton.mp hedit
      trivial
  obtain ⟨hdistinct, hset, hunset, -⟩ := edits_keep_order hstart edits hedits
  refine ⟨hstart, hedits, hdistinct, ?_, ?_⟩
  · have hp : Path.parse? "a.n" = some ⟨["a", "n"], by decide, by decide⟩ := by decide +kernel
    obtain ⟨after, happly, -⟩ := Record.apply_set_of_some hp r .null
    refine ⟨after, happly, ?_⟩
    rw [hset "a.n" .null after happly ["a"] "n" [] (by decide +kernel)]
    decide +kernel
  · have hp : Path.parse? "z" = some ⟨["z"], by decide, by decide⟩ := by decide +kernel
    have hget : r.get? "z" = some .null := by
      rw [Record.get?_of_parse? hp]
      rfl
    obtain ⟨-, after, -, happly, -⟩ := Record.apply_unset_of_some hget
    refine ⟨after, happly, ?_⟩
    obtain ⟨above, leaf, hpieces, -, herase, -⟩ := hunset "z" .null after happly
    have hz : above ++ [leaf] = [] ++ ["z"] := by
      rw [← hpieces]
      decide +kernel
    obtain ⟨rfl, hleaf⟩ := List.append_inj' hz rfl
    obtain rfl : leaf = "z" := by simpa using hleaf
    rw [herase]
    decide +kernel

end PackedColumn

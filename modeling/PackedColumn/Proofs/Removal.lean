import PackedColumn.Proofs.Commute
import PackedColumn.Proofs.Rebuild

/-!
# Taking an attribute out

`Json.Without names j left` says that `left` is `j` without the one entry at the end of the walk
along `names`: every other entry stands where it stood.

* Taking a value out leaves this of the tree (`without_of_takeAt?`), and so of every level of the
  walk, because a level sees the rest of the walk as a walk of its own.
* A value that is set in an object that lacks its name comes last there, and the levels above are
  put back in their places. So taking it out again leaves the tree that was there before
  (`takeAt?_setAt`).

`unset` answers what the name read and takes out no more than that, and it undoes a `set` that made
no level (`unset_takes_out`).
-/

namespace PackedColumn

namespace Entries

variable {α : Type} {key : String} {value : α} {es : Entries α}

/-- What is found is the first entry of its name. -/
theorem exists_append_of_get? (h : get? key es = some value) :
    ∃ before after, es = before ++ (key, value) :: after ∧ key ∉ names before := by
  rw [← take?_fst] at h
  obtain ⟨⟨found, rest⟩, htake, rfl⟩ := Option.map_eq_some_iff.mp h
  obtain ⟨before, after, hes, -, hbefore⟩ := exists_append_of_take? htake
  exact ⟨before, after, hes, hbefore⟩

/-- The first entry of a name is replaced in its place. -/
theorem put_append_cons {before : Entries α} (h : key ∉ names before) (value old : α)
    (after : Entries α) :
    put key value (before ++ (key, old) :: after) = before ++ (key, value) :: after := by
  induction before with
  | nil => rw [List.nil_append, put, if_pos rfl, List.nil_append]
  | cons e rest ih =>
    obtain ⟨hkey, hrest⟩ := List.ne_and_not_mem_of_not_mem_cons h
    rw [List.cons_append, put, if_neg hkey.symm, ih hrest, List.cons_append]

/-- Putting what is there changes nothing. -/
theorem put_of_get? (h : get? key es = some value) : put key value es = es := by
  obtain ⟨before, after, rfl, hbefore⟩ := exists_append_of_get? h
  exact put_append_cons hbefore value value after

theorem take?_append_cons {before : Entries α} (h : key ∉ names before) (value : α)
    (after : Entries α) :
    take? key (before ++ (key, value) :: after) = some (value, before ++ after) := by
  induction before with
  | nil => rw [List.nil_append, take?, if_pos rfl, List.nil_append]
  | cons e rest ih =>
    obtain ⟨hkey, hrest⟩ := List.ne_and_not_mem_of_not_mem_cons h
    rw [List.cons_append, take?, if_neg hkey.symm, ih hrest]
    rfl

/-- A new name is put last, and taking it leaves what was there. -/
theorem take?_put (h : get? key es = none) (value : α) :
    take? key (put key value es) = some (value, es) := by
  have hnew : key ∉ names es := by
    rw [mem_names_iff, h]
    exact Bool.false_ne_true
  rw [put_of_not_mem hnew, take?_append_cons hnew, List.append_nil]

end Entries

namespace Json

/-! ## A tree without one entry -/

/-- `left` is the tree without the entry at the end of the walk along the names. Beside the walk
nothing differs, and nothing has moved. -/
inductive Without : List String → Json → Json → Prop
  | entry {key : String} {value : Json} {before after : Entries Json} :
      Without [key] (.object (before ++ (key, value) :: after)) (.object (before ++ after))
  | level {key : String} {names : List String} {child left : Json} {before after : Entries Json} :
      Without names child left →
      Without (key :: names) (.object (before ++ (key, child) :: after))
        (.object (before ++ (key, left) :: after))

theorem object_members_of_get? {name : String} {j child : Json}
    (h : Entries.get? name j.members = some child) : .object j.members = j := by
  cases j with
  | object ms => rfl
  | null | bool | number | string | array => cases h

/-- What remains when a value is taken out is the tree without its entry. -/
theorem without_of_takeAt? {names : List String} {j removed rest : Json}
    (h : takeAt? names j = some (removed, rest)) : Without names j rest := by
  induction names generalizing j rest with
  | nil => cases h
  | cons name names ih =>
    rcases takeAt?_cons_cases h with ⟨rfl, others, htake, rfl⟩ | ⟨child, left, hget, htake, rfl⟩
    · have hget : Entries.get? name j.members = some removed := by
        rw [← Entries.take?_fst, htake]
        rfl
      obtain ⟨before, after, hmembers, rfl, -⟩ := Entries.exists_append_of_take? htake
      rw [← object_members_of_get? hget, hmembers]
      exact .entry
    · obtain ⟨before, after, hmembers, hbefore⟩ := Entries.exists_append_of_get? hget
      rw [← object_members_of_get? hget, hmembers, members, Entries.put_append_cons hbefore]
      exact .level (ih htake)

/-! ## Taking out what was set -/

/-- A value that is set where its object has no entry is taken out again, and what remains is the
tree from before. -/
theorem takeAt?_setAt {above : List String} {key : String} {j : Json} {ms : Entries Json}
    (habove : at? above j = some (.object ms)) (hmissing : Entries.get? key ms = none)
    (value : Json) :
    takeAt? (above ++ [key]) (setAt value (above ++ [key]) j) = some (value, j) := by
  induction above generalizing j with
  | nil =>
    obtain rfl := Option.some.inj habove
    rw [List.nil_append, setAt, takeAt?_singleton, members, members, setAt,
      Entries.take?_put hmissing]
    rfl
  | cons name rest ih =>
    rw [at?_cons] at habove
    obtain ⟨child, hget, hchild⟩ := Option.bind_eq_some_iff.mp habove
    rw [List.cons_append, setAt, takeAt?_cons name (by simp), members, Entries.get?_put, if_pos rfl,
      Option.bind_some, hget, Option.getD_some, ih hchild, Option.map_some, Entries.put_put,
      Entries.put_of_get? hget, object_members_of_get? hget]

end Json

/-! ## Records -/

namespace Record

variable {r : Record} {name : String}

theorem unset_of_get?_eq_none (h : r.get? name = none) : r.unset name = (none, r) := by
  obtain ⟨hanswer, hafter⟩ := Prod.mk.inj (apply_unset_of_none h)
  exact Prod.ext (Edit.Answer.removed.inj hanswer) hafter

theorem exists_unset_of_get? {removed : Json} (h : r.get? name = some removed) :
    ∃ after, r.unset name = (some removed, after) ∧
      r.toJson.takeAt? (Path.pieces name) = some (removed, after.toJson) := by
  obtain ⟨p, after, hp, happly, htake⟩ := apply_unset_of_some h
  obtain ⟨hanswer, hafter⟩ := Prod.mk.inj happly
  rw [← Path.parse?_eq_some_iff.mp hp]
  exact ⟨after, Prod.ext (Edit.Answer.removed.inj hanswer) hafter, htake⟩

/-- A name that goes on from one that reads nothing reads nothing. -/
theorem get?_eq_none_below {other : String} {below : List String} (h : r.get? name = none)
    (hbelow : Path.pieces other = Path.pieces name ++ below) : r.get? other = none := by
  cases hq : Path.parse? other with
  | none => rw [get?, hq, Option.bind_none]
  | some q =>
    have hsegments := (Path.parse?_eq_some_iff.mp hq).trans hbelow
    have hplain : ∀ s ∈ Path.pieces name, s ≠ "" := fun s hs =>
      q.ne_empty_of_mem s (by rw [hsegments]; exact List.mem_append_left below hs)
    have hp : Path.parse? name = some ⟨Path.pieces name, Path.pieces_ne_nil name, hplain⟩ :=
      Path.parse?_eq_some_iff.mpr rfl
    rw [get?_of_parse? hp] at h
    rw [get?_of_parse? hq, hsegments, Json.at?_append, h, Option.bind_none]

/-- A value that is set where the object above has no entry for it is taken out again, and the
record is the one from before. -/
theorem unset_after_set {p : Path} {ms : Entries Json} (hp : Path.parse? name = some p)
    (h : r.get? name = none) (habove : r.toJson.at? p.parents = some (.object ms))
    (value : Json) : ∃ next, r.set name value = .ok next ∧ next.unset name = (some value, r) := by
  obtain ⟨next, hset, hjson⟩ := toJson_set (r := r) hp value
  rw [get?_of_parse? hp, ← p.parents_append_leaf, Json.at?_append, habove, Option.bind_some,
    Json.at?_cons, Option.bind_eq_none_iff] at h
  have hmissing : Entries.get? p.leaf ms = none := by
    cases hget : Entries.get? p.leaf ms with
    | none => rfl
    | some child => cases h child hget
  have htake := Json.takeAt?_setAt habove hmissing value
  rw [p.parents_append_leaf, ← hjson] at htake
  refine ⟨next, hset, ?_⟩
  rw [unset, hp, Option.bind_some, htake]
  rfl

/-- `unset` answers what the name read, and nothing else is gone: no name at or below the attribute
reads anything any more, a name apart from it reads what it read, and an object above it is the same
object without the entry, if there was one. An attribute that is set where an object, or the record,
has no entry for it is taken out again, and the record is the one from before, with every entry in
its place. -/
theorem unset_takes_out (hr : r.toJson.Distinct) (name : String) :
    let after := (r.unset name).2
    (r.unset name).1 = r.get? name ∧
      (r.get? name = none → after = r) ∧
      (r.get? name ≠ none → Json.Without (Path.pieces name) r.toJson after.toJson) ∧
      (∀ other below, Path.pieces other = Path.pieces name ++ below → after.get? other = none) ∧
      (∀ other, Apart (Path.pieces name) (Path.pieces other) →
        after.get? other = r.get? other) ∧
      (∀ other key below ms, Path.pieces name = Path.pieces other ++ key :: below →
        r.get? other = some (.object ms) →
          ∃ left, after.get? other = some (.object left) ∧
            (r.get? name = none ∧ left = ms ∨
              Json.Without (key :: below) (.object ms) (.object left))) ∧
      ∀ p ms value, Path.parse? name = some p → r.get? name = none →
        r.toJson.at? p.parents = some (.object ms) →
          ∃ next, r.set name value = .ok next ∧ next.unset name = (some value, r) := by
  cases h : r.get? name with
  | none =>
    rw [unset_of_get?_eq_none h]
    refine ⟨rfl, fun _ => rfl, fun hne => (hne rfl).elim, fun other below hbelow => ?_,
      fun _ _ => rfl, fun other key below ms _ hother => ?_,
      fun p ms value hp _ habove => unset_after_set hp h habove value⟩
    · exact get?_eq_none_below h hbelow
    · exact ⟨ms, hother, .inl ⟨rfl, rfl⟩⟩
  | some removed =>
    obtain ⟨after, hunset, htake⟩ := exists_unset_of_get? h
    have hgone := Json.at?_of_takeAt? hr htake
    rw [hunset]
    refine ⟨rfl, nofun, fun _ => Json.without_of_takeAt? htake, fun other below hbelow => ?_,
      fun other hapart => ?_, fun other key below ms habove hother => ?_, nofun⟩
    · -- The walk of the other name comes to an end where the attribute stood.
      rw [get?_eq_bind, hbelow, Json.at?_append, hgone, Option.bind_none, Option.bind_fun_none]
    · rw [get?_eq_bind, get?_eq_bind, Json.at?_of_takeAt?_of_apart hapart htake]
    · -- Seen from the object above, the rest of the walk is taken out of it.
      rw [habove] at htake
      obtain ⟨level, left, hlevel, htaken, hleft⟩ :=
        Json.exists_level_of_takeAt? (List.cons_ne_nil key below) htake
      rw [get?_eq_bind] at hother
      obtain ⟨q, hq, hat⟩ := Option.bind_eq_some_iff.mp hother
      obtain rfl : .object ms = level := Option.some.inj (hat.symm.trans hlevel)
      have hobject := Json.object_members_of_takeAt? htaken
      rw [← hobject] at htaken hleft
      refine ⟨left.members, ?_, .inr (Json.without_of_takeAt? htaken)⟩
      rw [get?_eq_bind, hq, Option.bind_some, hleft]

/-- An entry between two others is taken out of a nested object, and one that was set behind them is
taken out again. -/
theorem unset_takes_out_between :
    let r : Record :=
      ⟨[("k", .null), ("a", .object [("x", .null), ("y", .array []), ("z", .null)])]⟩
    let after := (r.unset "a.y").2
    r.toJson.Distinct ∧ (r.unset "a.y").1 = some (.array []) ∧ after.get? "a.y" = none ∧
      after.get? "a.y.w" = none ∧ after.get? "k" = some .null ∧
      Json.Without ["a", "y"] r.toJson after.toJson ∧
      ∃ next, r.set "a.n" (.string "v") = .ok next ∧
        next.unset "a.n" = (some (.string "v"), r) := by
  intro r after
  have hr : r.toJson.Distinct := by
    refine .object (by decide) (List.forall_mem_cons.mpr ⟨.null, List.forall_mem_singleton.mpr ?_⟩)
    exact .object (by decide) (List.forall_mem_cons.mpr
      ⟨.null, List.forall_mem_cons.mpr ⟨.array nofun, List.forall_mem_singleton.mpr .null⟩⟩)
  have hpy : Path.parse? "a.y" = some ⟨["a", "y"], by decide, by decide⟩ := by decide +kernel
  have hpk : Path.parse? "k" = some ⟨["k"], by decide, by decide⟩ := by decide +kernel
  have hpn : Path.parse? "a.n" = some ⟨["a", "n"], by decide, by decide⟩ := by decide +kernel
  have hy : r.get? "a.y" = some (.array []) := get?_of_parse? hpy
  have hk : r.get? "k" = some .null := get?_of_parse? hpk
  have hn : r.get? "a.n" = none := get?_of_parse? hpn
  obtain ⟨hanswer, -, hwithout, hbelow, hapart, -, -⟩ := unset_takes_out hr "a.y"
  obtain ⟨-, -, -, -, -, -, hback⟩ := unset_takes_out hr "a.n"
  refine ⟨hr, hanswer.trans hy, hbelow "a.y" [] (by decide +kernel), hbelow "a.y.w" ["w"] ?_,
    (hapart "k" (by decide +kernel)).trans hk, ?_, hback _ _ (.string "v") hpn hn rfl⟩
  · decide +kernel
  · rw [← Path.parse?_eq_some_iff.mp hpy] at hwithout
    exact hwithout (by rw [hy]; nofun)

end Record

end PackedColumn

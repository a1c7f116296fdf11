import Mathlib.Data.List.Pairwise
import PackedColumn.Proofs.Order

/-!
# Edits of unrelated attributes

Two edits are unrelated when neither path starts with the other. What a record is up to the order of
its members is what the walks along all paths see in it (`Json.reordered_of_observe`), and an edit
changes what they see along the paths that lead to its attribute or on from it, without looking at
any other path (`Record.observe_apply`). So unrelated edits commute, although both may have to make
the levels above them (`Edit.Unrelated.commute`).

An edit answers what its own attribute tells, which an unrelated edit does not touch. A list of
pairwise unrelated edits therefore leads to the same record up to order, with the same answers,
whatever the order in which they are done (`applyAll_perm`).
-/

namespace PackedColumn

namespace Entries

variable {α : Type}

theorem mem_names_iff {key : String} {es : Entries α} :
    key ∈ names es ↔ (get? key es).isSome := by
  constructor
  · intro h
    by_contra hnone
    rw [Option.not_isSome_iff_eq_none] at hnone
    obtain ⟨⟨k, v⟩, hmem, rfl⟩ := List.mem_map.mp h
    obtain ⟨before, after, rfl⟩ := List.append_of_mem hmem
    rw [get?_append, get?, if_pos rfl] at hnone
    cases hbefore : get? k before <;> rw [hbefore] at hnone <;> cases hnone
  · intro h
    obtain ⟨value, hget⟩ := Option.isSome_iff_exists.mp h
    exact List.mem_map.mpr ⟨_, mem_of_get? hget, rfl⟩

end Entries

/-! ## Values up to the order of members -/

namespace Json

/-- The same value, but for the order of the members of its objects. -/
inductive Reordered : Json → Json → Prop
  | refl (j : Json) : Reordered j j
  | object {ms ns : Entries Json} : (Entries.names ms).Perm (Entries.names ns) →
      (∀ name j k, Entries.get? name ms = some j → Entries.get? name ns = some k → Reordered j k) →
      Reordered (.object ms) (.object ns)

/-- What a walk sees at its end. -/
inductive Sight where
  | nothing
  /-- An object, of whatever members. -/
  | object
  | leaf (value : Json)

/-- What the walk along `names` sees at its end. -/
def observe (j : Json) (names : List String) : Sight :=
  match j.at? names with
  | none => .nothing
  | some (.object _) => .object
  | some value => .leaf value

theorem observe_congr {j k : Json} {names : List String} (h : j.at? names = k.at? names) :
    j.observe names = k.observe names := by
  unfold observe
  rw [h]

/-- A walk in two parts sees what its second part sees. -/
theorem observe_append {j child : Json} {names : List String} (h : j.at? names = some child)
    (below : List String) : j.observe (names ++ below) = child.observe below := by
  unfold observe
  rw [at?_append, h, Option.bind_some]

theorem observe_append_none {j : Json} {names : List String} (h : j.at? names = none)
    (below : List String) : j.observe (names ++ below) = .nothing := by
  unfold observe
  rw [at?_append, h, Option.bind_none]

theorem observe_of_at? {j child : Json} {names : List String} (h : j.at? names = some child) :
    j.observe names = child.observe [] := by
  rw [← observe_append h, List.append_nil]

theorem observe_of_at?_none {j : Json} {names : List String} (h : j.at? names = none) :
    j.observe names = .nothing := by
  unfold observe
  rw [h]

theorem observe_leaf {j : Json} (h : ∀ ms, j ≠ .object ms) : j.observe [] = .leaf j := by
  cases j with
  | object ms => exact (h ms rfl).elim
  | null | bool | number | string | array => rfl

theorem observe_nil_ne_nothing (j : Json) : j.observe [] ≠ .nothing := by
  intro h
  cases j <;> cases h

theorem at?_singleton (name : String) (ms : Entries Json) :
    (Json.object ms).at? [name] = Entries.get? name ms := by
  rw [at?_cons, members]
  exact Option.bind_fun_some _

/-- A name is seen where there is a member of it. -/
theorem mem_names_iff_observe {name : String} {ms : Entries Json} :
    name ∈ Entries.names ms ↔ (Json.object ms).observe [name] ≠ .nothing := by
  rw [Entries.mem_names_iff, ← at?_singleton]
  cases hat : (Json.object ms).at? [name] with
  | none =>
    rw [observe_of_at?_none hat]
    exact ⟨fun h => (Bool.false_ne_true h).elim, fun h => (h rfl).elim⟩
  | some child =>
    rw [observe_of_at? hat]
    exact ⟨fun _ => observe_nil_ne_nothing child, fun _ => rfl⟩

theorem reordered_of_leaf {j k : Json} (hj : ∀ ms, j ≠ .object ms)
    (h : j.observe [] = k.observe []) : j.Reordered k := by
  rw [observe_leaf hj] at h
  cases k with
  | object ns => cases h
  | null | bool | number | string | array =>
    injection h with hjk
    exact hjk ▸ .refl _

/-- Values with distinct names in which all walks see the same differ in the order of members at
most. -/
theorem reordered_of_observe {j k : Json} (hj : j.Distinct) (hk : k.Distinct)
    (h : j.observe = k.observe) : j.Reordered k := by
  induction hj generalizing k with
  | null | bool | number | string | array =>
    exact reordered_of_leaf (by rintro ms ⟨⟩) (congrFun h [])
  | @object ms hnodup hmembers ih =>
    cases hk with
    | @object ns hnodup' hmembers' =>
      refine .object ?_ ?_
      · rw [List.perm_ext_iff_of_nodup hnodup hnodup']
        intro name
        rw [mem_names_iff_observe, mem_names_iff_observe, h]
      · intro name a b ha hb
        refine ih _ (Entries.mem_of_get? ha) (hmembers' _ (Entries.mem_of_get? hb)) ?_
        funext names
        rw [← at?_singleton] at ha hb
        rw [← observe_append ha names, ← observe_append hb names, h]
    | null | bool | number | string | array => cases congrFun h []

/-! ## What an edit changes in the view -/

/-- What the walks see when something is done at the end of `path`: `below` along the rest of the
walks that go through it, and `above` of what was seen on the walks that end before it. -/
def overwrite (path : List String) (above : Sight → Sight) (below view : List String → Sight) :
    List String → Sight := fun names =>
  if path <+: names then below (names.drop path.length)
  else if names <+: path then above (view names)
  else view names

/-- What is done at the ends of paths apart is done in any order. -/
theorem overwrite_comm {ps qs : List String} (hapart : Apart ps qs) {f g : Sight → Sight}
    (hfg : ∀ s, f (g s) = g (f s)) (x y view : List String → Sight) :
    overwrite ps f x (overwrite qs g y view) = overwrite qs g y (overwrite ps f x view) := by
  funext names
  unfold overwrite
  -- No walk goes through the ends of both paths, but one that ends early may be on both.
  by_cases hp : ps <+: names
  · have hq : ¬ qs <+: names := fun hq =>
      (List.prefix_or_prefix_of_prefix hp hq).elim hapart.1 hapart.2
    have hq' : ¬ names <+: qs := fun hq' => hapart.1 (hp.trans hq')
    rw [if_pos hp, if_neg hq, if_neg hq', if_pos hp]
  · by_cases hq : qs <+: names
    · have hp' : ¬ names <+: ps := fun hp' => hapart.2 (hq.trans hp')
      rw [if_neg hp, if_neg hp', if_pos hq, if_pos hq]
    · rw [if_neg hp, if_neg hq, if_neg hp, if_neg hq]
      by_cases hp' : names <+: ps <;> by_cases hq' : names <+: qs
      · rw [if_pos hp', if_pos hq', if_pos hq', if_pos hp', hfg]
      · rw [if_pos hp', if_neg hq', if_neg hq', if_pos hp']
      · rw [if_neg hp', if_pos hq', if_pos hq', if_neg hp']
      · rw [if_neg hp', if_neg hq', if_neg hq', if_neg hp']

/-- A walk goes through the end of a path, ends before it, or leaves the path. -/
theorem prefix_cases (path names : List String) :
    (∃ below, names = path ++ below) ∨ (∃ key below, path = names ++ key :: below) ∨
      Apart path names := by
  by_cases hdown : path <+: names
  · obtain ⟨below, rfl⟩ := hdown
    exact .inl ⟨below, rfl⟩
  · by_cases hup : names <+: path
    · obtain ⟨rest, rfl⟩ := hup
      cases rest with
      | nil => exact (hdown (by simp)).elim
      | cons key below => exact .inr (.inl ⟨key, below, rfl⟩)
    · exact .inr (.inr ⟨hdown, hup⟩)

theorem overwrite_below (path : List String) (above : Sight → Sight)
    (below view : List String → Sight) (names : List String) :
    overwrite path above below view (path ++ names) = below names := by
  unfold overwrite
  rw [if_pos (List.prefix_append path names), List.drop_left]

theorem overwrite_above (names : List String) (key : String) (rest : List String)
    (above : Sight → Sight) (below view : List String → Sight) :
    overwrite (names ++ key :: rest) above below view names = above (view names) := by
  have hlonger : ¬ names ++ key :: rest <+: names := by
    intro h
    have hlength := h.length_le
    rw [List.length_append, List.length_cons] at hlength
    omega
  unfold overwrite
  rw [if_neg hlonger, if_pos (List.prefix_append _ _)]

theorem overwrite_of_apart {path names : List String} (h : Apart path names)
    (above : Sight → Sight) (below view : List String → Sight) :
    overwrite path above below view names = view names := by
  unfold overwrite
  rw [if_neg h.1, if_neg h.2]

/-- A value that is set is seen at the end of its path, and objects on the way to it. -/
theorem observe_setAt (value : Json) (path : List String) (j : Json) :
    (setAt value path j).observe = overwrite path (fun _ => .object) value.observe j.observe := by
  funext names
  rcases prefix_cases path names with ⟨below, rfl⟩ | ⟨key, below, rfl⟩ | hapart
  · rw [overwrite_below, observe_append (at?_setAt value path j)]
  · rw [overwrite_above]
    unfold observe
    rw [at?_setAt_append]
    rfl
  · rw [overwrite_of_apart hapart]
    exact observe_congr (at?_setAt_of_apart hapart value j)

/-- What is taken out is gone. -/
theorem at?_of_takeAt? {names : List String} {j removed rest : Json} (hj : j.Distinct)
    (h : takeAt? names j = some (removed, rest)) : at? names rest = none := by
  induction names generalizing j rest with
  | nil => cases h
  | cons name names ih =>
    rcases takeAt?_cons_cases h with ⟨rfl, others, htake, rfl⟩ | ⟨child, left, hget, htake, rfl⟩
    · rw [at?_cons, members, Entries.get?_of_take? hj.nodup_members htake, if_pos rfl]
      rfl
    · rw [at?_cons, members, Entries.get?_put, if_pos rfl]
      exact ih (hj.of_get? hget) htake

theorem observe_nil_of_takeAt? {names : List String} {j removed rest : Json}
    (h : takeAt? names j = some (removed, rest)) :
    j.observe [] = .object ∧ rest.observe [] = .object := by
  refine ⟨?_, ?_⟩
  · cases j with
    | object ms => rfl
    | null | bool | number | string | array => rcases names with _ | ⟨name, _ | _⟩ <;> cases h
  · rw [← object_members_of_takeAt? h]
    rfl

/-- Of a value that is taken out nothing is seen; what is on the way to it stays an object. -/
theorem observe_of_takeAt? {path : List String} {j removed rest : Json} (hj : j.Distinct)
    (h : takeAt? path j = some (removed, rest)) :
    rest.observe = overwrite path id (fun _ => .nothing) j.observe := by
  funext names
  rcases prefix_cases path names with ⟨below, rfl⟩ | ⟨key, below, rfl⟩ | hapart
  · rw [overwrite_below, observe_append_none (at?_of_takeAt? hj h)]
  · obtain ⟨level, left, hlevel, htake, hleft⟩ := exists_level_of_takeAt? (List.cons_ne_nil _ _) h
    obtain ⟨hbefore, hafter⟩ := observe_nil_of_takeAt? htake
    rw [overwrite_above, observe_of_at? hlevel, observe_of_at? hleft, hbefore, hafter]
    rfl
  · rw [overwrite_of_apart hapart]
    exact observe_congr (at?_of_takeAt?_of_apart hapart h)

/-- Where nothing is, there is nothing to take out. -/
theorem overwrite_nothing {path : List String} {j : Json} (h : j.at? path = none) :
    overwrite path id (fun _ => .nothing) j.observe = j.observe := by
  funext names
  rcases prefix_cases path names with ⟨below, rfl⟩ | ⟨key, below, rfl⟩ | hapart
  · rw [overwrite_below, observe_append_none h]
  · rw [overwrite_above]
    rfl
  · rw [overwrite_of_apart hapart]

end Json

/-! ## Edits -/

namespace Edit

/-- One of the names spells no attribute, or neither path starts with the other. -/
def Unrelated (e f : Edit) : Prop :=
  ∀ p ∈ Path.parse? e.name, ∀ q ∈ Path.parse? f.name, Apart p.segments q.segments

instance : DecidableRel Unrelated := fun e f =>
  inferInstanceAs (Decidable (∀ p ∈ Path.parse? e.name, ∀ q ∈ Path.parse? f.name,
    Apart p.segments q.segments))

theorem Unrelated.symm {e f : Edit} (h : e.Unrelated f) : f.Unrelated e :=
  fun q hq p hp => ⟨(h p hp q hq).2, (h p hp q hq).1⟩

/-- What the edit makes of a level above its attribute. -/
def above : Edit → Json.Sight → Json.Sight
  | set _ _ => fun _ => .object
  | unset _ => id

/-- What the walks on from the attribute see after the edit. -/
def below : Edit → List String → Json.Sight
  | set _ value => value.observe
  | unset _ => fun _ => .nothing

/-- What the walks see after the edit. -/
def act (edit : Edit) (view : List String → Json.Sight) : List String → Json.Sight :=
  match Path.parse? edit.name with
  | none => view
  | some p => Json.overwrite p.segments edit.above edit.below view

/-- Two edits make the same of a view in either order. -/
def Commute (e f : Edit) : Prop :=
  ∀ view, f.act (e.act view) = e.act (f.act view)

instance : Std.Symm Commute := ⟨fun _ _ h view => (h view).symm⟩

/-- Unrelated edits commute. -/
theorem Unrelated.commute {e f : Edit} (h : e.Unrelated f) : e.Commute f := by
  intro view
  cases hp : Path.parse? e.name with
  | none => simp only [act, hp]
  | some p =>
    cases hq : Path.parse? f.name with
    | none => simp only [act, hq]
    | some q =>
      simp only [act, hp, hq]
      refine (Json.overwrite_comm (h p hp q hq) (fun sight => ?_) e.below f.below view).symm
      cases e <;> cases f <;> rfl

/-- What unrelated edits make of a view does not depend on their order. -/
theorem foldl_act_perm {edits order : List Edit} (hunrelated : edits.Pairwise Unrelated)
    (hperm : edits.Perm order) (view : List String → Json.Sight) :
    edits.foldl (fun view edit => edit.act view) view =
      order.foldl (fun view edit => edit.act view) view := by
  have hcommute := (hunrelated.imp Unrelated.commute).forall_of_forall fun _ _ _ => rfl
  exact hperm.foldl_eq' (fun e he f hf view => hcommute he hf view) view

end Edit

namespace Record

theorem observe_apply {r : Record} (hr : r.toJson.Distinct) (edit : Edit) :
    (r.apply edit).2.toJson.observe = edit.act r.toJson.observe := by
  cases edit with
  | set name value =>
    cases hp : Path.parse? name with
    | none =>
      rw [apply_set_of_none hp, Edit.act, Edit.name, hp]
    | some p =>
      obtain ⟨after, happly, hjson⟩ := apply_set_of_some hp r value
      rw [happly, hjson, Edit.act, Edit.name, hp]
      exact Json.observe_setAt value p.segments r.toJson
  | unset name =>
    cases hget : r.get? name with
    | none =>
      rw [apply_unset_of_none hget, Edit.act, Edit.name]
      cases hp : Path.parse? name with
      | none => rfl
      | some p =>
        rw [get?_of_parse? hp] at hget
        exact (Json.overwrite_nothing hget).symm
    | some removed =>
      obtain ⟨p, after, hp, happly, htake⟩ := apply_unset_of_some hget
      rw [happly, Edit.act, Edit.name, hp]
      exact Json.observe_of_takeAt? hr htake

/-- The run of a list of edits, as the walks see it. -/
theorem observe_applyAll {r : Record} (hr : r.toJson.Distinct) {edits : List Edit}
    (hedits : ∀ edit ∈ edits, edit.Distinct) :
    (r.applyAll edits).2.toJson.observe =
      edits.foldl (fun view edit => edit.act view) r.toJson.observe := by
  induction edits generalizing r with
  | nil => rfl
  | cons edit rest ih =>
    obtain ⟨hedit, hrest⟩ := List.forall_mem_cons.mp hedits
    rw [List.foldl_cons, ← observe_apply hr edit]
    exact ih (distinct_apply hedit hr) hrest

/-! ## Answers -/

/-- An unrelated name reads after an edit what it read before. -/
theorem get?_apply_of_unrelated (r : Record) {e f : Edit} (h : e.Unrelated f) :
    (r.apply e).2.get? f.name = r.get? f.name := by
  cases hq : Path.parse? f.name with
  | none => rw [get?, get?, hq, Option.bind_none, Option.bind_none]
  | some q =>
    rw [get?_of_parse? hq, get?_of_parse? hq]
    cases e with
    | set name value =>
      cases hp : Path.parse? name with
      | none => rw [apply_set_of_none hp]
      | some p =>
        obtain ⟨after, happly, hjson⟩ := apply_set_of_some hp r value
        rw [happly, hjson]
        exact Json.at?_setAt_of_apart (h p hp q hq) value r.toJson
    | unset name =>
      cases hget : r.get? name with
      | none => rw [apply_unset_of_none hget]
      | some removed =>
        obtain ⟨p, after, hp, happly, htake⟩ := apply_unset_of_some hget
        rw [happly]
        exact Json.at?_of_takeAt?_of_apart (h p hp q hq) htake

/-- An edit answers what its own attribute tells. -/
theorem answer_congr {r s : Record} {edit : Edit} (h : r.get? edit.name = s.get? edit.name) :
    (r.apply edit).1 = (s.apply edit).1 := by
  cases edit with
  | set name value =>
    cases hp : Path.parse? name with
    | none => rw [apply_set_of_none hp, apply_set_of_none hp]
    | some p =>
      obtain ⟨after, happly, -⟩ := apply_set_of_some hp r value
      obtain ⟨after', happly', -⟩ := apply_set_of_some hp s value
      rw [happly, happly']
  | unset name => rw [answer_unset, answer_unset, show r.get? name = s.get? name from h]

/-- In a run of unrelated edits each answers what it answers at the start. -/
theorem answers_applyAll (r : Record) {edits : List Edit} (h : edits.Pairwise Edit.Unrelated) :
    (r.applyAll edits).1 = edits.map fun edit => (r.apply edit).1 := by
  induction edits generalizing r with
  | nil => rfl
  | cons edit rest ih =>
    obtain ⟨hedit, hrest⟩ := List.pairwise_cons.mp h
    have hsame : ∀ f ∈ rest, ((r.apply edit).2.apply f).1 = (r.apply f).1 := fun f hf =>
      answer_congr (get?_apply_of_unrelated r (hedit f hf))
    rw [List.map_cons, ← List.map_congr_left hsame, ← ih _ hrest]
    rfl

end Record

/-- Pairwise unrelated edits lead to the same record up to the order of members in whatever order
they are done, and each of them answers the same. -/
theorem applyAll_perm {r : Record} (hr : r.toJson.Distinct) {edits order : List Edit}
    (hedits : ∀ edit ∈ edits, edit.Distinct) (hunrelated : edits.Pairwise Edit.Unrelated)
    (hperm : edits.Perm order) :
    (r.applyAll edits).2.toJson.Reordered (r.applyAll order).2.toJson ∧
      ∃ answer : Edit → Edit.Answer,
        (r.applyAll edits).1 = edits.map answer ∧ (r.applyAll order).1 = order.map answer := by
  have horder : ∀ edit ∈ order, edit.Distinct := fun edit hedit =>
    hedits edit (hperm.mem_iff.mpr hedit)
  have hunrelated' : order.Pairwise Edit.Unrelated := hunrelated.perm hperm fun h => h.symm
  refine ⟨?_, _, Record.answers_applyAll r hunrelated, Record.answers_applyAll r hunrelated'⟩
  refine Json.reordered_of_observe (Record.distinct_applyAll hr hedits)
    (Record.distinct_applyAll hr horder) ?_
  rw [Record.observe_applyAll hr hedits, Record.observe_applyAll hr horder]
  exact Edit.foldl_act_perm hunrelated hperm _

/-- Two sets that both have to make an object of the scalar above them, a removal beside them and
a name that spells nothing: done backwards they leave the two new members the other way round, and
every answer is the same. -/
theorem applyAll_perm_below_scalar :
    let r : Record := ⟨[("a", .null), ("k", .object [("u", .null), ("w", .null)])]⟩
    let edits : List Edit := [.set "a.b" .null, .unset "k.u", .set "a..b" .null,
      .set "a.c.d" (.string "x"), .unset "a.e"]
    let order := edits.reverse
    (r.applyAll edits).2.toJson.namesAt ["a"] = ["b", "c"] ∧
      (r.applyAll order).2.toJson.namesAt ["a"] = ["c", "b"] ∧
      (r.applyAll edits).2.toJson.Reordered (r.applyAll order).2.toJson ∧
      ∃ answer : Edit → Edit.Answer,
        (r.applyAll edits).1 = edits.map answer ∧ (r.applyAll order).1 = order.map answer := by
  intro r edits order
  have hr : r.toJson.Distinct := by
    refine .object (by decide) (List.forall_mem_cons.mpr ⟨.null, ?_⟩)
    refine List.forall_mem_singleton.mpr (.object (by decide) ?_)
    exact List.forall_mem_cons.mpr ⟨.null, List.forall_mem_singleton.mpr .null⟩
  have hedits : ∀ edit ∈ edits, edit.Distinct := by
    simp only [edits, List.forall_mem_cons]
    exact ⟨.null, trivial, .null, .string "x", trivial, nofun⟩
  have hunrelated : edits.Pairwise Edit.Unrelated := by decide +kernel
  refine ⟨by decide +kernel, by decide +kernel, ?_⟩
  exact applyAll_perm hr hedits hunrelated (List.reverse_perm edits).symm

end PackedColumn

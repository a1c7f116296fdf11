import PackedColumn.Proofs.Commute
import PackedColumn.Proofs.Constructor
import PackedColumn.Proofs.Leaves

/-!
# A column built at once and written bit by bit

The text that builds the column of a record yields the record without the members in which no scalar
stands (`Sql.exists_eval?_create`). The writes of the flattened record, each evaluated on what the
one before left, store one leaf after the other (`writeEach?_eq`), and a null is stored as nothing,
which may still make a map of what is above it. So the two columns differ in maps without any scalar
in them, and in nothing else: where no path leads on from another, a scalar is read exactly where
one was stored (`walk_storeAll_eq_scalar_iff`), and both columns give the scalars of the record
(`create_agrees_with_writes`).
-/

namespace PackedColumn

namespace Packed

/-! ## Scalars in a tree -/

variable {literal type : Option String} {value t : Option Packed} {ks qs : List String}

/-- Below a scalar there is nothing. -/
theorem walk_scalar (key : String) (rest : List String) :
    walk (key :: rest) (some (.scalar literal type)) = none := walk_none rest

/-- What stands above a stored value is a map. -/
theorem exists_map_of_store (value : Option Packed) (above : List String) (key : String)
    (below : List String) (t : Option Packed) :
    ∃ entries, walk above (store value (above ++ key :: below) t) = some (.map entries) := by
  induction above generalizing t with
  | nil => exact ⟨_, rfl⟩
  | cons name rest ih =>
    rw [List.cons_append, store, walk_cons, entry_put, if_pos rfl]
    exact ih _

/-- Keys are not apart from keys that they start with. -/
theorem not_apart_append (ks below : List String) : ¬ Apart ks (ks ++ below) :=
  fun h => h.1 (List.prefix_append ks below)

/-- A scalar is read where a scalar was stored, and elsewhere where one was before. -/
theorem walk_store_eq_scalar_iff (hvalue : ∀ entries, value ≠ some (.map entries)) :
    walk qs (store value ks t) = some (.scalar literal type) ↔
      (qs = ks ∧ value = some (.scalar literal type)) ∨
        (Apart ks qs ∧ walk qs t = some (.scalar literal type)) := by
  rcases Json.prefix_cases ks qs with ⟨below, rfl⟩ | ⟨key, below, rfl⟩ | hapart
  · have hno := not_apart_append ks below
    rw [walk_store_append]
    cases below with
    | nil =>
      rw [List.append_nil] at hno ⊢
      simp [walk, hno]
    | cons key below =>
      have hnone : walk (key :: below) value = none := by
        match value, hvalue with
        | none, _ => exact walk_none _
        | some (.scalar _ _), _ => exact walk_scalar key below
        | some (.map entries), hvalue => exact (hvalue entries rfl).elim
      simp [hnone, hno]
  · have hno : ¬ Apart (qs ++ key :: below) qs :=
      fun h => not_apart_append qs (key :: below) ⟨h.2, h.1⟩
    obtain ⟨entries, hmap⟩ := exists_map_of_store value qs key below t
    simp [hmap, hno]
  · have hne : qs ≠ ks := by
      rintro rfl
      exact hapart.1 (List.prefix_refl _)
    rw [walk_store_of_apart hapart]
    simp [hne, hapart]

/-- The tree with each of the values stored at the end of its path, one after the other. -/
def storeAll (values : List (List String × Option Packed)) (t : Option Packed) : Option Packed :=
  values.foldl (fun t e => store e.2 e.1 t) t

/-- Of values that are stored apart from each other each scalar is read where it was stored, and
where nothing was stored above or below it a scalar is read that was there before. -/
theorem walk_storeAll_eq_scalar_iff {values : List (List String × Option Packed)}
    (hapart : values.Pairwise fun a b => Apart a.1 b.1)
    (hvalues : ∀ e ∈ values, ∀ entries, e.2 ≠ some (.map entries)) :
    walk qs (storeAll values t) = some (.scalar literal type) ↔
      (qs, some (.scalar literal type)) ∈ values ∨
        ((∀ e ∈ values, Apart e.1 qs) ∧ walk qs t = some (.scalar literal type)) := by
  induction values generalizing t with
  | nil => simp [storeAll]
  | cons e rest ih =>
    obtain ⟨he, hrest⟩ := List.pairwise_cons.mp hapart
    obtain ⟨hvalue, hothers⟩ := List.forall_mem_cons.mp hvalues
    rw [storeAll, List.foldl_cons, ← storeAll, ih hrest hothers, walk_store_eq_scalar_iff hvalue,
      List.forall_mem_cons, List.mem_cons]
    constructor
    · rintro (hmem | ⟨hall, ⟨rfl, hscalar⟩ | ⟨hfirst, hwalk⟩⟩)
      · exact .inl (.inr hmem)
      · exact .inl (.inl (by rw [← hscalar]))
      · exact .inr ⟨⟨hfirst, hall⟩, hwalk⟩
    · rintro ((rfl | hmem) | ⟨⟨hfirst, hall⟩, hwalk⟩)
      · exact .inr ⟨fun b hb => ⟨(he b hb).2, (he b hb).1⟩, .inl ⟨rfl, rfl⟩⟩
      · exact .inl hmem
      · exact .inr ⟨hall, .inr ⟨hfirst, hwalk⟩⟩

end Packed

namespace Json

/-! ## Scalars in a pruned value -/

theorem membersHoldScalar_iff {ms : Entries Json} :
    membersHoldScalar ms ↔ ∃ m ∈ ms, m.2.holdsScalar := by
  induction ms with
  | nil => simp [membersHoldScalar]
  | cons m rest ih =>
    rw [membersHoldScalar, Bool.or_eq_true, ih, List.exists_mem_cons_iff]

/-- Where a scalar stands, the value at hand holds one. -/
theorem holdsScalar_of_at? {names : List String} {j : Json} {s : Scalar}
    (h : (j.at? names).bind scalar? = some s) : j.holdsScalar := by
  induction names generalizing j with
  | nil =>
    have hs : j.scalar? = some s := h
    rw [holdsScalar, hs]
    · rfl
    · exact ne_object_of_scalar? hs
  | cons name rest ih =>
    rw [at?_cons, Option.bind_assoc] at h
    obtain ⟨child, hget, hchild⟩ := Option.bind_eq_some_iff.mp h
    cases j with
    | object ms => exact membersHoldScalar_iff.mpr ⟨_, Entries.mem_of_get? hget, ih hchild⟩
    | null | bool | number | string | array => cases hget

/-- A member is left, pruned, if it holds a scalar. -/
theorem get?_pruneMembers {ms : Entries Json} (hnodup : (Entries.names ms).Nodup) (key : String) :
    Entries.get? key (pruneMembers ms) =
      ((Entries.get? key ms).filter holdsScalar).map prune := by
  induction ms with
  | nil => rw [pruneMembers]; rfl
  | cons m rest ih =>
    obtain ⟨hfirst, hnodup⟩ := List.nodup_cons.mp hnodup
    rw [pruneMembers, Entries.get?]
    by_cases hkey : m.1 = key
    · rw [if_pos hkey]
      by_cases hholds : m.2.holdsScalar
      · rw [if_pos hholds, Entries.get?, if_pos hkey, Option.filter_some_pos hholds]
        rfl
      · subst hkey
        rw [if_neg hholds, ih hnodup, Entries.get?_eq_none hfirst]
        simp [Option.filter, hholds]
    · rw [if_neg hkey, ← ih hnodup]
      split
      · rw [Entries.get?, if_neg hkey]
      · rfl

theorem members_prune (j : Json) : j.prune.members = pruneMembers j.members := by
  cases j with
  | object ms => rw [prune]; rfl
  | null | bool | number | string | array => rfl

/-- The same scalars stand in a value and in what is left of it. -/
theorem at?_prune {j : Json} (hj : j.Distinct) (names : List String) :
    (j.prune.at? names).bind scalar? = (j.at? names).bind scalar? := by
  induction names generalizing j with
  | nil => cases j <;> rfl
  | cons name rest ih =>
    rw [at?_cons, at?_cons, members_prune, get?_pruneMembers hj.nodup_members]
    cases hget : Entries.get? name j.members with
    | none => rfl
    | some child =>
      by_cases hholds : child.holdsScalar
      · rw [Option.filter_some_pos hholds]
        exact ih (hj.of_get? hget)
      · have hnone : (child.at? rest).bind scalar? = none := by
          cases hscalar : (child.at? rest).bind scalar? with
          | none => rfl
          | some s => exact (hholds (holdsScalar_of_at? hscalar)).elim
        simp [Option.filter, hholds, hnone]

/-- Every value in a full value is full. -/
theorem Full.of_at? {j v : Json} (hj : j.Full) {names : List String}
    (h : j.at? names = some v) : v.Full := by
  induction names generalizing j with
  | nil => exact Option.some.inj h ▸ hj
  | cons name rest ih =>
    rw [at?_cons] at h
    obtain ⟨child, hget, hchild⟩ := Option.bind_eq_some_iff.mp h
    cases hj with
    | scalar hs =>
      cases j with
      | object ms => cases hs
      | null | bool | number | string | array => cases hget
    | object _ hms => exact ih (hms _ (Entries.mem_of_get? hget)) hchild

end Json

/-! ## Building -/

namespace Content

open Json

variable (d : Dialect)

/-- The map that the entries for some members make is the tree of the object. -/
theorem packedEntries_ofMembers {ms : Entries Json}
    (h : ∀ m ∈ ms, (ofJson d m.2).packed = Packed.ofJson d m.2) :
    packedEntries (ofMembers d ms) = Packed.ofMembers d ms := by
  funext key
  induction ms with
  | nil => rw [ofMembers, packedEntries, Packed.ofMembers]
  | cons m rest ih =>
    obtain ⟨hm, hrest⟩ := List.forall_mem_cons.mp h
    rw [ofMembers, packedEntries, Packed.ofMembers, hm, ih hrest]

/-- The content of an entry for a full value is its tree. -/
theorem packed_ofJson {j : Json} (hfull : j.Full) : (ofJson d j).packed = Packed.ofJson d j := by
  induction hfull with
  | scalar hs =>
    rw [ofJson_of_scalar? d hs, packed, ← Option.some_inj, Packed.ofJson_of_scalar? d hs]
    rfl
  | object _ _ ih => rw [ofJson, packed, packedEntries_ofMembers d ih, Packed.ofJson]

end Content

namespace Sql

open Json Packed

variable {d : Dialect} {column : String} {t : Option Packed}

theorem eval?_null : eval? d column t "NULL" = some none := by
  have hlength : "NULL".toList.length = 3 + 1 := rfl
  rw [eval?, hlength, evalText?, if_pos rfl]

/-- A constructor of full members yields the tree of the object. -/
theorem eval?_create (hd : d.Legible) {ms : Entries Json} (hne : ms ≠ [])
    (hfull : ∀ m ∈ ms, m.2.Full) :
    eval? d column t ((Expr.create (Expr.builtPairs ms)).render d) =
      some (some (ofJson d (.object ms))) := by
  have hread := Constructor.read?_create hd hne hfull
  have hnull := Constructor.render_create_ne_null (d := d) (Expr.builtPairs ms)
  have htext := Constructor.toList_render_create (d := d) (Expr.builtPairs ms)
  generalize (Expr.create (Expr.builtPairs ms)).render d = sql at hread hnull htext ⊢
  have hlong : sql.toList.length ≠ 0 := by
    rw [htext]
    simp
  obtain ⟨fuel, hfuel⟩ := Nat.exists_eq_add_one_of_ne_zero hlong
  have hcall : call? sql.toList =
      some (d.createFunction.toList, Constructor.entriesText d (Expr.builtPairs ms)) := by
    rw [htext, List.append_assoc]
    exact call?_append (hd.not_mem_paren _ (by simp [Dialect.functions])) _
  rw [eval?, hfuel, evalText?, if_neg fun h => hnull (String.toList_inj.mp h), hcall,
    Option.bind_some]
  dsimp only
  rw [if_pos rfl, String.ofList_toList, hread, Option.map_some, ofJson,
    Content.packedEntries_ofMembers d fun m hm => Content.packed_ofJson d (hfull m hm)]

variable (column t) in
/-- The text that builds a column yields what is left of the members. Where no scalar stands in them
it yields nothing, which no walk tells from a map without entries. -/
theorem exists_eval?_create (hd : d.Legible) {ms : Entries Json}
    (harray : (Json.object ms).ArrayFree) : ∃ sql built, Access.create d ms = .ok sql ∧
      eval? d column t sql = some built ∧ ∀ key rest, walk (key :: rest) built =
        ((Json.object ms).prune.at? (key :: rest)).map (ofJson d) := by
  rw [Access.create, Expr.ofMembers_eq harray, prune]
  by_cases hholds : (Json.object ms).holdsScalar
  · have hne : pruneMembers ms ≠ [] := by
      rw [Ne, pruneMembers_eq_nil_iff, Bool.not_eq_false]
      exact hholds
    rw [if_pos hholds]
    exact ⟨_, _, rfl, eval?_create hd hne (full_of_mem_pruneMembers harray),
      fun key rest => walk_ofJson d (key :: rest) _⟩
  · have hempty : pruneMembers ms = [] :=
      pruneMembers_eq_nil_iff.mpr (Bool.eq_false_iff.mpr hholds)
    rw [if_neg hholds, hempty]
    exact ⟨_, _, rfl, eval?_null, fun key rest => walk_none rest⟩

end Sql

/-! ## Writing leaf by leaf -/

namespace Packed

variable (d : Dialect) (column : String)

/-- What a column holds after each of the values has been written under its dotted name, one after
the other: each write is evaluated on what the one before it left. -/
def writeEach? : Entries Json → Option Packed → Option (Option Packed)
  | [], t => some t
  | (name, j) :: rest, t =>
    (Value.ofJson name j).toOption.bind fun v =>
      (Access.writeNamed d column name v none).outcome.toOption.bind fun sql =>
        (Sql.eval? d column t sql).bind (writeEach? rest)

/-- What is stored of a leaf: a scalar as it is written without a type, and nothing of a null. -/
def ofLeaf (leaf : Json) : Option Packed :=
  leaf.scalar?.map fun s =>
    .scalar (some (s.literal d)) (some (s.defaultType.render d.typeCase))

/-- A leaf that is no array has a value to write. -/
theorem exists_value_of_leaf {j : Json} (harray : j.ArrayFree) (hleaf : ∀ ms, j ≠ .object ms)
    (name : String) :
    ∃ v, Value.ofJson name j = .ok v ∧ v.stored d none = ofLeaf d j := by
  cases harray with
  | null => exact ⟨.null, rfl, rfl⟩
  | bool b => exact ⟨.scalar (.bool b), rfl, rfl⟩
  | number n => exact ⟨.scalar (.ofNumber n), rfl, rfl⟩
  | string s => exact ⟨.scalar (.text s), rfl, rfl⟩
  | object h => exact (hleaf _ rfl).elim

variable {d column}

/-- A write that gives a text, and a text that can be read. -/
theorem writeEach?_cons {name sql : String} {j : Json} {v : Value} {t t' : Option Packed}
    (hv : Value.ofJson name j = .ok v)
    (hwrite : (Access.writeNamed d column name v none).outcome = .ok sql)
    (hread : Sql.eval? d column t sql = some t') (rest : Entries Json) :
    writeEach? d column ((name, j) :: rest) t = writeEach? d column rest t' := by
  have hvalue : (Value.ofJson name j).toOption = some v := by rw [hv]; rfl
  have hsql : (Access.writeNamed d column name v none).outcome.toOption = some sql := by
    rw [hwrite]; rfl
  rw [writeEach?, hvalue, Option.bind_some, hsql, Option.bind_some, hread, Option.bind_some]

variable (column) in
/-- Leaves that are written under the dotted names of their paths are stored at their paths. -/
theorem writeEach?_eq (hd : d.Legible) {leaves : List (List String × Json)}
    (hpaths : ∀ leaf ∈ leaves,
      ∃ p, Path.parse? (Record.dotted leaf).1 = some p ∧ p.segments = leaf.1)
    (hvalues : ∀ leaf ∈ leaves, leaf.2.ArrayFree ∧ ∀ ms, leaf.2 ≠ .object ms) (t : Option Packed) :
    writeEach? d column (leaves.map Record.dotted) t =
      some (storeAll (leaves.map fun leaf => (leaf.1, ofLeaf d leaf.2)) t) := by
  induction leaves generalizing t with
  | nil => rfl
  | cons leaf rest ih =>
    obtain ⟨⟨p, hp, hsegments⟩, hpaths⟩ := List.forall_mem_cons.mp hpaths
    obtain ⟨⟨harray, hleaf⟩, hvalues⟩ := List.forall_mem_cons.mp hvalues
    obtain ⟨v, hv, hstored⟩ := exists_value_of_leaf d harray hleaf (Record.dotted leaf).1
    have hfirst : Sql.eval? d column t (Access.write d column p v none).value =
        some (store (ofLeaf d leaf.2) leaf.1 t) := by
      rw [Sql.eval?_write hd, hstored, hsegments]
    exact (writeEach?_cons hv (Access.outcome_writeNamed d column hp v none) hfirst _).trans
      (ih hpaths hvalues _)

end Packed

/-! ## The two columns -/

namespace Json

theorem ArrayFree.of_at? {j v : Json} (hj : j.ArrayFree) {names : List String}
    (h : j.at? names = some v) : v.ArrayFree := by
  induction names generalizing j with
  | nil => exact Option.some.inj h ▸ hj
  | cons name rest ih =>
    rw [at?_cons] at h
    obtain ⟨child, hget, hchild⟩ := Option.bind_eq_some_iff.mp h
    cases hj with
    | object hms => exact ih (hms _ (Entries.mem_of_get? hget)) hchild
    | null | bool | number | string => cases hget

/-- Along a path a scalar stands in the value that has this literal and this type. -/
def ScalarAt (d : Dialect) (j : Json) (names : List String) (literal type : Option String) : Prop :=
  ∃ s, (j.at? names).bind scalar? = some s ∧ literal = some (s.literal d) ∧
    type = some (s.defaultType.render d.typeCase)

end Json

namespace Packed

open Json

variable (d : Dialect) {literal type : Option String}

theorem ofLeaf_eq_scalar_iff {j : Json} : ofLeaf d j = some (.scalar literal type) ↔
    ∃ s, j.scalar? = some s ∧ literal = some (s.literal d) ∧
      type = some (s.defaultType.render d.typeCase) := by
  unfold ofLeaf
  rw [Option.map_eq_some_iff]
  refine exists_congr fun s => and_congr_right fun _ => ?_
  rw [Packed.scalar.injEq]
  exact and_congr eq_comm eq_comm

theorem ofLeaf_ne_map (j : Json) (entries : String → Option Packed) :
    ofLeaf d j ≠ some (.map entries) := by
  unfold ofLeaf
  cases j.scalar? <;> exact nofun

theorem ofJson_eq_scalar_iff {j : Json} (hj : j.Full) :
    some (ofJson d j) = some (.scalar literal type) ↔
      ∃ s, j.scalar? = some s ∧ literal = some (s.literal d) ∧
        type = some (s.defaultType.render d.typeCase) := by
  cases hj with
  | scalar hs =>
    have hleaf : some (ofJson d j) = ofLeaf d j := by
      rw [ofJson_of_scalar? d hs, ofLeaf, hs]
      rfl
    rw [hleaf]
    exact ofLeaf_eq_scalar_iff d
  | object =>
    rw [ofJson]
    constructor
    · intro h
      cases h
    · rintro ⟨s, hs, -⟩
      cases hs

/-- The scalars of the column that is built are those of the members. -/
theorem walk_created_iff {ms : Entries Json} (hms : (Json.object ms).Distinct)
    (harray : (Json.object ms).ArrayFree) {built : Option Packed}
    (hbuilt : ∀ key rest,
      walk (key :: rest) built = ((Json.object ms).prune.at? (key :: rest)).map (ofJson d))
    {names : List String} (hne : names ≠ []) :
    walk names built = some (.scalar literal type) ↔
      (Json.object ms).ScalarAt d names literal type := by
  obtain ⟨key, rest, rfl⟩ := List.exists_cons_of_ne_nil hne
  rw [hbuilt, ScalarAt, ← at?_prune hms]
  cases hat : (Json.object ms).prune.at? (key :: rest) with
  | none => exact ⟨nofun, nofun⟩
  | some v =>
    have hv : v.Full := by
      rw [prune, at?_cons] at hat
      obtain ⟨child, hget, hchild⟩ := Option.bind_eq_some_iff.mp hat
      exact (full_of_mem_pruneMembers harray _ (Entries.mem_of_get? hget)).of_at? hchild
    exact ofJson_eq_scalar_iff d hv

/-- The scalars of the column in which all leaves are stored are those of the value. -/
theorem walk_written_iff {j : Json} (hj : j.Distinct) (names : List String) :
    walk names (storeAll (j.leafPaths.map fun leaf => (leaf.1, ofLeaf d leaf.2)) none) =
        some (.scalar literal type) ↔ j.ScalarAt d names literal type := by
  have hapart : (j.leafPaths.map fun leaf => (leaf.1, ofLeaf d leaf.2)).Pairwise
      fun a b => Apart a.1 b.1 := List.pairwise_map.mpr (pairwise_apart_leafPaths hj)
  have hvalues : ∀ e ∈ j.leafPaths.map fun leaf => (leaf.1, ofLeaf d leaf.2),
      ∀ entries, e.2 ≠ some (.map entries) := by
    intro e he
    obtain ⟨leaf, -, rfl⟩ := List.mem_map.mp he
    exact ofLeaf_ne_map d leaf.2
  rw [walk_storeAll_eq_scalar_iff hapart hvalues, walk_none]
  constructor
  · rintro (hmem | ⟨-, hnone⟩)
    · obtain ⟨⟨path, v⟩, hleaf, heq⟩ := List.mem_map.mp hmem
      obtain ⟨rfl, hv⟩ := Prod.mk.inj heq
      obtain ⟨hat, -⟩ := (mem_leafPaths_iff hj).mp hleaf
      rw [ScalarAt, hat]
      exact (ofLeaf_eq_scalar_iff d).mp hv
    · cases hnone
  · rintro ⟨s, hs, hliteral, htype⟩
    obtain ⟨v, hat, hv⟩ := Option.bind_eq_some_iff.mp hs
    have hleaf := (mem_leafPaths_iff hj).mpr ⟨hat, ne_object_of_scalar? hv⟩
    have hstored := (ofLeaf_eq_scalar_iff d).mpr ⟨s, hv, hliteral, htype⟩
    exact .inl (List.mem_map.mpr ⟨_, hleaf, by rw [hstored]⟩)

end Packed

/-- The column that is built of a record at once, and the column that comes of writing the flattened
record name by name from nothing on, give the same scalar, with the same literal and of the same
type, under each dotted name, and these are the scalars of the record. -/
theorem create_agrees_with_writes (d : Dialect) (hd : d.Legible) (column : String) {r : Record}
    (hr : r.toJson.Distinct) (harray : r.toJson.ArrayFree) (hnames : r.toJson.PlainNames) :
    ∃ sql built written, r.create d = .ok sql ∧ Sql.eval? d column none sql = some built ∧
      Packed.writeEach? d column r.flatten none = some written ∧
      ∀ name p, Path.parse? name = some p →
        ∃ text inBuilt inWritten, (Access.readNamed d column name none).outcome = .ok text ∧
          Sql.eval? d column built text = some inBuilt ∧
          Sql.eval? d column written text = some inWritten ∧
          ∀ literal type,
            (inBuilt = some (.scalar literal type) ↔ inWritten = some (.scalar literal type)) ∧
            (inWritten = some (.scalar literal type) ↔
              ∃ s, (r.get? name).bind Json.scalar? = some s ∧ literal = some (s.literal d) ∧
                type = some (s.defaultType.render d.typeCase)) := by
  have hleaves : ∀ leaf ∈ r.toJson.leafPaths,
      leaf.2.ArrayFree ∧ ∀ ms, leaf.2 ≠ .object ms := by
    intro leaf hleaf
    obtain ⟨hat, hobject⟩ := (Json.mem_leafPaths_iff hr).mp hleaf
    exact ⟨harray.of_at? hat, hobject⟩
  have hwritten := Packed.writeEach?_eq column hd
    (fun leaf hleaf => Record.parse?_of_mem_leafPaths hnames hleaf) hleaves none
  rw [← Record.flatten_eq hr hnames] at hwritten
  obtain ⟨sql, built, hcreate, hread, hbuilt⟩ :=
    Sql.exists_eval?_create column none hd harray
  refine ⟨sql, built, _, hcreate, hread, hwritten, fun name p hp => ?_⟩
  refine ⟨_, _, _, Access.outcome_readNamed d column hp none, Sql.eval?_read hd p _,
    Sql.eval?_read hd p _, fun literal type => ?_⟩
  rw [Packed.walk_written_iff d hr, Packed.walk_created_iff d hr harray hbuilt p.segments_ne_nil,
    Record.get?_of_parse? hp]
  exact ⟨Iff.rfl, Iff.rfl⟩

/-- A truth value stands beside a null and an object of nothing but a null. -/
theorem create_agrees_with_writes_beside_null :
    let r : Record :=
      ⟨[("a", .object [("n", .null)]), ("b", .object [("z", .null), ("c", .bool true)])]⟩
    let stored : Packed := .scalar (some "1") (some "INTEGER")
    Dialect.default.Legible ∧ r.toJson.Distinct ∧ r.toJson.ArrayFree ∧ r.toJson.PlainNames ∧
      ∃ sql built written text, r.create .default = .ok sql ∧
        Sql.eval? .default "s" none sql = some built ∧
        Packed.writeEach? .default "s" r.flatten none = some written ∧
        (Access.readNamed .default "s" "b.c" none).outcome = .ok text ∧
        Sql.eval? .default "s" built text = some (some stored) ∧
        Sql.eval? .default "s" written text = some (some stored) := by
  intro r stored
  have hr : r.toJson.Distinct := by
    refine .object (by decide) (List.forall_mem_cons.mpr ⟨?_, List.forall_mem_singleton.mpr ?_⟩)
    · exact .object (by decide) (List.forall_mem_singleton.mpr .null)
    · refine .object (by decide) (List.forall_mem_cons.mpr ⟨.null, ?_⟩)
      exact List.forall_mem_singleton.mpr (.bool true)
  have harray : r.toJson.ArrayFree := by
    refine .object (List.forall_mem_cons.mpr ⟨?_, List.forall_mem_singleton.mpr ?_⟩)
    · exact .object (List.forall_mem_singleton.mpr .null)
    · exact .object (List.forall_mem_cons.mpr ⟨.null, List.forall_mem_singleton.mpr (.bool true)⟩)
  have hnames : r.toJson.PlainNames := by
    refine .object (by decide) (List.forall_mem_cons.mpr ⟨?_, List.forall_mem_singleton.mpr ?_⟩)
    · exact .object (by decide) (List.forall_mem_singleton.mpr (.leaf nofun))
    · refine .object (by decide) (List.forall_mem_cons.mpr ⟨.leaf nofun, ?_⟩)
      exact List.forall_mem_singleton.mpr (.leaf nofun)
  have hp : Path.parse? "b.c" = some ⟨["b", "c"], by decide, by decide⟩ := by decide +kernel
  have hget : (r.get? "b.c").bind Json.scalar? = some (.bool true) := by
    rw [Record.get?_of_parse? hp]
    rfl
  obtain ⟨sql, built, written, hcreate, hbuilt, hwrites, hreads⟩ :=
    create_agrees_with_writes .default Dialect.legible_default "s" hr harray hnames
  obtain ⟨text, inBuilt, inWritten, htext, hinBuilt, hinWritten, hscalars⟩ := hreads "b.c" _ hp
  obtain ⟨hsame, hscalar⟩ := hscalars (some "1") (some "INTEGER")
  obtain rfl : inWritten = some stored := hscalar.mpr ⟨_, hget, rfl, rfl⟩
  obtain rfl : inBuilt = some stored := hsame.mpr rfl
  exact ⟨Dialect.legible_default, hr, harray, hnames, sql, built, written, text, hcreate, hbuilt,
    hwrites, htext, hinBuilt, hinWritten⟩

end PackedColumn

import PackedColumn.Proofs.Flatten

/-!
# The array that no column can hold

A column is built of every tree of attributes in which no array can be reached through objects. The
building stops at the first array that is stored, whatever else the tree holds, and names it
(`Expr.stopsAt_ofMember`, `Expr.stopsAt_pairsOf`).

The name is put together on the way down by a rule of its own, `Expr.memberName`, under which an
empty name counts as that of the whole column. Only the empty keys at the start of a path are lost
by it (`Expr.foldl_memberName`), so the name is the dotted name of the path, under which the
flattened record lists the array, unless the path starts with an empty key and goes on
(`Path.joined_dropWhile_eq_iff`, `create_misnames_below_empty_key`).
-/

namespace PackedColumn

namespace Entries

variable {α : Type} {key : String}

/-- Collecting entries of other names leaves the value of a name. -/
theorem get?_foldl_put {es : List (String × α)} (h : ∀ e ∈ es, e.1 ≠ key) (acc : Entries α) :
    get? key (es.foldl (fun acc e => put e.1 e.2 acc) acc) = get? key acc := by
  induction es generalizing acc with
  | nil => rfl
  | cons e rest ih =>
    obtain ⟨he, hrest⟩ := List.forall_mem_cons.mp h
    rw [List.foldl_cons, ih hrest, get?_put, if_neg he.symm]

/-- The last entry of a name is the one that is collected. -/
theorem get?_collect {after : List (String × α)} (h : ∀ e ∈ after, e.1 ≠ key)
    (before : List (String × α)) (value : α) :
    get? key (collect (before ++ (key, value) :: after)) = some value := by
  rw [collect, List.foldl_append, List.foldl_cons, get?_foldl_put h, get?_put, if_pos rfl]

end Entries

namespace Json

/-- Whether the value is an array. -/
def isArray : Json → Bool
  | .array _ => true
  | _ => false

theorem isArray_iff {j : Json} : j.isArray ↔ ∃ items, j = .array items := by
  cases j <;> simp [isArray]

/-- The first array among leaves, as the path that leads to it. -/
def firstArray? (leaves : List (List String × Json)) : Option (List String) :=
  (leaves.find? fun leaf => leaf.2.isArray).map (·.1)

theorem firstArray?_append (leaves more : List (List String × Json)) :
    firstArray? (leaves ++ more) = (firstArray? leaves).or (firstArray? more) := by
  unfold firstArray?
  rw [List.find?_append, Option.map_or]

theorem firstArray?_under (key : String) (leaves : List (List String × Json)) :
    firstArray? (leaves.map (under key)) = (firstArray? leaves).map (key :: ·) := by
  unfold firstArray?
  rw [List.find?_map, Option.map_map, Option.map_map]
  rfl

/-- The first array is found by what stands in front of it: leaves that are none. -/
theorem firstArray?_eq_some_iff {leaves : List (List String × Json)} {path : List String} :
    firstArray? leaves = some path ↔ ∃ before items after,
      leaves = before ++ (path, .array items) :: after ∧
        ∀ leaf ∈ before, ∀ others, leaf.2 ≠ .array others := by
  have hnone (j : Json) : (!j.isArray) = true ↔ ∀ others, j ≠ .array others := by
    rw [Bool.not_eq_true', Bool.eq_false_iff, Ne, isArray_iff, not_exists]
  unfold firstArray?
  simp only [Option.map_eq_some_iff, List.find?_eq_some_iff_append, hnone]
  constructor
  · rintro ⟨⟨_, j⟩, ⟨harray, before, after, rfl, hbefore⟩, rfl⟩
    obtain ⟨items, rfl⟩ := isArray_iff.mp harray
    exact ⟨before, items, after, rfl, hbefore⟩
  · rintro ⟨before, items, after, rfl, hbefore⟩
    exact ⟨_, ⟨rfl, before, after, rfl, hbefore⟩, rfl⟩

/-- No array is found where none can be reached. -/
theorem firstArray?_eq_none_iff {j : Json} (hj : j.Distinct) :
    firstArray? j.leafPaths = none ↔ ∀ path items, j.at? path ≠ some (.array items) := by
  unfold firstArray?
  rw [Option.map_eq_none_iff, List.find?_eq_none]
  constructor
  · intro h path items hat
    exact h _ ((mem_leafPaths_iff hj).mpr ⟨hat, nofun⟩) rfl
  · rintro h ⟨path, leaf⟩ hmem harray
    obtain ⟨items, rfl⟩ := isArray_iff.mp harray
    exact h path items ((mem_leafPaths_iff hj).mp hmem).1

end Json

namespace Expr

open Json

/-! ## Where the building stops -/

/-- What is built below the name `outer` fails for the array at the end of the path, or does not
fail where there is none. -/
def StopsAt {α : Type} (outer : String) (built : Except CompileError α) :
    Option (List String) → Prop
  | some path => built = .error (.unsupportedValue (path.foldl memberName outer) .array)
  | none => ∃ result, built = .ok result

variable {α β : Type} {outer : String} {built : Except CompileError α}
  {path? : Option (List String)}

theorem StopsAt.map (h : StopsAt outer built path?) (f : α → β) :
    StopsAt outer (built.map f) path? := by
  cases path? with
  | some path =>
    obtain rfl : built = _ := h
    rfl
  | none =>
    obtain ⟨result, rfl⟩ := h
    exact ⟨f result, rfl⟩

/-- The array in a member comes before any in what is built after it. -/
theorem StopsAt.bind {key : String} (h : StopsAt (memberName outer key) built path?)
    {f : α → Except CompileError β} {next? : Option (List String)}
    (hnext : ∀ result, StopsAt outer (f result) next?) :
    StopsAt outer (built.bind f) ((path?.map (key :: ·)).or next?) := by
  cases path? with
  | some path =>
    obtain rfl : built = _ := h
    rfl
  | none =>
    obtain ⟨result, rfl⟩ := h
    exact hnext result

theorem stopsAt_pairsOf {ms : Entries Json}
    (h : ∀ m ∈ ms, ∀ name, StopsAt name (ofMember name m.2) (firstArray? m.2.leafPaths))
    (outer : String) : StopsAt outer (pairsOf outer ms) (firstArray? (memberPaths ms)) := by
  induction ms with
  | nil =>
    rw [pairsOf, memberPaths]
    exact ⟨[], rfl⟩
  | cons m rest ih =>
    obtain ⟨hm, hrest⟩ := List.forall_mem_cons.mp h
    rw [pairsOf, memberPaths, firstArray?_append, firstArray?_under]
    exact (hm _).bind fun _ => (ih hrest).map _

/-- A member is built, or the building stops at the first array in it. -/
theorem stopsAt_ofMember (j : Json) (name : String) :
    StopsAt name (ofMember name j) (firstArray? j.leafPaths) := by
  induction j using leaf_induct generalizing name with
  | leaf j hj =>
    rw [leafPaths_of_leaf hj]
    cases j with
    | object ms => exact (hj ms rfl).elim
    | array items => rfl
    | null | bool | number | string => exact ⟨_, rfl⟩
  | object ms ih =>
    rw [ofMember, leafPaths]
    exact (stopsAt_pairsOf ih name).map _

/-! ## The name of the array -/

/-- Below a name the keys are joined to it. -/
theorem foldl_memberName_of_ne (path : List String) (h : outer ≠ "") :
    path.foldl memberName outer = Path.joined (outer :: path) := by
  induction path generalizing outer with
  | nil => exact (Path.joined_singleton outer).symm
  | cons key rest ih =>
    have hname : memberName outer key = outer ++ "." ++ key := if_neg (by simpa using h)
    rw [List.foldl_cons, hname, ih (by simp)]
    -- The key is joined to the name either way, with or without keys behind it.
    unfold Path.joined
    cases rest with
    | nil => rw [String.intercalate_singleton, String.intercalate_cons_cons,
        String.intercalate_singleton]
    | cons next rest =>
      rw [String.intercalate_cons_cons, String.intercalate_cons_cons, String.intercalate_cons_cons]
      simp only [String.append_assoc]

/-- The empty keys at the start of a path have no part in the name. -/
theorem foldl_memberName (path : List String) :
    path.foldl memberName "" = Path.joined (path.dropWhile (· = "")) := by
  induction path with
  | nil => rfl
  | cons key rest ih =>
    have hname : memberName "" key = key := rfl
    rw [List.foldl_cons, hname, List.dropWhile_cons]
    by_cases hkey : key = ""
    · rw [if_pos (by simpa using hkey), hkey, ih]
    · rw [if_neg (by simpa using hkey), foldl_memberName_of_ne rest hkey]

end Expr

namespace Path

theorem length_joined_le {keys path : List String} (h : keys <:+ path) :
    (joined keys).length ≤ (joined path).length := by
  obtain ⟨above, rfl⟩ := h
  by_cases habove : above = []
  · rw [habove, List.nil_append]
  · by_cases hkeys : keys = []
    · rw [hkeys]
      exact Nat.zero_le _
    · unfold joined
      rw [String.intercalate_append_of_ne_nil habove hkeys, String.length_append]
      exact Nat.le_add_left _ _

/-- The dotted name is kept without the empty keys at the start of the path, unless there is one and
the path goes on. -/
theorem joined_dropWhile_eq_iff (path : List String) :
    joined (path.dropWhile (· = "")) = joined path ↔ (path.head? = some "" → path = [""]) := by
  cases path with
  | nil => exact ⟨nofun, fun _ => rfl⟩
  | cons key rest =>
    by_cases hkey : key = ""
    · subst hkey
      rw [List.dropWhile_cons, if_pos (decide_eq_true rfl)]
      cases rest with
      | nil => exact ⟨fun _ _ => rfl, fun _ => rfl⟩
      | cons next rest =>
        refine ⟨fun h => ?_, fun h => nomatch h rfl⟩
        -- The dot behind the empty key makes the name longer than anything without it.
        have hle := length_joined_le (List.dropWhile_suffix (· = "") (l := next :: rest))
        have hlength :
            (joined ("" :: next :: rest)).length = 1 + (joined (next :: rest)).length := by
          unfold joined
          rw [String.intercalate_cons_cons, String.length_append]
          rfl
        rw [h, hlength] at hle
        omega
    · rw [List.dropWhile_cons, if_neg (by simpa using hkey)]
      exact ⟨fun _ h => (hkey (Option.some.inj h)).elim, fun _ => rfl⟩

end Path

namespace Record

variable {r : Record}

/-- The column of a record is built, or the building stops at the first array in it. -/
theorem stopsAt_create (r : Record) (d : Dialect) :
    Expr.StopsAt "" (r.create d) (Json.firstArray? r.toJson.leafPaths) :=
  ((Expr.stopsAt_pairsOf (fun m _ => Expr.stopsAt_ofMember m.2) "").map _).map _

/-- A column is built exactly of a record without an array within its objects. Where there is one,
the first in stored order is named, by its path without the empty keys at the start. This is the
dotted name of the path unless the path starts with an empty key and goes on; under the dotted name
the flattened record lists the array, if no later leaf has the same. -/
theorem create_stops_at_first_array (hr : r.toJson.Distinct) (d : Dialect) :
    ((∀ path items, r.toJson.at? path ≠ some (.array items)) → ∃ sql, r.create d = .ok sql) ∧
      ((∃ path items, r.toJson.at? path = some (.array items)) →
        ∃ before path items after,
          r.toJson.leafPaths = before ++ (path, .array items) :: after ∧
          (∀ leaf ∈ before, ∀ others, leaf.2 ≠ .array others) ∧
          r.create d =
            .error (.unsupportedValue (Path.joined (path.dropWhile (· = ""))) .array) ∧
          (Path.joined (path.dropWhile (· = "")) = Path.joined path ↔
            (path.head? = some "" → path = [""])) ∧
          ((∀ leaf ∈ after, Path.joined leaf.1 ≠ Path.joined path) →
            Entries.get? (Path.joined path) r.flatten = some (.array items))) := by
  have hstops := stopsAt_create r d
  constructor
  · intro hnone
    rw [(Json.firstArray?_eq_none_iff hr).mpr hnone] at hstops
    exact hstops
  · rintro ⟨reached, found, hreached⟩
    cases hfirst : Json.firstArray? r.toJson.leafPaths with
    | none => exact ((Json.firstArray?_eq_none_iff hr).mp hfirst reached found hreached).elim
    | some path =>
      obtain ⟨before, items, after, hleaves, hbefore⟩ := Json.firstArray?_eq_some_iff.mp hfirst
      rw [hfirst] at hstops
      refine ⟨before, path, items, after, hleaves, hbefore, ?_, Path.joined_dropWhile_eq_iff path,
        fun hafter => ?_⟩
      · rw [← Expr.foldl_memberName]
        exact hstops
      · rw [flatten, flatMap_leaves, hleaves, List.map_append, List.map_cons]
        exact Entries.get?_collect (List.forall_mem_map.mpr hafter) _ _

/-- Of two arrays the first is named, behind a null and an object without members. -/
theorem create_stops_at_first_array_of_two :
    let r : Record := ⟨[("h", .object []), ("a", .object [("n", .null), ("t", .array [.null])]),
      ("z", .array [])]⟩
    r.toJson.Distinct ∧ (∃ path items, r.toJson.at? path = some (.array items)) ∧
      r.create .default = .error (.unsupportedValue "a.t" .array) ∧
      Entries.get? "a.t" r.flatten = some (.array [.null]) := by
  intro r
  have hr : r.toJson.Distinct := by
    refine .object (by decide) (List.forall_mem_cons.mpr ⟨.object (by decide) nofun, ?_⟩)
    refine List.forall_mem_cons.mpr ⟨.object (by decide) (List.forall_mem_cons.mpr ⟨.null, ?_⟩),
      List.forall_mem_singleton.mpr (.array nofun)⟩
    exact List.forall_mem_singleton.mpr (.array (List.forall_mem_singleton.mpr .null))
  have harray : ∃ path items, r.toJson.at? path = some (.array items) :=
    ⟨["a", "t"], [.null], rfl⟩
  obtain ⟨before, path, items, after, hleaves, hbefore, hcreate, hname, hflat⟩ :=
    (create_stops_at_first_array hr .default).2 harray
  -- The leaves in front of the first array are the ones in front of `a.t`.
  have hfirst : some path = some ["a", "t"] :=
    (Json.firstArray?_eq_some_iff.mpr ⟨before, items, after, hleaves, hbefore⟩).symm
  obtain rfl := Option.some.inj hfirst
  have hjoined : Path.joined ["a", "t"] = "a.t" := by decide +kernel
  rw [hname.mpr nofun] at hcreate
  have hmem : (["a", "t"], .array items) ∈ r.toJson.leafPaths := by
    rw [hleaves]
    exact List.mem_append_right _ List.mem_cons_self
  have hitems : some (Json.array [.null]) = some (.array items) :=
    ((Json.mem_leafPaths_iff hr).mp hmem).1
  have hnames : (r.toJson.leafPaths.map fun leaf => Path.joined leaf.1).Nodup := by decide +kernel
  rw [hleaves, List.map_append, List.map_cons, List.nodup_append, List.nodup_cons] at hnames
  rw [hitems, ← hjoined]
  refine ⟨hr, harray, hcreate, hflat fun leaf hleaf heq => hnames.2.1.1 ?_⟩
  exact List.mem_map.mpr ⟨leaf, hleaf, heq⟩

/-- Below an empty key at the start the array is not named as the flattened record lists it. -/
theorem create_misnames_below_empty_key :
    let r : Record := ⟨[("", .object [("a", .array [])])]⟩
    r.toJson.Distinct ∧ Json.firstArray? r.toJson.leafPaths = some ["", "a"] ∧
      Path.joined ["", "a"] = ".a" ∧ r.flatten = [(".a", .array [])] ∧
      r.create .default = .error (.unsupportedValue "a" .array) ∧
      r.create .default ≠ .error (.unsupportedValue (Path.joined ["", "a"]) .array) := by
  intro r
  have hjoined : Path.joined ["", "a"] = ".a" := by decide +kernel
  have hcreate : r.create .default = .error (.unsupportedValue "a" .array) := rfl
  refine ⟨.object (by decide) (List.forall_mem_singleton.mpr ?_), rfl, hjoined, ?_, hcreate, ?_⟩
  · exact .object (by decide) (List.forall_mem_singleton.mpr (.array nofun))
  · rw [flatten, flatMap_leaves, ← hjoined]
    rfl
  · rw [hjoined, hcreate]
    simp

end Record

end PackedColumn

import PackedColumn.Record

/-!
# Members of JSON values

What `get?` finds after `take?`, and what `at?` finds after `setAt`. A value that is taken out is
the value that stood there (`takeAt?_fst`).
-/

namespace PackedColumn

namespace Entries

variable {α : Type}

theorem mem_of_get? {key : String} {value : α} {es : Entries α} (h : get? key es = some value) :
    (key, value) ∈ es := by
  induction es with
  | nil => cases h
  | cons e rest ih =>
    obtain ⟨k, v⟩ := e
    rw [get?] at h
    split at h
    · next hk =>
      obtain rfl := Option.some.inj h
      exact hk ▸ List.mem_cons_self
    · exact List.mem_cons_of_mem _ (ih h)

theorem get?_eq_none {key : String} {es : Entries α} (h : key ∉ names es) :
    get? key es = none := by
  cases hget : get? key es with
  | none => rfl
  | some value => exact (h (List.mem_map.mpr ⟨_, mem_of_get? hget, rfl⟩)).elim

/-- The value that is taken is the one of the name. -/
theorem take?_fst (key : String) (es : Entries α) : (take? key es).map (·.1) = get? key es := by
  induction es with
  | nil => rfl
  | cons e rest ih =>
    obtain ⟨k, v⟩ := e
    rw [take?, get?]
    split
    · rfl
    · rw [← ih, Option.map_map]; rfl

/-- Where no name comes twice, taking leaves nothing of the name and all else as it is. -/
theorem get?_of_take? {key : String} {value : α} {es rest : Entries α} (hnodup : (names es).Nodup)
    (h : take? key es = some (value, rest)) (k : String) :
    get? k rest = if k = key then none else get? k es := by
  induction es generalizing rest with
  | nil => cases h
  | cons e tail ih =>
    obtain ⟨k', v⟩ := e
    obtain ⟨hnot, htail⟩ := List.nodup_cons.mp hnodup
    rw [take?] at h
    split at h
    · next hk =>
      obtain ⟨rfl, rfl⟩ : v = value ∧ tail = rest := by simpa using h
      by_cases hkey : k = key
      · rw [if_pos hkey, hkey, ← hk]
        exact get?_eq_none hnot
      · rw [if_neg hkey, get?, if_neg (by rw [hk]; exact fun h => hkey h.symm)]
    · next hk =>
      obtain ⟨⟨value', rest'⟩, htake, he⟩ := Option.map_eq_some_iff.mp h
      obtain ⟨rfl, rfl⟩ : value' = value ∧ (k', v) :: rest' = rest := by simpa using he
      rw [get?, get?]
      by_cases hk' : k' = k
      · rw [if_pos hk', if_pos hk', if_neg (by rw [← hk']; exact hk)]
      · rw [if_neg hk', if_neg hk']
        exact ih htail htake

theorem mem_put {key : String} {value : α} {es : Entries α} {e : String × α}
    (h : e ∈ put key value es) : e = (key, value) ∨ e ∈ es := by
  induction es with
  | nil => exact .inl (List.mem_singleton.mp h)
  | cons first rest ih =>
    obtain ⟨k, v⟩ := first
    rw [put] at h
    split at h
    · next hk =>
      rcases List.mem_cons.mp h with rfl | h
      · exact .inl (by rw [hk])
      · exact .inr (List.mem_cons_of_mem _ h)
    · rcases List.mem_cons.mp h with rfl | h
      · exact .inr List.mem_cons_self
      · exact (ih h).imp_right (List.mem_cons_of_mem _)

/-- What is left behind keeps its order. -/
theorem sublist_of_take? {key : String} {value : α} {es rest : Entries α}
    (h : take? key es = some (value, rest)) : rest.Sublist es := by
  induction es generalizing rest with
  | nil => cases h
  | cons first tail ih =>
    obtain ⟨k, v⟩ := first
    rw [take?] at h
    split at h
    · obtain ⟨-, rfl⟩ : v = value ∧ tail = rest := by simpa using h
      exact List.sublist_cons_self _ _
    · obtain ⟨⟨value', rest'⟩, htake, he⟩ := Option.map_eq_some_iff.mp h
      obtain ⟨rfl, rfl⟩ : value' = value ∧ (k, v) :: rest' = rest := by simpa using he
      exact (ih htake).cons_cons _

theorem mem_collect {es : List (String × α)} {e : String × α} (h : e ∈ collect es) : e ∈ es := by
  have hrun : ∀ acc : Entries α, e ∈ es.foldl (fun acc e => put e.1 e.2 acc) acc →
      e ∈ acc ∨ e ∈ es := by
    clear h
    induction es with
    | nil => exact fun _ h => .inl h
    | cons first rest ih =>
      intro acc h
      rcases ih _ h with h | h
      · rcases mem_put h with rfl | h
        · exact .inr List.mem_cons_self
        · exact .inl h
      · exact .inr (List.mem_cons_of_mem _ h)
  rcases hrun [] h with h | h
  · cases h
  · exact h

end Entries

namespace Json

theorem at?_cons (name : String) (rest : List String) (j : Json) :
    at? (name :: rest) j = (Entries.get? name j.members).bind (at? rest) := by
  cases j <;> rfl

/-- What is set is found. -/
theorem at?_setAt (value : Json) (names : List String) (j : Json) :
    at? names (setAt value names j) = some value := by
  induction names generalizing j with
  | nil => rfl
  | cons name rest ih =>
    rw [at?_cons, setAt, members, Entries.get?_put, if_pos rfl, Option.bind_some]
    exact ih _

theorem takeAt?_singleton (name : String) (j : Json) :
    takeAt? [name] j =
      (Entries.take? name j.members).map fun found => (found.1, .object found.2) := by
  cases j <;> rfl

theorem takeAt?_cons (name : String) {rest : List String} (h : rest ≠ []) (j : Json) :
    takeAt? (name :: rest) j = (Entries.get? name j.members).bind fun child =>
      (takeAt? rest child).map fun found =>
        (found.1, .object (Entries.put name found.2 j.members)) := by
  obtain ⟨next, rest, rfl⟩ := List.exists_cons_of_ne_nil h
  cases j <;> rfl

/-- What is taken is what stood there. -/
theorem takeAt?_fst {names : List String} (h : names ≠ []) (j : Json) :
    (takeAt? names j).map (·.1) = at? names j := by
  induction names generalizing j with
  | nil => exact (h rfl).elim
  | cons name rest ih =>
    rw [at?_cons]
    by_cases hrest : rest = []
    · subst hrest
      rw [takeAt?_singleton, ← Entries.take?_fst name j.members, Option.map_map]
      cases Entries.take? name j.members <;> rfl
    · rw [takeAt?_cons name hrest]
      cases Entries.get? name j.members with
      | none => rfl
      | some child =>
        rw [Option.bind_some, Option.bind_some, ← ih hrest child, Option.map_map]
        rfl

/-- A value is taken out of the object at hand, or out of a member that is put back. -/
theorem takeAt?_cons_cases {name : String} {names : List String} {j removed rest : Json}
    (h : takeAt? (name :: names) j = some (removed, rest)) :
    (names = [] ∧ ∃ others, Entries.take? name j.members = some (removed, others) ∧
      rest = .object others) ∨
    ∃ child left, Entries.get? name j.members = some child ∧
      takeAt? names child = some (removed, left) ∧
      rest = .object (Entries.put name left j.members) := by
  by_cases hnames : names = []
  · subst hnames
    rw [takeAt?_singleton] at h
    obtain ⟨⟨value, others⟩, htake, he⟩ := Option.map_eq_some_iff.mp h
    obtain ⟨rfl, rfl⟩ := Prod.mk.inj he
    exact .inl ⟨rfl, others, htake, rfl⟩
  · rw [takeAt?_cons name hnames] at h
    obtain ⟨child, hget, h⟩ := Option.bind_eq_some_iff.mp h
    obtain ⟨⟨value, left⟩, htake, he⟩ := Option.map_eq_some_iff.mp h
    obtain ⟨rfl, rfl⟩ := Prod.mk.inj he
    exact .inr ⟨child, left, hget, htake, rfl⟩

/-- What remains is an object. -/
theorem object_members_of_takeAt? {names : List String} {j removed rest : Json}
    (h : takeAt? names j = some (removed, rest)) : .object rest.members = rest := by
  cases names with
  | nil => cases h
  | cons name names =>
    rcases takeAt?_cons_cases h with ⟨-, others, -, rfl⟩ | ⟨child, left, -, -, rfl⟩
    · rfl
    · rfl

end Json

/-! ## Records -/

namespace Record

/-- The record after a write is the object in which the value is set. -/
theorem toJson_set {r : Record} {name : String} {p : Path} (h : Path.parse? name = some p)
    (value : Json) :
    ∃ r', r.set name value = .ok r' ∧ r'.toJson = Json.setAt value p.segments r.toJson := by
  refine ⟨⟨(Json.setAt value p.segments r.toJson).members⟩, ?_, ?_⟩
  · rw [set, Path.parse, h]; rfl
  · obtain ⟨key, rest, hsegments⟩ := List.exists_cons_of_ne_nil p.segments_ne_nil
    rw [hsegments]
    rfl

theorem get?_of_parse? {r : Record} {name : String} {p : Path} (h : Path.parse? name = some p) :
    r.get? name = r.toJson.at? p.segments := by
  rw [get?, h, Option.bind_some]

/-- The record after a removal is what remains, or the same record where there is nothing to
remove. -/
theorem toJson_unset {r : Record} {name : String} {p : Path} (h : Path.parse? name = some p) :
    (r.unset name).2.toJson =
      ((r.toJson.takeAt? p.segments).map (·.2)).getD r.toJson := by
  rw [unset, h, Option.bind_some]
  cases htake : r.toJson.takeAt? p.segments with
  | none => rfl
  | some found => exact Json.object_members_of_takeAt? htake

end Record

end PackedColumn

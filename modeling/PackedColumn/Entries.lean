/-!
# Entries in insertion order

A list of named values in the order in which the names first came. No name comes twice in a list
that `put` built (`nodup_put`): putting a name that is there replaces its value in place, and a
new name goes last.
-/

namespace PackedColumn

/-- Named values in insertion order. -/
abbrev Entries (α : Type) := List (String × α)

namespace Entries

variable {α : Type}

/-- The names, in order. -/
def names (es : Entries α) : List String := es.map (·.1)

/-- The value of a name. -/
def get? (key : String) : Entries α → Option α
  | [] => none
  | (k, v) :: rest => if k = key then some v else get? key rest

/-- The entries with `value` under `key`: in the place of an old value, else last. -/
def put (key : String) (value : α) : Entries α → Entries α
  | [] => [(key, value)]
  | (k, v) :: rest => if k = key then (k, value) :: rest else (k, v) :: put key value rest

/-- The value of a name, and the other entries in their order. -/
def take? (key : String) : Entries α → Option (α × Entries α)
  | [] => none
  | (k, v) :: rest =>
    if k = key then some (v, rest)
    else (take? key rest).map fun found => (found.1, (k, v) :: found.2)

/-- The entries of a sequence in which a later value of a name replaces the earlier one in its
place. -/
def collect (es : List (String × α)) : Entries α :=
  es.foldl (fun acc e => put e.1 e.2 acc) []

theorem get?_put (key k : String) (value : α) (es : Entries α) :
    get? k (put key value es) = if k = key then some value else get? k es := by
  induction es with
  | nil => by_cases h : k = key <;> grind [put, get?]
  | cons e rest ih =>
    obtain ⟨k', v⟩ := e
    by_cases h' : k' = key <;> by_cases h : k = key <;> grind [put, get?]

/-- Putting keeps the names and their order, and adds a new name at the end. -/
theorem names_put (key : String) (value : α) (es : Entries α) :
    names (put key value es) = if key ∈ names es then names es else names es ++ [key] := by
  induction es with
  | nil => rfl
  | cons e rest ih =>
    obtain ⟨k', v⟩ := e
    by_cases h' : k' = key <;> grind [put, names]

theorem nodup_put {key : String} {value : α} {es : Entries α} (h : (names es).Nodup) :
    (names (put key value es)).Nodup := by
  rw [names_put]
  split
  · exact h
  · next hk =>
    rw [List.nodup_append]
    exact ⟨h, by simp, fun a ha b hb => by simp at hb; rintro rfl; exact hk (hb ▸ ha)⟩

theorem nodup_collect (es : List (String × α)) : (names (collect es)).Nodup := by
  have h : ∀ (acc : Entries α), (names acc).Nodup →
      (names (es.foldl (fun acc e => put e.1 e.2 acc) acc)).Nodup := by
    induction es with
    | nil => exact fun _ h => h
    | cons e rest ih => exact fun acc h => ih _ (nodup_put h)
  exact h [] List.nodup_nil

end Entries

end PackedColumn

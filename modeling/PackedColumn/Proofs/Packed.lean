import PackedColumn.SqlType

/-!
# What a packed column holds

A packed column holds a tree: a map gives each of its keys an entry, and an entry is a map or a
scalar. `none` is nothing: the column that is null, or an entry that a map does not have. Maps are
functions, so two columns that differ in the order of their keys hold the same tree.

* `entry` and `put` are the two operations on one level.
* `walk` follows keys down, and `store` puts a value at the end of such a walk.

A walk along the keys of a `store` finds what was stored (`walk_store_append`), and a walk that
leaves these keys finds what was there before (`walk_store_of_apart`).
-/

namespace PackedColumn

/-- The content of a packed column or of one of its entries. -/
inductive Packed where
  /-- A value with its SQL literal and the type that it is stored as, both as they are written; a
  value that SQL cannot write has neither. -/
  | scalar (literal type : Option String)
  | map (entries : String → Option Packed)

/-- Neither list of keys starts with the other. -/
def Apart (ks qs : List String) : Prop := ¬ ks <+: qs ∧ ¬ qs <+: ks

instance (ks qs : List String) : Decidable (Apart ks qs) := inferInstanceAs (Decidable (_ ∧ _))

theorem apart_cons {k q : String} {ks qs : List String} :
    Apart (k :: ks) (q :: qs) ↔ (k = q → Apart ks qs) := by
  unfold Apart
  rw [List.cons_prefix_cons, List.cons_prefix_cons]
  constructor
  · rintro ⟨h, h'⟩ rfl
    exact ⟨fun hks => h ⟨rfl, hks⟩, fun hqs => h' ⟨rfl, hqs⟩⟩
  · intro h
    exact ⟨fun ⟨hk, hks⟩ => (h hk).1 hks, fun ⟨hq, hqs⟩ => (h hq.symm).2 hqs⟩

/-- Keys that do not lead to a place above another lead to it, below it or elsewhere. -/
theorem prefix_or_apart {ks qs : List String} (h : qs <+: ks → qs = ks) :
    ks <+: qs ∨ Apart ks qs := by
  by_cases hks : ks <+: qs
  · exact .inl hks
  · have habove : ¬ qs <+: ks := by
      intro hqs
      rw [h hqs] at hks
      exact hks (List.prefix_refl ks)
    exact .inr ⟨hks, habove⟩

namespace Packed

/-! ## One level -/

/-- The entry of a container, if it is a map that has the key. -/
def entry (key : String) : Option Packed → Option Packed
  | some (.map entries) => entries key
  | _ => none

/-- The container with an entry, or without it when there is nothing to put. What is no map counts
as the empty map. -/
def put (key : String) (value container : Option Packed) : Option Packed :=
  some (.map fun k => if k = key then value else entry k container)

@[simp] theorem entry_map (key : String) (entries : String → Option Packed) :
    entry key (some (.map entries)) = entries key := rfl

theorem entry_put (key k : String) (value container : Option Packed) :
    entry k (put key value container) = if k = key then value else entry k container := rfl

/-- A container counts by its entries. -/
theorem put_congr {key : String} {value t u : Option Packed}
    (h : ∀ k, entry k t = entry k u) : put key value t = put key value u := by
  unfold put
  congr 2
  funext k
  rw [h k]

/-! ## All levels -/

/-- What stands at the end of the walk along the keys. -/
def walk : List String → Option Packed → Option Packed
  | [], t => t
  | key :: rest, t => walk rest (entry key t)

/-- The tree with `value` at the end of the walk along the keys. -/
def store (value : Option Packed) : List String → Option Packed → Option Packed
  | [], _ => value
  | key :: rest, t => put key (store value rest (entry key t)) t

@[simp] theorem walk_cons (key : String) (rest : List String) (t : Option Packed) :
    walk (key :: rest) t = walk rest (entry key t) := rfl

theorem walk_append (ks qs : List String) (t : Option Packed) :
    walk (ks ++ qs) t = walk qs (walk ks t) := by
  induction ks generalizing t with
  | nil => rfl
  | cons key rest ih => exact ih _

/-- Below nothing there is nothing. -/
@[simp] theorem walk_none (ks : List String) : walk ks none = none := by
  induction ks with
  | nil => rfl
  | cons key rest ih => exact ih

/-- A container counts by its entries, unless the whole of it is replaced anyway. -/
theorem store_congr {value t u : Option Packed} (h : ∀ k, entry k t = entry k u)
    (ks : List String) : store value ks t = store value ks u := by
  cases ks with
  | nil => rfl
  | cons key rest => rw [store, store, h key, put_congr h]

/-- A walk past the end of the stored keys goes on in the stored value. -/
theorem walk_store_append (value : Option Packed) (ks qs : List String) (t : Option Packed) :
    walk (ks ++ qs) (store value ks t) = walk qs value := by
  induction ks generalizing t with
  | nil => rfl
  | cons key rest ih =>
    rw [List.cons_append, walk_cons, store, entry_put, if_pos rfl]
    exact ih _

theorem walk_store_self (value : Option Packed) (ks : List String) (t : Option Packed) :
    walk ks (store value ks t) = value := by
  have h := walk_store_append value ks [] t
  rwa [List.append_nil] at h

/-- A walk that leaves the stored keys does not meet the stored value. -/
theorem walk_store_of_apart {ks qs : List String} (h : Apart ks qs) (value t : Option Packed) :
    walk qs (store value ks t) = walk qs t := by
  induction ks generalizing qs t with
  | nil => exact (h.1 List.nil_prefix).elim
  | cons key rest ih =>
    cases qs with
    | nil => exact (h.2 List.nil_prefix).elim
    | cons q qs =>
      rw [walk_cons, walk_cons, store, entry_put]
      by_cases hq : q = key
      · subst hq
        rw [if_pos rfl]
        exact ih (apart_cons.mp h rfl) _
      · rw [if_neg hq]

/-- Where nothing stands, taking it away changes no walk that does not end above it. -/
theorem walk_store_none {ks qs : List String} {t : Option Packed} (h : walk ks t = none)
    (hqs : qs <+: ks → qs = ks) : walk qs (store none ks t) = walk qs t := by
  rcases prefix_or_apart hqs with ⟨below, rfl⟩ | hapart
  · rw [walk_store_append, walk_append, h]
  · exact walk_store_of_apart hapart none t

end Packed

end PackedColumn

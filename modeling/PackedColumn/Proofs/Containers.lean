import PackedColumn.Access

/-!
# The containers on the way to an attribute

Reading and writing walk along the same keys. `Dialect.containers` is the chain of containers that
they meet: the column, and after it each level, read from the container above it.

* The read takes its leaf out of the last container of the chain (`Access.value_read_eq`).
* The write does its operation on the same container, and then sets each level back into the
  container that it was read from, from the innermost to the outermost (`Access.value_write_eq`).

The first key of a path can be taken off the chain. So both expressions nest from the outside in as
well: they are those of the rest of the path, over the container of the first key
(`write_mirrors_read`).
-/

namespace PackedColumn

namespace Dialect

variable (d : Dialect)

/-- The containers on the walk along the keys: the column, and then each level, read from the one
above it. -/
def containers (column : String) : List String → List String
  | [] => [column]
  | key :: keys => column :: containers (d.extract column key d.intermediateType) keys

/-- The container at the end of the walk along the keys. -/
def innermost (column : String) (keys : List String) : String :=
  keys.foldl (fun container key => d.extract container key d.intermediateType) column

/-- Each of the levels, a container and a key, set back around `inner`; the last level is the
innermost. -/
def setBack (levels : List (String × String)) (inner : String) : String :=
  levels.foldr (fun level inner => d.set level.1 level.2 inner d.intermediateType) inner

/-- The container with the entry `key` written: set to the literal of the value, as the named or
else the inferred type, or taken away if there is no literal. -/
def writeEntry (container key : String) (value : Value) (type? : Option SqlType) : String :=
  match value.literal? d, type?.or value.defaultType? with
  | some literal, some type => d.set container key literal (type.render d.typeCase)
  | _, _ => d.delete container key

/-- The walk ends at the last container. -/
theorem getLast?_containers (column : String) (keys : List String) :
    (d.containers column keys).getLast? = some (d.innermost column keys) := by
  induction keys generalizing column with
  | nil => rfl
  | cons key keys ih =>
    rw [containers, List.getLast?_cons, ih]
    rfl

end Dialect

namespace Expr

variable (d : Dialect)

theorem render_descend (container : Expr) (keys : List String) :
    (container.descend keys).render d = d.innermost (container.render d) keys := by
  induction keys generalizing container with
  | nil => rfl
  | cons key keys ih => exact (ih (container.extract key .intermediate)).trans (by rw [render]; rfl)

theorem render_writeEntry (key : String) (value : Value) (type? : Option SqlType)
    (container : Expr) : (writeEntry key value type? container).render d =
      d.writeEntry (container.render d) key value type? := by
  cases value with
  | scalar s => cases type? <;> rfl
  | absent | null => cases type? <;> rfl

/-- A change of the innermost container, with every level set back into the container that it was
read from. -/
theorem render_rebuild (change : Expr → Expr) (keys : List String) (container : Expr) :
    (rebuild change keys container).render d =
      d.setBack ((d.containers (container.render d) keys).zip keys)
        ((change (container.descend keys)).render d) := by
  induction keys generalizing container with
  | nil => rfl
  | cons key keys ih =>
    rw [rebuild, render, ih]
    rfl

end Expr

namespace Access

variable (d : Dialect) (column : String) (p : Path)

theorem value_read_eq (type? : Option SqlType) : (read d column p type?).value =
    d.extract (d.innermost column p.parents) p.leaf ((Cast.ofType? type?).render d) := by
  rw [value_read, Expr.read, Expr.render, Expr.render_descend]
  rfl

theorem value_write_eq (value : Value) (type? : Option SqlType) :
    (write d column p value type?).value =
      d.setBack ((d.containers column p.parents).zip p.parents)
        (d.writeEntry (d.innermost column p.parents) p.leaf value type?) := by
  rw [value_write, Expr.write, Expr.render_rebuild, Expr.render_writeEntry, Expr.render_descend]
  rfl

end Access

/-! ## Paths by their first key -/

namespace Path

variable {key : String} {p q : Path}

theorem parents_of_cons (h : p.segments = key :: q.segments) : p.parents = key :: q.parents := by
  rw [parents, h, List.dropLast_cons_of_ne_nil q.segments_ne_nil]
  rfl

theorem leaf_of_cons (h : p.segments = key :: q.segments) : p.leaf = q.leaf := by
  unfold leaf
  simp only [h]
  exact List.getLast_cons q.segments_ne_nil

theorem parents_of_singleton (h : p.segments = [key]) : p.parents = [] := by
  rw [parents, h]
  rfl

theorem leaf_of_singleton (h : p.segments = [key]) : p.leaf = key := by
  unfold leaf
  simp only [h]
  rfl

end Path

/-- The operation at the leaf is the removal exactly for the two values that remove. -/
theorem Expr.writeEntry_eq_delete_iff {key : String} {value : Value} {type? : Option SqlType}
    {container : Expr} :
    writeEntry key value type? container = container.delete key ↔ value.isRemoval := by
  cases value with
  | scalar s => exact ⟨nofun, nofun⟩
  | absent | null => exact ⟨fun _ => rfl, fun _ => rfl⟩

/-- Reads and writes nest alike. Behind a first key both are those of the rest of the path over the
container of that key, which the write sets back into the column. For a single key they are the call
that reads it, and the call that sets or removes it. And for every path there is one container whose
leaf the one takes and the other writes: the last of the chain along the path, back into which the
write sets level by level. -/
theorem write_mirrors_read (d : Dialect) (column : String) (value : Value)
    (type? : Option SqlType) :
    (∀ (key : String) (p q : Path), p.segments = key :: q.segments →
        let child := d.extract column key d.intermediateType
        (Access.read d column p type?).value = (Access.read d child q type?).value ∧
          (Access.write d column p value type?).value =
            d.set column key (Access.write d child q value type?).value d.intermediateType) ∧
      (∀ (key : String) (p : Path), p.segments = [key] →
        (Access.read d column p type?).value =
            d.extract column key ((Cast.ofType? type?).render d) ∧
          (∀ s, value = .scalar s → (Access.write d column p value type?).value =
            d.set column key (s.literal d) ((type?.getD s.defaultType).render d.typeCase)) ∧
          (value.isRemoval → (Access.write d column p value type?).value = d.delete column key) ∧
          ((Expr.column column).write p value type? = (Expr.column column).delete key ↔
            value.isRemoval)) ∧
      ∀ p : Path, ∃ container, (d.containers column p.parents).getLast? = some container ∧
        (Access.read d column p type?).value =
          d.extract container p.leaf ((Cast.ofType? type?).render d) ∧
        (Access.write d column p value type?).value =
          d.setBack ((d.containers column p.parents).zip p.parents)
            (d.writeEntry container p.leaf value type?) := by
  refine ⟨fun key p q h => ?_, fun key p h => ?_, fun p => ?_⟩
  · simp only [Access.value_read_eq, Access.value_write_eq, Path.parents_of_cons h,
      Path.leaf_of_cons h]
    exact ⟨rfl, rfl⟩
  · have hparents := Path.parents_of_singleton h
    have hleaf := Path.leaf_of_singleton h
    rw [Access.value_read_eq, Access.value_write_eq, Expr.write, hparents, hleaf]
    refine ⟨rfl, ?_, ?_, Expr.writeEntry_eq_delete_iff⟩
    · rintro s rfl
      cases type? <;> rfl
    · intro hremoval
      cases value with
      | scalar s => cases hremoval
      | absent | null => cases type? <;> rfl
  · exact ⟨d.innermost column p.parents, d.getLast?_containers column p.parents,
      Access.value_read_eq d column p type?, Access.value_write_eq d column p value type?⟩

/-- A path of three keys, of which the first and the second are levels. -/
theorem write_mirrors_read_three_keys :
    let d := Dialect.default
    let p : Path := ⟨["a", "b", "c"], by decide, by decide⟩
    let q : Path := ⟨["b", "c"], by decide, by decide⟩
    let last : Path := ⟨["c"], by decide, by decide⟩
    let child := "COLUMN_GET(t, 'a' AS BINARY)"
    let value : Value := .scalar (.integer 5)
    p.segments = "a" :: q.segments ∧ d.extract "t" "a" d.intermediateType = child ∧
      (Access.read d "t" p none).value = (Access.read d child q none).value ∧
      (Access.write d "t" p value none).value =
        d.set "t" "a" (Access.write d child q value none).value d.intermediateType ∧
      last.segments = ["c"] ∧
      (Access.write d "t" last value none).value = "COLUMN_ADD(t, 'c', 5 AS INTEGER)" ∧
      (Access.write d "t" last .null none).value = "COLUMN_DELETE(t, 'c')" := by
  intro d p q last child value
  have hchild : d.extract "t" "a" d.intermediateType = child := by decide +kernel
  obtain ⟨hcons, hlast, -⟩ := write_mirrors_read d "t" value none
  obtain ⟨-, hremoved, -⟩ := write_mirrors_read d "t" .null none
  obtain ⟨hread, hwrite⟩ := hcons "a" p q rfl
  rw [hchild] at hread hwrite
  refine ⟨rfl, hchild, hread, hwrite, rfl, ((hlast "c" last rfl).2.1 _ rfl).trans ?_,
    ((hremoved "c" last rfl).2.2.1 rfl).trans ?_⟩
  · decide +kernel
  · decide +kernel

end PackedColumn

import Mathlib.Data.List.Nodup
import PackedColumn.Proofs.Grammar
import PackedColumn.Proofs.Leaves
import PackedColumn.Proofs.Pruned

/-!
# Values of a structure

A structure has a value exactly if each number in it is in range for itself and each string makes
characters (`Readable`, `isSome_value?_iff`). A part of it may be known to be readable already; then
the rest decides (`readable_of_holds`).

Where the keys of every object are distinct, the value keeps every member, so what stands at the end
of a walk along keys of the structure (`Holds`) stands at the end of the same walk along names of
the value (`at?_of_holds`). A structure without arrays has a value without arrays.
-/

namespace PackedColumn.Json.Raw

/-- Each number of the structure can be read, and each string and key. -/
inductive Readable : Raw → Prop
  | null : Readable .null
  | bool (b : Bool) : Readable (.bool b)
  | number {text : NumberText} : text.number?.isSome → Readable (.number text)
  | string {pieces : List Piece} : (Piece.text? pieces).isSome → Readable (.string pieces)
  | array {items : List Raw} : (∀ item ∈ items, Readable item) → Readable (.array items)
  | object {members : List (List Piece × Raw)} : (∀ m ∈ members, (Piece.text? m.1).isSome) →
      (∀ m ∈ members, Readable m.2) → Readable (.object members)

/-- No object at any level has two keys that make the same name. -/
inductive DistinctKeys : Raw → Prop
  | null : DistinctKeys .null
  | bool (b : Bool) : DistinctKeys (.bool b)
  | number (text : NumberText) : DistinctKeys (.number text)
  | string (pieces : List Piece) : DistinctKeys (.string pieces)
  | array {items : List Raw} : (∀ item ∈ items, DistinctKeys item) → DistinctKeys (.array items)
  | object {members : List (List Piece × Raw)} :
      (members.map fun m => Piece.text? m.1).Nodup → (∀ m ∈ members, DistinctKeys m.2) →
      DistinctKeys (.object members)

/-- No array stands in the structure at any depth. -/
inductive ArrayFree : Raw → Prop
  | null : ArrayFree .null
  | bool (b : Bool) : ArrayFree (.bool b)
  | number (text : NumberText) : ArrayFree (.number text)
  | string (pieces : List Piece) : ArrayFree (.string pieces)
  | object {members : List (List Piece × Raw)} : (∀ m ∈ members, ArrayFree m.2) →
      ArrayFree (.object members)

/-- Each number of the structure can be read, and each string and key, whatever stands at the end of
the walk along `names`. -/
inductive ReadableBeside : List String → Raw → Prop
  | here (raw : Raw) : ReadableBeside [] raw
  | member {members : List (List Piece × Raw)} {name : String} {names : List String} :
      (∀ m ∈ members, (Piece.text? m.1).isSome) →
      (∀ m ∈ members, Piece.text? m.1 ≠ some name → Readable m.2) →
      (∀ m ∈ members, Piece.text? m.1 = some name → ReadableBeside names m.2) →
      ReadableBeside (name :: names) (.object members)

/-- `part` stands at the end of a walk along `names`. -/
inductive Holds (part : Raw) : List String → Raw → Prop
  | here : Holds part [] part
  | member {members : List (List Piece × Raw)} {key : List Piece} {child : Raw} {name : String}
      {names : List String} : (key, child) ∈ members → Piece.text? key = some name →
      Holds part names child → Holds part (name :: names) (.object members)

/-! ## Which structures have a value -/

theorem isSome_items?_iff {items : List Raw} :
    (items? items).isSome ↔ ∀ item ∈ items, item.value?.isSome := by
  induction items with
  | nil => simp [items?]
  | cons item rest ih =>
    rw [items?, List.forall_mem_cons, ← ih]
    cases item.value? <;> simp

theorem isSome_members?_iff {members : List (List Piece × Raw)} :
    (members? members).isSome ↔
      ∀ m ∈ members, (Piece.text? m.1).isSome ∧ m.2.value?.isSome := by
  induction members with
  | nil => simp [members?]
  | cons m rest ih =>
    rw [members?, List.forall_mem_cons, ← ih]
    cases Piece.text? m.1 <;> cases m.2.value? <;> simp

/-- A structure has a value exactly if all of its numbers and strings can be read. -/
theorem isSome_value?_iff {raw : Raw} : raw.value?.isSome ↔ raw.Readable := by
  induction raw with
  | null => exact ⟨fun _ => .null, fun _ => rfl⟩
  | bool b => exact ⟨fun _ => .bool b, fun _ => rfl⟩
  | number text =>
    rw [value?, Option.isSome_map]
    exact ⟨.number, fun | .number h => h⟩
  | string pieces =>
    rw [value?, Option.isSome_map]
    exact ⟨.string, fun | .string h => h⟩
  | array items ih =>
    rw [value?, Option.isSome_map, isSome_items?_iff, forall₂_congr ih]
    exact ⟨.array, fun | .array h => h⟩
  | object members ih =>
    rw [value?, Option.isSome_map, isSome_members?_iff]
    constructor
    · exact fun h => .object (fun m hm => (h m hm).1) fun m hm => (ih m hm).mp (h m hm).2
    · rintro (_ | _ | _ | _ | _ | ⟨hkeys, hvalues⟩)
      exact fun m hm => ⟨hkeys m hm, (ih m hm).mpr (hvalues m hm)⟩

/-! ## What stands where -/

variable {members : List (List Piece × Raw)} {es : List (String × Json)}

/-- Each member has a name and a value. -/
theorem exists_of_mem_members (h : members? members = some es) {m : List Piece × Raw}
    (hm : m ∈ members) :
    ∃ name v, Piece.text? m.1 = some name ∧ m.2.value? = some v ∧ (name, v) ∈ es := by
  induction members generalizing es with
  | nil => cases hm
  | cons first rest ih =>
    obtain ⟨name, hname, h⟩ := Option.bind_eq_some_iff.mp h
    obtain ⟨v, hv, h⟩ := Option.bind_eq_some_iff.mp h
    obtain ⟨others, hrest, rfl⟩ := Option.map_eq_some_iff.mp h
    rcases List.mem_cons.mp hm with rfl | hm
    · exact ⟨name, v, hname, hv, List.mem_cons_self⟩
    · obtain ⟨name', v', hname', hv', hmem⟩ := ih hrest hm
      exact ⟨name', v', hname', hv', List.mem_cons_of_mem _ hmem⟩

/-- Each name and value is of some member. -/
theorem exists_of_mem_values (h : members? members = some es) {e : String × Json} (he : e ∈ es) :
    ∃ m ∈ members, m.2.value? = some e.2 := by
  induction members generalizing es with
  | nil =>
    obtain rfl := Option.some.inj h
    cases he
  | cons first rest ih =>
    obtain ⟨name, hname, h⟩ := Option.bind_eq_some_iff.mp h
    obtain ⟨v, hv, h⟩ := Option.bind_eq_some_iff.mp h
    obtain ⟨others, hrest, rfl⟩ := Option.map_eq_some_iff.mp h
    rcases List.mem_cons.mp he with rfl | he
    · exact ⟨first, List.mem_cons_self, hv⟩
    · obtain ⟨m, hm, hvalue⟩ := ih hrest he
      exact ⟨m, List.mem_cons_of_mem _ hm, hvalue⟩

theorem names_of_members? (h : members? members = some es) :
    (Entries.names es).map some = members.map fun m => Piece.text? m.1 := by
  induction members generalizing es with
  | nil =>
    obtain rfl := Option.some.inj h
    rfl
  | cons first rest ih =>
    obtain ⟨name, hname, h⟩ := Option.bind_eq_some_iff.mp h
    obtain ⟨v, hv, h⟩ := Option.bind_eq_some_iff.mp h
    obtain ⟨others, hrest, rfl⟩ := Option.map_eq_some_iff.mp h
    rw [List.map_cons, ← ih hrest]
    exact congrArg (· :: _) hname.symm

/-- Where the keys are distinct, the value of an object keeps every member. -/
theorem exists_of_value?_object {j : Json} (h : (object members).value? = some j)
    (hkeys : (members.map fun m => Piece.text? m.1).Nodup) :
    ∃ es, members? members = some es ∧ j = .object es ∧ (Entries.names es).Nodup := by
  obtain ⟨es, hes, rfl⟩ := Option.map_eq_some_iff.mp h
  have hnodup : (Entries.names es).Nodup := by
    rw [← names_of_members? hes] at hkeys
    exact List.Pairwise.of_map some (fun _ _ hne h => hne (congrArg some h)) hkeys
  exact ⟨es, hes, by rw [Entries.collect_eq_self hnodup], hnodup⟩

/-- What stands at the end of a walk in the structure stands there in the value. -/
theorem at?_of_holds {part raw : Raw} {names : List String} {j : Json}
    (hpart : Holds part names raw) (hdistinct : raw.DistinctKeys) (h : raw.value? = some j) :
    ∃ v, part.value? = some v ∧ j.at? names = some v := by
  induction hpart generalizing j with
  | here => exact ⟨j, h, rfl⟩
  | @member members key child name names hmem hkey _ ih =>
    cases hdistinct with
    | object hkeys hvalues =>
      obtain ⟨es, hes, rfl, hnodup⟩ := exists_of_value?_object h hkeys
      obtain ⟨name', v, hname, hv, hentry⟩ := exists_of_mem_members hes hmem
      obtain rfl : name = name' := Option.some.inj (hkey.symm.trans hname)
      obtain ⟨leaf, hleaf, hat⟩ := ih (hvalues _ hmem) hv
      refine ⟨leaf, hleaf, ?_⟩
      rw [Json.at?_cons, Json.members, Entries.get?_of_mem hnodup hentry]
      exact hat

/-- What can be read beside a part that can be read itself can be read. -/
theorem readable_of_holds {part raw : Raw} {names : List String} (hpart : Holds part names raw)
    (hdistinct : raw.DistinctKeys) (hbeside : raw.ReadableBeside names) (hread : part.Readable) :
    raw.Readable := by
  induction hpart with
  | here => exact hread
  | @member members key child name names hmem hkey _ ih =>
    cases hdistinct with
    | object hkeys hvalues =>
      cases hbeside with
      | member htexts hothers hown =>
        refine .object htexts fun m hm => ?_
        by_cases hname : Piece.text? m.1 = some name
        · obtain rfl : m = (key, child) :=
            List.inj_on_of_nodup_map hkeys hm hmem (hname.trans hkey.symm)
          exact ih (hvalues _ hmem) (hown _ hmem hkey)
        · exact hothers m hm hname

theorem arrayFree_value? {raw : Raw} {j : Json} (hraw : raw.ArrayFree) (h : raw.value? = some j) :
    j.ArrayFree := by
  induction hraw generalizing j with
  | null | bool => obtain rfl := Option.some.inj h; constructor
  | number | string =>
    obtain ⟨x, -, rfl⟩ := Option.map_eq_some_iff.mp h
    constructor
  | object _ ih =>
    obtain ⟨es, hes, rfl⟩ := Option.map_eq_some_iff.mp h
    refine .object fun e he => ?_
    obtain ⟨m, hm, hvalue⟩ := exists_of_mem_values hes (Entries.mem_collect he)
    exact ih m hm hvalue

end PackedColumn.Json.Raw

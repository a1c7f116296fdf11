import PackedColumn.Fragment
import PackedColumn.Proofs.Offset

/-!
# Replacing spans of a text

`replaceAll rs cs`: the characters `cs` with the span of each marker of `rs` replaced, from the last
to the first.

A text of two parts is replaced part by part. Spans of the first part, in order and inside it
(`Spans`), leave the second part alone (`replaceAll_append_right`); spans moved behind the first
part leave that part alone (`replaceAll_shift`).
-/

namespace PackedColumn

open Text

/-- The marker in a text that has `k` more bytes before it. -/
def Marker.shift (k : Nat) (m : Marker) : Marker :=
  { m with start := m.start + k, stop := m.stop + k }

namespace Fragment

/-- The characters after each replacement, the last of them done first. -/
def replaceAll (rs : List (Marker × String)) (cs : List Char) : List Char :=
  rs.foldr (fun r acc => replaceBytes r.1.start r.1.stop r.2.toList acc) cs

/-- The spans come one behind the other and end at or before byte `limit`. -/
structure Spans (limit : Nat) (rs : List (Marker × String)) : Prop where
  ordered : rs.Pairwise fun r s => r.1.stop ≤ s.1.start
  start_le : ∀ r ∈ rs, r.1.start ≤ r.1.stop
  stop_le : ∀ r ∈ rs, r.1.stop ≤ limit

@[simp] theorem replaceAll_nil (cs : List Char) : replaceAll [] cs = cs := rfl

@[simp] theorem replaceAll_cons (r : Marker × String) (rs : List (Marker × String))
    (cs : List Char) : replaceAll (r :: rs) cs =
      replaceBytes r.1.start r.1.stop r.2.toList (replaceAll rs cs) := rfl

theorem replaceAll_append (rs ss : List (Marker × String)) (cs : List Char) :
    replaceAll (rs ++ ss) cs = replaceAll rs (replaceAll ss cs) :=
  List.foldr_append

theorem toList_replaceMarkers (text : String) (rs : List (Marker × String)) :
    (replaceMarkers text rs).toList = replaceAll rs text.toList :=
  String.toList_ofList

/-- Replacements that start at or behind byte `k` keep at least `k` bytes. -/
theorem le_byteLength_replaceAll {k : Nat} {rs : List (Marker × String)} {cs : List Char}
    (hcs : k ≤ byteLength cs) (hrs : ∀ r ∈ rs, k ≤ r.1.start) :
    k ≤ byteLength (replaceAll rs cs) := by
  induction rs with
  | nil => exact hcs
  | cons r rest ih =>
    have htake := le_byteLength_takeBytes (hrs r List.mem_cons_self)
      (ih fun s hs => hrs s (List.mem_cons_of_mem _ hs))
    rw [replaceAll_cons, replaceBytes, byteLength_append, byteLength_append]
    omega

/-- Spans inside the first part of a text leave the second part alone. -/
theorem replaceAll_append_right {rs : List (Marker × String)} {xs : List Char}
    (h : Spans (byteLength xs) rs) (ys : List Char) :
    replaceAll rs (xs ++ ys) = replaceAll rs xs ++ ys := by
  induction rs with
  | nil => rfl
  | cons r rest ih =>
    obtain ⟨hord, hle, hstop⟩ := h
    rw [List.pairwise_cons] at hord
    have hrest : Spans (byteLength xs) rest :=
      ⟨hord.2, fun s hs => hle s (List.mem_cons_of_mem _ hs),
        fun s hs => hstop s (List.mem_cons_of_mem _ hs)⟩
    -- The later replacements have not touched the bytes up to `r.1.stop`.
    have hkept : r.1.stop ≤ byteLength (replaceAll rest xs) :=
      le_byteLength_replaceAll (hstop r List.mem_cons_self) hord.1
    have hstart := hle r List.mem_cons_self
    simp only [replaceAll_cons, replaceBytes]
    rw [ih hrest, takeBytes_append_of_le (by omega), dropBytes_append_of_le hkept]
    simp only [List.append_assoc]

/-- Spans behind the first part of a text leave that part alone. -/
theorem replaceAll_shift (rs : List (Marker × String)) (xs ys : List Char) :
    replaceAll (rs.map fun r => (r.1.shift (byteLength xs), r.2)) (xs ++ ys) =
      xs ++ replaceAll rs ys := by
  induction rs with
  | nil => rfl
  | cons r rest ih =>
    rw [List.map_cons, replaceAll_cons, ih]
    simp only [Marker.shift, replaceBytes, Nat.add_comm _ (byteLength xs), takeBytes_append_add,
      dropBytes_append_add, replaceAll_cons, List.append_assoc]

end Fragment

end PackedColumn

/-!
# Ranges of code points

A Unicode property is kept as the ascending list of its ranges, both ends included. Each property
has a module of its own; `PackedColumn.Unicode.Class` puts them together.
-/

namespace PackedColumn.Unicode

/-- Whether `n` lies in one of the ascending ranges. The walk stops at the first range that starts
after `n`. -/
def inRanges : List (Nat × Nat) → Nat → Bool
  | [], _ => false
  | (lo, hi) :: rest, n => decide (lo ≤ n) && (decide (n ≤ hi) || inRanges rest n)

/-- A code point that the walk accepts lies in a listed range. -/
theorem exists_range_of_inRanges {table : List (Nat × Nat)} {n : Nat}
    (h : inRanges table n = true) : ∃ r ∈ table, r.1 ≤ n ∧ n ≤ r.2 := by
  induction table with
  | nil => simp [inRanges] at h
  | cons r rest ih =>
    simp only [inRanges, Bool.and_eq_true, Bool.or_eq_true, decide_eq_true_eq] at h
    rcases h with ⟨hlo, hhi | hrest⟩
    · exact ⟨r, List.mem_cons_self, hlo, hhi⟩
    · obtain ⟨q, hq, hb⟩ := ih hrest
      exact ⟨q, List.mem_cons_of_mem _ hq, hb⟩

end PackedColumn.Unicode

import PackedColumn.Marker
import PackedColumn.Proofs.Offset

/-!
# Delimited parts of a text

`Delimited text start stop contents`: a `(!` stands at `start`, the first `!)` at or behind
`start + 2` ends at `stop`, and `contents` stands between the two.

`Cut before contents after` says the same of a text that is taken apart (`delimited_iff`): this is
the form in which a scan meets it, since a cut of a text that goes on from a place behind a common
start is a cut of the whole (`Cut.append`, `Cut.of_append`).
-/

namespace PackedColumn

open Text

/-- From the `(!` at `start` to the end of the first `!)` at or behind `start + 2`. -/
structure Delimited (text : List Char) (start stop : Nat) (contents : List Char) : Prop where
  occurs : OccursAt ('(' :: '!' :: (contents ++ ['!', ')'])) start text
  stop_eq : stop = start + 4 + byteLength contents
  first : ∀ k, OccursAt ['!', ')'] k text → start + 2 ≤ k → stop ≤ k + 2

namespace Marker

/-- Wherever a `!)` stands, the first one is found, and not behind it. -/
theorem splitClosing?_of_append (before after : List Char) :
    ∃ contents rest, splitClosing? (before ++ '!' :: ')' :: after) = some (contents, rest) ∧
      contents <+: before := by
  generalize hcs : before ++ '!' :: ')' :: after = cs
  fun_induction splitClosing? cs generalizing before with
  | case1 => simp at hcs
  | case2 tail => exact ⟨[], tail, rfl, List.nil_prefix⟩
  | case3 c tail hno ih =>
    cases before with
    | nil =>
      obtain ⟨rfl, rfl⟩ := List.cons_eq_cons.mp hcs
      exact (hno after rfl rfl).elim
    | cons d before =>
      obtain ⟨rfl, htail⟩ := List.cons_eq_cons.mp hcs
      obtain ⟨contents, rest, hfound, hpre⟩ := ih before htail
      exact ⟨d :: contents, rest, by rw [hfound]; rfl, List.cons_prefix_cons.mpr ⟨rfl, hpre⟩⟩

theorem splitClosing?_eq_none_iff {cs : List Char} :
    splitClosing? cs = none ↔ ∀ before after, cs ≠ before ++ '!' :: ')' :: after := by
  constructor
  · rintro h before after rfl
    obtain ⟨contents, rest, hfound, -⟩ := splitClosing?_of_append before after
    rw [h] at hfound
    cases hfound
  · intro h
    cases hfound : splitClosing? cs with
    | none => rfl
    | some found => exact (h _ _ (splitClosing?_eq_some hfound)).elim

end Marker

/-- A text that is `before`, then the delimiters with `contents` in between, then `after`, and holds
no closing delimiter between the opening one and the one behind `contents`. -/
structure Cut (text before contents after : List Char) : Prop where
  text_eq : text = before ++ '(' :: '!' :: (contents ++ '!' :: ')' :: after)
  closing : Marker.splitClosing? (contents ++ '!' :: ')' :: after) = some (contents, after)

namespace Cut

variable {text before contents after : List Char}

/-- A cut of what follows `x` is a cut of the whole. -/
theorem append (x : List Char) (h : Cut text before contents after) :
    Cut (x ++ text) (x ++ before) contents after :=
  ⟨by rw [h.text_eq, List.append_assoc], h.closing⟩

/-- A cut whose opening delimiter stands behind `x` is a cut of what follows `x`. -/
theorem of_append {x : List Char} (h : Cut (x ++ text) (x ++ before) contents after) :
    Cut text before contents after :=
  ⟨by have := h.text_eq; rw [List.append_assoc] at this; exact List.append_cancel_left this,
    h.closing⟩

/-- The place of the opening delimiter decides what stands behind it. -/
theorem unique {before' contents' after' : List Char} (h : Cut text before contents after)
    (h' : Cut text before' contents' after') (heq : byteLength before = byteLength before') :
    contents = contents' ∧ after = after' := by
  obtain ⟨-, htail⟩ := append_inj_of_byteLength (h.text_eq.symm.trans h'.text_eq) heq
  have hrest : contents ++ '!' :: ')' :: after = contents' ++ '!' :: ')' :: after' := by
    simpa using htail
  have := h.closing
  rw [hrest, h'.closing] at this
  obtain ⟨rfl, rfl⟩ : contents' = contents ∧ after' = after := by simpa using this
  exact ⟨rfl, rfl⟩

end Cut

/-- A delimited part is a cut of the text at its place. -/
theorem delimited_iff {text : List Char} {start stop : Nat} {contents : List Char} :
    Delimited text start stop contents ↔
      ∃ before after, Cut text before contents after ∧ byteLength before = start ∧
        stop = start + 4 + byteLength contents := by
  constructor
  · rintro ⟨⟨before, after, htext, hstart⟩, hstop, hfirst⟩
    have htext' : text = before ++ '(' :: '!' :: (contents ++ '!' :: ')' :: after) := by
      rw [htext]; simp
    refine ⟨before, after, ⟨htext', ?_⟩, hstart, hstop⟩
    obtain ⟨c, rest, hfound, hpre⟩ := Marker.splitClosing?_of_append contents after
    have htail := Marker.splitClosing?_eq_some hfound
    -- The `!)` that was found stands at or behind `start + 2`, so it is the one behind `contents`.
    have hle : byteLength contents ≤ byteLength c := by
      have := hfirst (start + 2 + byteLength c)
        ⟨before ++ '(' :: '!' :: c, rest, by rw [htext', htail]; simp, by
          simp [hstart, Char.utf8Size]; omega⟩ (by omega)
      omega
    obtain ⟨z, hz⟩ := hpre
    have hlen : byteLength contents = byteLength c := by
      rw [← hz, byteLength_append] at hle ⊢; omega
    obtain ⟨rfl, hrest⟩ := append_inj_of_byteLength htail hlen
    rw [hfound]
    simpa using hrest.symm
  · rintro ⟨before, after, hcut, hstart, hstop⟩
    refine ⟨⟨before, after, by rw [hcut.text_eq]; simp, hstart⟩, hstop, ?_⟩
    rintro k ⟨b, a, htext, hk⟩ hle
    have hopen : (before ++ ['(', '!']) ++ (contents ++ '!' :: ')' :: after) =
        b ++ '!' :: ')' :: a := by
      have := hcut.text_eq.symm.trans htext
      simpa using this
    obtain ⟨z, hz, htail⟩ := exists_append_of_byteLength_le hopen (by
      rw [byteLength_append, hstart, hk]; exact hle)
    obtain ⟨c, rest, hfound, hpre⟩ := Marker.splitClosing?_of_append z a
    rw [← htail, hcut.closing] at hfound
    obtain ⟨rfl, rfl⟩ : contents = c ∧ after = rest := by simpa using hfound
    obtain ⟨y, rfl⟩ := hpre
    rw [hz] at hk
    simp [hstart, Char.utf8Size] at hk
    omega

end PackedColumn

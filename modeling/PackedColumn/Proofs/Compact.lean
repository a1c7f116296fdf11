import Mathlib.Data.List.Forall2
import PackedColumn.Json.Printer
import PackedColumn.Json.Read
import PackedColumn.Proofs.Grammar

/-!
# Structures of compact texts

The compact text of a value is a JSON text of a structure that is put together like the value.

* Each character of a string is written as one piece (`pieces_escape`), and the pieces make the
  string again (`Piece.text?_ofText`), whatever characters it has.
* A text between commas is one of the tokens between commas (`spelt_listed`), so the compact text of
  an array or object is one of the structure of its items or members (`spells_array`,
  `spells_object`).
-/

namespace PackedColumn.Json

/-! ## Strings -/

namespace Piece

/-- The piece that a character is written as: a code unit if it is a control character without a
letter of its own. -/
def ofChar (c : Char) : Piece :=
  if c.toNat < 0x20 ∧ c ∉ ['\x08', '\t', '\n', '\x0c', '\r'] then .unit c.toNat else .char c

/-- The pieces that a string is written as. -/
def ofText (s : String) : List Piece := s.toList.map ofChar

theorem chars?_map_ofChar (cs : List Char) : chars? (cs.map ofChar) = some cs := by
  induction cs with
  | nil => rfl
  | cons c cs ih =>
    rw [List.map_cons, ofChar]
    split
    · next hc =>
      -- A control character is no half of a surrogate pair.
      have hunit : c.toNat < leadingStart ∨ surrogateEnd ≤ c.toNat :=
        .inl (Nat.lt_trans hc.1 (by decide))
      unfold chars?
      rw [if_pos hunit, ih, Char.ofNat_toNat]
      rfl
    · rw [chars?, ih]
      rfl

/-- The pieces that a string is written as make the string. -/
theorem text?_ofText (s : String) : text? (ofText s) = some s := by
  rw [text?, ofText, chars?_map_ofChar, Option.map_some, String.ofList_toList]

end Piece

open Token

/-- A character is written as its piece, whatever is written behind it. -/
theorem pieces_escape_append (c : Char) {ps : List Piece} {cs : List Char} (h : Pieces ps cs) :
    Pieces (.ofChar c :: ps) (escape c ++ cs) := by
  have hletter {e c : Char} (he : escaped? e = some c) (hc : Piece.ofChar c = .char c) :
      Pieces (.ofChar c :: ps) ('\\' :: e :: cs) := by
    rw [hc]
    exact .letter he h
  by_cases hescape : c ∈ ['"', '\\', '\x08', '\t', '\n', '\x0c', '\r']
  · simp only [List.mem_cons, List.not_mem_nil, or_false] at hescape
    rcases hescape with rfl | rfl | rfl | rfl | rfl | rfl | rfl <;> exact hletter rfl rfl
  · simp only [List.mem_cons, List.not_mem_nil, or_false, not_or] at hescape
    obtain ⟨hquote, hbackslash, hb, ht, hn, hf, hr⟩ := hescape
    rw [escape, if_neg hquote, if_neg hbackslash, if_neg hb, if_neg ht, if_neg hn, if_neg hf,
      if_neg hr]
    by_cases hcontrol : c.toNat < 0x20
    · have hunit : ∀ n < 0x20, unit? '0' '0' (hexDigit (n / 16)) (hexDigit (n % 16)) = some n := by
        decide
      rw [if_pos hcontrol, Piece.ofChar, if_pos ⟨hcontrol, by simp [hb, ht, hn, hf, hr]⟩]
      exact .unit (hunit _ hcontrol) h
    · rw [if_neg hcontrol, Piece.ofChar, if_neg fun hunit => hcontrol hunit.1]
      exact .plain (Nat.le_of_not_lt hcontrol) hquote hbackslash h

/-- Each character is written as its piece. -/
theorem pieces_escape (cs : List Char) : Pieces (cs.map Piece.ofChar) (cs.flatMap escape) := by
  induction cs with
  | nil => exact .nil
  | cons c cs ih => exact pieces_escape_append c ih

/-! ## Texts next to one another -/

theorem Spelt.spaces {spaces cs : List Char} (hspaces : Spaces spaces) {tokens : List Token}
    (h : Spelt tokens cs) : Spelt tokens (spaces ++ cs) := by
  have happend {more : List Char} (hmore : Spaces more) : Spaces (spaces ++ more) :=
    List.forall_mem_append.mpr ⟨hspaces, hmore⟩
  cases h with
  | nil hmore => exact .nil (happend hmore)
  | cons hmore hspells hrest =>
    rw [← List.append_assoc]
    exact .cons (happend hmore) hspells hrest

theorem Spelt.append {tokens more : List Token} {cs ds : List Char} (h : Spelt tokens cs)
    (hmore : Spelt more ds) : Spelt (tokens ++ more) (cs ++ ds) := by
  induction h with
  | nil hspaces => exact hmore.spaces hspaces
  | cons hspaces hspells _ ih =>
    rw [List.append_assoc, List.append_assoc]
    exact .cons hspaces hspells ih

/-- A token without spaces around it, in front of a text. -/
theorem Spelt.cons_append {token : Token} {tokens : List Token} {run cs : List Char}
    (h : Spells token run) (hcs : Spelt tokens cs) : Spelt (token :: tokens) (run ++ cs) :=
  .cons (show Spaces [] from nofun) h hcs

theorem Spelt.mark_cons {c : Char} {token : Token} {tokens : List Token} {cs : List Char}
    (h : mark? c = some token) (hcs : Spelt tokens cs) : Spelt (token :: tokens) (c :: cs) :=
  .cons_append (.mark h) hcs

theorem Spelt.single {token : Token} {run : List Char} (h : Spells token run) :
    Spelt [token] run := by
  have hend := Spelt.cons_append h (.nil (show Spaces [] from nofun))
  rwa [List.append_nil] at hend

/-- The texts of the parts with commas between them are a text of the parts with commas between
them. -/
theorem spelt_listed {parts : List (List Token)} {texts : List (List Char)}
    (h : List.Forall₂ Spelt parts texts) : Spelt (Raw.listed parts) (commaSeparated texts) := by
  induction h with
  | nil => exact .nil nofun
  | @cons part text parts texts hpart hparts ih =>
    cases hparts with
    | nil =>
      rw [commaSeparated, List.intercalate_singleton, Raw.listed, List.flatMap_nil, List.append_nil]
      exact hpart
    | @cons next nextText parts texts hnext hrest =>
      have hlisted : Raw.listed (part :: next :: parts) =
          part ++ .comma :: Raw.listed (next :: parts) := by
        rw [Raw.listed, List.flatMap_cons]
        rfl
      rw [hlisted, commaSeparated, List.intercalate_cons_cons, List.append_assoc]
      exact hpart.append (.mark_cons rfl ih)

/-! ## Values -/

theorem itemChars_eq (items : List Json) : itemChars items = items.map chars := by
  induction items with
  | nil => rw [itemChars]; rfl
  | cons item rest ih => rw [itemChars, ih, List.map_cons]

theorem memberChars_eq (members : List (String × Json)) :
    memberChars members = members.map fun m => quotedChars m.1 ++ ':' :: chars m.2 := by
  induction members with
  | nil => rw [memberChars]; rfl
  | cons member rest ih => rw [memberChars, ih, List.map_cons]

theorem spells_quotedChars (s : String) : Token.Spells (.string (Piece.ofText s)) (quotedChars s) :=
  .string (pieces_escape s.toList)

theorem spells_compact_iff {raw : Raw} {j : Json} :
    raw.Spells j.compact ↔ Spelt raw.tokens j.chars := by
  rw [Raw.Spells, compact, String.toList_ofList]

theorem spells_null : Raw.null.Spells Json.null.compact := by
  rw [spells_compact_iff, Raw.tokens, chars]
  exact .single .null

theorem spells_string (s : String) :
    (Raw.string (Piece.ofText s)).Spells (Json.string s).compact := by
  rw [spells_compact_iff, Raw.tokens, chars]
  exact .single (spells_quotedChars s)

theorem spells_array {items : List Json} {raws : List Raw}
    (h : List.Forall₂ (fun j raw => raw.Spells j.compact) items raws) :
    (Raw.array raws).Spells (Json.array items).compact := by
  rw [spells_compact_iff, Raw.tokens, chars, Raw.itemsTokens_eq, itemChars_eq]
  refine .mark_cons rfl (.append (spelt_listed ?_) (.single (.mark rfl)))
  rw [List.forall₂_map_left_iff, List.forall₂_map_right_iff]
  exact h.flip.imp fun _ _ hspells => spells_compact_iff.mp hspells

theorem spells_object {members : List (String × Json)} {fields : List (String × Raw)}
    (h : List.Forall₂ (fun m f => f.1 = m.1 ∧ f.2.Spells m.2.compact) members fields) :
    (Raw.object (fields.map fun f => (Piece.ofText f.1, f.2))).Spells
      (Json.object members).compact := by
  rw [spells_compact_iff, Raw.tokens, chars, Raw.membersTokens_eq, memberChars_eq, List.map_map]
  refine .mark_cons rfl (.append (spelt_listed ?_) (.single (.mark rfl)))
  rw [List.forall₂_map_left_iff, List.forall₂_map_right_iff]
  refine h.flip.imp fun f m hmember => ?_
  obtain ⟨hname, hspells⟩ := hmember
  rw [← hname]
  exact .cons_append (spells_quotedChars f.1) (.mark_cons rfl (spells_compact_iff.mp hspells))

end PackedColumn.Json

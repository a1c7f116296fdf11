import Mathlib.Algebra.Group.Int.Defs
import PackedColumn.Proofs.Incremental
import PackedColumn.Proofs.Values
import PackedColumn.Record

/-!
# Whole numbers from a dump to SQL

A whole number of 64 bits that a dump holds in decimal goes into SQL as the same decimal text
(`whole_number_survives`), whatever else stands in the dump and however deep the number does.

* The decimal text is a spelling of one number only (`number_toString_iff`), and the number is read
  without rounding: its digits are gathered to the last (`gather_eq`), and none is left for a double
  (`number?_of_number`).
* As a scalar it is written in decimal again, signed or unsigned (`literal_ofInt`).
* `Dialect.setBelow` is the text of a write around the literal. What the write and the constructor
  yield is read off their texts, in a dialect that can be read: at the path stands the literal, as
  the type of its words.

A dump is decoded only as a whole. A number elsewhere in it that is too large for a double, or half
of a surrogate pair, makes the decoding fail (`exists_ofDump_iff`), and the whole number is lost
with the rest (`whole_number_lost`).
-/

namespace PackedColumn

namespace Json

/-! ## Reading decimal digits -/

namespace NumberText

/-- Digits count at least as much as what stands before them. -/
theorem le_ofDigitChars (digits : List Char) (significand : Nat) :
    significand ≤ Nat.ofDigitChars 10 digits significand := by
  rw [Nat.ofDigitChars_eq_ofDigitChars_zero]
  have hpow : 0 < 10 ^ digits.length := Nat.pow_pos (by decide)
  exact Nat.le_add_right_of_le (Nat.le_mul_of_pos_left significand hpow)

/-- Digits whose value fits a word are gathered to the last one. -/
theorem gather_eq {digits : List Char} {significand : Nat}
    (h : Nat.ofDigitChars 10 digits significand < wordBound) :
    gather significand digits = (Nat.ofDigitChars 10 digits significand, []) := by
  induction digits generalizing significand with
  | nil => rfl
  | cons d rest ih =>
    rw [Nat.ofDigitChars_cons] at h ⊢
    rw [gather, if_pos (Nat.lt_of_le_of_lt (le_ofDigitChars rest _) h), ih h]

/-- The decimal digits of a number do not start with a zero unless it is zero. -/
theorem whole_toDigits (m : Nat) : Token.Whole (Nat.toDigits 10 m) := by
  refine ⟨⟨Nat.toDigits_ne_nil,
    fun c hc => Nat.isDigit_of_mem_toDigits (by decide) (by decide) hc⟩, ?_⟩
  induction m using Nat.strong_induction_on with
  | _ m ih =>
    intro hzero
    rw [Nat.toDigits_eq_if (by decide)] at hzero ⊢
    split
    · next hm =>
      rw [if_pos hm] at hzero
      rw [Option.some.inj hzero]
    · next hm =>
      rw [if_neg hm, List.head?_append_of_ne_nil _ Nat.toDigits_ne_nil] at hzero
      have hdigits := ih (m / 10) (by omega) hzero
      have hvalue : Nat.ofDigitChars 10 (Nat.toDigits 10 (m / 10)) 0 = 0 := by rw [hdigits]; rfl
      rw [Nat.ofDigitChars_toDigits (by decide) (by decide)] at hvalue
      omega

/-- A whole number as it is written in decimal. -/
def ofInt (n : Int) : NumberText := ⟨decide (n < 0), Nat.toDigits 10 n.natAbs, none, none⟩

theorem toList_toString (n : Int) : (toString n).toList =
    (if decide (n < 0) then ['-'] else []) ++ (Nat.toDigits 10 n.natAbs ++ ([] ++ [])) := by
  rw [List.append_nil, List.append_nil, Int.toString_eq_repr, Int.repr_eq_if]
  by_cases hn : n < 0
  · have habs : (-n).toNat = n.natAbs := by omega
    rw [if_neg (by omega), if_pos (decide_eq_true hn), habs, String.toList_append, Nat.toList_repr]
    rfl
  · have habs : n.toNat = n.natAbs := by omega
    rw [if_pos (by omega), if_neg (by simpa using hn), habs, Nat.toList_repr]
    rfl

/-- The decimal text of a whole number is a spelling of the number as it is written, and of no other
number. -/
theorem number_toString_iff {text : NumberText} {n : Int} :
    Token.Number text (toString n).toList ↔ text = ofInt n := by
  have hofInt : Token.Number (ofInt n) (toString n).toList := by
    rw [toList_toString]
    exact .mk _ (whole_toDigits _) .none .none
  refine ⟨fun h => ?_, fun h => h ▸ hofInt⟩
  -- A text is read as one number only.
  have hends : Token.Ends [] := nofun
  have hread := Token.number?_append h hends
  rw [Token.number?_append hofInt hends] at hread
  exact (Prod.mk.inj (Option.some.inj hread)).1.symm

/-- A magnitude of 64 bits and a sign make the whole number, unless it is below the signed words. -/
theorem wholeNumber?_eq {n : Int} (hlow : -2 ^ 63 ≤ n) :
    wholeNumber? (decide (n < 0)) n.natAbs = some (.whole n) := by
  rw [wholeNumber?]
  by_cases hn : n < 0
  · have hsigned : signedBound = 2 ^ 63 := rfl
    have hneg : -(n.natAbs : Int) = n := by omega
    rw [decide_eq_true hn, if_neg (by decide), if_neg (by omega), if_pos (by omega), hneg]
  · have hpos : (n.natAbs : Int) = n := by omega
    rw [decide_eq_false hn, if_pos (by decide), hpos]

/-- The decimal text of a whole number of 64 bits is read as the number. -/
theorem number?_of_number {text : NumberText} {n : Int} (h : Token.Number text (toString n).toList)
    (hlow : -2 ^ 63 ≤ n) (hhigh : n < 2 ^ 64) : text.number? = some (.whole n) := by
  have hvalue : Nat.ofDigitChars 10 (Nat.toDigits 10 n.natAbs) 0 = n.natAbs :=
    Nat.ofDigitChars_toDigits (by decide) (by decide)
  have hword : Nat.ofDigitChars 10 (Nat.toDigits 10 n.natAbs) 0 < wordBound := by
    have hbound : wordBound = 2 ^ 64 := rfl
    omega
  rw [number_toString_iff.mp h, number?, ofInt, gather_eq hword, hvalue]
  exact wholeNumber?_eq hlow

end NumberText

end Json

namespace Scalar

theorem ofInt_eq (n : Int) :
    ofInt n = if n < 2 ^ 63 then .integer n else .unsigned n.toNat := rfl

/-- A whole number is written in decimal, whether it needs the unsigned words or not. -/
theorem literal_ofInt (d : Dialect) (n : Int) : (ofInt n).literal d = toString n := by
  rw [ofInt_eq]
  split
  · rfl
  · have hn : (n.toNat : Int) = n := by omega
    exact congrArg toString hn

theorem render_defaultType_ofInt (case : TypeCase) (n : Int) :
    (ofInt n).defaultType.render case = if n < 2 ^ 63 then "INTEGER" else "UNSIGNED INTEGER" := by
  rw [render_defaultType, ofInt_eq]
  split <;> rfl

end Scalar

/-! ## The SQL around a literal -/

namespace Dialect

variable (d : Dialect) (literal cast : String)

/-- `container` with `literal` set as the entry `leaf` at the end of the walk along the keys. Each
level of the walk is read from the container above it and set back. -/
def setBelow (leaf : String) : List String → String → String
  | [], container => d.set container leaf literal cast
  | key :: keys, container =>
    d.set container key (setBelow leaf keys (d.extract container key d.intermediateType))
      d.intermediateType

end Dialect

namespace Expr

variable (d : Dialect) {s : Scalar}

theorem render_write_scalar (sql : String) (p : Path) (s : Scalar) :
    ((column sql).write p (.scalar s) none).render d =
      d.setBelow (s.literal d) (s.defaultType.render d.typeCase) p.leaf p.parents sql := by
  have hrebuild (keys : List String) (container : Expr) :
      (rebuild (writeEntry p.leaf (.scalar s) none) keys container).render d =
        d.setBelow (s.literal d) (s.defaultType.render d.typeCase) p.leaf keys
          (container.render d) := by
    induction keys generalizing container with
    | nil => rfl
    | cons key keys ih =>
      rw [rebuild, render, ih]
      rfl
  exact hrebuild p.parents (column sql)

end Expr

/-! ## From a dump to SQL -/

namespace Record

/-- The dump is a JSON text, no two keys of an object in it make the same name, it is no deeper than
the reader goes, and the decimal text of `n` stands at the end of the walk along `names`. -/
structure DumpHolds (dump : String) (raw : Json.Raw) (names : List String) (n : Int) : Prop where
  spells : raw.Spells dump
  distinct : raw.DistinctKeys
  depth : raw.depth ≤ Json.maxDepth
  holds : ∃ text, Json.Token.Number text (toString n).toList ∧
    Json.Raw.Holds (.number text) names raw

/-- The text of an object is not blank. -/
theorem trim_ne_nil_of_spells {members : List (List Json.Piece × Json.Raw)} {dump : String}
    (h : (Json.Raw.object members).Spells dump) : Text.trim dump.toList ≠ [] := by
  have hbrace : '{' ∈ dump.toList := by
    unfold Json.Raw.Spells at h
    generalize dump.toList = cs at h
    rw [Json.Raw.tokens] at h
    cases h with
    | cons _ hspells _ =>
      cases hspells with
      | @mark c _ hmark =>
        have hc : c = '{' := by
          unfold Json.Token.mark? at hmark
          split at hmark <;> first | rfl | cases hmark
        simp [hc]
  intro htrim
  obtain ⟨before, after, hbefore, hafter, htext⟩ := Text.exists_trim_eq dump.toList
  rw [htext, htrim, List.append_nil] at hbrace
  rcases List.mem_append.mp hbrace with hmem | hmem
  · exact hbefore.not_mem (by decide) hmem
  · exact hafter.not_mem (by decide) hmem

/-- A JSON text of an object that is not too deep is decoded as the value of the structure. -/
theorem ofDump_of_spells {members : List (List Json.Piece × Json.Raw)} {dump : String}
    (h : (Json.Raw.object members).Spells dump)
    (hdepth : (Json.Raw.object members).depth ≤ Json.maxDepth) :
    ofDump dump = ((Json.Raw.object members).value?.map ofJson).getD
      (.error (.invalidDump .malformed)) := by
  have hparse : Json.parse? dump = (Json.Raw.object members).value? := by
    rw [Json.parse?, Json.Raw.parse?_eq_some_iff.mpr h, Option.bind_some, if_pos hdepth]
  rw [ofDump, if_neg (by rw [List.isEmpty_iff]; exact trim_ne_nil_of_spells h), hparse]
  cases (Json.Raw.object members).value? <;> rfl

/-- It is decoded exactly if all numbers and strings in it can be read. -/
theorem exists_ofDump_iff {members : List (List Json.Piece × Json.Raw)} {dump : String}
    (h : (Json.Raw.object members).Spells dump)
    (hdepth : (Json.Raw.object members).depth ≤ Json.maxDepth) :
    (∃ r, ofDump dump = .ok r) ↔ (Json.Raw.object members).Readable := by
  rw [← Json.Raw.isSome_value?_iff, ofDump_of_spells h hdepth]
  cases hvalue : (Json.Raw.object members).value? with
  | none => exact ⟨nofun, nofun⟩
  | some j =>
    obtain ⟨es, -, rfl⟩ := Option.map_eq_some_iff.mp hvalue
    exact ⟨fun _ => rfl, fun _ => ⟨_, rfl⟩⟩

/-- A dump that holds a whole number of 64 bits, beside nothing that cannot be read, is decoded as a
record with the number in its place. -/
theorem exists_ofDump_of_holds {dump : String} {raw : Json.Raw} {names : List String} {n : Int}
    (hdump : DumpHolds dump raw names n) (hnames : names ≠ []) (hread : raw.ReadableBeside names)
    (hlow : -2 ^ 63 ≤ n) (hhigh : n < 2 ^ 64) :
    ∃ r, ofDump dump = .ok r ∧ raw.value? = some r.toJson ∧
      r.toJson.at? names = some (.number (.whole n)) := by
  obtain ⟨text, htext, hholds⟩ := hdump.holds
  obtain ⟨members, rfl⟩ : ∃ members, raw = .object members := by
    cases hholds with
    | here => exact (hnames rfl).elim
    | member => exact ⟨_, rfl⟩
  have hnumber := Json.NumberText.number?_of_number htext hlow hhigh
  have hown : (Json.Raw.number text).Readable := .number (by rw [hnumber]; rfl)
  obtain ⟨j, hvalue⟩ := Option.isSome_iff_exists.mp (Json.Raw.isSome_value?_iff.mpr
    (Json.Raw.readable_of_holds hholds hdump.distinct hread hown))
  obtain ⟨es, -, rfl⟩ := Option.map_eq_some_iff.mp hvalue
  have hdecoded : ofDump dump = .ok ⟨Entries.collect es⟩ := by
    rw [ofDump_of_spells hdump.spells hdump.depth, hvalue]
    rfl
  obtain ⟨found, hfound, hat⟩ := Json.Raw.at?_of_holds hholds hdump.distinct hvalue
  obtain rfl : .number (.whole n) = found := by
    rw [Json.Raw.value?, hnumber] at hfound
    exact Option.some.inj hfound
  exact ⟨_, hdecoded, hvalue, hat⟩

/-- A whole number of 64 bits that stands in a dump in decimal is decoded exactly, whether it needs
the unsigned words or not, if the rest of the dump can be read. Written where it was read, or with
the whole column, it is the same decimal text again, as the type of its words. -/
theorem whole_number_survives {dump : String} {raw : Json.Raw} {name : String} {p : Path} {n : Int}
    (hp : Path.parse? name = some p) (hlow : -2 ^ 63 ≤ n) (hhigh : n < 2 ^ 64)
    (hdump : DumpHolds dump raw p.segments n) (hread : raw.ReadableBeside p.segments) (d : Dialect)
    (column : String) :
    let s : Scalar := if n < 2 ^ 63 then .integer n else .unsigned n.toNat
    let cast := if n < 2 ^ 63 then "INTEGER" else "UNSIGNED INTEGER"
    let leaf : Packed := .scalar (some (toString n)) (some cast)
    ∃ r, ofDump dump = .ok r ∧ r.value name = .ok (.scalar s) ∧
      (∃ sql, (Access.writeNamed d column name (.scalar s) none).outcome = .ok sql ∧
        sql = d.setBelow (toString n) cast p.leaf p.parents column ∧
        (d.Legible → ∀ t, ∃ t', Sql.eval? d column t sql = some t' ∧
          Packed.walk p.segments t' = some leaf)) ∧
      (d.Legible → raw.ArrayFree → ∃ sql built, r.create d = .ok sql ∧
        Sql.eval? d column none sql = some built ∧ Packed.walk p.segments built = some leaf) := by
  intro s cast leaf
  obtain ⟨r, hr, hvalue, hat⟩ := exists_ofDump_of_holds hdump p.segments_ne_nil hread hlow hhigh
  have hliteral : s.literal d = toString n := Scalar.literal_ofInt d n
  have hcast : s.defaultType.render d.typeCase = cast := Scalar.render_defaultType_ofInt _ n
  have hleaf : Value.stored d none (.scalar s) = some leaf := by
    rw [Value.stored, hliteral]
    exact congrArg (fun type => some (Packed.scalar (some (toString n)) (some type))) hcast
  refine ⟨r, hr, ?_, ⟨_, Access.outcome_writeNamed d column hp _ none, ?_,
    fun hd t => ⟨_, Sql.eval?_write hd p _ _, ?_⟩⟩, fun hd harray => ?_⟩
  · rw [value, get?_of_parse? hp, hat]
    rfl
  · rw [Access.value_write, ← hliteral, ← hcast]
    exact Expr.render_write_scalar d column p s
  · rw [Packed.walk_store_self]
    exact hleaf
  · have hfree := Json.Raw.arrayFree_value? harray hvalue
    obtain ⟨sql, built, hcreate, hbuilt, hwalk⟩ :=
      Sql.exists_eval?_create column none hd hfree
    have hscalar : (r.toJson.at? p.segments).bind Json.scalar? = some s := by rw [hat]; rfl
    refine ⟨sql, built, hcreate, hbuilt, ?_⟩
    rw [Packed.walk_created_iff d (distinct_ofDump hr) hfree hwalk p.segments_ne_nil]
    exact ⟨s, hscalar, by rw [hliteral], by rw [hcast]⟩

/-- The largest unsigned word, below a key that is spelt with an escape. -/
theorem whole_number_survives_largest_word :
    let dump := "\x7b \"a\" :\t\x7b\"\\u0062\":18446744073709551615,\"c\":-1.5e3\x7d\n\x7d"
    let largest : Scalar := .unsigned 18446744073709551615
    let leaf : Packed := .scalar (some "18446744073709551615") (some "UNSIGNED INTEGER")
    ∃ raw p, Path.parse? "a.b" = some p ∧ (-2 ^ 63 : Int) ≤ 18446744073709551615 ∧
      (18446744073709551615 : Int) < 2 ^ 64 ∧
      DumpHolds dump raw p.segments 18446744073709551615 ∧ raw.ReadableBeside p.segments ∧
      raw.ArrayFree ∧ Dialect.default.Legible ∧
      ∃ r, ofDump dump = .ok r ∧ r.value "a.b" = .ok (.scalar largest) ∧
        (Access.writeNamed .default "t" "a.b" (.scalar largest) none).outcome =
          .ok ("COLUMN_ADD(t, 'a', COLUMN_ADD(COLUMN_GET(t, 'a' AS BINARY), 'b', " ++
            "18446744073709551615 AS UNSIGNED INTEGER) AS BINARY)") ∧
        ∃ sql built, r.create .default = .ok sql ∧ Sql.eval? .default "t" none sql = some built ∧
          Packed.walk ["a", "b"] built = some leaf := by
  intro dump largest leaf
  let number := Json.NumberText.ofInt 18446744073709551615
  let inner : List (List Json.Piece × Json.Raw) := [([.unit 0x62], .number number),
    ([.char 'c'], .number ⟨true, ['1'], some ['5'], some (false, ['3'])⟩)]
  let raw : Json.Raw := .object [([.char 'a'], .object inner)]
  have hp : Path.parse? "a.b" = some ⟨["a", "b"], by decide, by decide⟩ := by decide +kernel
  have hdump : DumpHolds dump raw ["a", "b"] 18446744073709551615 := by
    have hinner : (Json.Raw.object inner).DistinctKeys := by
      refine .object (by decide +kernel) ?_
      exact List.forall_mem_cons.mpr ⟨.number _, List.forall_mem_singleton.mpr (.number _)⟩
    refine ⟨Json.spelt_of_tokens? (by decide +kernel), .object (by decide +kernel) ?_, by decide,
      number, Json.NumberText.number_toString_iff.mpr rfl, ?_⟩
    · exact List.forall_mem_singleton.mpr hinner
    · exact .member List.mem_cons_self rfl (.member List.mem_cons_self rfl .here)
  have hread : raw.ReadableBeside ["a", "b"] := by
    have hb : Json.Piece.text? [.unit 0x62] = some "b" := by decide +kernel
    have hinner : (Json.Raw.object inner).ReadableBeside ["b"] := by
      refine .member (by decide +kernel) (List.forall_mem_cons.mpr ⟨fun h => (h hb).elim, ?_⟩) ?_
      · exact List.forall_mem_singleton.mpr fun _ => .number (by decide +kernel)
      · exact fun m _ _ => .here m.2
    refine .member (by decide +kernel) (List.forall_mem_singleton.mpr fun h => (h rfl).elim) ?_
    exact List.forall_mem_singleton.mpr fun _ => hinner
  have harray : raw.ArrayFree := by
    have hinner : (Json.Raw.object inner).ArrayFree :=
      .object (List.forall_mem_cons.mpr ⟨.number _, List.forall_mem_singleton.mpr (.number _)⟩)
    exact .object (List.forall_mem_singleton.mpr hinner)
  obtain ⟨r, hr, hvalue, ⟨sql, hwrite, rfl, -⟩, hcreate⟩ :=
    whole_number_survives hp (by decide) (by decide) hdump hread .default "t"
  exact ⟨raw, _, hp, by decide, by decide, hdump, hread, harray, Dialect.legible_default, r, hr,
    hvalue, hwrite, hcreate Dialect.legible_default harray⟩

/-- A whole number is lost in a dump with a member that cannot be read. -/
theorem not_decoded_beside {dump : String} (value : Json.Raw)
    (h : (Json.Raw.object [([.char 'n'], .number (.ofInt 5)), ([.char 'm'], value)]).Spells dump)
    (hdistinct : value.DistinctKeys) (hdepth : value.depth = 0) (hread : ¬ value.Readable) :
    ∃ raw p, Path.parse? "n" = some p ∧ DumpHolds dump raw p.segments 5 ∧
      ∀ r, ofDump dump ≠ .ok r := by
  have hp : Path.parse? "n" = some ⟨["n"], by decide, by decide⟩ := by decide +kernel
  have hkeys : [Json.Piece.text? [.char 'n'], Json.Piece.text? [.char 'm']].Nodup := by
    decide +kernel
  have hshallow :
      (Json.Raw.object [([.char 'n'], .number (.ofInt 5)), ([.char 'm'], value)]).depth ≤
        Json.maxDepth := by
    simp [Json.Raw.depth, Json.Raw.membersDepth, hdepth, Json.maxDepth]
  refine ⟨_, _, hp, ⟨h, .object hkeys ?_, hshallow, .ofInt 5,
    Json.NumberText.number_toString_iff.mpr rfl, .member List.mem_cons_self rfl .here⟩,
    fun r hr => ?_⟩
  · exact List.forall_mem_cons.mpr ⟨.number _, List.forall_mem_singleton.mpr hdistinct⟩
  · cases (exists_ofDump_iff h hshallow).mp ⟨r, hr⟩ with
    | object _ hvalues => exact hread (hvalues _ (List.mem_cons_of_mem _ List.mem_cons_self))

/-- The decimal text of a whole number in dumps of which nothing is decoded: a number in one is too
large for a double, and half a surrogate pair stands in the other. -/
theorem whole_number_lost :
    (∃ raw p, Path.parse? "n" = some p ∧
      DumpHolds "\x7b\"n\":5,\"m\":1e400\x7d" raw p.segments 5 ∧
      ∀ r, ofDump "\x7b\"n\":5,\"m\":1e400\x7d" ≠ .ok r) ∧
    ∃ raw p, Path.parse? "n" = some p ∧
      DumpHolds "\x7b\"n\":5,\"m\":\"\\ud800\"\x7d" raw p.segments 5 ∧
      ∀ r, ofDump "\x7b\"n\":5,\"m\":\"\\ud800\"\x7d" ≠ .ok r := by
  constructor
  · refine not_decoded_beside (.number ⟨false, ['1'], none, some (false, ['4', '0', '0'])⟩)
      (Json.spelt_of_tokens? (by decide +kernel)) (.number _) rfl ?_
    rintro (_ | _ | hnumber)
    exact absurd hnumber (by decide +kernel)
  · refine not_decoded_beside (.string [.unit 0xd800])
      (Json.spelt_of_tokens? (by decide +kernel)) (.string _) rfl ?_
    rintro (_ | _ | _ | hstring)
    exact absurd hstring (by decide +kernel)

end Record

end PackedColumn

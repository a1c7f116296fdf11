import Mathlib.Data.List.Induction
import PackedColumn.Access
import PackedColumn.Proofs.Reader

/-!
# What reads and writes yield

The texts that read and write an attribute, evaluated on a packed column (`Sql.eval?`), in any
dialect that can be read and over any text of the column.

A read is a walk along its path (`eval?_read`), and a write stores the value at the end of the walk
(`eval?_write`), although it spells out every level and reads each one from the column again. So
what a write leaves behind is what its path reads afterwards (`read_after_write`).

* The container of a call is found at the end of its openings, and gives its level of the walk
  (`container?_descend`).
* Each of the three functions does its work on the container and the key that a call starts with
  (`evalText?_get`, `evalText?_delete`, `evalText?_add_literal`, `evalText?_add_level`).
* The write of a path is the write of the rest of the path in the level of its first key, which is
  then set back (`evalText?_rebuild`).
-/

namespace PackedColumn

open Packed

namespace Sql

open Json.Token (after? after?_append after?_eq_some_iff)

variable {d : Dialect} {column : String} {t : Option Packed}

/-! ## Containers -/

/-- The last of the keys is read from the container of the others. -/
theorem render_descend_append (d : Dialect) (column : String) (keys : List String) (key : String) :
    ((Expr.column column).descend (keys ++ [key])).render d =
      d.extract (((Expr.column column).descend keys).render d) key d.intermediateType := by
  rw [Expr.descend, List.foldl_append, List.foldl_cons, List.foldl_nil, Expr.render, Expr.descend]
  rfl

/-- A nested container is not taken for the column: the first comma is too far behind. -/
theorem after?_column (hd : d.Legible) (keys : List String) (key : String) (rest : List Char) :
    after? (column.toList ++ [',', ' '])
      ((((Expr.column column).descend (keys ++ [key])).render d).toList ++ rest) = none := by
  rw [Option.eq_none_iff_forall_ne_some]
  intro behind h
  obtain ⟨levels, hlevels⟩ := d.exists_levels_eq_cons keys key d.intermediateType
  have htext : d.openings (keys.length + 1) ++ column.toList ++ ',' :: (levels ++ rest) =
      d.openings 0 ++ column.toList ++ ',' :: (' ' :: behind) := by
    have hcut := after?_eq_some_iff.mp h
    rw [Expr.toList_render_descend, List.length_append, Expr.render, Dialect.levels,
      List.flatMap_append, List.flatMap_singleton, ← Dialect.levels, hlevels] at hcut
    simpa [Dialect.openings] using hcut
  exact Nat.succ_ne_zero _ (Dialect.openings_inj hd.not_mem_comma htext)

/-- A container with a comma behind it is read, and yields what is at the end of its walk. -/
theorem container?_descend (hd : d.Legible) (keys : List String) (rest : List Char) {fuel : Nat}
    (hfuel : keys.length < fuel) :
    container? d column t fuel
      ((((Expr.column column).descend keys).render d).toList ++ ',' :: ' ' :: rest) =
        some (walk keys t, rest) := by
  obtain ⟨fuel, rfl⟩ := Nat.exists_eq_add_one_of_ne_zero (Nat.ne_zero_of_lt hfuel)
  -- The outermost call reads the last of the keys.
  induction keys using List.reverseRecOn generalizing rest fuel with
  | nil =>
    have hcolumn : after? (column.toList ++ [',', ' ']) (column.toList ++ ',' :: ' ' :: rest) =
        some rest := by
      rw [after?_eq_some_iff, List.append_assoc]
      rfl
    rw [container?, Expr.descend, List.foldl_nil, Expr.render, hcolumn]
    rfl
  | append_singleton keys key ih =>
    rw [List.length_append, List.length_singleton, Nat.add_lt_add_iff_right] at hfuel
    obtain ⟨fuel, rfl⟩ := Nat.exists_eq_add_one_of_ne_zero (Nat.ne_zero_of_lt hfuel)
    have hlevel : (((Expr.column column).descend (keys ++ [key])).render d).toList ++
        ',' :: ' ' :: rest = (d.getFunction.toList ++ ['(']) ++
          ((((Expr.column column).descend keys).render d).toList ++ ',' :: ' ' ::
            ((d.quoteString key).toList ++
              (castWord d ++ (d.intermediateType.toList ++ [')', ',', ' ']) ++ rest))) := by
      rw [render_descend_append, Dialect.toList_extract]
      simp [Dialect.opening, Dialect.argument, Dialect.typed, castWord]
    rw [container?, after?_column hd, hlevel, after?_append, walk_append]
    simp only [Option.bind_some, ih _ fuel hfuel, after?_append, Option.map_some,
      Dialect.unquote?_quoteString hd.quote_ne_backslash, String.ofList_toList]
    rfl

/-- The arguments of a call start with the container and the key. -/
theorem place?_descend (hd : d.Legible) (keys : List String) (key : String) (rest : List Char) :
    place? d column t ((((Expr.column column).descend keys).render d).toList ++
      (d.argument key ++ rest)) = some (walk keys t, key, rest) := by
  have hlong : keys.length < ((((Expr.column column).descend keys).render d).toList ++
      (d.argument key ++ rest)).length := by
    have hopenings : keys.length ≤ (d.openings keys.length).length := by
      rw [Dialect.length_openings]
      exact Nat.le_mul_of_pos_right _ (by simp [Dialect.opening])
    rw [Expr.toList_render_descend]
    simp only [List.length_append, Dialect.argument, List.length_cons]
    omega
  rw [Dialect.argument, List.cons_append, List.cons_append] at hlong ⊢
  simp only [place?, container?_descend hd keys _ hlong, Option.bind_some,
    Dialect.unquote?_quoteString hd.quote_ne_backslash, Option.map_some, String.ofList_toList]

/-! ## Calls -/

/-- What a call yields is what its function yields of the container and the key. -/
theorem evalText?_call (hd : d.Legible) {f : String} (hf : f ∈ d.functions)
    (hcreate : f ≠ d.createFunction) (keys : List String) (key : String) (rest : List Char)
    (fuel : Nat) :
    evalText? d column t (fuel + 1) (f.toList ++ '(' ::
      ((((Expr.column column).descend keys).render d).toList ++ (d.argument key ++ rest) ++
        [')'])) = perform? d (evalText? d column t fuel) f.toList (walk keys t) key rest := by
  have hnull (cs : List Char) : f.toList ++ '(' :: cs ≠ "NULL".toList := by
    intro h
    have hparen : '(' ∈ "NULL".toList := h ▸ List.mem_append_right _ List.mem_cons_self
    exact absurd hparen (by decide)
  have hname : f.toList ≠ d.createFunction.toList := fun h => hcreate (String.toList_inj.mp h)
  rw [evalText?, if_neg (hnull _), call?_append (hd.not_mem_paren f hf), Option.bind_some]
  dsimp only
  rw [if_neg hname, place?_descend hd]
  rfl

theorem evalText?_get (hd : d.Legible) (keys : List String) (key cast : String) (fuel : Nat) :
    evalText? d column t (fuel + 1)
      (d.extract (((Expr.column column).descend keys).render d) key cast).toList =
        some (entry key (walk keys t)) := by
  have htext : ∀ container, (d.extract container key cast).toList = d.getFunction.toList ++ '(' ::
      (container.toList ++ (d.argument key ++ (castWord d ++ cast.toList)) ++ [')']) := by
    simp [Dialect.toList_extract, Dialect.opening, Dialect.typed, castWord]
  obtain ⟨⟨hcreate, -, -⟩, -⟩ := hd.names_ne
  rw [htext, evalText?_call hd (by simp [Dialect.functions]) hcreate, perform?, if_pos rfl,
    after?_append]
  rfl

theorem evalText?_delete (hd : d.Legible) (keys : List String) (key : String) (fuel : Nat) :
    evalText? d column t (fuel + 1)
      (d.delete (((Expr.column column).descend keys).render d) key).toList =
        some (put key none (walk keys t)) := by
  have htext : ∀ container, (d.delete container key).toList = d.deleteFunction.toList ++ '(' ::
      (container.toList ++ (d.argument key ++ []) ++ [')']) := by
    simp [Dialect.toList_delete]
  obtain ⟨⟨-, -, hcreate⟩, -, -, hget⟩ := hd.names_ne
  rw [htext, evalText?_call hd (by simp [Dialect.functions]) hcreate, perform?,
    if_neg fun h => hget (String.toList_inj.mp h), if_pos rfl]
  rfl

/-- The call that sets an entry, with the type apart from what is set. -/
theorem toList_set_eq (d : Dialect) (container key value cast : String) :
    (d.set container key value cast).toList = d.addFunction.toList ++ '(' ::
      (container.toList ++ (d.argument key ++
        ([',', ' '] ++ (value.toList ++ (castWord d ++ cast.toList)))) ++ [')']) := by
  simp [Dialect.toList_set, Dialect.typed, castWord]

/-- What sets an entry yields what follows from reading the value. -/
theorem evalText?_add (hd : d.Legible) (keys : List String) (key value cast : String)
    (fuel : Nat) :
    evalText? d column t (fuel + 1)
      (d.set (((Expr.column column).descend keys).render d) key value cast).toList =
        match literal? d (value.toList ++ (castWord d ++ cast.toList)) with
        | some (literal, rest) =>
          (after? (castWord d) rest).map fun type =>
            put key (some (.scalar (some literal) (some (.ofList type)))) (walk keys t)
        | none =>
          (before? (castWord d ++ d.intermediateType.toList)
            (value.toList ++ (castWord d ++ cast.toList))).bind fun call =>
              (evalText? d column t fuel call).map fun level => put key level (walk keys t) := by
  obtain ⟨⟨-, hcreate, -⟩, hget, hdelete, -⟩ := hd.names_ne
  rw [toList_set_eq, evalText?_call hd (by simp [Dialect.functions]) hcreate, perform?,
    if_neg fun h => hget (String.toList_inj.mp h),
    if_neg fun h => hdelete (String.toList_inj.mp h), if_pos rfl, after?_append]
  rfl

/-- A literal is set with its type. -/
theorem evalText?_add_literal (hd : d.Legible) (keys : List String) (key : String) (s : Scalar)
    (cast : String) (fuel : Nat) :
    evalText? d column t (fuel + 1)
      (d.set (((Expr.column column).descend keys).render d) key (s.literal d) cast).toList =
        some (put key (some (.scalar (some (s.literal d)) (some cast))) (walk keys t)) := by
  have hliteral : literal? d ((s.literal d).toList ++ (castWord d ++ cast.toList)) =
      some (s.literal d, castWord d ++ cast.toList) :=
    literal?_literal hd s (d.castKeyword.toList ++ [' '] ++ cast.toList)
  rw [evalText?_add hd, hliteral]
  dsimp only
  rw [after?_append, Option.map_some, String.ofList_toList]

/-- A level is set to what its call yields. -/
theorem evalText?_add_level (hd : d.Legible) (keys : List String) (key : String) {f call : String}
    (hf : f ∈ d.functions) {arguments : List Char} (hcall : call.toList = f.toList ++ arguments)
    {fuel : Nat} {level : Option Packed}
    (hlevel : evalText? d column t fuel call.toList = some level) :
    evalText? d column t (fuel + 1)
      (d.set (((Expr.column column).descend keys).render d) key call d.intermediateType).toList =
        some (put key level (walk keys t)) := by
  have hliteral : literal? d (call.toList ++ (castWord d ++ d.intermediateType.toList)) = none := by
    rw [hcall, List.append_assoc]
    exact literal?_call hd hf _
  rw [evalText?_add hd, hliteral]
  dsimp only
  rw [before?_append, Option.bind_some, hlevel, Option.map_some]

/-! ## Reads -/

/-- A read is a walk along its path, whatever type is named. -/
theorem eval?_read (hd : d.Legible) (p : Path) (type? : Option SqlType) :
    eval? d column t (Access.read d column p type?).value = some (walk p.segments t) := by
  have hlong : (Access.read d column p type?).value.toList.length ≠ 0 := by
    rw [Access.value_read, Expr.read, Expr.render, Dialect.toList_extract]
    simp [Dialect.opening]
  obtain ⟨fuel, hfuel⟩ := Nat.exists_eq_add_one_of_ne_zero hlong
  rw [eval?, hfuel, Access.value_read, Expr.read, Expr.render, evalText?_get hd,
    ← p.parents_append_leaf, walk_append]
  rfl

/-! ## Writes -/

end Sql

/-- What a written value leaves at its path: a scalar with its literal, as the named or else its
default type, and nothing for a removal. -/
def Value.stored (d : Dialect) (type? : Option SqlType) : Value → Option Packed
  | .scalar s =>
    some (.scalar (some (s.literal d)) (some ((type?.getD s.defaultType).render d.typeCase)))
  | .absent | .null => none

theorem Value.stored_of_isRemoval (d : Dialect) {v : Value} (h : v.isRemoval)
    (type? : Option SqlType) : v.stored d type? = none := by
  cases v with
  | scalar s => cases h
  | absent | null => rfl

namespace Sql

theorem evalText?_writeEntry (hd : d.Legible) (leaf : String) (v : Value) (type? : Option SqlType)
    (keys : List String) (fuel : Nat) :
    evalText? d column t (fuel + 1)
      ((Expr.writeEntry leaf v type? ((Expr.column column).descend keys)).render d).toList =
        some (put leaf (v.stored d type?) (walk keys t)) := by
  cases v with
  | scalar s => exact evalText?_add_literal hd keys leaf s _ fuel
  | absent | null => exact evalText?_delete hd keys leaf fuel

/-- A write has more characters than levels. -/
theorem length_lt_rebuild (d : Dialect) (leaf : String) (v : Value) (type? : Option SqlType)
    (keys : List String) (container : Expr) :
    keys.length <
      ((Expr.rebuild (Expr.writeEntry leaf v type?) keys container).render d).toList.length := by
  induction keys generalizing container with
  | nil =>
    obtain ⟨f, -, arguments, hcall⟩ := Expr.exists_call_of_rebuild (k := leaf) (v := v)
      (t := type?) d [] container
    rw [hcall, List.length_append, List.length_cons]
    exact Nat.lt_add_left _ (Nat.succ_pos _)
  | cons key rest ih =>
    have hinner := ih (container.extract key .intermediate)
    simp only [Expr.rebuild, Expr.render, Dialect.toList_set, List.length_append, List.length_cons]
    omega

/-- The write below a container stores the value at the end of the walk from there: what the rest of
the keys leaves in the level of the first one is set back into the container. -/
theorem evalText?_rebuild (hd : d.Legible) (leaf : String) (v : Value) (type? : Option SqlType)
    (keys above : List String) {fuel : Nat} (hfuel : keys.length < fuel) :
    evalText? d column t fuel ((Expr.rebuild (Expr.writeEntry leaf v type?) keys
      ((Expr.column column).descend above)).render d).toList =
        some (store (v.stored d type?) (keys ++ [leaf]) (walk above t)) := by
  obtain ⟨fuel, rfl⟩ := Nat.exists_eq_add_one_of_ne_zero (Nat.ne_zero_of_lt hfuel)
  induction keys generalizing above fuel with
  | nil => exact evalText?_writeEntry hd leaf v type? above fuel
  | cons key rest ih =>
    rw [List.length_cons, Nat.add_lt_add_iff_right] at hfuel
    obtain ⟨fuel, rfl⟩ := Nat.exists_eq_add_one_of_ne_zero (Nat.ne_zero_of_lt hfuel)
    have hlevel := ih (above ++ [key]) fuel hfuel
    have hcontainer : (Expr.column column).descend (above ++ [key]) =
        ((Expr.column column).descend above).extract key .intermediate := by
      rw [Expr.descend, List.foldl_append]
      rfl
    obtain ⟨f, hf, arguments, hcall⟩ := Expr.exists_call_of_rebuild (k := leaf) (v := v)
      (t := type?) d rest ((Expr.column column).descend (above ++ [key]))
    have hfunction : f ∈ d.functions :=
      List.mem_cons_of_mem _ (List.mem_append_left [d.createFunction] hf)
    rw [hcontainer, walk_append] at hlevel
    rw [hcontainer] at hcall
    exact evalText?_add_level hd above key hfunction hcall hlevel

/-- A write stores the value at the end of the walk along its path. -/
theorem eval?_write (hd : d.Legible) (p : Path) (v : Value) (type? : Option SqlType) :
    eval? d column t (Access.write d column p v type?).value =
      some (store (v.stored d type?) p.segments t) := by
  have hlong := length_lt_rebuild d p.leaf v type? p.parents (.column column)
  rw [eval?, ← p.parents_append_leaf]
  exact evalText?_rebuild hd p.leaf v type? p.parents [] hlong

end Sql

/-- When the column is replaced by what the write of `p` yields, `p` reads the literal that was
written, or nothing at or below it after a removal, and every path apart from `p` reads what it read
before. -/
theorem read_after_write (d : Dialect) (hd : d.Legible) (column : String) (t : Option Packed)
    (p : Path) (type? : Option SqlType) (v : Value) :
    ∃ t', Sql.eval? d column t (Access.write d column p v type?).value = some t' ∧
      (∀ s r, v = .scalar s →
        Sql.eval? d column t' (Access.read d column p r).value = some (some
          (.scalar (some (s.literal d)) (some ((type?.getD s.defaultType).render d.typeCase))))) ∧
      (v.isRemoval → ∀ q r, p.segments <+: q.segments →
        Sql.eval? d column t' (Access.read d column q r).value = some none) ∧
      ∀ q r, Apart p.segments q.segments → ∃ found,
        Sql.eval? d column t (Access.read d column q r).value = some found ∧
          Sql.eval? d column t' (Access.read d column q r).value = some found := by
  refine ⟨_, Sql.eval?_write hd p v type?, ?_, ?_, fun q r hapart => ⟨_, Sql.eval?_read hd q r, ?_⟩⟩
  · rintro s r rfl
    rw [Sql.eval?_read hd, walk_store_self]
    rfl
  · rintro hremoval q r ⟨below, hq⟩
    rw [Sql.eval?_read hd, ← hq, walk_store_append, Value.stored_of_isRemoval d hremoval, walk_none]
  · rw [Sql.eval?_read hd, walk_store_of_apart hapart]

/-- An entry is written beside another, and is taken away with what is below it. -/
theorem read_after_write_sibling :
    let p : Path := ⟨["a", "b"], by decide, by decide⟩
    let q : Path := ⟨["a", "c"], by decide, by decide⟩
    let below : Path := ⟨["a", "b", "x"], by decide, by decide⟩
    let one : Packed := .scalar (some "1") (some "INTEGER")
    let t := put "a" (put "c" (some one) none) none
    let write (v : Value) := (Access.write .default "s" p v none).value
    let read (q : Path) := (Access.read .default "s" q none).value
    Dialect.default.Legible ∧ Apart p.segments q.segments ∧ p.segments <+: below.segments ∧
      write (.scalar (.integer 5)) =
        "COLUMN_ADD(s, 'a', COLUMN_ADD(COLUMN_GET(s, 'a' AS BINARY), 'b', 5 AS INTEGER) " ++
          "AS BINARY)" ∧
      read q = "COLUMN_GET(COLUMN_GET(s, 'a' AS BINARY), 'c' AS CHAR)" ∧
      (∃ set, Sql.eval? .default "s" t (write (.scalar (.integer 5))) = some set ∧
        Sql.eval? .default "s" set (read p) = some (some (.scalar (some "5") (some "INTEGER"))) ∧
        Sql.eval? .default "s" set (read q) = some (some one)) ∧
      ∃ taken, Sql.eval? .default "s" t (write .null) = some taken ∧
        Sql.eval? .default "s" taken (read below) = some none := by
  intro p q below one t write read
  have hd := Dialect.legible_default
  have hapart : Apart p.segments q.segments := by decide
  have hbelow : p.segments <+: below.segments := by decide
  obtain ⟨set, hset, hwritten, -, hother⟩ :=
    read_after_write .default hd "s" t p none (.scalar (.integer 5))
  obtain ⟨taken, htaken, -, hnothing, -⟩ := read_after_write .default hd "s" t p none .null
  obtain ⟨found, hbefore, hafter⟩ := hother q none hapart
  rw [Sql.eval?_read hd] at hbefore
  obtain rfl : some one = found := Option.some.inj hbefore
  exact ⟨hd, hapart, hbelow, by decide +kernel, by decide +kernel,
    ⟨set, hset, hwritten _ none rfl, hafter⟩, taken, htaken, hnothing rfl below none hbelow⟩

end PackedColumn

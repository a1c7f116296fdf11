import PackedColumn.Access
import PackedColumn.Proofs.Literal

/-!
# Expressions are unambiguous

The expressions that read and write an attribute are flat text, in which a key may hold any
characters and the text of the column may be any SQL. Over one column they still tell what they
address.

* A key ends where its literal ends, whatever is behind it (`argument_append_inj`).
* A read starts with as many openings of the reading function as its path has segments. An opening
  holds no comma, and what stands behind the last one up to the first comma is the same for all
  reads, so the first comma tells their number (`openings_inj`). Then the keys and the types stand
  at the same places (`levels_append_inj`).
* A write names its first key in the outermost call. What this call stores is the write of the rest
  of the path or a literal, and no literal starts like a call (`writeEntry_ne_nested`), so the texts
  are compared level by level (`rebuild_inj`).
-/

namespace PackedColumn

/-! ## Calls -/

namespace Dialect

variable (d : Dialect)

/-- A key as a further argument of a call. -/
def argument (key : String) : List Char := ',' :: ' ' :: (d.quoteString key).toList

/-- A type as the end of a call. -/
def typed (cast : String) : List Char :=
  ' ' :: (d.castKeyword.toList ++ ' ' :: (cast.toList ++ [')']))

/-- A reading call up to its container. -/
def opening : List Char := d.getFunction.toList ++ ['(']

theorem toList_extract (container key cast : String) : (d.extract container key cast).toList =
    d.opening ++ container.toList ++ (d.argument key ++ d.typed cast) := by
  simp [extract, opening, argument, typed]

theorem toList_set (container key value cast : String) :
    (d.set container key value cast).toList = d.addFunction.toList ++ '(' :: (container.toList ++
      (d.argument key ++ ',' :: ' ' :: (value.toList ++ d.typed cast))) := by
  simp [set, argument, typed]

theorem toList_delete (container key : String) : (d.delete container key).toList =
    d.deleteFunction.toList ++ '(' :: (container.toList ++ (d.argument key ++ [')'])) := by
  simp [delete, argument]

variable {d}

/-- Where an argument starts, its key is determined. -/
theorem argument_append_inj (hquote : d.stringQuote ≠ '\\') {k l : String} {x y : List Char}
    (h : d.argument k ++ x = d.argument l ++ y) : k = l ∧ x = y := by
  simp only [argument, List.cons_append, List.cons.injEq, true_and] at h
  exact quoteString_append_inj hquote h

theorem typed_inj {c e : String} (h : d.typed c = d.typed e) : c = e := by
  simpa [typed, String.toList_inj] using h

theorem set_inj (hquote : d.stringQuote ≠ '\\') {container k l x y c e : String}
    (h : d.set container k x c = d.set container l y e) :
    k = l ∧ x.toList ++ d.typed c = y.toList ++ d.typed e := by
  have htext := congrArg String.toList h
  rw [toList_set, toList_set] at htext
  have hargs := List.append_cancel_left (List.cons.inj (List.append_cancel_left htext)).2
  obtain ⟨hkey, hvalue⟩ := argument_append_inj hquote hargs
  simp only [List.cons.injEq, true_and] at hvalue
  exact ⟨hkey, hvalue⟩

theorem delete_inj (hquote : d.stringQuote ≠ '\\') {container k l : String}
    (h : d.delete container k = d.delete container l) : k = l := by
  have htext := congrArg String.toList h
  rw [toList_delete, toList_delete] at htext
  have hargs := List.append_cancel_left (List.cons.inj (List.append_cancel_left htext)).2
  exact (argument_append_inj hquote hargs).1

/-! ## Reads -/

variable (d) in
/-- The start of a read: one opening for each segment of its path. -/
def openings (n : Nat) : List Char := (List.replicate n d.opening).flatten

variable (d) in
/-- The nested levels of a read, from the innermost outwards: the key and the end of each. -/
def levels (keys : List String) : List Char :=
  keys.flatMap fun key => d.argument key ++ d.typed d.intermediateType

theorem length_openings (n : Nat) : (d.openings n).length = n * d.opening.length := by
  simp [openings]

theorem openings_succ (n : Nat) : d.openings (n + 1) = d.opening ++ d.openings n := by
  rw [openings, List.replicate_succ, List.flatten_cons, openings]

theorem openings_succ' (n : Nat) : d.openings (n + 1) = d.openings n ++ d.opening := by
  simp [openings, List.replicate_succ']

theorem not_mem_openings (hget : ',' ∉ d.getFunction.toList) (n : Nat) : ',' ∉ d.openings n := by
  intro hmem
  obtain ⟨part, hpart, hcomma⟩ := List.mem_flatten.mp hmem
  rw [(List.mem_replicate.mp hpart).2, opening, List.mem_append] at hcomma
  rcases hcomma with hcomma | hcomma
  · exact hget hcomma
  · exact absurd hcomma (by decide)

/-- A text with a comma behind it is cut at its first comma, wherever the text goes on to. -/
theorem exists_before_comma (cs : List Char) :
    ∃ w, ',' ∉ w ∧ ∀ x, ∃ y, cs ++ ',' :: x = w ++ ',' :: y := by
  by_cases hcomma : ',' ∈ cs
  · obtain ⟨w, rest, rfl, hw⟩ := List.eq_append_cons_of_mem hcomma
    exact ⟨w, hw, fun x => ⟨rest ++ ',' :: x, by simp⟩⟩
  · exact ⟨cs, hcomma, fun x => ⟨x, rfl⟩⟩

/-- The number of openings before a text is determined by the text and a comma behind it. -/
theorem openings_inj (hget : ',' ∉ d.getFunction.toList) {m n : Nat} {cs x y : List Char}
    (h : d.openings m ++ cs ++ ',' :: x = d.openings n ++ cs ++ ',' :: y) : m = n := by
  obtain ⟨w, hw, hcut⟩ := exists_before_comma cs
  obtain ⟨x', hx⟩ := hcut x
  obtain ⟨y', hy⟩ := hcut y
  rw [List.append_assoc, List.append_assoc, hx, hy, ← List.append_assoc, ← List.append_assoc] at h
  have hfree : ∀ k, ',' ∉ d.openings k ++ w := fun k hmem =>
    (List.mem_append.mp hmem).elim (not_mem_openings hget k) hw
  have hsame := (Text.append_cons_inj_of_not_mem (hfree m) (hfree n) h).1
  have hlength := congrArg List.length (List.append_cancel_right hsame)
  rw [length_openings, length_openings] at hlength
  exact Nat.eq_of_mul_eq_mul_right (by simp [opening]) hlength

/-- Levels of equal number and the leaf behind them have the same keys and the same type. -/
theorem levels_append_inj (hquote : d.stringQuote ≠ '\\') {ks ls : List String} {k l c e : String}
    (hlength : ks.length = ls.length)
    (h : d.levels ks ++ (d.argument k ++ d.typed c) = d.levels ls ++ (d.argument l ++ d.typed e)) :
    ks = ls ∧ k = l ∧ c = e := by
  induction ks generalizing ls with
  | nil =>
    obtain rfl := List.length_eq_zero_iff.mp hlength.symm
    obtain ⟨hkey, htype⟩ := argument_append_inj hquote h
    exact ⟨rfl, hkey, typed_inj htype⟩
  | cons key rest ih =>
    cases ls with
    | nil => cases hlength
    | cons key' rest' =>
      simp only [levels, List.flatMap_cons, List.append_assoc] at h
      obtain ⟨rfl, hrest⟩ := argument_append_inj hquote h
      obtain ⟨rfl, hleaf⟩ := ih (Nat.succ.inj hlength) (List.append_cancel_left hrest)
      exact ⟨rfl, hleaf⟩

/-- What stands behind the column starts with a comma. -/
theorem exists_levels_eq_cons (keys : List String) (leaf cast : String) :
    ∃ rest, d.levels keys ++ (d.argument leaf ++ d.typed cast) = ',' :: rest := by
  cases keys with
  | nil => exact ⟨_, rfl⟩
  | cons key rest => exact ⟨_, rfl⟩

end Dialect

namespace Expr

variable (d : Dialect)

theorem toList_render_descend (container : Expr) (keys : List String) :
    ((container.descend keys).render d).toList =
      d.openings keys.length ++ (container.render d).toList ++ d.levels keys := by
  induction keys generalizing container with
  | nil => simp [descend, Dialect.openings, Dialect.levels]
  | cons key rest ih =>
    have hstep : container.descend (key :: rest) =
        (container.extract key .intermediate).descend rest := rfl
    rw [hstep, ih, render, Dialect.toList_extract, List.length_cons, Dialect.openings_succ']
    simp [Dialect.levels, Cast.render]

/-- A read is its openings, the text of the container, and the key and the end of each level. -/
theorem toList_render_read (container : Expr) (path : Path) (type? : Option SqlType) :
    ((container.read path type?).render d).toList =
      d.openings path.segments.length ++ (container.render d).toList ++
        (d.levels path.parents ++
          (d.argument path.leaf ++ d.typed ((Cast.ofType? type?).render d))) := by
  have hdepth : path.segments.length = path.parents.length + 1 := by
    rw [← path.parents_append_leaf, List.length_append, List.length_singleton]
  rw [read, render, Dialect.toList_extract, toList_render_descend, hdepth, Dialect.openings_succ]
  simp only [List.append_assoc]

end Expr

/-- Reads of one column with the same text have the same path and the same type. The quote is not
the backslash, and the name of the reading function holds no comma; keys and column are any
texts. -/
theorem read_determines_path (d : Dialect) (hquote : d.stringQuote ≠ '\\')
    (hget : ',' ∉ d.getFunction.toList) (column : String) (p q : Path) (t u : Option SqlType)
    (h : (Access.read d column p t).value = (Access.read d column q u).value) :
    p.segments = q.segments ∧ (Cast.ofType? t).render d = (Cast.ofType? u).render d := by
  have htext := congrArg String.toList h
  rw [Access.value_read, Access.value_read, Expr.toList_render_read,
    Expr.toList_render_read] at htext
  have hlength : p.segments.length = q.segments.length := by
    obtain ⟨x, hx⟩ := d.exists_levels_eq_cons p.parents p.leaf ((Cast.ofType? t).render d)
    obtain ⟨y, hy⟩ := d.exists_levels_eq_cons q.parents q.leaf ((Cast.ofType? u).render d)
    rw [hx, hy] at htext
    exact Dialect.openings_inj hget htext
  rw [hlength] at htext
  have hparents : p.parents.length = q.parents.length := by
    simp only [Path.parents, List.length_dropLast, hlength]
  obtain ⟨hkeys, hleaf, hcast⟩ :=
    Dialect.levels_append_inj hquote hparents (List.append_cancel_left htext)
  rw [← p.parents_append_leaf, ← q.parents_append_leaf, hkeys, hleaf]
  exact ⟨rfl, hcast⟩

/-- A named type that is spelled like the default one gives the same text, over a column that looks
like a read. -/
theorem read_determines_path_default_type :
    let p : Path := ⟨["a", "it's', 'x' AS CHAR)"], by decide, by decide⟩
    let q : Path := ⟨Path.pieces "a.it's', 'x' AS CHAR)", by decide +kernel, by decide +kernel⟩
    let column := "COLUMN_GET(c, 'a' AS BINARY)"
    Dialect.default.stringQuote ≠ '\\' ∧ ',' ∉ Dialect.default.getFunction.toList ∧
      (Access.read .default column p none).value =
        (Access.read .default column q (some (.plain .char))).value ∧
      p.segments = q.segments ∧
      (Cast.ofType? none).render .default = (Cast.ofType? (some (.plain .char))).render .default := by
  intro p q column
  have hquote : Dialect.default.stringQuote ≠ '\\' := by decide
  have hget : ',' ∉ Dialect.default.getFunction.toList := by decide
  have htext : (Access.read .default column p none).value =
      (Access.read .default column q (some (.plain .char))).value := by decide +kernel
  exact ⟨hquote, hget, htext, read_determines_path .default hquote hget column p q none _ htext⟩

/-! ## Writes -/

/-- The literal and the type of a value as they are written; `none` for a removal. -/
def Value.written? (d : Dialect) (type? : Option SqlType) (v : Value) : Option (String × String) :=
  v.scalar?.map fun s => (s.literal d, (type?.getD s.defaultType).render d.typeCase)

theorem Dialect.set_ne_delete (container key value cast container' key' : String) :
    Dialect.default.set container key value cast ≠ Dialect.default.delete container' key' := by
  intro h
  have htext := congrArg String.toList h
  rw [toList_set, toList_delete] at htext
  simp [Dialect.default] at htext

namespace Expr

variable {k l : String} {v w : Value} {t u : Option SqlType}

/-- A written entry tells its key, its literal and its type. -/
theorem writeEntry_inj {container : Expr}
    (h : (writeEntry k v t container).render .default =
      (writeEntry l w u container).render .default) :
    k = l ∧ v.written? .default t = w.written? .default u := by
  cases v with
  | scalar s =>
    cases w with
    | scalar r =>
      obtain ⟨hkey, hvalue⟩ := Dialect.set_inj (by decide) h
      obtain ⟨hliteral, htype⟩ := Scalar.literal_append_inj rfl hvalue
      have hcast := Dialect.typed_inj (congrArg (' ' :: ·) htype)
      exact ⟨hkey, congrArg some (Prod.ext hliteral hcast)⟩
    | absent | null => exact (Dialect.set_ne_delete _ _ _ _ _ _ h).elim
  | absent | null =>
    cases w with
    | scalar r => exact (Dialect.set_ne_delete _ _ _ _ _ _ h.symm).elim
    | absent | null => exact ⟨Dialect.delete_inj (by decide) h, rfl⟩

/-- A write is a call of one of the two functions that write. -/
theorem exists_call_of_rebuild (d : Dialect) (keys : List String) (container : Expr) :
    ∃ f ∈ [d.addFunction, d.deleteFunction], ∃ arguments,
      ((rebuild (writeEntry k v t) keys container).render d).toList =
        f.toList ++ '(' :: arguments := by
  cases keys with
  | nil =>
    cases v with
    | scalar s => exact ⟨_, by simp, _, Dialect.toList_set d _ _ _ _⟩
    | absent | null => exact ⟨_, by simp, _, Dialect.toList_delete d _ _⟩
  | cons key rest => exact ⟨_, by simp, _, Dialect.toList_set d _ _ _ _⟩

/-- A written entry does not look like a write below it: no literal starts like a call. -/
theorem writeEntry_ne_nested {container : Expr} (key : String) (keys : List String) :
    (writeEntry k v t container).render .default ≠
      (rebuild (writeEntry l w u) (key :: keys) container).render .default := by
  intro h
  cases v with
  | scalar s =>
    obtain ⟨-, hvalue⟩ := Dialect.set_inj (by decide) h
    obtain ⟨f, hf, arguments, hcall⟩ := exists_call_of_rebuild (k := l) (v := w) (t := u) .default
      keys (container.extract key .intermediate)
    obtain ⟨name, hname⟩ : ∃ name, f.toList = 'C' :: name := by
      have hfirst : ∀ f ∈ [Dialect.default.addFunction, Dialect.default.deleteFunction],
          f.toList.head? = some 'C' := by decide
      exact List.head?_eq_some_iff.mp (hfirst f hf)
    rw [hcall, hname] at hvalue
    exact absurd (Scalar.head_literal rfl hvalue) (by decide)
  | absent | null => exact Dialect.set_ne_delete _ _ _ _ _ _ h.symm

/-- Writes of one container with the same text have the same keys and write the same. The keys are
compared from the outermost level inwards, over the container of each level. -/
theorem rebuild_inj {container : Expr} {ks ls : List String}
    (h : (rebuild (writeEntry k v t) ks container).render .default =
      (rebuild (writeEntry l w u) ls container).render .default) :
    ks = ls ∧ k = l ∧ v.written? .default t = w.written? .default u := by
  induction ks generalizing ls container with
  | nil =>
    cases ls with
    | nil => exact ⟨rfl, writeEntry_inj h⟩
    | cons key keys => exact (writeEntry_ne_nested key keys h).elim
  | cons key keys ih =>
    cases ls with
    | nil => exact (writeEntry_ne_nested key keys h.symm).elim
    | cons key' keys' =>
      obtain ⟨rfl, hvalue⟩ := Dialect.set_inj (by decide) h
      obtain ⟨rfl, hentry⟩ := ih (String.toList_inj.mp (List.append_cancel_right hvalue))
      exact ⟨rfl, hentry⟩

/-- A write is the operation on its innermost container, in a frame that does not depend on what is
written. -/
theorem exists_frame (d : Dialect) (container : Expr) (keys : List String) :
    ∃ before after : String, ∀ change : Expr → Expr,
      (rebuild change keys container).render d =
        before ++ (change (container.descend keys)).render d ++ after := by
  induction keys generalizing container with
  | nil => exact ⟨"", "", fun change => by simp [rebuild, descend]⟩
  | cons key rest ih =>
    obtain ⟨before, after, hframe⟩ := ih (container.extract key .intermediate)
    refine ⟨d.addFunction ++ "(" ++ container.render d ++ ", " ++ d.quoteString key ++ ", " ++
        before, after ++ " " ++ d.castKeyword ++ " " ++ d.intermediateType ++ ")",
      fun change => ?_⟩
    rw [rebuild, render, hframe, Dialect.set, Cast.render]
    simp only [String.append_assoc]
    rfl

end Expr

/-- Writes of one column with the same text have the same path, and both remove or both write the
same literal as the same type. What a write does to the innermost container stands in a frame that
depends on the path only: it is the removal for the two values that remove, and else the assignment
of the literal, whatever type is named. -/
theorem write_determines_entry (column : String) (p : Path) :
    (∀ (q : Path) (v w : Value) (t u : Option SqlType),
      (Access.write .default column p v t).value = (Access.write .default column q w u).value →
        p.segments = q.segments ∧ v.isRemoval = w.isRemoval ∧
          ∀ s r, v = .scalar s → w = .scalar r → s.literal .default = r.literal .default ∧
            (t.getD s.defaultType).render .verbatim = (u.getD r.defaultType).render .verbatim) ∧
    ∃ before after, ∀ (v : Value) (t : Option SqlType), ∃ operation,
      (Access.write .default column p v t).value = before ++ operation ++ after ∧
        let container := ((Expr.column column).descend p.parents).render .default
        (operation = Dialect.default.delete container p.leaf ↔ v = .absent ∨ v = .null) ∧
          ∀ s, v = .scalar s → operation = Dialect.default.set container p.leaf
            (s.literal .default) ((t.getD s.defaultType).render .verbatim) := by
  refine ⟨fun q v w t u h => ?_, ?_⟩
  · obtain ⟨hparents, hleaf, hwritten⟩ := Expr.rebuild_inj h
    have hsegments : p.segments = q.segments := by
      rw [← p.parents_append_leaf, ← q.parents_append_leaf, hparents, hleaf]
    refine ⟨hsegments, ?_, ?_⟩
    · cases v <;> cases w <;> simp_all [Value.written?, Value.scalar?, Value.isRemoval]
    · rintro s r rfl rfl
      exact Prod.mk.inj (Option.some.inj hwritten)
  · obtain ⟨before, after, hframe⟩ := Expr.exists_frame .default (.column column) p.parents
    refine ⟨before, after, fun v t => ⟨_, hframe (Expr.writeEntry p.leaf v t), ?_, ?_⟩⟩
    · cases v with
      | scalar s => exact ⟨fun h => (Dialect.set_ne_delete _ _ _ _ _ _ h).elim, nofun⟩
      | absent => exact ⟨fun _ => .inl rfl, fun _ => rfl⟩
      | null => exact ⟨fun _ => .inr rfl, fun _ => rfl⟩
    · rintro s rfl
      rfl

/-- A number and a truth value are written alike. -/
theorem write_determines_entry_alike :
    let p : Path := ⟨["a", "it's"], by decide, by decide⟩
    let q : Path := ⟨Path.pieces "a.it's", by decide +kernel, by decide +kernel⟩
    let number : Value := .scalar (.integer 1)
    let truth : Value := .scalar (.bool true)
    (Access.write .default "c" p number none).value =
        (Access.write .default "c" q truth (some (.plain .integer))).value ∧
      p.segments = q.segments ∧ number.isRemoval = truth.isRemoval ∧
      (Scalar.integer 1).literal .default = (Scalar.bool true).literal .default := by
  intro p q number truth
  have htext : (Access.write .default "c" p number none).value =
      (Access.write .default "c" q truth (some (.plain .integer))).value := by decide +kernel
  obtain ⟨hpath, hremoval, hliteral⟩ := (write_determines_entry "c" p).1 q _ _ _ _ htext
  exact ⟨htext, hpath, hremoval, (hliteral _ _ rfl rfl).1⟩

end PackedColumn

import PackedColumn.Json.Nesting
import PackedColumn.Proofs.Tokens

/-!
# JSON texts of a structure

`Raw.tokens` are the tokens of a structure, by the grammar of JSON. `Raw.Spells raw text` says that
`text` is a JSON text of the structure: a text of these tokens. The reading of a text is sound and
complete: it gives exactly the structures that the text spells (`parse?_eq_some_iff`).

* Where a value has to start, its tokens are read as the value whatever is open around it
  (`reads`), and so are the items and members that are left of an array or object
  (`afterValue_items`, `afterValue_members`).
* In the other direction the frames of the reading stand for the tokens that are behind it
  (`opened`), and no step loses one.
-/

namespace PackedColumn.Json

namespace Raw

/-- What holds of the values without parts, and of an array or object if it holds of all of its
parts, holds of every structure. -/
@[induction_eliminator]
theorem induction {P : Raw → Prop} (null : P .null) (bool : ∀ b, P (.bool b))
    (number : ∀ text, P (.number text)) (string : ∀ pieces, P (.string pieces))
    (array : ∀ items, (∀ item ∈ items, P item) → P (.array items))
    (object : ∀ members, (∀ member ∈ members, P member.2) → P (.object members)) (raw : Raw) :
    P raw :=
  @rec P (fun items => ∀ item ∈ items, P item) (fun members => ∀ member ∈ members, P member.2)
    (fun member => P member.2) null bool number string array object nofun
    (fun _ _ hitem hrest => List.forall_mem_cons.mpr ⟨hitem, hrest⟩) nofun
    (fun _ _ hmember hrest => List.forall_mem_cons.mpr ⟨hmember, hrest⟩) (fun _ _ h => h) raw

/-! ## Tokens of a structure -/

/-- The parts with commas between them. -/
def listed : List (List Token) → List Token
  | [] => []
  | part :: rest => part ++ rest.flatMap (.comma :: ·)

mutual

/-- The tokens of a structure. -/
def tokens : Raw → List Token
  | .null => [.null]
  | .bool b => [.bool b]
  | .number text => [.number text]
  | .string pieces => [.string pieces]
  | .array items => .openArray :: (listed (itemsTokens items) ++ [.closeArray])
  | .object members => .openObject :: (listed (membersTokens members) ++ [.closeObject])

/-- The tokens of each item. -/
def itemsTokens : List Raw → List (List Token)
  | [] => []
  | item :: rest => item.tokens :: itemsTokens rest

/-- The tokens of each member. -/
def membersTokens : List (List Piece × Raw) → List (List Token)
  | [] => []
  | (key, value) :: rest => (.string key :: .colon :: value.tokens) :: membersTokens rest

end

/-- The JSON texts of a structure. -/
def Spells (raw : Raw) (text : String) : Prop := Spelt raw.tokens text.toList

theorem itemsTokens_eq (items : List Raw) : itemsTokens items = items.map tokens := by
  induction items with
  | nil => rw [itemsTokens]; rfl
  | cons item rest ih => rw [itemsTokens, ih, List.map_cons]

theorem membersTokens_eq (members : List (List Piece × Raw)) :
    membersTokens members = members.map fun m => .string m.1 :: .colon :: m.2.tokens := by
  induction members with
  | nil => rw [membersTokens]; rfl
  | cons member rest ih => rw [membersTokens, ih, List.map_cons]

/-! ## No number follows another -/

theorem separated_append {xs ys : List Token} (hxs : Separated xs) (hys : Separated ys)
    (h : ∀ token ∈ ys.head?, token.isNumber = false) : Separated (xs ++ ys) :=
  List.isChain_append.mpr ⟨hxs, hys, fun _ _ y hy _ => h y hy⟩

theorem separated_cons {token : Token} {ys : List Token} (htoken : token.isNumber = false)
    (hys : Separated ys) : Separated (token :: ys) :=
  List.isChain_cons.mpr ⟨fun _ _ hnumber => absurd hnumber (by rw [htoken]; nofun), hys⟩

/-- Behind a part stands a comma, or what closes the list. -/
theorem head_following (parts : List (List Token)) (close : Token) (rest : List Token) :
    ∀ token ∈ (parts.flatMap (.comma :: ·) ++ close :: rest).head?,
      token = .comma ∨ token = close := by
  cases parts with
  | nil => rintro _ ⟨⟩; exact .inr rfl
  | cons part parts => rintro _ ⟨⟩; exact .inl rfl

theorem separated_listed {parts : List (List Token)} (h : ∀ part ∈ parts, Separated part)
    {close : Token} (hclose : close.isNumber = false) : Separated (listed parts ++ [close]) := by
  have happend {part : List Token} (hpart : Separated part) {rest : List (List Token)}
      (hrest : Separated (rest.flatMap (.comma :: ·) ++ [close])) :
      Separated (part ++ (rest.flatMap (.comma :: ·) ++ [close])) := by
    refine separated_append hpart hrest fun token hmem => ?_
    rcases head_following rest close [] token hmem with rfl | rfl
    · rfl
    · exact hclose
  have hfollowing {rest : List (List Token)} (hrest : ∀ part ∈ rest, Separated part) :
      Separated (rest.flatMap (.comma :: ·) ++ [close]) := by
    induction rest with
    | nil => exact List.isChain_singleton _
    | cons part rest ih =>
      obtain ⟨hpart, hrest⟩ := List.forall_mem_cons.mp hrest
      rw [List.flatMap_cons, List.append_assoc]
      exact separated_cons rfl (happend hpart (ih hrest))
  cases parts with
  | nil => exact List.isChain_singleton _
  | cons part parts =>
    obtain ⟨hpart, hparts⟩ := List.forall_mem_cons.mp h
    rw [listed, List.append_assoc]
    exact happend hpart (hfollowing hparts)

theorem separated_tokens (raw : Raw) : Separated raw.tokens := by
  induction raw with
  | null | bool | number | string => exact List.isChain_singleton _
  | array items ih =>
    rw [tokens, itemsTokens_eq]
    exact separated_cons rfl (separated_listed (List.forall_mem_map.mpr ih) rfl)
  | object members ih =>
    have hmember : ∀ member ∈ members,
        Separated (.string member.1 :: .colon :: member.2.tokens) :=
      fun member hmem => separated_cons rfl (separated_cons rfl (ih member hmem))
    rw [tokens, membersTokens_eq]
    exact separated_cons rfl (separated_listed (List.forall_mem_map.mpr hmember) rfl)

/-! ## Every text of a structure is read as it -/

/-- The tokens are read as the value, whatever is open around it. -/
def Reads (raw : Raw) : Prop :=
  ∀ frames rest, expectValue frames (raw.tokens ++ rest) = afterValue frames raw rest

/-- No value starts like the end of an array. -/
theorem tokens_append_ne_close (raw : Raw) (ts rest : List Token) :
    raw.tokens ++ ts ≠ .closeArray :: rest := by
  cases raw <;> simp [tokens]

/-- A value is no key unless a colon stands behind it. -/
theorem tokens_append_ne_key (raw : Raw) {ts : List Token} (hts : .colon ∉ ts.head?)
    (key : List Piece) (rest : List Token) : raw.tokens ++ ts ≠ .string key :: .colon :: rest := by
  cases raw with
  | string pieces =>
    rw [tokens, List.singleton_append]
    rintro ⟨⟩
    exact hts rfl
  | null | bool | number | array | object => simp [tokens]

/-- The items that are left of an array are read up to its end. -/
theorem afterValue_items {items : List Raw} (h : ∀ item ∈ items, Reads item) (done : List Raw)
    (value : Raw) (frames : List Frame) (rest : List Token) :
    afterValue (.array done :: frames) value
        ((items.map tokens).flatMap (.comma :: ·) ++ .closeArray :: rest) =
      afterValue frames (.array (done.reverse ++ value :: items)) rest := by
  induction items generalizing done value with
  | nil =>
    rw [List.map_nil, List.flatMap_nil, List.nil_append, afterValue, List.reverse_cons]
  | cons item items ih =>
    obtain ⟨hitem, hitems⟩ := List.forall_mem_cons.mp h
    have hfollowing := head_following (items.map tokens) .closeArray rest
    have hkey := tokens_append_ne_key item fun hcolon =>
      (hfollowing .colon hcolon).elim nofun nofun
    rw [List.map_cons, List.flatMap_cons, List.append_assoc, List.cons_append, afterValue, hitem,
      ih hitems, List.reverse_cons, List.append_assoc, List.singleton_append]
    exact hkey

/-- The members that are left of an object are read up to its end. -/
theorem afterValue_members {members : List (List Piece × Raw)} (h : ∀ m ∈ members, Reads m.2)
    (done : List (List Piece × Raw)) (key : List Piece) (value : Raw) (frames : List Frame)
    (rest : List Token) :
    afterValue (.object done key :: frames) value
        ((membersTokens members).flatMap (.comma :: ·) ++ .closeObject :: rest) =
      afterValue frames (.object (done.reverse ++ (key, value) :: members)) rest := by
  induction members generalizing done key value with
  | nil => rw [membersTokens, List.flatMap_nil, List.nil_append, afterValue, List.reverse_cons]
  | cons member members ih =>
    obtain ⟨hmember : Reads member.2, hmembers⟩ := List.forall_mem_cons.mp h
    rw [membersTokens, List.flatMap_cons, List.append_assoc, List.cons_append, List.cons_append,
      List.cons_append, afterValue, hmember, ih hmembers, List.reverse_cons, List.append_assoc,
      List.singleton_append]

theorem reads (raw : Raw) : Reads raw := by
  induction raw with
  | null | bool | number | string =>
    intro frames rest
    rw [tokens, List.singleton_append, expectValue]
  | array items ih =>
    intro frames rest
    rw [tokens, itemsTokens_eq, List.cons_append, List.append_assoc, List.singleton_append]
    cases items with
    | nil => rw [List.map_nil, listed, List.nil_append, expectValue]
    | cons item items =>
      obtain ⟨hitem, hitems⟩ := List.forall_mem_cons.mp ih
      rw [List.map_cons, listed, List.append_assoc, expectValue, hitem, afterValue_items hitems]
      · rfl
      · exact fun _ => tokens_append_ne_close item _ _
  | object members ih =>
    intro frames rest
    rw [tokens, List.cons_append, List.append_assoc, List.singleton_append]
    cases members with
    | nil => rw [membersTokens, listed, List.nil_append, expectValue]
    | cons member members =>
      obtain ⟨hmember : Reads member.2, hmembers⟩ := List.forall_mem_cons.mp ih
      rw [membersTokens, listed, List.append_assoc, List.cons_append, List.cons_append, expectValue,
        hmember, afterValue_members hmembers]
      rfl

/-! ## Every text that is read is a text of the structure -/

/-- The tokens that were read when `frames` were left open, the innermost frame last. -/
def opened : List Frame → List Token
  | [] => []
  | .array items :: outer =>
    opened outer ++ .openArray :: items.reverse.flatMap fun item => item.tokens ++ [.comma]
  | .object members key :: outer =>
    opened outer ++ .openObject ::
      ((members.reverse.flatMap fun m => .string m.1 :: .colon :: (m.2.tokens ++ [.comma])) ++
        [.string key, .colon])

/-- A value that ends in front of a comma is one more item that was read. -/
theorem opened_array_cons (item : Raw) (items : List Raw) (outer : List Frame) :
    opened (.array (item :: items) :: outer) =
      opened (.array items :: outer) ++ (item.tokens ++ [.comma]) := by
  simp [opened]

/-- A value that ends in front of a comma and a key is one more member that was read. -/
theorem opened_object_cons (last key : List Piece) (value : Raw)
    (members : List (List Piece × Raw)) (outer : List Frame) :
    opened (.object ((last, value) :: members) key :: outer) =
      opened (.object members last :: outer) ++
        (value.tokens ++ [.comma, .string key, .colon]) := by
  simp [opened]

/-- A list of parts and one more behind it. -/
theorem listed_concat (parts : List (List Token)) (part : List Token) :
    listed (parts ++ [part]) = (parts.flatMap fun part => part ++ [.comma]) ++ part := by
  have hbehind (parts : List (List Token)) : (parts ++ [part]).flatMap (Token.comma :: ·) =
      .comma :: ((parts.flatMap fun part => part ++ [.comma]) ++ part) := by
    induction parts with
    | nil => simp
    | cons first parts ih => simp [ih]
  cases parts with
  | nil => simp [listed]
  | cons first parts => simp [listed, hbehind]

theorem tokens_array_concat (items : List Raw) (item : Raw) :
    (array (item :: items).reverse).tokens = .openArray ::
      ((items.reverse.flatMap fun item => item.tokens ++ [.comma]) ++
        (item.tokens ++ [.closeArray])) := by
  rw [tokens, itemsTokens_eq, List.reverse_cons, List.map_append, List.map_singleton, listed_concat,
    List.flatMap_map, List.append_assoc]

theorem tokens_object_concat (members : List (List Piece × Raw)) (key : List Piece) (value : Raw) :
    (object ((key, value) :: members).reverse).tokens = .openObject ::
      ((members.reverse.flatMap fun m => .string m.1 :: .colon :: (m.2.tokens ++ [.comma])) ++
        (.string key :: .colon :: (value.tokens ++ [.closeObject]))) := by
  rw [tokens, membersTokens_eq, List.reverse_cons, List.map_append, List.map_singleton,
    listed_concat, List.flatMap_map, List.append_assoc]
  rfl

/-- No token is lost between the frames, the value at hand and what is left to read. -/
theorem tokens_of_expectValue_afterValue :
    (∀ frames ts, ∀ raw, expectValue frames ts = some raw → raw.tokens = opened frames ++ ts) ∧
    (∀ frames value ts, ∀ raw, afterValue frames value ts = some raw →
      raw.tokens = opened frames ++ (value.tokens ++ ts)) := by
  apply expectValue.mutual_induct
  -- An empty array or object.
  case case1 | case3 =>
    intro frames rest ih raw h
    rw [expectValue] at h
    rw [ih raw h]
    rfl
  -- An array or object is opened.
  case case2 =>
    intro frames rest hclose ih raw h
    rw [expectValue] at h
    · rw [ih raw h, opened, List.append_assoc]
      rfl
    · exact hclose
  case case4 =>
    intro frames key rest ih raw h
    rw [expectValue] at h
    rw [ih raw h, opened, List.append_assoc]
    rfl
  -- A value without parts.
  case case5 =>
    intro frames rest ih raw h
    rw [expectValue] at h
    rw [ih raw h]
    rfl
  case case6 | case7 | case8 =>
    intro frames part rest ih raw h
    rw [expectValue] at h
    rw [ih raw h]
    rfl
  -- The text ends behind a value.
  case case10 =>
    intro value raw h
    rw [afterValue] at h
    rw [Option.some.inj h, List.append_nil]
    rfl
  -- A comma behind a member or an item.
  case case12 =>
    intro value key rest members last outer ih raw h
    rw [afterValue] at h
    rw [ih raw h, opened_object_cons, List.append_assoc, List.append_assoc]
    rfl
  case case14 =>
    intro value rest hkey items outer ih raw h
    rw [afterValue] at h
    · rw [ih raw h, opened_array_cons, List.append_assoc, List.append_assoc]
      rfl
    · exact hkey
  -- An array or object is closed.
  case case16 =>
    intro value rest items outer ih raw h
    rw [afterValue] at h
    rw [ih raw h, tokens_array_concat, opened]
    simp
  case case18 =>
    intro value rest members last outer ih raw h
    rw [afterValue] at h
    rw [ih raw h, tokens_object_concat, opened]
    simp
  -- Anything else is no JSON text.
  case case9 =>
    intros
    rename_i h
    rw [expectValue] at h <;> first | assumption | cases h
  all_goals
    intros
    rename_i h
    rw [afterValue] at h <;> first | assumption | cases h

/-- A text is read as exactly the structure whose text it is. -/
theorem parse?_eq_some_iff {text : String} {raw : Raw} :
    parse? text = some raw ↔ raw.Spells text := by
  rw [parse?, Option.bind_eq_some_iff]
  constructor
  · rintro ⟨ts, hts, hraw⟩
    have htokens := tokens_of_expectValue_afterValue.1 [] ts raw hraw
    rw [Spells, htokens]
    exact spelt_of_tokens? hts
  · intro h
    refine ⟨raw.tokens, tokens?_of_spelt h (separated_tokens raw), ?_⟩
    have hread := reads raw [] []
    rw [List.append_nil, afterValue] at hread
    exact hread

end Raw

end PackedColumn.Json

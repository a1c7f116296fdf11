import PackedColumn.Proofs.Contents
import PackedColumn.Proofs.Members
import PackedColumn.Proofs.Packed

/-!
# What setting and taking out do along a path

A value that is set, or taken out, at the end of a path is reached through the levels above it. Seen
from any of these levels the rest of the path is a path of its own, and the same happens there
(`at?_setAt_append`, `exists_level_of_takeAt?`). Two paths apart leave each other at some level, and
what the other one reads below it stays as it was (`at?_setAt_of_apart`, `at?_of_takeAt?_of_apart`).

So every name reads after `set` what the value, the record before, or the one level in between says
(`get?_after_set`).
-/

namespace PackedColumn

/-- Paths apart share the levels above some level and leave it under different keys. -/
theorem exists_fork_of_apart {ks qs : List String} (h : Apart ks qs) :
    ∃ shared k ks' q qs', k ≠ q ∧ ks = shared ++ k :: ks' ∧ qs = shared ++ q :: qs' := by
  induction ks generalizing qs with
  | nil => exact (h.1 List.nil_prefix).elim
  | cons k ks ih =>
    cases qs with
    | nil => exact (h.2 List.nil_prefix).elim
    | cons q qs =>
      by_cases hkq : k = q
      · obtain ⟨shared, k', ks', q', qs', hne, rfl, rfl⟩ := ih (apart_cons.mp h hkq)
        exact ⟨k :: shared, k', ks', q', qs', hne, rfl, by rw [hkq]; rfl⟩
      · exact ⟨[], k, ks, q, qs, hkq, rfl, rfl⟩

namespace Path

/-- A name spells the path of its pieces. -/
theorem parse?_eq_some_iff {name : String} {path : Path} :
    parse? name = some path ↔ path.segments = pieces name := ofSegments?_eq_some_iff

/-- A name spells no path when it is empty or one of its pieces is. -/
theorem parse?_eq_none_iff {name : String} :
    parse? name = none ↔ name = "" ∨ "" ∈ pieces name := by
  constructor
  · intro h
    by_contra hpieces
    obtain ⟨-, hmem⟩ := not_or.mp hpieces
    have hne : ∀ s ∈ pieces name, s ≠ "" := by
      rintro s hs rfl
      exact hmem hs
    have hsome : parse? name = some ⟨pieces name, pieces_ne_nil name, hne⟩ :=
      parse?_eq_some_iff.mpr rfl
    rw [h] at hsome
    cases hsome
  · intro h
    cases hparse : parse? name with
    | none => rfl
    | some path =>
      have hmem : "" ∈ pieces name := by
        rcases h with rfl | h
        · decide
        · exact h
      rw [← parse?_eq_some_iff.mp hparse] at hmem
      exact (path.ne_empty_of_mem _ hmem rfl).elim

end Path

namespace Entries

variable {α : Type}

/-- The entries of all other names, in their order. -/
def others (key : String) (es : Entries α) : Entries α := es.filter fun e => e.1 ≠ key

/-- Putting a value concerns no other name. -/
theorem others_put (key : String) (value : α) (es : Entries α) :
    others key (put key value es) = others key es := by
  induction es with
  | nil => simp [put, others]
  | cons e rest ih =>
    obtain ⟨k, v⟩ := e
    rw [put]
    split
    · next hk => simp [others, hk]
    · next hk =>
      unfold others at ih ⊢
      rw [List.filter_cons, ih, List.filter_cons]

theorem get?_append (key : String) (xs ys : Entries α) :
    get? key (xs ++ ys) = (get? key xs).or (get? key ys) := by
  induction xs with
  | nil => rfl
  | cons e rest ih =>
    obtain ⟨k, v⟩ := e
    rw [List.cons_append, get?, get?]
    split
    · rfl
    · exact ih

/-- What is taken is the first entry of its name; those before and behind it are left. -/
theorem exists_append_of_take? {key : String} {value : α} {es rest : Entries α}
    (h : take? key es = some (value, rest)) :
    ∃ before after, es = before ++ (key, value) :: after ∧ rest = before ++ after ∧
      key ∉ names before := by
  induction es generalizing rest with
  | nil => cases h
  | cons e tail ih =>
    obtain ⟨k, v⟩ := e
    rw [take?] at h
    split at h
    · next hk =>
      obtain ⟨rfl, rfl⟩ : v = value ∧ tail = rest := by simpa using h
      exact ⟨[], tail, by rw [hk]; rfl, rfl, List.not_mem_nil⟩
    · next hk =>
      obtain ⟨⟨value', rest'⟩, htake, he⟩ := Option.map_eq_some_iff.mp h
      obtain ⟨rfl, rfl⟩ : value' = value ∧ (k, v) :: rest' = rest := by simpa using he
      obtain ⟨before, after, rfl, rfl, hbefore⟩ := ih htake
      refine ⟨(k, v) :: before, after, rfl, rfl, ?_⟩
      intro hmem
      rcases List.mem_cons.mp hmem with hkey | hmem
      · exact hk hkey.symm
      · exact hbefore hmem

/-- Taking an entry leaves the values of all other names. -/
theorem get?_of_take?_of_ne {key k : String} {value : α} {es rest : Entries α}
    (h : take? key es = some (value, rest)) (hk : key ≠ k) : get? k rest = get? k es := by
  obtain ⟨before, after, rfl, rfl, -⟩ := exists_append_of_take? h
  rw [get?_append, get?_append, get?, if_neg hk]

end Entries

namespace Json

/-! ## Seen from a level of the path -/

/-- A walk in two parts. -/
theorem at?_append (names below : List String) (j : Json) :
    at? (names ++ below) j = (at? names j).bind (at? below) := by
  induction names generalizing j with
  | nil => rfl
  | cons name rest ih =>
    rw [List.cons_append, at?_cons, at?_cons]
    cases Entries.get? name j.members with
    | none => rfl
    | some child => exact ih child

/-- A walk that has to leave null leads nowhere. -/
theorem at?_cons_null (name : String) (rest : List String) : at? (name :: rest) null = none := rfl

/-- A level that a walk leaves may as well be null when it is missing. -/
theorem at?_cons_getD (name : String) (rest : List String) (level? : Option Json) :
    at? (name :: rest) (level?.getD .null) = level?.bind (at? (name :: rest)) := by
  cases level? with
  | none => exact at?_cons_null name rest
  | some level => rfl

/-- Seen from a level of the path, a value is set at the end of the rest of it. A missing level
counts as null. -/
theorem at?_setAt_append (value : Json) (above below : List String) (j : Json) :
    at? above (setAt value (above ++ below) j) =
      some (setAt value below ((at? above j).getD .null)) := by
  induction above generalizing j with
  | nil => rfl
  | cons name rest ih =>
    rw [List.cons_append, setAt, at?_cons, members, Entries.get?_put, if_pos rfl, Option.bind_some,
      ih, at?_cons]
    cases Entries.get? name j.members with
    | some child => rfl
    | none =>
      -- Where nothing stands the walk goes on from null, and finds nothing but null itself.
      cases rest with
      | nil => rfl
      | cons next rest => rfl

/-- Seen from a level of the path, a value is taken out at the end of the rest of it. -/
theorem exists_level_of_takeAt? {above below : List String} (hbelow : below ≠ [])
    {j removed rest : Json} (h : takeAt? (above ++ below) j = some (removed, rest)) :
    ∃ level left, at? above j = some level ∧ takeAt? below level = some (removed, left) ∧
      at? above rest = some left := by
  induction above generalizing j rest with
  | nil => exact ⟨j, rest, rfl, h, rfl⟩
  | cons name above ih =>
    rcases takeAt?_cons_cases h with ⟨hnil, -⟩ | ⟨child, left, hget, htake, rfl⟩
    · exact (hbelow (List.append_eq_nil_iff.mp hnil).2).elim
    · obtain ⟨level, left', hlevel, htaken, hleft⟩ := ih htake
      refine ⟨level, left', ?_, htaken, ?_⟩
      · rw [at?_cons, hget]
        exact hlevel
      · rw [at?_cons, members, Entries.get?_put, if_pos rfl]
        exact hleft

/-! ## Paths apart -/

/-- A value that is set concerns no path apart from its own. -/
theorem at?_setAt_of_apart {names others : List String} (h : Apart names others)
    (value j : Json) : at? others (setAt value names j) = at? others j := by
  obtain ⟨shared, k, ks, q, qs, hkq, rfl, rfl⟩ := exists_fork_of_apart h
  rw [at?_append, at?_setAt_append, Option.bind_some, at?_append, ← at?_cons_getD, setAt, at?_cons,
    members, Entries.get?_put, if_neg hkq.symm, ← at?_cons]

/-- A value that is taken out concerns no path apart from its own. -/
theorem at?_of_takeAt?_of_apart {names others : List String} (h : Apart names others)
    {j removed rest : Json} (htake : takeAt? names j = some (removed, rest)) :
    at? others rest = at? others j := by
  obtain ⟨shared, k, ks, q, qs, hkq, rfl, rfl⟩ := exists_fork_of_apart h
  obtain ⟨level, left, hlevel, htaken, hleft⟩ :=
    exists_level_of_takeAt? (List.cons_ne_nil k ks) htake
  rw [at?_append, at?_append, hlevel, hleft, Option.bind_some, Option.bind_some, at?_cons, at?_cons]
  rcases takeAt?_cons_cases htaken with ⟨-, rest, hfound, rfl⟩ | ⟨child, left, -, -, rfl⟩
  · rw [members, Entries.get?_of_take?_of_ne hfound hkq]
  · rw [members, Entries.get?_put, if_neg hkq.symm]

end Json

/-! ## Reading after a set -/

namespace Record

/-- A name that spells a path reads what stands at the end of the walk along its pieces. -/
theorem get?_eq_bind (r : Record) (name : String) :
    r.get? name = (Path.parse? name).bind fun _ => r.toJson.at? (Path.pieces name) := by
  cases hp : Path.parse? name with
  | none => rw [get?, hp, Option.bind_none, Option.bind_none]
  | some p => rw [get?_of_parse? hp, Path.parse?_eq_some_iff.mp hp, Option.bind_some]

/-- Setting fails for a name that spells no path. -/
theorem set_of_parse?_eq_none {name : String} (h : Path.parse? name = none) (r : Record)
    (value : Json) : r.set name value = .error (.invalidPath name) := by
  rw [set, Path.parse, h]
  rfl

/-- Setting fails exactly for the names that are empty or have an empty piece. After any other `set`
a name at or below the attribute reads what the value has there, a name apart from it reads what it
read before, and a name above it reads an object that leads on to the value and has the other
members that stood there before, if an object did. -/
theorem get?_after_set (r : Record) (name : String) (value : Json) :
    (r.set name value = .error (.invalidPath name) ↔ name = "" ∨ "" ∈ Path.pieces name) ∧
      (¬ (name = "" ∨ "" ∈ Path.pieces name) →
        ∃ r' p, r.set name value = .ok r' ∧ Path.parse? name = some p ∧
          ∀ other q, Path.parse? other = some q →
            (∀ below, q.segments = p.segments ++ below → r'.get? other = value.at? below) ∧
              (Apart p.segments q.segments → r'.get? other = r.get? other) ∧
              ∀ key below, p.segments = q.segments ++ key :: below →
                ∃ members, r'.get? other = some (.object members) ∧
                  (Json.object members).at? (key :: below) = some value ∧
                  Entries.others key members =
                    Entries.others key ((r.get? other).getD .null).members) := by
  rw [← Path.parse?_eq_none_iff]
  cases hp : Path.parse? name with
  | none => exact ⟨⟨fun _ => rfl, fun _ => set_of_parse?_eq_none hp r value⟩, fun h => (h rfl).elim⟩
  | some p =>
    obtain ⟨r', hset, hjson⟩ := toJson_set (r := r) hp value
    refine ⟨?_, fun _ => ⟨r', p, hset, rfl, fun other q hq => ⟨?_, ?_, ?_⟩⟩⟩
    · rw [hset]
      exact ⟨nofun, nofun⟩
    · intro below hbelow
      rw [get?_of_parse? hq, hjson, hbelow, Json.at?_append, Json.at?_setAt]
      rfl
    · intro hapart
      rw [get?_of_parse? hq, get?_of_parse? hq, hjson]
      exact Json.at?_setAt_of_apart hapart value r.toJson
    · intro key below hbelow
      rw [get?_of_parse? hq, get?_of_parse? hq, hjson, hbelow, Json.at?_setAt_append]
      exact ⟨_, rfl, Json.at?_setAt value (key :: below) _, Entries.others_put _ _ _⟩

/-- An object is set below a text, which gives way to it, and beside another member. -/
theorem get?_after_set_below_text :
    let r : Record := ⟨[("a", .object [("b", .string "x"), ("keep", .bool true)])]⟩
    let value : Json := .object [("d", .bool false)]
    ¬ ("a.b.c" = "" ∨ "" ∈ Path.pieces "a.b.c") ∧
      ∃ r', r.set "a.b.c" value = .ok r' ∧ r'.get? "a.b.c.d" = some (.bool false) ∧
        r'.get? "a.keep" = some (.bool true) ∧
        ∃ members, r'.get? "a" = some (.object members) ∧
          (Json.object members).at? ["b", "c"] = some value ∧
          Entries.others "b" members = [("keep", .bool true)] := by
  intro r value
  have hvalid : ¬ ("a.b.c" = "" ∨ "" ∈ Path.pieces "a.b.c") := by decide +kernel
  have hbelow : Path.parse? "a.b.c.d" = some ⟨["a", "b", "c", "d"], by decide, by decide⟩ := by
    decide +kernel
  have hbeside : Path.parse? "a.keep" = some ⟨["a", "keep"], by decide, by decide⟩ := by
    decide +kernel
  have habove : Path.parse? "a" = some ⟨["a"], by decide, by decide⟩ := by decide +kernel
  obtain ⟨r', p, hset, hp, hreads⟩ := (get?_after_set r "a.b.c" value).2 hvalid
  have hsegments : p.segments = ["a", "b", "c"] := by
    rw [Path.parse?_eq_some_iff.mp hp]
    decide +kernel
  have hkeep : r.get? "a.keep" = some (.bool true) := by rw [get?_of_parse? hbeside]; rfl
  have ha : r.get? "a" = some (.object [("b", .string "x"), ("keep", .bool true)]) := by
    rw [get?_of_parse? habove]; rfl
  obtain ⟨members, hobject, hvalue, hothers⟩ := (hreads "a" _ habove).2.2 "b" ["c"] hsegments
  refine ⟨hvalid, r', hset, ?_, ?_, members, hobject, hvalue, ?_⟩
  · rw [(hreads "a.b.c.d" _ hbelow).1 ["d"] (by rw [hsegments]; rfl)]
    rfl
  · rw [(hreads "a.keep" _ hbeside).2.1 (by rw [hsegments]; decide), hkeep]
  · rw [hothers, ha]
    rfl

end Record

end PackedColumn

import PackedColumn.Proofs.DottedName
import PackedColumn.Proofs.Literal
import PackedColumn.Proofs.Spelling

/-!
# Compiled text opens no marker

`NoOpening cs`: no `(!` stands in `cs`. Two such texts put together are another unless one stands
across the seam (`NoOpening.append`).

A text in which every `(!` starts a marker is, once compiled, a text without any
(`noOpening_compile`). Between the markers there is none. An accessor holds no exclamation mark, for
there is none in the segments of a marker, in a type or in what a `BangFree` dialect adds; and it
ends in a parenthesis that closes (`isAccessor_read`). So at neither of its seams a `(!` comes
about, whatever stands there (`IsAccessor.append`).

A text without `(!` has no candidates, so compiling it leaves it as it is, and reports nothing
(`compile_of_noOpening`).
-/

namespace PackedColumn

open Text

/-! ## Texts that open no marker -/

/-- No `(!` stands in the text. -/
def NoOpening (cs : List Char) : Prop := ¬ ['(', '!'] <:+: cs

namespace NoOpening

variable {xs ys : List Char}

theorem append (hx : NoOpening xs) (hy : NoOpening ys) (hseam : ¬ OpensAcross xs ys) :
    NoOpening (xs ++ ys) := by
  intro h
  rcases List.infix_append_iff_ne_nil.mp h with h | h | ⟨l, l', hne, hne', hl, hsuffix, hstarts⟩
  · exact hx h
  · exact hy h
  · -- Of the two characters one is on either side.
    obtain ⟨rfl, -⟩ | ⟨rest, rfl, hrest⟩ := List.cons_eq_append_iff.mp hl
    · exact hne rfl
    · obtain ⟨rfl, rfl⟩ | ⟨-, rfl⟩ := List.singleton_eq_append_iff.mp hrest
      · exact hseam ⟨hsuffix, hstarts⟩
      · exact hne' rfl

theorem of_not_mem (h : '!' ∉ xs) : NoOpening xs :=
  fun hin => h (hin.subset (by simp))

/-- What opens nothing has no candidates. -/
theorem scan_eq_nil (h : NoOpening xs) (offset : Nat) : Candidate.scan offset xs = [] := by
  refine List.eq_nil_iff_forall_not_mem.mpr fun c hc => ?_
  obtain ⟨before, contents, after, hcut, -⟩ := Candidate.exists_cut_of_mem_scan c hc
  exact h ⟨before, contents ++ '!' :: ')' :: after, by rw [hcut.text_eq]; simp⟩

end NoOpening

/-! ## Accessors -/

/-- The dialect adds no exclamation mark to the calls that read an entry. -/
structure Dialect.BangFree (d : Dialect) : Prop where
  getFunction : '!' ∉ d.getFunction.toList
  castKeyword : '!' ∉ d.castKeyword.toList
  intermediateType : '!' ∉ d.intermediateType.toList
  defaultType : '!' ∉ d.defaultType.toList
  stringQuote : d.stringQuote ≠ '!'

theorem Dialect.bangFree_default : Dialect.default.BangFree :=
  ⟨by decide, by decide, by decide, by decide, by decide⟩

/-- A type is written with letters, digits, blanks, a comma and parentheses. -/
theorem SqlType.Plain.bang_not_mem {cs : List Char} (h : Plain cs) : '!' ∉ cs := by
  obtain ⟨hwords, hlist⟩ := h
  intro hmem
  rcases List.mem_append.mp hmem with hmem | hmem
  · exact absurd (hwords.isLetter_or_eq '!' hmem) (by decide)
  · cases hlist with
    | none => cases hmem
    | list hchars =>
      have hinner : '!' ∉ _ := fun hin => absurd (hchars '!' hin) (by decide)
      simp [hinner] at hmem

theorem Path.IsSegment.bang_not_mem {cs : List Char} (h : IsSegment cs) : '!' ∉ cs :=
  fun hmem => absurd (h.2 '!' hmem) (by decide)

variable {d : Dialect}

namespace Dialect.BangFree

theorem quoteString (hd : d.BangFree) {key : String} (hkey : '!' ∉ key.toList) :
    '!' ∉ (d.quoteString key).toList := by
  have hescape : ∀ c ∈ key.toList, '!' ∉ d.escape c := by
    intro c hc
    have hne : '!' ≠ c := fun he => hkey (he ▸ hc)
    rw [escape]
    split <;> simp [hne]
  simpa [Dialect.toList_quoteString, hd.stringQuote.symm] using hescape

theorem extract (hd : d.BangFree) {container key cast : String}
    (hcontainer : '!' ∉ container.toList) (hkey : '!' ∉ key.toList) (hcast : '!' ∉ cast.toList) :
    '!' ∉ (d.extract container key cast).toList := by
  have hquoted := hd.quoteString hkey
  simp [Dialect.extract, hd.getFunction, hd.castKeyword, hcontainer, hquoted, hcast]

/-- Every level of the walk is read with the dialect's own type. -/
theorem descend (hd : d.BangFree) {container : Expr} {keys : List String}
    (hcontainer : '!' ∉ (container.render d).toList) (hkeys : ∀ key ∈ keys, '!' ∉ key.toList) :
    '!' ∉ ((container.descend keys).render d).toList := by
  induction keys generalizing container with
  | nil => exact hcontainer
  | cons key rest ih =>
    obtain ⟨hkey, hrest⟩ := List.forall_mem_cons.mp hkeys
    exact ih (hd.extract hcontainer hkey hd.intermediateType) hrest

/-- The type of a leaf, as it is written. -/
theorem castOfType? (hd : d.BangFree) (typeText? : Option String) :
    '!' ∉ ((Cast.ofType? (typeText?.bind SqlType.parse?)).render d).toList := by
  cases htype : typeText?.bind SqlType.parse? with
  | none => exact hd.defaultType
  | some t =>
    obtain ⟨text, -, hparse⟩ := Option.bind_eq_some_iff.mp htype
    exact (SqlType.plain_render hparse d.typeCase).bang_not_mem

end Dialect.BangFree

namespace Fragment

variable {column text : String} {cs : List Char}

/-- The text holds no exclamation mark and closes a call at its end. -/
structure IsAccessor (cs : List Char) : Prop where
  bang_not_mem : '!' ∉ cs
  closes : [')'] <:+ cs

/-- What reads a marker of a text is an accessor. -/
theorem isAccessor_read (hd : d.BangFree) (hcolumn : '!' ∉ column.toList) {m : Marker}
    (hm : m ∈ markersOf text) :
    IsAccessor (Access.read d column m.path m.type?).value.toList := by
  have hkey : ∀ key ∈ m.path.segments, '!' ∉ key.toList := fun key hkey =>
    (Path.fitsMarker_of_mem_markersOf hm key hkey).bang_not_mem
  rw [← Path.parents_append_leaf, List.forall_mem_append] at hkey
  rw [Access.value_read, Expr.read, Expr.render]
  refine ⟨hd.extract (hd.descend hcolumn hkey.1) (hkey.2 _ List.mem_cons_self)
    (hd.castOfType? m.typeText), ?_⟩
  rw [Dialect.extract, String.toList_append]
  exact List.suffix_append _ _

/-- An accessor at a seam opens nothing on either side. -/
theorem IsAccessor.append (h : IsAccessor cs) {before after : List Char}
    (hbefore : NoOpening before) (hafter : NoOpening after) :
    NoOpening (before ++ cs ++ after) := by
  have hlength : 1 ≤ cs.length := h.closes.length_le
  rw [List.append_assoc]
  refine hbefore.append ((NoOpening.of_not_mem h.bang_not_mem).append hafter fun hopen => ?_)
    fun hopen => ?_
  · have hparen := List.suffix_of_suffix_length_le hopen.1 h.closes le_rfl
    exact absurd hparen (by decide)
  · have hbang := List.prefix_of_prefix_length_le hopen.2 (List.prefix_append cs after) hlength
    exact h.bang_not_mem (hbang.subset List.mem_cons_self)

/-! ## Compiling -/

/-- Where every `(!` from a cut on starts a span that is replaced by an accessor, none is left
behind the cut. -/
theorem noOpening_spliceFrom {rs : List (Marker × String)} (h : Replaceable text rs)
    (haccessor : ∀ r ∈ rs, r.1.start < r.1.stop ∧ IsAccessor r.2.toList)
    {before after : List Char} (htext : text.toList = before ++ after)
    (hpos : ∀ r ∈ rs, byteLength before ≤ r.1.start)
    (hopen : ∀ s, byteLength before ≤ s → OccursAt ['(', '!'] s text.toList →
      ∃ r ∈ rs, r.1.start = s) :
    NoOpening (spliceFrom text.toList (byteLength before) rs) := by
  -- The spans that are left start behind the cut, and every `(!` that stands there starts one.
  induction rs generalizing before after with
  | nil =>
    rw [spliceFrom, htext, dropBytes_append]
    rintro ⟨x, y, hxy⟩
    obtain ⟨r, hr, -⟩ := hopen (byteLength (before ++ x)) (by simp)
      ⟨before ++ x, y, by rw [htext, ← hxy]; simp, rfl⟩
    cases hr
  | cons r rest ih =>
    obtain ⟨gap, span, tail, hcuts, hstart, hstop⟩ :=
      h.exists_cuts htext (hpos r List.mem_cons_self)
    obtain ⟨hlt, hread⟩ := haccessor r List.mem_cons_self
    have hbehind : ∀ s ∈ rest, r.1.stop ≤ s.1.start := (List.pairwise_cons.mp h.ordered).1
    have hgap : slice (byteLength before) r.1.start text.toList = gap := by
      rw [hstart, hcuts, List.append_assoc (before ++ gap), slice_append]
    rw [spliceFrom, hgap, hstop]
    refine hread.append ?_ (ih h.tail (fun s hs => haccessor s (List.mem_cons_of_mem _ hs)) hcuts
      (fun s hs => hstop ▸ hbehind s hs) fun s hle hoccurs => ?_)
    · -- What opens in the gap would start a span that stands at its end or behind it.
      rintro ⟨x, y, rfl⟩
      obtain ⟨s, hs, hat⟩ := hopen (byteLength (before ++ x)) (by simp)
        ⟨before ++ x, y ++ span ++ tail, by rw [hcuts]; simp, rfl⟩
      have hlate : r.1.start ≤ s.1.start := by
        rcases List.mem_cons.mp hs with rfl | hs
        · exact le_rfl
        · exact hlt.le.trans (hbehind s hs)
      have htwo : byteLength ['(', '!'] = 2 := rfl
      rw [hstart, hat] at hlate
      simp only [byteLength_append, htwo] at hlate
      omega
    · rw [← hstop] at hle
      have hearly := hpos r List.mem_cons_self
      obtain ⟨m, hm, rfl⟩ := hopen s (by omega) hoccurs
      rcases List.mem_cons.mp hm with rfl | hm
      · omega
      · exact ⟨m, hm, rfl⟩

/-- Every `(!` of the text starts a marker. -/
def OpeningsMarked (text : String) : Prop :=
  ∀ s, OccursAt ['(', '!'] s text.toList → ∃ m ∈ markersOf text, m.start = s

theorem openingsMarked_iff_tails : OpeningsMarked text ↔ ∀ tail ∈ text.toList.tails,
    ['(', '!'] <+: tail →
      ∃ m ∈ markersOf text, m.start + byteLength tail = byteLength text.toList := by
  constructor
  · intro h tail htail hstarts
    obtain ⟨before, htext⟩ := (List.mem_tails _ _).mp htail
    obtain ⟨after, rfl⟩ := hstarts
    obtain ⟨m, hm, hstart⟩ :=
      h (byteLength before) ⟨before, after, by rw [← htext, List.append_assoc], rfl⟩
    exact ⟨m, hm, by rw [← htext, byteLength_append before, hstart]⟩
  · rintro h s ⟨before, after, htext, rfl⟩
    rw [List.append_assoc] at htext
    obtain ⟨m, hm, hstart⟩ := h (['(', '!'] ++ after)
      ((List.mem_tails _ _).mpr ⟨before, htext.symm⟩) (List.prefix_append _ _)
    rw [htext, byteLength_append before] at hstart
    exact ⟨m, hm, by omega⟩

instance (text : String) : Decidable (OpeningsMarked text) :=
  decidable_of_iff _ openingsMarked_iff_tails.symm

theorem noOpening_compile (hd : d.BangFree) (hcolumn : '!' ∉ column.toList)
    (htext : OpeningsMarked text) : NoOpening (compile d column text).value.toList := by
  rw [value_compile_eq_splice, splice, String.toList_ofList]
  refine noOpening_spliceFrom (replaceable_of_map_fst (map_fst_accessors d column text))
    (fun r hr => ?_) (List.nil_append _).symm (fun _ _ => Nat.zero_le _) fun s _ hoccurs => ?_
  · obtain ⟨m, hm, rfl⟩ := List.mem_map.mp hr
    exact ⟨start_lt_stop hm, isAccessor_read hd hcolumn hm⟩
  · obtain ⟨m, hm, hstart⟩ := htext s hoccurs
    exact ⟨_, List.mem_map_of_mem hm, hstart⟩

/-- A text without openings is compiled to itself. -/
theorem compile_of_noOpening (h : NoOpening text.toList) (d : Dialect) (column : String) :
    compile d column text = pure text := by
  have hnone : candidatesOf text = [] := h.scan_eq_nil 0
  have hmarkers : markersOf text = [] := by rw [markersOf, hnone, List.filterMap_nil]
  refine Traced.ext ?_ ?_
  · rw [value_compile, accessors, hmarkers]
    exact String.ofList_toList
  · simp [compile, scan, hnone, hmarkers]

/-- Where every `(!` starts a marker and the column holds no exclamation mark, the compiled text
holds no `(!`. So it has no candidate, and compiled again, in whatever dialect and with whatever
column, it stays as it is and nothing is reported. -/
theorem compiled_text_is_fixed (hcolumn : '!' ∉ column.toList) (htext : OpeningsMarked text) :
    NoOpening (compile .default column text).value.toList ∧
      candidatesOf (compile .default column text).value = [] ∧
      markersOf (compile .default column text).value = [] ∧
      ∀ d column', compile d column' (compile .default column text).value =
        pure (compile .default column text).value := by
  have h := noOpening_compile Dialect.bangFree_default hcolumn htext
  have hnone : candidatesOf (compile .default column text).value = [] := h.scan_eq_nil 0
  refine ⟨h, hnone, ?_, compile_of_noOpening h⟩
  rw [markersOf, hnone, List.filterMap_nil]

/-- A parenthesis before a marker, two markers next to each other, and behind them what would open
one with that parenthesis. -/
theorem compiled_text_is_fixed_seams :
    let out := "(COLUMN_GET(COLUMN_GET(t.`c`, 'a' AS BINARY), 'b' AS decimal( 6,2 ))" ++
      "COLUMN_GET(t.`c`, 'k' AS CHAR)!x!)"
    '!' ∉ "t.`c`".toList ∧ OpeningsMarked "((!a.b|decimal( 6,2 )!)(!k!)!x!)" ∧
      (compile .default "t.`c`" "((!a.b|decimal( 6,2 )!)(!k!)!x!)").value = out ∧
      NoOpening out.toList ∧ ∀ d column', compile d column' out = pure out := by
  intro out
  have hcolumn : '!' ∉ "t.`c`".toList := by decide
  have htext : OpeningsMarked "((!a.b|decimal( 6,2 )!)(!k!)!x!)" := by decide +kernel
  have hout : (compile .default "t.`c`" "((!a.b|decimal( 6,2 )!)(!k!)!x!)").value = out := by
    decide +kernel
  obtain ⟨hopening, -, -, hagain⟩ := compiled_text_is_fixed hcolumn htext
  rw [hout] at hopening hagain
  exact ⟨hcolumn, htext, hout, hopening, hagain⟩

end Fragment

end PackedColumn

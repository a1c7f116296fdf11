import PackedColumn.Proofs.Seam

/-!
# Replacing is splicing

`splice text rs` goes forward: the text before the first span of `rs`, its replacement, the text up
to the next span, and so on, and at last the text behind the last span. Every piece between the
replacements is cut out of `text` itself.

`replaceEach? text rs` does the replacements in place, from the last to the first. Each edit is
refused (`none`) when its span runs backwards, ends outside the text as it then is, or cuts a
character of it.

Spans that come in order, end inside the text and cut no character (`Replaceable`) are replaced
without a refusal, and what comes out is the splice (`replaceEach?_eq_some`): the edits behind a
span leave the text up to its end alone, so its offsets still mean the same. The markers of a scan
are such spans.
-/

namespace PackedColumn.Fragment

open Text

/-! ## The forward splice -/

/-- The characters from byte `start` to byte `stop`. -/
def slice (start stop : Nat) (cs : List Char) : List Char :=
  takeBytes (stop - start) (dropBytes start cs)

/-- The characters from byte `pos` on, each span replaced on the way. -/
def spliceFrom (cs : List Char) (pos : Nat) : List (Marker × String) → List Char
  | [] => dropBytes pos cs
  | r :: rest => slice pos r.1.start cs ++ r.2.toList ++ spliceFrom cs r.1.stop rest

/-- The text with each span replaced, written from the first to the last. -/
def splice (text : String) (rs : List (Marker × String)) : String :=
  .ofList (spliceFrom text.toList 0 rs)

theorem slice_append (before gap after : List Char) :
    slice (byteLength before) (byteLength (before ++ gap)) (before ++ gap ++ after) = gap := by
  have hlen : byteLength (before ++ gap) - byteLength before = byteLength gap := by
    rw [byteLength_append]; omega
  rw [slice, hlen, List.append_assoc, dropBytes_append, takeBytes_append]

/-! ## Edits in place -/

/-- The text with one span replaced; `none` when the span is no part of the text. -/
def replaceOne? (r : Marker × String) (text : String) : Option String :=
  if r.1.start ≤ r.1.stop ∧ (String.Pos.Raw.mk r.1.start).IsValid text ∧
      (String.Pos.Raw.mk r.1.stop).IsValid text then
    some (.ofList (replaceBytes r.1.start r.1.stop r.2.toList text.toList))
  else none

/-- The text with each span replaced, the last of them first; `none` when one edit is refused. -/
def replaceEach? (text : String) (rs : List (Marker × String)) : Option String :=
  rs.foldr (fun r acc => acc.bind (replaceOne? r)) (some text)

@[simp] theorem replaceEach?_nil (text : String) : replaceEach? text [] = some text := rfl

@[simp] theorem replaceEach?_cons (text : String) (r : Marker × String)
    (rs : List (Marker × String)) :
    replaceEach? text (r :: rs) = (replaceEach? text rs).bind (replaceOne? r) := rfl

theorem replaceBytes_append (before span after replacement : List Char) :
    replaceBytes (byteLength before) (byteLength (before ++ span)) replacement
      (before ++ span ++ after) = before ++ replacement ++ after := by
  have htake : takeBytes (byteLength before) (before ++ span ++ after) = before := by
    rw [List.append_assoc, takeBytes_append]
  rw [replaceBytes, htake, dropBytes_append]

/-- The span between two cuts of the text is replaced. -/
theorem replaceOne?_append {r : Marker × String} {before span after : List Char}
    (hstart : r.1.start = byteLength before) (hstop : r.1.stop = byteLength (before ++ span)) :
    replaceOne? r (.ofList (before ++ span ++ after)) =
      some (.ofList (before ++ r.2.toList ++ after)) := by
  have hle : r.1.start ≤ r.1.stop := by rw [hstart, hstop, byteLength_append]; omega
  have hvalid : (String.Pos.Raw.mk r.1.start).IsValid (.ofList (before ++ span ++ after)) := by
    rw [hstart]
    exact isValid_byteLength (by rw [String.toList_ofList, List.append_assoc])
  have hvalid' : (String.Pos.Raw.mk r.1.stop).IsValid (.ofList (before ++ span ++ after)) := by
    rw [hstop]
    exact isValid_byteLength String.toList_ofList
  rw [replaceOne?, if_pos ⟨hle, hvalid, hvalid'⟩, String.toList_ofList, hstart, hstop,
    replaceBytes_append]

/-- Edits that are not refused are the replacements as they are done without a check. -/
theorem replaceMarkers_of_replaceEach? {text out : String} {rs : List (Marker × String)}
    (h : replaceEach? text rs = some out) : replaceMarkers text rs = out := by
  rw [← String.toList_inj, toList_replaceMarkers]
  induction rs generalizing out with
  | nil => rw [← Option.some.inj h, replaceAll_nil]
  | cons r rest ih =>
    obtain ⟨mid, hmid, hone⟩ := Option.bind_eq_some_iff.mp h
    obtain ⟨-, hout⟩ := Option.ite_none_right_eq_some.mp hone
    obtain rfl := Option.some.inj hout
    rw [replaceAll_cons, ih hmid, String.toList_ofList]

/-! ## Spans of a text -/

/-- The spans come in order, one behind the other, end inside the text and cut no character. -/
structure Replaceable (text : String) (rs : List (Marker × String)) : Prop
    extends Spans (byteLength text.toList) rs where
  start_valid : ∀ r ∈ rs, (String.Pos.Raw.mk r.1.start).IsValid text
  stop_valid : ∀ r ∈ rs, (String.Pos.Raw.mk r.1.stop).IsValid text

namespace Replaceable

variable {text : String} {r : Marker × String} {rest : List (Marker × String)}

theorem tail (h : Replaceable text (r :: rest)) : Replaceable text rest where
  ordered := (List.pairwise_cons.mp h.ordered).2
  start_le := fun s hs => h.start_le s (List.mem_cons_of_mem _ hs)
  stop_le := fun s hs => h.stop_le s (List.mem_cons_of_mem _ hs)
  start_valid := fun s hs => h.start_valid s (List.mem_cons_of_mem _ hs)
  stop_valid := fun s hs => h.stop_valid s (List.mem_cons_of_mem _ hs)

/-- A text that is cut before its first span is cut again at the two ends of that span. -/
theorem exists_cuts (h : Replaceable text (r :: rest)) {before after : List Char}
    (htext : text.toList = before ++ after) (hle : byteLength before ≤ r.1.start) :
    ∃ gap span tail, text.toList = before ++ gap ++ span ++ tail ∧
      r.1.start = byteLength (before ++ gap) ∧ r.1.stop = byteLength (before ++ gap ++ span) := by
  obtain ⟨x, y, hxy, hx⟩ := exists_append_of_isValid (h.start_valid r List.mem_cons_self)
  obtain ⟨gap, rfl, -⟩ := exists_append_of_byteLength_le (htext.symm.trans hxy) (by omega)
  obtain ⟨x', tail, hxy', hx'⟩ := exists_append_of_isValid (h.stop_valid r List.mem_cons_self)
  have hord := h.start_le r List.mem_cons_self
  obtain ⟨span, rfl, -⟩ := exists_append_of_byteLength_le (hxy.symm.trans hxy') (by omega)
  exact ⟨gap, span, tail, hxy', hx.symm, hx'.symm⟩

end Replaceable

/-- The edits are not refused, and leave the splice behind a part of the text that comes before the
first span. -/
theorem replaceEach?_eq_some_append {text : String} {rs : List (Marker × String)}
    (h : Replaceable text rs) {before after : List Char} (htext : text.toList = before ++ after)
    (hpos : ∀ r ∈ rs, byteLength before ≤ r.1.start) :
    replaceEach? text rs =
      some (.ofList (before ++ spliceFrom text.toList (byteLength before) rs)) := by
  induction rs generalizing before after with
  | nil =>
    rw [spliceFrom, htext, dropBytes_append, ← htext, String.ofList_toList, replaceEach?_nil]
  | cons r rest ih =>
    obtain ⟨gap, span, tail, hcuts, hstart, hstop⟩ :=
      h.exists_cuts htext (hpos r List.mem_cons_self)
    have hbehind : ∀ s ∈ rest, byteLength (before ++ gap ++ span) ≤ s.1.start := by
      intro s hs
      rw [← hstop]
      exact (List.pairwise_cons.mp h.ordered).1 s hs
    -- The later edits leave everything up to the end of this span as it is.
    rw [replaceEach?_cons, ih h.tail hcuts hbehind, Option.bind_some, ← hstop,
      replaceOne?_append hstart hstop]
    have hgap : slice (byteLength before) r.1.start text.toList = gap := by
      rw [hstart, hcuts, List.append_assoc (before ++ gap), slice_append]
    rw [spliceFrom, hgap]
    simp only [List.append_assoc]

theorem replaceEach?_eq_some {text : String} {rs : List (Marker × String)}
    (h : Replaceable text rs) : replaceEach? text rs = some (splice text rs) :=
  replaceEach?_eq_some_append h (List.nil_append _).symm fun _ _ => Nat.zero_le _

/-! ## Markers -/

/-- The delimiters of a marker begin and end between characters. -/
theorem isValid_of_mem_markersOf {text : String} {m : Marker} (h : m ∈ markersOf text) :
    (String.Pos.Raw.mk m.start).IsValid text ∧ (String.Pos.Raw.mk m.stop).IsValid text := by
  obtain ⟨before, contents, after, hcut, hstart, hstop, -⟩ := exists_cut_of_mem_markersOf h
  have hwhole : text.toList =
      (before ++ '(' :: '!' :: (contents ++ ['!', ')'])) ++ after := by
    rw [hcut.text_eq]; simp
  have hlen : byteLength (before ++ '(' :: '!' :: (contents ++ ['!', ')'])) = m.stop := by
    rw [hstop, hstart]; simp [Char.utf8Size]; omega
  exact ⟨hstart ▸ isValid_byteLength hcut.text_eq, hlen ▸ isValid_byteLength hwhole⟩

/-- The markers of a text can be replaced, whatever by. -/
theorem replaceable_of_map_fst {text : String} {rs : List (Marker × String)}
    (h : rs.map Prod.fst = markersOf text) : Replaceable text rs where
  toSpans := spans_of_map_fst h
  start_valid := fun _ hr => (isValid_of_mem_markersOf (h ▸ List.mem_map_of_mem hr)).1
  stop_valid := fun _ hr => (isValid_of_mem_markersOf (h ▸ List.mem_map_of_mem hr)).2

/-- Replacing spans in place, from the last to the first, is the forward splice and no edit is
refused. The markers of a scan are such spans; so a compiled fragment is the splice of its text with
the expressions that read its markers, whatever the text of the column is. What is put in is never
looked at again. -/
theorem compile_is_splice :
    (∀ text rs, Replaceable text rs →
      replaceMarkers text rs = splice text rs ∧ replaceEach? text rs = some (splice text rs)) ∧
    ∀ text,
      (∀ rs : List (Marker × String), rs.map Prod.fst = markersOf text → Replaceable text rs) ∧
      ∀ d column,
        (compile d column text).value = splice text (accessors d column text) ∧
        replaceEach? text (accessors d column text) = some (compile d column text).value := by
  have hsplice : ∀ text rs, Replaceable text rs →
      replaceMarkers text rs = splice text rs ∧ replaceEach? text rs = some (splice text rs) :=
    fun text rs h =>
      ⟨replaceMarkers_of_replaceEach? (replaceEach?_eq_some h), replaceEach?_eq_some h⟩
  refine ⟨hsplice, fun text => ⟨fun rs => replaceable_of_map_fst, fun d column => ?_⟩⟩
  obtain ⟨hmarkers, heach⟩ :=
    hsplice text _ (replaceable_of_map_fst (map_fst_accessors d column text))
  rw [value_compile, hmarkers]
  exact ⟨rfl, heach⟩

/-- Spans that touch, an empty one between them, are replaced as they come; and the marker of a text
may be replaced by anything. -/
theorem compile_is_splice_touching :
    let k : Path := ⟨["k"], by decide, by decide⟩
    let rs : List (Marker × String) :=
      [(⟨0, 2, k, none⟩, "(!k!)"), (⟨2, 2, k, none⟩, "+"), (⟨2, 5, k, none⟩, "")]
    let found : List (Marker × String) := [(⟨1, 6, k, none⟩, "(!k!)")]
    Replaceable "é→z" rs ∧ replaceMarkers "é→z" rs = "(!k!)+z" ∧
      replaceEach? "é→z" rs = some "(!k!)+z" ∧
      found.map Prod.fst = markersOf "x(!k!)" ∧ Replaceable "x(!k!)" found := by
  intro k rs found
  have h : Replaceable "é→z" rs := ⟨⟨by decide, by decide, by decide⟩, by decide, by decide⟩
  have hout : splice "é→z" rs = "(!k!)+z" := by decide +kernel
  have hfound : found.map Prod.fst = markersOf "x(!k!)" := by decide +kernel
  obtain ⟨hsplice, hscan⟩ := compile_is_splice
  obtain ⟨hmarkers, heach⟩ := hsplice "é→z" rs h
  rw [hout] at hmarkers heach
  exact ⟨h, hmarkers, heach, hfound, (hscan "x(!k!)").1 found hfound⟩

/-- Marker syntax in the text of the column is not taken for a marker. -/
example : (compile .default "(!c!)" "(!a!) = 1").value = "COLUMN_GET((!c!), 'a' AS CHAR) = 1" := by
  decide +kernel

end PackedColumn.Fragment

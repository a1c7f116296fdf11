import PackedColumn.Proofs.Leaves
import PackedColumn.Proofs.Scan

/-!
# Dotted names and the paths that they spell

A path is made from a name, from a list of segments or from a marker (`Made`).

* A name is cut at its dots in one way only (`isCut_iff`). It spells the path of its pieces unless
  one of them is empty, and the path displays as the name (`parse_eq_ok_iff`).
* A list of segments is a path as it stands (`ofSegments_eq_ok_iff`). Its display spells it again
  exactly if the dots between the segments are the only ones (`parse_display_iff`). The segments of
  a marker hold none.
* However a path is made, its last segment can be cut off (`exists_length_eq`).
-/

namespace PackedColumn.Path

variable {name : String} {segments : List String} {p : Path}

/-! ## Names -/

/-- The name is cut at its dots: they are what joins the segments, and no segment holds one. -/
structure IsCut (name : String) (segments : List String) : Prop where
  ne_nil : segments ≠ []
  dot_not_mem : ∀ s ∈ segments, '.' ∉ s.toList
  joined_eq : joined segments = name

theorem dot_not_mem_of_mem_pieces {s : String} (h : s ∈ pieces name) : '.' ∉ s.toList := by
  obtain ⟨part, hpart, rfl⟩ := List.mem_map.mp h
  rw [String.toList_ofList]
  exact fun hdot => (Text.mem_of_mem_splitOn hpart hdot).2 rfl

/-- A name is cut into its pieces and into nothing else. -/
theorem isCut_iff : IsCut name segments ↔ segments = pieces name := by
  constructor
  · rintro ⟨hne, hdot, rfl⟩
    exact (pieces_joined hne hdot).symm
  · rintro rfl
    exact ⟨pieces_ne_nil name, fun _ => dot_not_mem_of_mem_pieces, joined_pieces name⟩

theorem parse_eq_ok_iff : parse name = .ok p ↔ p.segments = pieces name := by
  rw [← parse?_eq_some_iff, parse]
  cases parse? name <;> simp

/-- A name spells a path unless it is empty or one of its pieces is. -/
theorem exists_parse_iff : (∃ p, parse name = .ok p) ↔ name ≠ "" ∧ "" ∉ pieces name := by
  have hsome : parse? name ≠ none ↔ name ≠ "" ∧ "" ∉ pieces name := by
    rw [ne_eq, parse?_eq_none_iff, not_or]
  rw [← hsome, parse]
  cases parse? name <;> simp

theorem display_of_parse (h : parse name = .ok p) : p.display = name := by
  rw [display, parse_eq_ok_iff.mp h, joined_pieces]

/-! ## Lists of segments -/

theorem ofSegments_eq_ok_iff : ofSegments segments = .ok p ↔ p.segments = segments := by
  rw [← ofSegments?_eq_some_iff, ofSegments]
  cases ofSegments? segments <;> simp

theorem exists_ofSegments_iff :
    (∃ p, ofSegments segments = .ok p) ↔ segments ≠ [] ∧ "" ∉ segments := by
  simp only [ofSegments_eq_ok_iff]
  constructor
  · rintro ⟨p, rfl⟩
    exact ⟨p.segments_ne_nil, fun hmem => p.ne_empty_of_mem "" hmem rfl⟩
  · rintro ⟨hne, hempty⟩
    exact ⟨⟨segments, hne, fun s hs hs' => hempty (hs' ▸ hs)⟩, rfl⟩

/-- The display of a path spells it unless a segment holds a dot. -/
theorem parse_display_iff : parse p.display = .ok p ↔ ∀ s ∈ p.segments, '.' ∉ s.toList := by
  rw [parse_eq_ok_iff]
  constructor
  · intro h s hs
    rw [h] at hs
    exact dot_not_mem_of_mem_pieces hs
  · exact fun hdot => (pieces_joined p.segments_ne_nil hdot).symm

/-! ## Markers -/

theorem FitsMarker.dot_not_mem (h : p.FitsMarker) : ∀ s ∈ p.segments, '.' ∉ s.toList :=
  fun s hs hdot => ((h s hs).plain hdot).2.1 rfl

theorem fitsMarker_of_mem_markersOf {text : String} {m : Marker} (h : m ∈ markersOf text) :
    m.path.FitsMarker := by
  obtain ⟨_, _, _, _, _, _, hform⟩ := exists_cut_of_mem_markersOf h
  exact hform.fitsMarker

/-! ## However a path is made -/

/-- What makes a path: a name, a list of segments, or a marker in a text. -/
inductive Made : Path → Prop
  | named {name : String} {p : Path} : parse name = .ok p → Made p
  | listed {segments : List String} {p : Path} : ofSegments segments = .ok p → Made p
  | marked {text : String} {m : Marker} : m ∈ markersOf text → Made m.path

/-- There is a place before the last segment: the parents end at it, and the leaf stands behind
it. -/
theorem exists_length_eq (p : Path) :
    ∃ n, p.length = n + 1 ∧ p.parents = p.segments.take n ∧ p.segments[n]? = some p.leaf := by
  have hlength : p.length = p.parents.length + 1 := by
    rw [length, ← parents_append_leaf, List.length_append, List.length_singleton]
  refine ⟨p.parents.length, hlength, ?_, ?_⟩
  · rw [← p.parents_append_leaf, List.take_left]
  · rw [← p.parents_append_leaf, List.getElem?_concat_length]

/-- A name spells a path exactly if it and its pieces between dots are not empty, and the path
displays as the name. A list of segments is a path exactly if there are some and none is empty, and
the display spells the path again exactly if no segment holds a dot. However a path is made, it has
a last segment and none that is empty, and its parents and its leaf are its segments. The path of a
marker has segments that may stand in one, and is spelt by its display. -/
theorem paths_round_trip :
    (∀ name segments, IsCut name segments ↔ segments = pieces name) ∧
      (∀ name, (∃ p, parse name = .ok p) ↔ name ≠ "" ∧ "" ∉ pieces name) ∧
      (∀ name p, parse name = .ok p → p.segments = pieces name ∧ p.display = name) ∧
      (∀ segments, (∃ p, ofSegments segments = .ok p) ↔ segments ≠ [] ∧ "" ∉ segments) ∧
      (∀ segments p, ofSegments segments = .ok p → p.segments = segments ∧
        (parse p.display = .ok p ↔ ∀ s ∈ segments, '.' ∉ s.toList)) ∧
      (∀ p, Made p → "" ∉ p.segments ∧ p.parents ++ [p.leaf] = p.segments ∧
        ∃ n, p.length = n + 1 ∧ p.parents = p.segments.take n ∧ p.segments[n]? = some p.leaf) ∧
      ∀ text, ∀ m ∈ markersOf text, m.path.FitsMarker ∧ parse m.path.display = .ok m.path := by
  refine ⟨fun name segments => isCut_iff, fun name => exists_parse_iff, fun name p h => ?_,
    fun segments => exists_ofSegments_iff, fun segments p h => ?_, fun p _ => ?_,
    fun text m hm => ?_⟩
  · exact ⟨parse_eq_ok_iff.mp h, display_of_parse h⟩
  · obtain rfl := ofSegments_eq_ok_iff.mp h
    exact ⟨rfl, parse_display_iff⟩
  · exact ⟨fun hmem => p.ne_empty_of_mem "" hmem rfl, p.parents_append_leaf, p.exists_length_eq⟩
  · have hfit := fitsMarker_of_mem_markersOf hm
    exact ⟨hfit, parse_display_iff.mpr hfit.dot_not_mem⟩

/-- A dot inside a segment is read as one between segments, so the path is not spelt by its display;
and two dots in a row, or a list with an empty segment, make no path. -/
theorem paths_round_trip_inner_dot :
    let p : Path := ⟨["a.b", "c"], by decide, by decide⟩
    ofSegments ["a.b", "c"] = .ok p ∧ Made p ∧ p.display = "a.b.c" ∧ parse "a.b.c" ≠ .ok p ∧
      (∃ q, parse "a.b.c" = .ok q ∧ q.segments = ["a", "b", "c"]) ∧
      (¬ ∃ q, parse "a..c" = .ok q) ∧ (¬ ∃ q, ofSegments ["a", ""] = .ok q) ∧
      ∃ m ∈ markersOf "(! a.b |int!)", parse m.path.display = .ok m.path := by
  intro p
  have hlisted : ofSegments ["a.b", "c"] = .ok p := ofSegments_eq_ok_iff.mpr rfl
  have hdisplay : p.display = "a.b.c" := by decide
  have hpieces : pieces "a.b.c" = ["a", "b", "c"] := by decide +kernel
  obtain ⟨-, hnamed, hspelt, hlist, hdots, -, hmarked⟩ := paths_round_trip
  refine ⟨hlisted, .listed hlisted, hdisplay, ?_, ?_, ?_, ?_, ?_⟩
  · have hno := mt (hdots _ p hlisted).2.mp (by decide)
    rwa [hdisplay] at hno
  · obtain ⟨q, hq⟩ := (hnamed "a.b.c").mpr ⟨by decide, by decide +kernel⟩
    exact ⟨q, hq, (hspelt _ q hq).1.trans hpieces⟩
  · exact mt (hnamed "a..c").mp (by decide +kernel)
  · exact mt (hlist ["a", ""]).mp (by decide)
  · obtain ⟨m, rest, hmarkers⟩ : ∃ m rest, markersOf "(! a.b |int!)" = m :: rest :=
      List.exists_cons_of_ne_nil (by decide +kernel)
    have hm : m ∈ markersOf "(! a.b |int!)" := hmarkers ▸ List.mem_cons_self
    exact ⟨m, hm, (hmarked _ m hm).2⟩

end PackedColumn.Path

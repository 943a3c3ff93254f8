import UsageLine.Proofs.Segment.Spelling

/-!
# Reading a line by its segments

A usage line can be read without a scan.  It is cut into segments; if one of
them misuses a character, the line is refused for the first such character.
Otherwise every closed segment is a tag.  If a segment that is not the last
carries the rest marker, the line is refused for the first one that does.
`parse` reads every line in this way.
-/

namespace UsageLine

/-- A line is refused for its first misuse, then for the first rest marker that
is not in the last closed segment; otherwise it has one tag for each. -/
def readBySegments (line : Text) : Except UsageError (List Tag) :=
  let closed := (Text.segments line).dropLast
  match earliest (Text.misuses line) with
  | some (what, position) => .error (.misused what position)
  | none =>
      match closed.dropLast.findIdx? Segment.marked with
      | some index => .error (.restNotLast index closed.length)
      | none => .ok (closed.map Segment.tag)

/-- The misplaced rest marker is the first one in front of the last tag. -/
theorem misplacedRest?_eq_findIdx? (tags : List Tag) :
    misplacedRest? tags = tags.dropLast.findIdx? Tag.hasRestMarker := by
  induction tags with
  | nil => rfl
  | cons tag rest ih =>
      cases rest with
      | nil => rfl
      | cons next more =>
          rw [misplacedRest?, List.dropLast_cons_of_ne_nil (List.cons_ne_nil _ _),
            List.findIdx?_cons, ih]

namespace Segment

/-- Where no kind is written the name chooses it. -/
theorem classified_rawTag (seg : Segment) :
    seg.rawTag.classified =
      { seg.rawTag with name := seg.chosen.1, kind := seg.chosen.2 } := by
  by_cases unwritten : seg.latest = []
  · have kindless : seg.rawTag.kind = [] := unwritten
    rw [Tag.classified, if_pos kindless, chosen_of_unwritten unwritten]
    rfl
  · rw [Tag.classified_of_kind unwritten, chosen_of_written unwritten]
    rfl

theorem hasRestMarker_classified_rawTag (seg : Segment) :
    seg.rawTag.classified.hasRestMarker = seg.marked := by
  rw [classified_rawTag]
  rfl

/-- Resolving the tag that the scan closed gives the tag of the segment. -/
theorem resolved_classified_rawTag (seg : Segment) :
    seg.rawTag.classified.resolved = seg.tag := by
  have stripped : seg.rawTag.classified.takeRestMarker =
      { seg.rawTag.classified with
        kind := seg.unmarked
        rest := seg.marked } := by
    rw [Tag.takeRestMarker, hasRestMarker_classified_rawTag, unmarked]
    cases seg.marked with
    | true => rw [classified_rawTag]; rfl
    | false => rw [classified_rawTag]; rfl
  rw [Tag.resolved, stripped, classified_rawTag, Tag.completeOptions, tag]
  cases earlier : seg.earlier with
  | none => simp [rawTag, earlier]
  | some options => simp [rawTag, earlier]

end Segment

theorem resolve_rawTags (segs : List Segment) :
    resolve (Segment.rawTags segs) =
      match segs.dropLast.dropLast.findIdx? Segment.marked with
      | some index => .error (.restNotLast index segs.dropLast.length)
      | none => .ok (segs.dropLast.map Segment.tag) := by
  have marks : misplacedRest? (Segment.rawTags segs) =
      segs.dropLast.dropLast.findIdx? Segment.marked := by
    rw [misplacedRest?_eq_findIdx?, Segment.rawTags, ← List.map_dropLast,
      List.findIdx?_map]
    congr 1
    funext seg
    exact seg.hasRestMarker_classified_rawTag
  have tags : (Segment.rawTags segs).map Tag.resolved =
      segs.dropLast.map Segment.tag := by
    rw [Segment.rawTags, List.map_map]
    exact List.map_congr_left fun seg _ =>
      Segment.resolved_classified_rawTag seg
  have count : (Segment.rawTags segs).length = segs.dropLast.length :=
    List.length_map ..
  cases found : segs.dropLast.dropLast.findIdx? Segment.marked with
  | some index => simp only [resolve_eq, marks, found, count]
  | none => simp only [resolve_eq, marks, found, tags]

/-- A line is accepted for the tags of its closed segments, where no segment
has a misuse and none but the last closed one carries a rest marker. -/
theorem parse_eq_ok_iff {line : Text} {tags : List Tag} :
    parse line = .ok tags ↔
      Text.misuses line = [] ∧
        (∀ seg ∈ (Text.segments line).dropLast.dropLast, seg.marked = false) ∧
        (Text.segments line).dropLast.map Segment.tag = tags := by
  rw [parse, scan_tags, ← earliest_eq_none_iff, ← List.findIdx?_eq_none_iff]
  cases earliest (Text.misuses line) with
  | some misuse => simp [Except.bind]
  | none =>
      rw [show Except.bind (.ok _) resolve = resolve _ from rfl, resolve_rawTags]
      cases (Text.segments line).dropLast.dropLast.findIdx? Segment.marked with
      | some index => simp
      | none => simp

/-- The misuse that stands before all others is what a line is refused for. -/
theorem parse_of_leads {line : Text} {first : Misuse × Nat}
    (leads : Leads first (Text.misuses line)) :
    parse line = .error (.misused first.1 first.2) := by
  rw [parse, scan_tags, leads.earliest_eq]
  rfl

/-! ## Reading a line by its spelling -/

section Spelled

variable {α : Type} {line : Text} {items : List α} {piece : α → Text × Char}

/-- The segments of a line that is spelled out by items are spelled like these
items, and an empty one stays open. -/
theorem segments_of_spelledOut
    (spelled : line.unspaced = Segment.spelledOut (items.map piece))
    (closes : ∀ item ∈ items, Segment.Closes (piece item))
    (still : ∀ item ∈ items, ∀ seg, Segment.Spells seg (piece item) →
      seg.leaves = false) :
    ∃ segs, Text.segments line = segs ++ [⟨false, []⟩] ∧
      List.Forall₂ (fun seg item => Segment.Spells seg (piece item))
        segs items := by
  obtain ⟨segs, segments, spells⟩ := Segment.cut_of_spelledOut
    ((Text.text_solid line).trans spelled)
    (List.forall_mem_map.mpr closes) (List.forall_mem_map.mpr still)
  exact ⟨segs, segments, List.forall₂_map_right_iff.mp spells⟩

theorem exists_spelled {segs : List Segment}
    (spelled : List.Forall₂ (fun seg item => Segment.Spells seg (piece item))
      segs items) {seg : Segment} (mem : seg ∈ segs) :
    ∃ item ∈ items, Segment.Spells seg (piece item) := by
  induction spelled with
  | nil => cases mem
  | @cons first item segs items spells _ ih =>
      rcases List.mem_cons.mp mem with rfl | later
      · exact ⟨item, List.mem_cons_self, spells⟩
      · obtain ⟨other, inside, spells⟩ := ih later
        exact ⟨other, List.mem_cons_of_mem _ inside, spells⟩

/-- Segments that are free of misuse and stand for tags item by item do so in a
row. -/
theorem tags_of_spelled {tagOf : α → Tag} {segs : List Segment}
    (spelled : List.Forall₂ (fun seg item => Segment.Spells seg (piece item))
      segs items)
    (reads : ∀ item ∈ items, ∀ seg, Segment.Spells seg (piece item) →
      seg.misuses = [] ∧ seg.tag = tagOf item) :
    Segment.allMisuses segs = [] ∧ segs.map Segment.tag = items.map tagOf := by
  induction spelled with
  | nil => exact ⟨rfl, rfl⟩
  | @cons seg item segs items spells _ ih =>
      obtain ⟨clean, same⟩ := ih fun item mem =>
        reads item (List.mem_cons_of_mem _ mem)
      obtain ⟨clean_first, same_first⟩ :=
        reads item List.mem_cons_self seg spells
      constructor
      · rw [Segment.allMisuses, List.flatMap_cons, clean_first]
        exact clean
      · rw [List.map_cons, List.map_cons, same_first, same]

/-- A line is read as the tags of the items that it is spelled out by. -/
theorem parse_of_spelledOut (tagOf : α → Tag)
    (spelled : line.unspaced = Segment.spelledOut (items.map piece))
    (closes : ∀ item ∈ items, Segment.Closes (piece item))
    (reads : ∀ item ∈ items, ∀ seg, Segment.Spells seg (piece item) →
      seg.misuses = [] ∧ seg.leaves = false ∧ seg.tag = tagOf item)
    (restLast : ∀ tag ∈ (items.map tagOf).dropLast, tag.rest = false) :
    parse line = .ok (items.map tagOf) := by
  obtain ⟨segs, segments, spells⟩ := segments_of_spelledOut spelled closes
    fun item mem seg spells => (reads item mem seg spells).2.1
  obtain ⟨clean, same⟩ := tags_of_spelled spells fun item mem seg spells =>
    ⟨(reads item mem seg spells).1, (reads item mem seg spells).2.2⟩
  rw [parse_eq_ok_iff, Text.misuses, segments, List.dropLast_concat]
  refine ⟨?_, ?_, same⟩
  · rw [Segment.allMisuses, List.flatMap_append]
    exact List.append_eq_nil_iff.mpr ⟨clean, rfl⟩
  · intro seg mem
    rw [← same, ← List.map_dropLast] at restLast
    exact restLast seg.tag (List.mem_map_of_mem mem)

end Spelled

/-- Every line is read as its segments say, whether it is accepted or
refused. -/
theorem parse_eq_readBySegments (line : Text) :
    parse line = readBySegments line := by
  rw [parse, scan_tags, readBySegments]
  cases earliest (Text.misuses line) with
  | some misuse => rfl
  | none => exact resolve_rawTags (Text.segments line)

end UsageLine

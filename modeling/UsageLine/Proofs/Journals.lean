import UsageLine.Journal
import UsageLine.Proofs.Admissible
import UsageLine.Proofs.ResolvedTags
import UsageLine.Proofs.Run
import UsageLine.Proofs.Segment.Renaming
import Mathlib.Data.List.DropRight

/-!
# The journal of a line

Reading a line leaves a record at each closing bracket, one at the end of the
line if a tag is thrown away there, and then those of the tags that are
resolved.  What the journal holds is told by the line: by the closed segments,
by what stands behind the last of them, and by what the line reads as.
-/

namespace UsageLine

/-! ## Records in turn -/

/-- What a scan has left on record when it ends. -/
def Scanned.journal (result : Scanned) : List Record :=
  result.last.closed.map .scanned ++
    if result.stop.isNone && !result.last.atBoundary then
      [.discarded result.last.current]
    else []

/-- The tags that are closed before, and what is recorded in turn, are on record
when the scan ends. -/
theorem Scan.scanned_append_journal (s : Scan) (position : Nat) (text : Text) :
    s.closed.map .scanned ++ s.journal text = (s.run position text).journal := by
  induction text generalizing s position with
  | nil =>
      cases boundary : s.atBoundary <;>
        simp [Scan.journal, run, Scanned.journal, boundary]
  | cons c rest ih =>
      cases taken : s.read c with
      | error what => simp [Scan.journal, run, Scanned.journal, taken]
      | ok next =>
          -- What this character closes is recorded before the rest is read.
          have closed : next.closed.map Record.scanned =
              s.closed.map .scanned ++ s.recorded c := by
            rw [closed_of_step taken, List.map_append, recorded]
            split <;> rfl
          have later := ih next (position + 1)
          rw [closed, List.append_assoc] at later
          simpa only [Scan.journal, run, taken] using later

theorem resolutionJournalFrom_eq {tags : List Tag} {count index : Nat}
    (whole : index + tags.length = count) :
    resolutionJournalFrom count index tags =
      (tags.take ((misplacedRest? tags).getD tags.length)).flatMap
        Tag.resolutionJournal := by
  induction tags generalizing index with
  | nil => rfl
  | cons tag rest ih =>
      have later : index + 1 + rest.length = count := by
        simp only [List.length_cons] at whole
        omega
      rw [resolutionJournalFrom, misplacedRest?_cons whole, ih later]
      by_cases misplaced : tag.hasRestMarker ∧ index + 1 ≠ count
      · simp [misplaced]
      · rw [if_neg misplaced, if_neg misplaced]
        cases misplacedRest? rest with
        | none => simp
        | some place => simp

/-- The resolution of tags records what each of them does, up to the first
misplaced marker. -/
theorem resolutionJournal_eq (tags : List Tag) :
    resolutionJournal tags =
      (tags.take ((misplacedRest? tags).getD tags.length)).flatMap
        Tag.resolutionJournal :=
  resolutionJournalFrom_eq (Nat.zero_add _)

theorem journal_eq (line : Text) :
    journal line =
      (scan line).journal ++
        match (scan line).tags with
        | .ok tags => resolutionJournal tags
        | .error _ => [] := by
  have scanned := Scan.scanned_append_journal {} 0 line
  rw [journal, scan, ← scanned]
  rfl

/-! ## Up to a misused mark -/

theorem last_of_stop {line : Text} {what : Misuse} {position : Nat}
    (stopped : (scan line).stop = some (what, position)) :
    (scan (line.take position)).stop = none ∧
      (scan line).last = (scan (line.take position)).last := by
  obtain ⟨before, after, rfl, place, through⟩ := Scan.sign_of_run stopped
  rw [Nat.zero_add] at place
  subst place
  rw [List.take_left]
  refine ⟨through, ?_⟩
  rw [scan, Scan.run_append_of_none through, Nat.zero_add] at stopped ⊢
  cases taken : (scan before).last.read what.sign with
  | error other =>
      rw [← scan, Scan.run, taken]
  | ok next =>
      -- Behind this mark the scan could be stopped at later places only.
      rw [← scan, Scan.run, taken] at stopped
      obtain ⟨_, _, _, place, _⟩ := Scan.sign_of_run stopped
      omega

/-! ## The end of a line -/

namespace Text

/-- What stands behind the last closing bracket. -/
def unclosed (line : Text) : Text := line.rtakeWhile fun c => !isCloser c

theorem getLast?_pieces (line : Text) :
    line.pieces.getLast? = some line.unclosed.unspaced := by
  have whole : line.rdropWhile (fun c => !isCloser c) ++ line.unclosed = line :=
    List.rdropWhile_append_rtakeWhile
  have quiet : ∀ c ∈ line.unclosed.unspaced, isCloser c = false := by
    intro c mem
    simpa using List.mem_rtakeWhile_imp (List.mem_filter.mp mem).1
  have last := List.splitOnP_eq_singleton quiet
  rcases List.eq_nil_or_concat' (line.rdropWhile fun c => !isCloser c) with
    empty | ⟨front, closer, ends⟩
  · rw [empty, List.nil_append] at whole
    rw [whole] at last
    rw [pieces, last, whole]
    rfl
  · have closing : isCloser closer = true := by
      have stays := List.rdropWhile_last_not (fun c => !isCloser c) line
        (by simp [ends])
      simpa [ends] using stays
    have solid : (closer != ' ') = true := by
      rw [bne_iff_ne]
      rintro rfl
      cases closing
    have spelled : line.unspaced =
        unspaced front ++ closer :: line.unclosed.unspaced := by
      have split := congrArg unspaced whole
      rw [ends] at split
      simpa [unspaced, solid] using split.symm
    rw [pieces, spelled, List.splitOnP_append_cons _ _ closing, last,
      List.getLast?_concat]

theorem written_of_getLast? {line : Text} {last : Segment}
    (isLast : (segments line).getLast? = some last) :
    Placed.text last.written = line.unclosed.unspaced := by
  have same := getLast?_pieces line
  rw [pieces_eq_segments, List.getLast?_map, isLast] at same
  exact Option.some.inj same

/-- Something other than spaces and square brackets that open is not closed. -/
def Unfinished (line : Text) : Prop := ∃ c ∈ line.unclosed, c ≠ ' ' ∧ c ≠ '['

instance (line : Text) : Decidable line.Unfinished :=
  inferInstanceAs (Decidable (∃ c ∈ line.unclosed, c ≠ ' ' ∧ c ≠ '['))

end Text

namespace Segment

variable {seg : Segment}

/-- A segment writes nothing into its tag exactly if it says nothing in its body
and opens no angle bracket. -/
theorem rawTag_eq_empty_iff :
    seg.kindSide = [] ∧ seg.rawTag = {} ↔
      seg.body = [] ∧ seg.required = false := by
  constructor
  · rintro ⟨side, empty⟩
    have name : seg.nameSide = [] :=
      List.map_eq_nil_iff.mp (congrArg Tag.name empty)
    have unmet : seg.meets = false :=
      (Bool.or_eq_false_iff.mp (congrArg Tag.literal empty)).1
    have whole : seg.nameSide ++ seg.kindSide = seg.own :=
      List.takeWhile_append_dropWhile
    have own : seg.body = seg.own := by
      rw [Segment.own, unmet]
      rfl
    rw [own, ← whole, name, side]
    exact ⟨rfl, congrArg Tag.required empty⟩
  · rintro ⟨body, optional⟩
    have unmet : seg.meets = false := by simp [meets, body]
    have own : seg.own = [] := by simp [Segment.own, unmet, body]
    have side : seg.kindSide = [] := by simp [kindSide, own]
    obtain ⟨undoubled, unwritten⟩ := kindWritten_of_kindSide (.inl side)
    refine ⟨side, ?_⟩
    simp [rawTag, nameSide, own, latest_of_unwritten unwritten, earlier,
      unwritten, optional, literal, unmet, undoubled]

/-- All characters are square brackets that open where the body is empty and no
angle bracket opens. -/
theorem body_eq_nil_iff :
    seg.body = [] ∧ seg.required = false ↔ ∀ c ∈ seg.written, c.1 = '[' := by
  have optional : seg.required = false ↔ ∀ c ∈ seg.written, c.1 ≠ '<' := by
    rw [Bool.eq_false_iff, ne_eq, required_iff]
    push Not
    rfl
  have opening : seg.body = [] ↔ ∀ c ∈ seg.written, c.1 = '<' ∨ c.1 = '[' := by
    rw [body, List.filter_eq_nil_iff]
    simp only [Placed.isOpening, Bool.not_eq_true', Bool.not_eq_false,
      Bool.or_eq_true, beq_iff_eq]
  rw [opening, optional]
  constructor
  · rintro ⟨opens, angleless⟩ c mem
    exact (opens c mem).resolve_left (angleless c mem)
  · intro square
    refine ⟨fun c mem => .inr (square c mem), fun c mem angle => ?_⟩
    exact absurd (angle.symm.trans (square c mem)) (by decide)

theorem atBoundary_scanAfter_iff {closed : List Tag} :
    (seg.scanAfter closed).atBoundary = true ↔ ∀ c ∈ seg.written, c.1 = '[' := by
  rw [← body_eq_nil_iff, ← rawTag_eq_empty_iff]
  simp [Scan.atBoundary, scanAfter]

end Segment

theorem exists_last_of_through {line : Text} (through : (scan line).stop = none) :
    ∃ last, (Text.segments line).getLast? = some last ∧
      (scan line).last = last.scanAfter (scan line).last.closed := by
  have solid : ∀ c ∈ Text.solid line, c.isSolid = true := fun c mem =>
    (List.mem_filter.mp mem).2
  rw [scan_eq_follow] at through ⊢
  rcases Segment.follow_cut (Text.solid line) solid (Text.rising_solid line)
      false [] with ⟨_, _, _, stopped⟩ | ⟨_, last, isLast, ended⟩
  · rw [show Scan.follow {} (Text.solid line) = _ from stopped] at through
    cases through
  · rw [show Scan.follow {} (Text.solid line) = _ from ended]
    exact ⟨last, isLast, rfl⟩

theorem atBoundary_iff {line : Text} {last : Segment} {closed : List Tag}
    (isLast : (Text.segments line).getLast? = some last) :
    (last.scanAfter closed).atBoundary = true ↔ ¬ line.Unfinished := by
  have written : (∀ c ∈ last.written, c.1 = '[') ↔
      ∀ c ∈ Placed.text last.written, c = '[' := by
    rw [Placed.text, List.forall_mem_map]
  rw [Segment.atBoundary_scanAfter_iff, written, Text.written_of_getLast? isLast,
    Text.Unfinished, Text.unspaced]
  simp only [List.mem_filter, bne_iff_ne]
  grind

/-! ## The records of a line -/

/-- The record of a closed segment shows the tag before it is resolved: the kind
is the last alternative with its marker, or the kind that the name chooses, and
the options are the other alternatives. -/
structure Segment.Shows (seg : Segment) (tag : Tag) : Prop where
  chosen : (tag.name, tag.kind) = seg.chosen
  required : tag.required = seg.required
  rest : tag.rest = false
  options : tag.options = seg.earlier
  literal : tag.literal = seg.literal

theorem Segment.shows_rawTags (segs : List Segment) :
    List.Forall₂ Segment.Shows segs.dropLast (rawTags segs) := by
  rw [rawTags, List.forall₂_map_right_iff, List.forall₂_same]
  intro seg _
  rw [classified_rawTag]
  exact ⟨rfl, rfl, rfl, rfl, rfl⟩

/-- What a line leaves that throws its last segment away. -/
def Text.discarding (line : Text) (last : Segment) : List Record :=
  if line.Unfinished then [.discarded last.rawTag] else []

namespace Tag

/-- What a resolved tag tells of its resolution: that it is a rest tag, and all
of its options. -/
def announced (tag : Tag) : List Record :=
  (if tag.rest then [.restResolved tag.name] else []) ++
    match tag.options with
    | some options => [.optionsResolved tag.name options]
    | none => []

/-- The record of a tag whose options its kind completes. -/
def completion (tag : Tag) : Option Record :=
  tag.options.map fun options =>
    .optionsResolved tag.name (options ++ [tag.kind])

theorem resolutionJournal_of_bare {tag : Tag} (bare : tag.hasRestMarker = false) :
    tag.resolutionJournal = tag.completion.toList := by
  rw [resolutionJournal, resolved, takeRestMarker_of_bare bare, bare,
    completeOptions, completion]
  cases listed : tag.options with
  | none => simp [listed]
  | some options => rfl

/-- A tag that is no rest tag before it is resolved leaves the records that the
resolved tag tells. -/
theorem resolutionJournal_eq_announced {tag : Tag}
    (fresh : tag.resolved.rest = tag.hasRestMarker) :
    tag.resolutionJournal = tag.resolved.announced := by
  have name := tag.resolves_resolved.name
  cases listed : tag.resolved.options with
  | none => simp [resolutionJournal, announced, fresh, name, listed]
  | some options => simp [resolutionJournal, announced, fresh, name, listed]

theorem level_of_mem_resolutionJournal {tag : Tag} {record : Record}
    (mem : record ∈ tag.resolutionJournal) : record.level = .trace := by
  rw [resolutionJournal, List.mem_append] at mem
  rcases mem with rest | options
  · split at rest
    · rw [List.mem_singleton.mp rest]
      rfl
    · cases rest
  · split at options
    · rw [List.mem_singleton.mp options]
      rfl
    · cases options

end Tag

namespace Record

def isRestResolved : Record → Bool
  | .restResolved _ => true
  | _ => false

end Record

theorem countP_announced (tags : List Tag) :
    (tags.flatMap Tag.announced).countP Record.isRestResolved =
      tags.countP (·.rest) := by
  induction tags with
  | nil => rfl
  | cons tag rest ih =>
      have one : tag.announced.countP Record.isRestResolved =
          if tag.rest then 1 else 0 := by
        rw [Tag.announced]
        cases tag.rest <;> cases tag.options <;> rfl
      rw [List.flatMap_cons, List.countP_append, one, ih, List.countP_cons,
        Nat.add_comm]

theorem countP_rest_le_one {line : Text} {tags : List Tag}
    (accepted : parse line = .ok tags) : tags.countP (·.rest) ≤ 1 := by
  have bare : tags.dropLast.countP (·.rest) = 0 :=
    List.countP_eq_zero.mpr fun tag mem => by
      simp [(admissible_of_parse accepted).restLast tag mem]
  rcases List.eq_nil_or_concat' tags with rfl | ⟨before, last, rfl⟩
  · simp
  · rw [List.dropLast_concat] at bare
    rw [List.countP_append, bare, Nat.zero_add]
    exact List.countP_le_length

theorem journal_of_through {line : Text} {last : Segment}
    (through : (scan line).stop = none)
    (isLast : (Text.segments line).getLast? = some last) :
    journal line =
      (scan line).last.closed.map .scanned ++ line.discarding last ++
        resolutionJournal (scan line).last.closed := by
  obtain ⟨ended, isEnd, state⟩ := exists_last_of_through through
  obtain rfl : last = ended := Option.some.inj (isLast.symm.trans isEnd)
  have boundary : (scan line).last.atBoundary = true ↔ ¬ line.Unfinished := by
    rw [state]
    exact atBoundary_iff isLast
  have current : (scan line).last.current = last.rawTag := by
    rw [state]
    rfl
  rw [journal_eq, Scanned.journal, Scanned.tags, through, current,
    Text.discarding]
  by_cases unfinished : line.Unfinished
  · simp [unfinished, mt boundary.mp (not_not_intro unfinished)]
  · simp [unfinished, boundary.mpr unfinished]

theorem journal_of_stop {line : Text} {what : Misuse} {position : Nat}
    (stopped : (scan line).stop = some (what, position)) :
    journal line =
      (Segment.rawTags (Text.segments (line.take position))).map .scanned := by
  obtain ⟨through, last⟩ := last_of_stop stopped
  rw [journal_eq, Scanned.journal, Scanned.tags, stopped, last,
    closed_eq_rawTags through]
  simp

/-- What the journal of a line holds that misuses no mark: a record for each
closed segment, the tag that is thrown away, and the records of the
resolution. -/
structure Journaled (line : Text) (tags : List Tag) (last : Segment)
    (resolution : List Record) : Prop where
  shown : List.Forall₂ Segment.Shows (Text.segments line).dropLast tags
  count : tags.length = line.closers
  isLast : (Text.segments line).getLast? = some last
  records : journal line =
    tags.map .scanned ++ line.discarding last ++ resolution
  /-- Only what is thrown away deserves more than a trace. -/
  debug : (journal line).filter (·.level == .debug) = line.discarding last
  /-- The recorded tags tell what the line reads as. -/
  reading : resolve tags = parse line
  accepted : ∀ resolved, parse line = .ok resolved →
    List.Forall₂ Tag.Resolves tags resolved ∧
      resolution = resolved.flatMap Tag.announced
  refused : ∀ index count, parse line = .error (.restNotLast index count) →
    count = line.closers ∧
      resolution = (tags.take index).filterMap Tag.completion

/-- The closed tags of an accepted line are resolved one by one, and the resolved
ones tell what this recorded. -/
theorem resolutionJournal_of_accepted {line : Text} {resolved : List Tag}
    (accepted : parse line = .ok resolved) :
    List.Forall₂ Tag.Resolves (scan line).last.closed resolved ∧
      resolutionJournal (scan line).last.closed =
        resolved.flatMap Tag.announced := by
  obtain ⟨through, placed, rfl⟩ := closed_of_parse accepted
  constructor
  · rw [List.forall₂_map_right_iff, List.forall₂_same]
    exact fun tag _ => tag.resolves_resolved
  · rw [resolutionJournal_eq, placed, Option.getD_none, List.take_length,
      List.flatMap_map]
    apply List.flatMap_congr
    intro tag mem
    exact Tag.resolutionJournal_eq_announced (rest_resolved_of_closed through mem)

/-- In front of a misplaced marker there is nothing but options to complete. -/
theorem resolutionJournal_of_misplaced {tags : List Tag} {index : Nat}
    (misplaced : misplacedRest? tags = some index) :
    resolutionJournal tags = (tags.take index).filterMap Tag.completion := by
  obtain ⟨_, _, first⟩ := misplacedRest?_eq_some_iff.mp misplaced
  rw [resolutionJournal_eq, misplaced, Option.getD_some,
    List.filterMap_eq_flatMap_toList]
  apply List.flatMap_congr
  intro tag mem
  obtain ⟨earlier, inside, rfl⟩ := List.mem_take_iff_getElem.mp mem
  have bare : tags[earlier].hasRestMarker = false := by
    rw [Bool.eq_false_iff, ne_eq, Tag.hasRestMarker_iff_suffix]
    exact first earlier (by omega) _ (List.getElem?_eq_getElem _)
  exact Tag.resolutionJournal_of_bare bare

theorem journaled_of_through {line : Text} (through : (scan line).stop = none) :
    ∃ last, Journaled line (scan line).last.closed last
      (resolutionJournal (scan line).last.closed) := by
  obtain ⟨last, isLast, _⟩ := exists_last_of_through through
  have records := journal_of_through through isLast
  have reading := parse_of_through through
  refine ⟨last, ?_, length_closed through, isLast, records, ?_, reading.symm,
    fun resolved accepted => resolutionJournal_of_accepted accepted, ?_⟩
  · rw [closed_eq_rawTags through]
    exact Segment.shows_rawTags _
  · have scanned : ((scan line).last.closed.map Record.scanned).filter
        (·.level == .debug) = [] := by
      simp [List.filter_eq_nil_iff, Record.level]
    have discarded : (line.discarding last).filter (·.level == .debug) =
        line.discarding last := by
      rw [Text.discarding]
      split <;> rfl
    have resolution : (resolutionJournal (scan line).last.closed).filter
        (·.level == .debug) = [] := by
      rw [List.filter_eq_nil_iff]
      intro record mem
      rw [resolutionJournal_eq] at mem
      obtain ⟨tag, _, mem⟩ := List.mem_flatMap.mp mem
      simp [Tag.level_of_mem_resolutionJournal mem]
    rw [records, List.filter_append, List.filter_append, scanned, discarded,
      resolution, List.nil_append, List.append_nil]
  · intro index count refused
    rw [reading, resolve_eq_restNotLast_iff] at refused
    obtain ⟨misplaced, rfl⟩ := refused
    exact ⟨length_closed through, resolutionJournal_of_misplaced misplaced⟩

/-- Rest records come from the rest tags of an accepted line, and from nothing
else. -/
theorem countP_isRestResolved (line : Text) :
    (∃ tags, parse line = .ok tags ∧
      (journal line).countP Record.isRestResolved = tags.countP (·.rest)) ∨
    (journal line).countP Record.isRestResolved = 0 := by
  have scanned (tags : List Tag) :
      (tags.map Record.scanned).countP Record.isRestResolved = 0 := by
    simp [List.countP_eq_zero, Record.isRestResolved]
  cases stopped : (scan line).stop with
  | some stop => exact .inr (by rw [journal_of_stop stopped, scanned])
  | none =>
      obtain ⟨last, journaled⟩ := journaled_of_through stopped
      have discarded :
          (line.discarding last).countP Record.isRestResolved = 0 := by
        rw [Text.discarding]
        split <;> rfl
      rw [journaled.records, List.countP_append, List.countP_append, scanned,
        discarded, Nat.zero_add]
      cases misplaced : misplacedRest? (scan line).last.closed with
      | none =>
          have accepted : parse line =
              .ok ((scan line).last.closed.map Tag.resolved) := by
            rw [parse_of_through stopped, resolve_eq, misplaced]
          refine .inl ⟨_, accepted, ?_⟩
          rw [(journaled.accepted _ accepted).2, countP_announced]
      | some index =>
          refine .inr ?_
          rw [resolutionJournal_of_misplaced misplaced, List.countP_eq_zero]
          intro record mem
          obtain ⟨tag, _, completes⟩ := List.mem_filterMap.mp mem
          obtain ⟨options, _, rfl⟩ := Option.map_eq_some_iff.mp completes
          exact Bool.false_ne_true

end UsageLine

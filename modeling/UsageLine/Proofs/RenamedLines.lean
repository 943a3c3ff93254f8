import UsageLine.Proofs.Rereading
import UsageLine.Proofs.Run
import UsageLine.Proofs.Segment.Renaming

/-!
# Renamed lines

A line whose characters are renamed, all but the signs of the grammar, is read
like the line: it is refused in the same way at the same place, or it has the
same tags but for the renames.  What a line writes is renamed, and what the
reader gives stays.  So no name or kind is special where it is written.
-/

namespace UsageLine

variable {f : Char → Char}

/-! ## Two scans side by side -/

def Mark.renamed (f : Char → Char) : Mark → Mark
  | .letter c => .letter (f c)
  | mark => mark

theorem Mark.ofChar_of_other {c : Char} (other : c ∉ Text.signs) :
    ofChar c = .letter c := by
  unfold ofChar
  split <;> simp_all [Text.signs]

theorem Renaming.ofChar_map (renames : Renaming f) (c : Char) :
    Mark.ofChar (f c) = (Mark.ofChar c).renamed f := by
  by_cases sign : c ∈ Text.signs
  · have stays := renames.keeps c sign
    have letter : (Mark.letter c).renamed f = .letter c :=
      congrArg Mark.letter stays
    rw [stays]
    simp only [Text.signs, List.mem_cons, List.not_mem_nil, or_false] at sign
    rcases sign with rfl | rfl | rfl | rfl | rfl | rfl | rfl | rfl | rfl <;>
      first | rfl | exact letter.symm
  · rw [Mark.ofChar_of_other sign, Mark.ofChar_of_other (renames.apart c sign)]
    rfl

namespace Scan

/-- Two scans agree in all that decides which marks are misused. -/
structure Abreast (s other : Scan) : Prop where
  required : other.current.required = s.current.required
  inKind : other.inKind = s.inKind
  colonPending : other.colonPending = s.colonPending

theorem Abreast.refl (s : Scan) : Abreast s s := ⟨rfl, rfl, rfl⟩

/-- A mark is refused by both for the same reason, or taken by both. -/
theorem Abreast.step {s other : Scan} (abreast : Abreast s other) (mark : Mark)
    (f : Char → Char) :
    (∃ what, s.step mark = .error what ∧
      other.step (mark.renamed f) = .error what) ∨
    ∃ next following, s.step mark = .ok next ∧
      other.step (mark.renamed f) = .ok following ∧ Abreast next following := by
  obtain ⟨required, inKind, colonPending⟩ := abreast
  cases mark with
  | blank => exact .inr ⟨_, _, rfl, rfl, required, inKind, colonPending⟩
  | openRequired => exact .inr ⟨_, _, rfl, rfl, rfl, inKind, colonPending⟩
  | openOptional =>
      simp only [Mark.renamed, Scan.step, required]
      cases s.current.required with
      | true => exact .inl ⟨_, rfl, rfl⟩
      | false => exact .inr ⟨_, _, rfl, rfl, required, inKind, colonPending⟩
  | close => exact .inr ⟨_, _, rfl, rfl, rfl, rfl, colonPending⟩
  | colon =>
      simp only [Mark.renamed, Scan.step, colonPending, inKind]
      cases s.colonPending with
      | true => exact .inr ⟨_, _, rfl, rfl, required, rfl, rfl⟩
      | false =>
          cases s.inKind with
          | true => exact .inl ⟨_, rfl, rfl⟩
          | false => exact .inr ⟨_, _, rfl, rfl, required, rfl, rfl⟩
  | bar =>
      simp only [Mark.renamed, Scan.step, inKind]
      cases s.inKind with
      | true => exact .inr ⟨_, _, rfl, rfl, required, inKind, rfl⟩
      | false => exact .inl ⟨_, rfl, rfl⟩
  | letter c =>
      refine .inr ⟨_, _, rfl, rfl, ?_⟩
      -- The letter goes into both kinds or into both names.
      rw [Scan.write, Scan.write, inKind]
      cases s.inKind with
      | true => exact ⟨required, rfl, rfl⟩
      | false => exact ⟨required, rfl, rfl⟩

/-- Scans that start abreast are stopped by the same mark at the same place, or
both are not. -/
theorem Abreast.stop_run (renames : Renaming f) {s other : Scan}
    (abreast : Abreast s other) (position : Nat) (text : Text) :
    (other.run position (text.map f)).stop = (s.run position text).stop := by
  induction text generalizing s other position with
  | nil => rfl
  | cons c rest ih =>
      rw [List.map_cons, run, run, read, read, renames.ofChar_map]
      rcases abreast.step (Mark.ofChar c) f with
        ⟨what, refused, refused'⟩ | ⟨next, following, taken, taken', still⟩
      · rw [refused, refused']
      · rw [taken, taken']
        exact ih still (position + 1)

end Scan

theorem Renaming.stop_scan (renames : Renaming f) (line : Text) :
    (scan (line.map f)).stop = (scan line).stop :=
  (Scan.Abreast.refl {}).stop_run renames 0 line

/-! ## The segments of a renamed line -/

namespace Renaming

variable (renames : Renaming f)
include renames

theorem isCloser_map (c : Char) : Text.isCloser (f c) = Text.isCloser c := by
  rw [Text.isCloser, Text.isCloser, renames.beq_eq (by decide),
    renames.beq_eq (by decide)]

theorem unspaced_map (text : Text) :
    Text.unspaced (text.map f) = text.unspaced.map f := by
  rw [Text.unspaced, Text.unspaced, List.filter_map]
  exact congrArg (fun p => (text.filter p).map f)
    (funext fun c => renames.bne_eq (by decide))

theorem pieces_map (line : Text) :
    Text.pieces (line.map f) = line.pieces.map (List.map f) := by
  rw [Text.pieces, Text.pieces, renames.unspaced_map, Text.splitOnP_map]
  exact congrArg (fun p => (line.unspaced.splitOnP p).map (List.map f))
    (funext renames.isCloser_map)

theorem saysAs_map (piece : Text) : Text.SaysAs f piece (piece.map f) := by
  refine ⟨?_, renames.mem_map_iff (by decide)⟩
  rw [Text.unbracketed, Text.unbracketed, List.filter_map]
  refine congrArg (fun p => (piece.filter p).map f) (funext fun c => ?_)
  rw [Function.comp, renames.beq_eq (by decide), renames.beq_eq (by decide)]

/-- The closed segments of a renamed line say what those of the line say, but
for the renames. -/
theorem alike_map (line : Text) :
    List.Forall₂ (Segment.Alike f) (Text.segments line).dropLast
      (Text.segments (line.map f)).dropLast := by
  apply Segment.alike_segments renames
  rw [renames.pieces_map, ← List.map_dropLast, List.forall₂_map_right_iff,
    List.forall₂_same]
  exact fun piece _ => renames.saysAs_map piece

end Renaming

/-! ## The tags of a renamed line -/

theorem Renaming.shorthand_map (renames : Renaming f) (name : Text) :
    Tag.shorthand (name.map f) =
      ((Tag.shorthand name).1.map f, (Tag.shorthand name).2) := by
  have mark : f '@' = '@' := renames.keeps '@' (by decide)
  have front (text : Text) : ['@'] <+: text.map f ↔ ['@'] <+: text :=
    renames.prefix_map_iff (by simp [Text.signs])
  rcases Tag.shorthand_cases name with
    ⟨rest, rfl⟩ | ⟨rest, rfl, unpaired⟩ | unmentioned
  · rw [List.map_cons, List.map_cons, mark]
    rfl
  · rw [List.map_cons, mark, Tag.shorthand_of_single (mt (front rest).mp unpaired),
      Tag.shorthand_of_single unpaired]
  · rw [Tag.shorthand_of_none (mt (front name).mp unmentioned),
      Tag.shorthand_of_none unmentioned]

namespace Segment

/-- What becomes of the last alternative: it is renamed if the segment writes it;
otherwise the name chose it, and it stays. -/
inductive RenamesLast (f : Char → Char) (seg : Segment) : Text → Text → Prop
  | written (kind : Text) (spelled : seg.latest ≠ []) :
      RenamesLast f seg kind (kind.map f)
  | given {kind : Text} (unwritten : seg.latest = [])
      (chosen : kind ∈ Tag.chosenKinds) : RenamesLast f seg kind kind

/-- What becomes of the options and the kind of a tag.  All alternatives but the
last one are written, and the kind of a tag that lists alternatives is given. -/
inductive RenamesKind (f : Char → Char) (seg : Segment) :
    Option (List Text) → Text → Option (List Text) → Text → Prop
  | single {kind renamed : Text} (ends : seg.RenamesLast f kind renamed) :
      RenamesKind f seg none kind none renamed
  | listed (earlier : List Text) {last renamed : Text}
      (ends : seg.RenamesLast f last renamed) :
      RenamesKind f seg (some (earlier ++ [last])) Tag.optionsKind
        (some (earlier.map (List.map f) ++ [renamed])) Tag.optionsKind

/-- The tag of a segment, and the tag of the renamed one. -/
structure RenamesTag (f : Char → Char) (seg : Segment) (tag renamed : Tag) :
    Prop where
  name : renamed.name = tag.name.map f
  required : renamed.required = tag.required
  rest : renamed.rest = tag.rest
  literal : renamed.literal = tag.literal
  kind : seg.RenamesKind f tag.options tag.kind renamed.options renamed.kind

namespace Alike

variable {seg other : Segment} (renames : Renaming f) (alike : Alike f seg other)
include renames alike

theorem chosen_of_unwritten (unwritten : seg.latest = []) :
    other.chosen = (seg.chosen.1.map f, seg.chosen.2) := by
  have unwritten' : other.latest = [] := by
    rw [alike.latest renames, unwritten, List.map_nil]
  rw [Segment.chosen_of_unwritten unwritten,
    Segment.chosen_of_unwritten unwritten', alike.nameSide renames,
    renames.shorthand_map]

theorem chosen_of_written (written : seg.latest ≠ []) :
    other.chosen = (seg.chosen.1.map f, seg.chosen.2.map f) := by
  have written' : other.latest ≠ [] := by
    rwa [alike.latest renames, ne_eq, List.map_eq_nil_iff]
  rw [Segment.chosen_of_written written, Segment.chosen_of_written written',
    alike.nameSide renames, alike.latest renames]

theorem chosen_name : other.chosen.1 = seg.chosen.1.map f := by
  by_cases unwritten : seg.latest = []
  · rw [alike.chosen_of_unwritten renames unwritten]
  · rw [alike.chosen_of_written renames unwritten]

theorem marked : other.marked = seg.marked := by
  rw [Segment.marked, Segment.marked]
  by_cases unwritten : seg.latest = []
  · rw [alike.chosen_of_unwritten renames unwritten]
  · rw [alike.chosen_of_written renames unwritten]
    exact renames.isSuffixOf_map (by simp [Tag.restMarker, Text.signs])

theorem unmarked : seg.RenamesLast f seg.unmarked other.unmarked := by
  by_cases unwritten : seg.latest = []
  · have given : seg.chosen.2 ∈ Tag.chosenKinds := by
      rw [Segment.chosen_of_unwritten unwritten]
      exact Tag.shorthand_kind_mem _
    have bare : seg.marked = false := Tag.bare_of_chosen given
    have same : seg.unmarked = seg.chosen.2 := if_neg (by simp [bare])
    have same' : other.unmarked = seg.chosen.2 := by
      rw [Segment.unmarked, alike.marked renames, bare,
        alike.chosen_of_unwritten renames unwritten]
      rfl
    rw [same, same']
    exact .given unwritten given
  · have renamed : other.unmarked = seg.unmarked.map f := by
      rw [Segment.unmarked, Segment.unmarked, alike.marked renames,
        alike.chosen_of_written renames unwritten, List.length_map]
      split
      · exact List.map_take.symm
      · rfl
    rw [renamed]
    exact .written _ unwritten

/-- Segments that say the same but for a renaming have tags that are the same
but for the renames. -/
theorem renamesTag : seg.RenamesTag f seg.tag other.tag := by
  have rest := alike.marked renames
  have last := alike.unmarked renames
  refine ⟨alike.chosen_name renames, alike.required, rest,
    alike.literal renames, ?_⟩
  rw [tag, tag, alike.earlier renames]
  cases seg.earlier with
  | none => exact .single last
  | some earlier => exact .listed earlier last

end Alike

section Row

variable {segs others : List Segment} (renames : Renaming f)
  (alike : List.Forall₂ (Alike f) segs others)
include renames alike

/-- The first segment in front of the last one that carries a rest marker stands
at the same place. -/
theorem findIdx?_marked_of_alike :
    others.dropLast.findIdx? Segment.marked =
      segs.dropLast.findIdx? Segment.marked := by
  have marks (row : List Segment) : row.dropLast.findIdx? Segment.marked =
      (row.map Segment.marked).dropLast.findIdx? id := by
    rw [← List.map_dropLast, List.findIdx?_map]
    rfl
  rw [marks, marks,
    map_eq_of_alike (fun _ _ alike => alike.marked renames) alike]

theorem renamesTag_of_alike :
    List.Forall₂ (fun seg pair => seg.RenamesTag f pair.1 pair.2) segs
      ((segs.map Segment.tag).zip (others.map Segment.tag)) := by
  induction alike with
  | nil => exact .nil
  | cons alike _ ih => exact .cons (alike.renamesTag renames) ih

end Row

end Segment

theorem parse_of_through_segments {line : Text}
    (through : (scan line).stop = none) :
    parse line =
      match (Text.segments line).dropLast.dropLast.findIdx? Segment.marked with
      | some index =>
          .error (.restNotLast index (Text.segments line).dropLast.length)
      | none => .ok ((Text.segments line).dropLast.map Segment.tag) := by
  rw [parse_of_through through, closed_eq_rawTags through]
  exact resolve_rawTags (Text.segments line)

/-- Only the signs of the grammar matter.  A line whose other characters are
renamed is refused exactly where the line is refused, for the same reason.  If
the line is accepted, the renamed one is, with the same tags but for the
renames. -/
theorem parse_renamed (renames : Renaming f) (line : Text) :
    (∀ error, parse (line.map f) = .error error ↔ parse line = .error error) ∧
    ∀ tags, parse line = .ok tags →
      ∃ renamed, parse (line.map f) = .ok renamed ∧
        renamed.length = tags.length ∧
        List.Forall₂ (fun seg pair => seg.RenamesTag f pair.1 pair.2)
          (Text.segments line).dropLast (tags.zip renamed) := by
  -- A misused mark stops both scans or none; a misplaced marker is in both rows of
  -- closed segments or in none.
  cases stopped : (scan line).stop with
  | some stop =>
      have refused := parse_eq_misused_iff.mpr stopped
      have refused' : parse (line.map f) = .error (.misused stop.1 stop.2) :=
        parse_eq_misused_iff.mpr ((renames.stop_scan line).trans stopped)
      rw [refused, refused']
      exact ⟨fun error => Iff.rfl, fun tags accepted => nomatch accepted⟩
  | none =>
      have alike := renames.alike_map line
      have count := alike.length_eq
      have stopped' := (renames.stop_scan line).trans stopped
      rw [parse_of_through_segments stopped, parse_of_through_segments stopped',
        Segment.findIdx?_marked_of_alike renames alike, ← count]
      cases (Text.segments line).dropLast.dropLast.findIdx? Segment.marked with
      | some index =>
          exact ⟨fun error => Iff.rfl, fun tags accepted => nomatch accepted⟩
      | none =>
          refine ⟨fun error => by simp, ?_⟩
          rintro tags accepted
          cases accepted
          refine ⟨_, rfl, ?_, Segment.renamesTag_of_alike renames alike⟩
          rw [List.length_map, List.length_map, count]

/-- All characters but the signs become one letter, which takes two bytes. -/
def Text.oneLetter (c : Char) : Char := if c ∈ Text.signs then c else 'é'

theorem Text.renaming_oneLetter : Renaming Text.oneLetter where
  keeps _ sign := if_pos sign
  apart c other := by
    rw [Text.oneLetter, if_neg other]
    decide

/-- A kind that is written is renamed, and the same kind stays where the name
chose it. -/
theorem parse_renamed_of_one_letter :
    ∃ tags renamed, parse "[@ab:user|x.y|]<c::d...>".toList = .ok tags ∧
      parse ("[@ab:user|x.y|]<c::d...>".toList.map Text.oneLetter) =
        .ok renamed ∧
      List.Forall₂
        (fun seg pair => seg.RenamesTag Text.oneLetter pair.1 pair.2)
        (Text.segments "[@ab:user|x.y|]<c::d...>".toList).dropLast
        (tags.zip renamed) ∧
      tags.map (·.options) =
        [some [Tag.userKind, ['x', '.', 'y'], Tag.userKind], none] ∧
      renamed.map (·.options) =
        [some [['é', 'é', 'é', 'é'], ['é', '.', 'é'], Tag.userKind], none] := by
  have accepted : parse "[@ab:user|x.y|]<c::d...>".toList =
      .ok
        [{ name := ['a', 'b'], kind := Tag.optionsKind,
           options := some [Tag.userKind, ['x', '.', 'y'], Tag.userKind] },
          { name := ['c'], kind := ['d'], required := true, rest := true,
            literal := true }] := by decide
  have spelled : parse ("[@ab:user|x.y|]<c::d...>".toList.map Text.oneLetter) =
      .ok
        [{ name := ['é', 'é'], kind := Tag.optionsKind,
           options := some
            [['é', 'é', 'é', 'é'], ['é', '.', 'é'], Tag.userKind] },
          { name := ['é'], kind := ['é'], required := true, rest := true,
            literal := true }] := by decide
  obtain ⟨renamed, accepted', _, each⟩ :=
    (parse_renamed Text.renaming_oneLetter _).2 _ accepted
  obtain rfl := Except.ok.inj (accepted'.symm.trans spelled)
  exact ⟨_, _, accepted, spelled, each, rfl, rfl⟩

end UsageLine

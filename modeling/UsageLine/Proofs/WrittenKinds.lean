import UsageLine.Proofs.Rereading
import UsageLine.Proofs.WrittenOptions

/-!
# Kinds as they are written

What is asked of the kind of a tag is how the tag was written: with
alternatives, as a user, as a member, or without a kind.  An author can write
one of the four kinds that the reader gives itself, so the answers are right
exactly where none of these is written.
-/

namespace UsageLine

namespace Tag

/-- The kinds that the reader gives to tags. -/
def givenKinds : List Text := [literalKind, memberKind, userKind, optionsKind]

def unmarked (kind : Text) : Text :=
  if restMarker.isSuffixOf kind then
    kind.take (kind.length - restMarker.length)
  else kind

theorem unmarked_or (kind : Text) :
    kind = unmarked kind ∨ kind = unmarked kind ++ restMarker := by
  rw [unmarked]
  split
  · rename_i marked
    obtain ⟨stem, whole⟩ := List.isSuffixOf_iff_suffix.mp marked
    rw [← whole, List.length_append, Nat.add_sub_cancel, List.take_left]
    exact .inr rfl
  · exact .inl rfl

/-- A name chooses neither a rest kind nor the kind of alternatives. -/
theorem shorthand_kind_bare (name : Text) :
    unmarked (shorthand name).2 = (shorthand name).2 ∧
      (shorthand name).2 ≠ optionsKind := by
  have bare : ∀ kind ∈ chosenKinds,
      unmarked kind = kind ∧ kind ≠ optionsKind := by decide
  exact bare _ (shorthand_kind_mem name)

end Tag

namespace Segment

variable {seg : Segment}

/-! ## How a segment is written -/

/-- The kind as it is written, without one rest marker. -/
def stated (seg : Segment) : Text := Tag.unmarked (Placed.text seg.kindWritten)

/-- Without a kind, and with a single mark in front of the name. -/
def NamesUser (seg : Segment) : Prop :=
  seg.kindWritten = [] ∧ ['@'] <+: Placed.text seg.nameSide ∧
    ¬ ['@', '@'] <+: Placed.text seg.nameSide

/-- Without a kind, and with two marks in front of the name. -/
def NamesMember (seg : Segment) : Prop :=
  seg.kindWritten = [] ∧ ['@', '@'] <+: Placed.text seg.nameSide

/-- Without a kind, and without a mark in front of the name. -/
def NamesLiteral (seg : Segment) : Prop :=
  seg.kindWritten = [] ∧ ¬ ['@'] <+: Placed.text seg.nameSide

/-- What is asked of a tag's kind is answered as the segment is written. -/
structure Faithful (seg : Segment) (tag : Tag) : Prop where
  options : tag.isOptions = true ↔ tag.options.isSome = true
  user : tag.isUser = true ↔ seg.NamesUser
  member : tag.isMember = true ↔ seg.NamesMember
  literal : tag.isLiteralKind = true ↔ seg.NamesLiteral

/-- When the questions about a tag's kind are answered by yes. -/
structure Answers (seg : Segment) (tag : Tag) : Prop where
  bars : tag.options.isSome = true ↔ '|' ∈ Placed.text seg.written
  options : tag.isOptions = true ↔
    tag.options.isSome = true ∨ seg.stated = Tag.optionsKind
  user : tag.isUser = true ↔ seg.NamesUser ∨ seg.stated = Tag.userKind
  member : tag.isMember = true ↔ seg.NamesMember ∨ seg.stated = Tag.memberKind
  literal : tag.isLiteralKind = true ↔
    seg.NamesLiteral ∨ seg.stated = Tag.literalKind
  /-- Only a given kind that the author writes makes an answer wrong. -/
  faithful : seg.Faithful tag ↔ seg.stated ∉ Tag.givenKinds

/-! ## The kind of the tag -/

theorem stated_of_unwritten (unwritten : seg.kindWritten = []) :
    seg.stated = [] := by
  rw [stated, unwritten]
  rfl

theorem bar_mem_stated (bar : '|' ∈ Placed.text seg.kindWritten) :
    '|' ∈ seg.stated := by
  rcases Tag.unmarked_or (Placed.text seg.kindWritten) with same | marked
  · rwa [stated, ← same]
  · rw [marked, List.mem_append] at bar
    exact bar.resolve_right (by decide)

theorem kind_of_bar (bar : '|' ∈ Placed.text seg.kindWritten) :
    seg.tag.kind = Tag.optionsKind := by
  simp [tag, earlier, bar]

theorem kind_of_no_bar (barless : '|' ∉ Placed.text seg.kindWritten) :
    seg.tag.kind = Tag.unmarked seg.chosen.2 := by
  simp only [tag, earlier, if_neg barless]
  rfl

theorem kind_of_unwritten (unwritten : seg.kindWritten = []) :
    seg.tag.kind = (Tag.shorthand (Placed.text seg.nameSide)).2 := by
  have barless : '|' ∉ Placed.text seg.kindWritten := by simp [unwritten]
  rw [kind_of_no_bar barless,
    chosen_of_unwritten (latest_of_unwritten unwritten)]
  exact (Tag.shorthand_kind_bare _).1

theorem kind_of_single (written : seg.kindWritten ≠ [])
    (barless : '|' ∉ Placed.text seg.kindWritten) :
    seg.tag.kind = seg.stated := by
  have latest : seg.latest = Placed.text seg.kindWritten := by
    rw [Segment.latest, alternatives_of_no_bar barless]
    rfl
  have nonempty : seg.latest ≠ [] := by
    rwa [latest, ne_eq, Placed.text, List.map_eq_nil_iff]
  rw [kind_of_no_bar barless, chosen_of_written nonempty, latest, stated]

/-- A tag has a given kind by its bars, by its name, or because its author
writes that kind. -/
theorem kind_eq_iff {kind : Text} (given : kind ∈ Tag.givenKinds) :
    seg.tag.kind = kind ↔
      (Tag.optionsKind = kind ∧ '|' ∈ Placed.text seg.kindWritten) ∨
      (seg.kindWritten = [] ∧
        (Tag.shorthand (Placed.text seg.nameSide)).2 = kind) ∨
      seg.stated = kind := by
  have nonempty : [] ≠ kind := by
    rintro rfl
    exact absurd given (by decide)
  have barless : '|' ∉ kind := by
    revert kind
    decide
  by_cases bar : '|' ∈ Placed.text seg.kindWritten
  · have written : seg.kindWritten ≠ [] := by
      rintro unwritten
      simp [unwritten] at bar
    have other : seg.stated ≠ kind := fun same =>
      barless (same ▸ bar_mem_stated bar)
    simp [kind_of_bar bar, bar, written, other]
  · by_cases unwritten : seg.kindWritten = []
    · simp [kind_of_unwritten unwritten, stated_of_unwritten unwritten,
        unwritten, nonempty]
    · simp [kind_of_single unwritten bar, bar, unwritten]

/-! ## The answers -/

theorem isOptions_iff :
    seg.tag.isOptions = true ↔
      seg.tag.options.isSome = true ∨ seg.stated = Tag.optionsKind := by
  have chosen := (Tag.shorthand_kind_bare (Placed.text seg.nameSide)).2
  rw [Tag.isOptions, beq_iff_eq, kind_eq_iff (by decide), isSome_options_tag]
  simp [chosen]

theorem isUser_iff :
    seg.tag.isUser = true ↔ seg.NamesUser ∨ seg.stated = Tag.userKind := by
  rw [Tag.isUser, beq_iff_eq, kind_eq_iff (by decide),
    Tag.shorthand_kind_eq_user_iff, NamesUser,
    or_iff_right (not_and_of_not_left _ (by decide))]

theorem isMember_iff :
    seg.tag.isMember = true ↔ seg.NamesMember ∨ seg.stated = Tag.memberKind := by
  rw [Tag.isMember, beq_iff_eq, kind_eq_iff (by decide),
    Tag.shorthand_kind_eq_member_iff, NamesMember,
    or_iff_right (not_and_of_not_left _ (by decide))]

theorem isLiteralKind_iff :
    seg.tag.isLiteralKind = true ↔
      seg.NamesLiteral ∨ seg.stated = Tag.literalKind := by
  rw [Tag.isLiteralKind, beq_iff_eq, kind_eq_iff (by decide),
    Tag.shorthand_kind_eq_literal_iff, NamesLiteral,
    or_iff_right (not_and_of_not_left _ (by decide))]

theorem written_of_given (given : seg.stated ∈ Tag.givenKinds) :
    seg.tag.options.isSome = false ∧ seg.kindWritten ≠ [] := by
  constructor
  · rw [← Bool.not_eq_true, isSome_options_tag]
    intro bar
    have barless : ∀ kind ∈ Tag.givenKinds, '|' ∉ kind := by decide
    exact barless _ given (bar_mem_stated bar)
  · intro unwritten
    rw [stated_of_unwritten unwritten] at given
    exact absurd given (by decide)

/-- The answers are right exactly where no given kind is written. -/
theorem faithful_iff : seg.Faithful seg.tag ↔ seg.stated ∉ Tag.givenKinds := by
  constructor
  · intro faithful given
    obtain ⟨unlisted, written⟩ := written_of_given given
    simp only [Tag.givenKinds, List.mem_cons, List.not_mem_nil, or_false] at given
    rcases given with literal | member | user | options
    · exact written (faithful.literal.mp (isLiteralKind_iff.mpr (.inr literal))).1
    · exact written (faithful.member.mp (isMember_iff.mpr (.inr member))).1
    · exact written (faithful.user.mp (isUser_iff.mpr (.inr user))).1
    · have listed := faithful.options.mp (isOptions_iff.mpr (.inr options))
      exact Bool.false_ne_true (unlisted.symm.trans listed)
  · intro own
    have other : ∀ kind ∈ Tag.givenKinds, seg.stated ≠ kind := by
      rintro kind given rfl
      exact own given
    exact ⟨isOptions_iff.trans (or_iff_left (other _ (by decide))),
      isUser_iff.trans (or_iff_left (other _ (by decide))),
      isMember_iff.trans (or_iff_left (other _ (by decide))),
      isLiteralKind_iff.trans (or_iff_left (other _ (by decide)))⟩

end Segment

/-- What is asked of the kinds in an accepted line.  A tag has options exactly
if its segment holds a bar.  It counts as one with options, as a user, as a
member or as a literal if it is written so, and besides if its author writes
just the kind that the reader gives to such tags. -/
theorem kinds_written {line : Text} {tags : List Tag}
    (accepted : parse line = .ok tags) :
    List.Forall₂ Segment.Answers (Text.segments line).dropLast tags := by
  obtain ⟨clean, _, rfl⟩ := parse_eq_ok_iff.mp accepted
  rw [List.forall₂_map_right_iff, List.forall₂_same]
  intro seg mem
  have clean : seg.misuses = [] :=
    List.flatMap_eq_nil_iff.mp clean seg ((List.dropLast_sublist _).subset mem)
  exact ⟨Segment.isSome_options_iff clean, Segment.isOptions_iff,
    Segment.isUser_iff, Segment.isMember_iff, Segment.isLiteralKind_iff,
    Segment.faithful_iff⟩

/-- `<@a>` is a user and so is `<b:user>`, and `[c:x|y]` and `[d:options...]`
have the same kind. -/
theorem kinds_written_of_row :
    List.Forall₂ Segment.Answers
      (Text.segments ['<', '@', 'a', '>', '<', 'b', ':', 'u', 's', 'e', 'r', '>',
        '[', 'c', ':', 'x', '|', 'y', ']', '[', 'd', ':', 'o', 'p', 't', 'i', 'o',
        'n', 's', '.', '.', '.', ']']).dropLast
      [{ name := ['a'], kind := Tag.userKind, required := true },
       { name := ['b'], kind := Tag.userKind, required := true },
       { name := ['c'], kind := Tag.optionsKind, options := some [['x'], ['y']] },
       { name := ['d'], kind := Tag.optionsKind, rest := true }] :=
  kinds_written rfl

/-- The author of `<a:user>` wrote a kind, yet the tag counts as a user by its
name; `<a:options>` counts as a tag with options and has none. -/
theorem not_forall_faithful :
    (¬ ∀ line tags, parse line = .ok tags →
      List.Forall₂ Segment.Faithful (Text.segments line).dropLast tags) ∧
    ¬ ∀ line tags, parse line = .ok tags →
      ∀ tag ∈ tags, tag.options.isSome = true ↔ tag.kind = Tag.optionsKind := by
  constructor
  · intro faithful
    have tags : parse ['<', 'a', ':', 'u', 's', 'e', 'r', '>'] =
        .ok [{ name := ['a'], kind := Tag.userKind, required := true }] := rfl
    have segments : (Text.segments
        ['<', 'a', ':', 'u', 's', 'e', 'r', '>']).dropLast =
        [⟨false, [('<', 0), ('a', 1), (':', 2), ('u', 3), ('s', 4), ('e', 5),
          ('r', 6)]⟩] := rfl
    have written := faithful _ _ tags
    rw [segments, List.forall₂_cons] at written
    have unwritten := (written.1.user.mp rfl).1
    exact absurd unwritten (by decide)
  · intro listed
    have tags : parse ['<', 'a', ':', 'o', 'p', 't', 'i', 'o', 'n', 's', '>'] =
        .ok [{ name := ['a'], kind := Tag.optionsKind, required := true }] := rfl
    have options := (listed _ _ tags _ List.mem_cons_self).mpr rfl
    exact absurd options (by decide)

end UsageLine

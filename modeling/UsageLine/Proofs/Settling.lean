import UsageLine.Proofs.Rereading
import UsageLine.Usage
import Mathlib.Logic.Function.Iterate

/-!
# Lines that settle

A line that is shown, read and shown again need not look the same, since every
reading takes one `@` or two from the front of a name.  A row of these marks is
used up in pairs, so the line looks the same from the round on that uses up
the longest row.  From then on all its tags are literals.
-/

namespace UsageLine

/-- A line as it is shown, then read and shown again so many times. -/
def shownAfter (line : Text) : Nat → Except UsageError Text
  | 0 => formatLine defaultSeparator line
  | round + 1 => (shownAfter line round).bind (formatLine defaultSeparator)

/-- How many `@` stand at the front. -/
def Text.mentions (text : Text) : Nat := (text.takeWhile (· == '@')).length

/-- The longest row of `@` in front of a name. -/
def deepest (tags : List Tag) : Nat :=
  (tags.map fun tag => tag.name.mentions).foldr max 0

/-- As many rounds as there are pairs in the longest row, a single one counted
as well. -/
def rounds (tags : List Tag) : Nat := (deepest tags + 1) / 2

/-- What a tag is read as once it was shown. -/
def Tag.reread (tag : Tag) : Tag := Tag.ofName tag.required tag.body

/-! ## Rows of marks -/

namespace Text

@[simp] theorem mentions_at (rest : Text) :
    mentions ('@' :: rest) = mentions rest + 1 := by
  simp [mentions]

theorem mentions_eq_zero_iff {text : Text} :
    text.mentions = 0 ↔ ¬ ['@'] <+: text := by
  cases text with
  | nil => simp [mentions]
  | cons c rest =>
      by_cases mark : c = '@'
      · simp [mark]
      · simp [mentions, mark, Ne.symm mark]

theorem mentions_shorthand (name : Text) :
    mentions (Tag.shorthand name).1 = mentions name - 2 := by
  rcases Tag.shorthand_cases name with
    ⟨rest, rfl⟩ | ⟨rest, rfl, unpaired⟩ | none
  · simp [Tag.shorthand]
  · rw [Tag.shorthand_of_single unpaired, mentions_at,
      mentions_eq_zero_iff.mpr unpaired]
  · rw [Tag.shorthand_of_none none, mentions_eq_zero_iff.mpr none]

theorem shorthand_kind_of_mentions {name : Text} :
    (Tag.shorthand name).2 = Tag.literalKind ↔ name.mentions = 0 :=
  Tag.shorthand_kind_eq_literal_iff.trans mentions_eq_zero_iff.symm

end Text

theorem deepest_le_iff {tags : List Tag} {bound : Nat} :
    deepest tags ≤ bound ↔ ∀ tag ∈ tags, tag.name.mentions ≤ bound := by
  induction tags with
  | nil => simp [deepest]
  | cons tag rest ih =>
      rw [deepest, List.map_cons, List.foldr_cons, Nat.max_le,
        List.forall_mem_cons, ← ih, deepest]

theorem rounds_le_iff {tags : List Tag} {round : Nat} :
    rounds tags ≤ round ↔ ∀ tag ∈ tags, tag.name.mentions ≤ 2 * round := by
  rw [← deepest_le_iff, rounds]
  omega

/-! ## One round -/

namespace Tag

variable {tag : Tag}

@[simp] theorem required_reread (tag : Tag) :
    tag.reread.required = tag.required := by
  rw [reread, ofName_eq_shorthand]

theorem kind_reread (tag : Tag) :
    tag.reread.kind = (shorthand tag.body).2 := by
  rw [reread, ofName_eq_shorthand]

theorem body_reread (tag : Tag) :
    tag.reread.body = (shorthand tag.body).1 := by
  rw [reread, ofName_eq_shorthand]
  exact List.append_nil _

theorem mentions_reread (tag : Tag) :
    tag.reread.body.mentions = tag.body.mentions - 2 := by
  rw [body_reread, Text.mentions_shorthand]

theorem display_reread (unmarked : tag.body.mentions = 0) :
    tag.reread.display = tag.display := by
  have body : tag.reread.body = tag.body := by
    rw [body_reread, shorthand_of_none (Text.mentions_eq_zero_iff.mp unmarked)]
  rw [display, display, body, opening, closing, required_reread]
  rfl

theorem mentions_eq_zero_of_reread
    (settled : tag.reread.reread = tag.reread) : tag.body.mentions = 0 := by
  have bodies := congrArg (fun tag => tag.body.mentions) settled
  have kinds := congrArg Tag.kind settled
  have unmarked : tag.reread.body.mentions = 0 := by
    have fewer := mentions_reread tag.reread
    omega
  rw [kind_reread, kind_reread,
    Text.shorthand_kind_of_mentions.mpr unmarked] at kinds
  exact Text.shorthand_kind_of_mentions.mp kinds.symm

theorem plain_reread (plain : tag.body.Plain) : tag.reread.body.Plain := by
  rw [body_reread]
  exact plain.of_subset (shorthand_name_suffix tag.body).subset

end Tag

/-- Tags with plain bodies are read again one by one. -/
theorem parse_render_of_plain {tags : List Tag}
    (plain : ∀ tag ∈ tags, tag.body.Plain) :
    parse (render defaultSeparator tags) = .ok (tags.map Tag.reread) := by
  have quiet : Text.Quiet defaultSeparator := by decide
  rw [parse_render_of_barless quiet
    (fun tag mem => (plain tag mem).quiet.enclosed)
    fun tag mem => (plain tag mem).quiet.barless]
  congr 1
  conv_rhs => rw [← map_snd_withSeparator defaultSeparator tags, List.map_map]
  apply List.map_congr_left
  rintro ⟨before, tag⟩ mem
  obtain ⟨place, inside⟩ := of_mem_withSeparator mem
  have nothing : before.unspaced = [] := by
    rcases place with rfl | rfl
    · rfl
    · rfl
  have unspaced : tag.body.unspaced = tag.body := by
    apply List.filter_eq_self.mpr
    intro c found
    have unshaping := plain tag inside c found
    simp_all [Text.shaping]
  show Tag.ofName tag.required (before.unspaced ++ tag.body.unspaced) =
    tag.reread
  rw [nothing, unspaced]
  rfl

/-! ## Many rounds -/

namespace Tag

variable {tag : Tag}

theorem mentions_iterate (tag : Tag) (round : Nat) :
    (reread^[round] tag).body.mentions = tag.body.mentions - 2 * round := by
  induction round with
  | zero => rfl
  | succ round ih =>
      rw [Function.iterate_succ_apply', mentions_reread, ih]
      omega

theorem required_iterate (tag : Tag) (round : Nat) :
    (reread^[round] tag).required = tag.required := by
  induction round with
  | zero => rfl
  | succ round ih => rw [Function.iterate_succ_apply', required_reread, ih]

theorem plain_iterate (plain : tag.body.Plain) (round : Nat) :
    (reread^[round] tag).body.Plain := by
  induction round with
  | zero => exact plain
  | succ round ih =>
      rw [Function.iterate_succ_apply']
      exact plain_reread ih

end Tag

section Settling

variable {line : Text} {tags : List Tag}

/-- What the tags have become after a round is what they are read as next. -/
theorem parse_render_iterate (plain : ∀ tag ∈ tags, tag.body.Plain)
    (round : Nat) :
    parse (render defaultSeparator (tags.map Tag.reread^[round])) =
      .ok (tags.map Tag.reread^[round + 1]) := by
  rw [parse_render_of_plain, List.map_map, Function.iterate_succ']
  intro tag mem
  obtain ⟨before, inside, rfl⟩ := List.mem_map.mp mem
  exact Tag.plain_iterate (plain before inside) round

/-- Every round shows what the tags have become by then. -/
theorem shownAfter_eq (accepted : parse line = .ok tags)
    (plain : ∀ tag ∈ tags, tag.body.Plain) (round : Nat) :
    shownAfter line round =
      .ok (render defaultSeparator (tags.map Tag.reread^[round])) := by
  induction round with
  | zero =>
      rw [shownAfter, formatLine, accepted, Function.iterate_zero, List.map_id]
      rfl
  | succ round ih =>
      rw [shownAfter, ih]
      show formatLine _ _ = _
      rw [formatLine, parse_render_iterate plain]
      rfl

/-- A round leaves the line as it is exactly where no body begins with a mark
any more. -/
theorem shownAfter_succ_eq_iff (accepted : parse line = .ok tags)
    (plain : ∀ tag ∈ tags, tag.body.Plain) (round : Nat) :
    shownAfter line (round + 1) = shownAfter line round ↔
      ∀ tag ∈ tags, tag.body.mentions ≤ 2 * round := by
  rw [shownAfter_eq accepted plain, shownAfter_eq accepted plain,
    Except.ok.injEq]
  constructor
  · intro same tag mem
    have readings := congrArg parse same
    rw [parse_render_iterate plain, parse_render_iterate plain,
      Except.ok.injEq] at readings
    have settled := List.map_inj_left.mp readings tag mem
    rw [Function.iterate_succ_apply', Function.iterate_succ_apply'] at settled
    have unmarked := Tag.mentions_eq_zero_of_reread settled
    rw [Tag.mentions_iterate] at unmarked
    omega
  · intro few
    have displays : (tags.map Tag.reread^[round + 1]).map Tag.display =
        (tags.map Tag.reread^[round]).map Tag.display := by
      rw [List.map_map, List.map_map]
      apply List.map_congr_left
      intro tag mem
      rw [Function.comp_apply, Function.comp_apply,
        Function.iterate_succ_apply']
      apply Tag.display_reread
      rw [Tag.mentions_iterate]
      have bound := few tag mem
      omega
    rw [render, render, displays]

/-- From a quiet round on, a line stays as it is. -/
theorem shownAfter_eq_of_le {start : Nat}
    (quiet : ∀ round, start ≤ round →
      shownAfter line (round + 1) = shownAfter line round)
    {round : Nat} (later : start ≤ round) :
    shownAfter line round = shownAfter line start := by
  induction round, later using Nat.le_induction with
  | base => rfl
  | succ round later ih => rw [quiet round later, ih]

end Settling

/-! ## Names and bodies -/

namespace Tag

variable {tag : Tag}

theorem mentions_append_ending (name : Text) (tag : Tag) :
    (name ++ tag.ending).mentions = name.mentions := by
  have none : tag.ending.takeWhile (· == '@') = [] := by
    rw [ending]
    split
    · rfl
    · rfl
  rw [Text.mentions, Text.mentions, List.takeWhile_append, none,
    List.append_nil]
  split
  · rename_i whole
    exact whole.symm
  · rfl

end Tag

/-- How the rounds of showing and reading a line go on where no alternatives
are shown. -/
structure Settles (line : Text) (tags : List Tag) : Prop where
  /-- No round fails, and the brackets stay. -/
  shown : ∀ round, ∃ shown reread, shownAfter line round = .ok shown ∧
    parse shown = .ok reread ∧
    reread.map Tag.required = tags.map Tag.required
  /-- A round changes nothing exactly if the marks are used up. -/
  still : ∀ round, shownAfter line (round + 1) = shownAfter line round ↔
    rounds tags ≤ round
  /-- The shown line is shown as itself exactly if no name begins with a mark. -/
  stable : (formatLine defaultSeparator line).bind
      (formatLine defaultSeparator) = formatLine defaultSeparator line ↔
    ∀ tag ∈ tags, ¬ ['@'] <+: tag.name
  /-- In the end there are the same literals after every round. -/
  settled : ∃ settled, (∀ tag ∈ settled, tag.kind = Tag.literalKind) ∧
    ∀ round, rounds tags ≤ round →
      (shownAfter line round).bind parse = .ok settled

section Unlisted

variable {line : Text} {tags : List Tag} (accepted : parse line = .ok tags)
  (unlisted : ∀ tag ∈ tags,
    ¬ (tag.literal = true ∧ tag.options.isSome = true))
include accepted unlisted

theorem plain_body_of_unlisted : ∀ tag ∈ tags, tag.body.Plain := by
  intro tag mem
  have name := ((admissible_of_parse accepted).each tag mem).name
  rw [Tag.body_of_unlisted (unlisted tag mem)]
  exact name.append tag.ending_plain

/-- Where no alternatives are shown, a line stays as it is exactly once the marks
are used up. -/
theorem shownAfter_succ_eq_iff_rounds (round : Nat) :
    shownAfter line (round + 1) = shownAfter line round ↔
      rounds tags ≤ round := by
  rw [shownAfter_succ_eq_iff accepted
    (plain_body_of_unlisted accepted unlisted), rounds_le_iff]
  apply forall₂_congr
  intro tag mem
  rw [Tag.body_of_unlisted (unlisted tag mem), Tag.mentions_append_ending]

/-- In the end all tags are literals, and they stay the same. -/
theorem exists_settled :
    ∃ settled, (∀ tag ∈ settled, tag.kind = Tag.literalKind) ∧
      ∀ round, rounds tags ≤ round →
        (shownAfter line round).bind parse = .ok settled := by
  have plain := plain_body_of_unlisted accepted unlisted
  have still := shownAfter_succ_eq_iff_rounds accepted unlisted
  refine ⟨tags.map Tag.reread^[rounds tags + 1], ?_, ?_⟩
  · intro tag mem
    obtain ⟨before, inside, rfl⟩ := List.mem_map.mp mem
    have few := (shownAfter_succ_eq_iff accepted plain _).mp
      ((still _).mpr (Nat.le_refl _)) before inside
    rw [Function.iterate_succ_apply', Tag.kind_reread,
      Text.shorthand_kind_of_mentions, Tag.mentions_iterate]
    omega
  · intro round later
    rw [shownAfter_eq_of_le (fun round => (still round).mpr) later,
      shownAfter_eq accepted plain]
    exact parse_render_iterate plain _

theorem settles_of_unlisted : Settles line tags := by
  have plain := plain_body_of_unlisted accepted unlisted
  have still := shownAfter_succ_eq_iff_rounds accepted unlisted
  refine ⟨?_, still, ?_, exists_settled accepted unlisted⟩
  · intro round
    refine ⟨_, _, shownAfter_eq accepted plain round,
      parse_render_iterate plain round, ?_⟩
    rw [List.map_map]
    exact List.map_congr_left fun tag _ => tag.required_iterate (round + 1)
  · refine (still 0).trans ?_
    rw [rounds_le_iff]
    apply forall₂_congr
    intro tag mem
    rw [← Text.mentions_eq_zero_iff, Nat.mul_zero, Nat.le_zero_eq]

end Unlisted

end UsageLine

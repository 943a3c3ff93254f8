import UsageLine.Proofs.FullForm

/-!
# Options as they are written

A tag has options exactly if its segment holds a bar.  The options with bars
between them, and the rest marker behind, are then the kind as the segment
writes it.  There is one exception: a kind that ends in a bar is completed by
the kind that the name chooses, as if no kind had been written.
-/

namespace UsageLine

namespace Segment

variable {seg : Segment}

/-! ## Bars of the segment -/

/-- Every character but the brackets and the colons is a segment's own. -/
theorem mem_own_of_written {c : Placed} (mem : c ∈ seg.written)
    (inside : c.isOpening = false) (other : c.1 ≠ ':') : c ∈ seg.own := by
  have body : c ∈ seg.body := List.mem_filter.mpr ⟨mem, by simp [inside]⟩
  rw [own]
  split
  · rename_i meets
    simp only [Segment.meets, Bool.and_eq_true, beq_iff_eq] at meets
    obtain ⟨first, rest, parts⟩ := List.exists_cons_of_ne_nil (List.ne_nil_of_mem body)
    rw [parts, Placed.text_cons, List.head?_cons, Option.some.injEq] at meets
    rw [parts, List.tail_cons]
    rw [parts] at body
    rcases List.mem_cons.mp body with rfl | later
    · exact absurd meets.2 other
    · exact later
  · exact body

theorem kindSide_eq_append (seg : Segment) :
    ∃ colons, seg.kindSide = colons ++ seg.kindWritten ∧
      ∀ c ∈ colons, c.1 = ':' := by
  refine ⟨seg.kindSide.take (if seg.doubled then 2 else 1),
    (List.take_append_drop _ _).symm, ?_⟩
  cases side : seg.kindSide with
  | nil => simp
  | cons first rest =>
      have dropped : seg.own.dropWhile (·.1 != ':') = first :: rest := side
      have colon : first.1 = ':' := by
        have head := List.head_dropWhile_not (·.1 != ':') (l := seg.own)
          (by simp [dropped])
        simpa [dropped] using head
      cases double : seg.doubled with
      | false => simpa using colon
      | true =>
          rw [doubled, side] at double
          cases rest with
          | nil => simpa using colon
          | cons second more => simp_all

/-- What is a segment's own stands in the name or in the kind, but for the
colons between them. -/
theorem mem_sides_of_own {c : Placed} (mem : c ∈ seg.own) (other : c.1 ≠ ':') :
    c ∈ seg.nameSide ∨ c ∈ seg.kindWritten := by
  rw [← List.takeWhile_append_dropWhile (p := (·.1 != ':')) (l := seg.own),
    List.mem_append] at mem
  obtain ⟨colons, side, all⟩ := seg.kindSide_eq_append
  refine mem.imp id fun late => ?_
  rw [show seg.own.dropWhile (·.1 != ':') = _ from side, List.mem_append] at late
  exact late.resolve_left fun early => other (all c early)

/-- Without misuses all bars of a segment stand in its kind. -/
theorem bar_mem_kindWritten_iff (clean : seg.misuses = []) :
    '|' ∈ Placed.text seg.kindWritten ↔ '|' ∈ Placed.text seg.written := by
  constructor
  · intro bar
    exact ((seg.kindWritten_sublist.trans seg.own_sublist).map Prod.fst).subset bar
  · intro bar
    obtain ⟨c, mem, isBar⟩ := List.mem_map.mp bar
    have own := mem_own_of_written mem (by simp [Placed.isOpening, isBar])
      (by simp [isBar])
    rcases mem_sides_of_own own (by simp [isBar]) with name | kind
    · have barless := strayBars_eq_nil_iff.mp (seg.misuses_eq_nil_iff.mp clean).2.1
      exact absurd (isBar ▸ List.mem_map_of_mem name) barless
    · exact isBar ▸ List.mem_map_of_mem kind

/-! ## The kind as it is written -/

/-- The kind that the name chooses, where nothing stands behind the last bar. -/
def completion (seg : Segment) : Text :=
  if seg.latest = [] then
    (Tag.ofName seg.required (Placed.text seg.nameSide)).kind
  else []

theorem chosen_kind_eq (seg : Segment) :
    seg.chosen.2 = seg.latest ++ seg.completion := by
  by_cases unwritten : seg.latest = []
  · rw [chosen, completion, if_pos unwritten, if_pos unwritten, unwritten,
      List.nil_append]
  · rw [chosen_of_written unwritten, completion, if_neg unwritten,
      List.append_nil]

theorem unmarked_append_ending (seg : Segment) :
    seg.unmarked ++ seg.tag.ending = seg.chosen.2 := by
  rw [unmarked, Tag.ending, show seg.tag.rest = seg.marked from rfl]
  cases marked : seg.marked with
  | false => simp
  | true =>
      obtain ⟨stem, kind⟩ := List.isSuffixOf_iff_suffix.mp marked
      rw [if_pos rfl, if_pos rfl, ← kind, List.length_append,
        Nat.add_sub_cancel, List.take_left]

/-- The options and the rest marker are the kind as it is written, and its
completion. -/
theorem alternatives_append_ending {options : List Text}
    (listed : seg.tag.options = some options) :
    Tag.alternatives options ++ seg.tag.ending =
      Placed.text seg.kindWritten ++ seg.completion := by
  obtain ⟨_, rfl⟩ := options_tag listed
  rw [Tag.alternatives_append, unmarked_append_ending, chosen_kind_eq,
    ← Tag.alternatives_append, dropLast_append_latest]
  congr 1
  exact List.intercalate_splitOn '|'

theorem latest_eq_nil_iff (bar : '|' ∈ Placed.text seg.kindWritten) :
    seg.latest = [] ↔ ['|'] <:+ Placed.text seg.kindWritten := by
  rw [latest, alternatives]
  rcases List.eq_nil_or_concat' (Placed.text seg.kindWritten) with
    empty | ⟨before, c, ends⟩
  · rw [empty] at bar
    cases bar
  · rw [ends]
    by_cases last : c = '|'
    · rw [last, Text.splitOn_append_bar]
      simp
    · rw [Text.splitOn_append_letter before last]
      simp [Ne.symm last]

/-- The tag has the alternatives that the segment writes, no more and no
less. -/
structure WritesOptions (seg : Segment) (tag : Tag) : Prop where
  present : tag.options.isSome = true ↔ '|' ∈ Placed.text seg.written
  same : ∀ options, tag.options = some options →
    Tag.alternatives options ++ tag.ending = Placed.text seg.kindWritten

/-- How the options of a tag go back to what the segment writes. -/
structure Lists (seg : Segment) (tag : Tag) : Prop where
  present : tag.options.isSome = true ↔ '|' ∈ Placed.text seg.written
  barless : ∀ options, tag.options = some options →
    ∀ alternative ∈ options, '|' ∉ alternative
  /-- The kind as it is written, and what completes it. -/
  joined : ∀ options, tag.options = some options →
    Tag.alternatives options ++ tag.ending =
      Placed.text seg.kindWritten ++ seg.completion
  /-- Only a bar at the end of the kind changes the alternatives. -/
  asWritten : seg.WritesOptions tag ↔ ¬ ['|'] <:+ Placed.text seg.kindWritten

theorem isSome_options_tag :
    seg.tag.options.isSome = true ↔ '|' ∈ Placed.text seg.kindWritten := by
  by_cases bar : '|' ∈ Placed.text seg.kindWritten <;> simp [tag, earlier, bar]

theorem isSome_options_iff (clean : seg.misuses = []) :
    seg.tag.options.isSome = true ↔ '|' ∈ Placed.text seg.written := by
  rw [← bar_mem_kindWritten_iff clean]
  exact isSome_options_tag

/-- The alternatives are as they are written, unless the kind ends in a bar. -/
theorem writesOptions_iff (clean : seg.misuses = []) :
    seg.WritesOptions seg.tag ↔ ¬ ['|'] <:+ Placed.text seg.kindWritten := by
  constructor
  · intro writes atEnd
    have bar : '|' ∈ Placed.text seg.kindWritten :=
      atEnd.subset (List.mem_singleton_self _)
    obtain ⟨options, listed⟩ := Option.isSome_iff_exists.mp
      (writes.present.mpr ((bar_mem_kindWritten_iff clean).mp bar))
    have joined := alternatives_append_ending listed
    rw [writes.same options listed, completion,
      if_pos ((latest_eq_nil_iff bar).mpr atEnd), Tag.ofName_eq_shorthand]
      at joined
    exact Tag.shorthand_kind_ne_nil _ (List.self_eq_append_right.mp joined)
  · intro notAtEnd
    refine ⟨isSome_options_iff clean, fun options listed => ?_⟩
    have bar := (options_tag listed).1
    rw [alternatives_append_ending listed, completion,
      if_neg (mt (latest_eq_nil_iff bar).mp notAtEnd), List.append_nil]

end Segment

/-- The options of an accepted line.  A tag has some exactly if its segment
holds a bar.  With bars between them and the rest marker behind, they are the
kind as it is written and what completes it; so they are the alternatives that
are written exactly if the kind does not end in a bar. -/
theorem options_written {line : Text} {tags : List Tag}
    (accepted : parse line = .ok tags) :
    List.Forall₂ Segment.Lists (Text.segments line).dropLast tags := by
  have admissible := (admissible_of_parse accepted).each
  obtain ⟨clean, _, rfl⟩ := parse_eq_ok_iff.mp accepted
  rw [List.forall₂_map_right_iff, List.forall₂_same]
  intro seg mem
  have clean : seg.misuses = [] :=
    List.flatMap_eq_nil_iff.mp clean seg ((List.dropLast_sublist _).subset mem)
  refine ⟨Segment.isSome_options_iff clean, ?_,
    fun _ => Segment.alternatives_append_ending, Segment.writesOptions_iff clean⟩
  intro options listed alternative found
  have plain := (admissible _ (List.mem_map_of_mem mem)).alternatives options
    listed alternative found
  exact plain.barless

/-- `<a:x||y>[b::|z...]` has its alternatives as they are written, empty ones
in the first and the middle place among them. -/
theorem options_written_of_gaps :
    List.Forall₂ Segment.Lists
      (Text.segments ['<', 'a', ':', 'x', '|', '|', 'y', '>', '[', 'b', ':', ':',
        '|', 'z', '.', '.', '.', ']']).dropLast
      [{ name := ['a'], kind := Tag.optionsKind, required := true,
         options := some [['x'], [], ['y']] },
       { name := ['b'], kind := Tag.optionsKind, rest := true,
         options := some [[], ['z']], literal := true }] :=
  options_written rfl

/-- The kind of `<a:x|>` ends in a bar, and its last alternative is not the empty
one that is written but the kind of a tag without one. -/
theorem not_forall_writesOptions :
    ¬ ∀ line tags, parse line = .ok tags →
      List.Forall₂ Segment.WritesOptions (Text.segments line).dropLast tags := by
  intro written
  have tags : parse ['<', 'a', ':', 'x', '|', '>'] =
      .ok [{ name := ['a'], kind := Tag.optionsKind, required := true,
             options := some [['x'], Tag.literalKind] }] := rfl
  have segments : (Text.segments ['<', 'a', ':', 'x', '|', '>']).dropLast =
      [⟨false, [('<', 0), ('a', 1), (':', 2), ('x', 3), ('|', 4)]⟩] := rfl
  have writes := written _ _ tags
  rw [segments, List.forall₂_cons] at writes
  exact absurd (writes.1.same _ rfl) (by decide)

end UsageLine

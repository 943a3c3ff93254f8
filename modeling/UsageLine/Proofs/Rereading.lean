import UsageLine.Proofs.Admissible
import UsageLine.Tag.Display
import Mathlib.Data.List.Basic

/-!
# Reading shown tags again

Tags are shown without their kinds, so what they are shown as does not read as
the tags themselves.  Each shown tag is read as a tag whose name is the
separator before it and its body, and the name chooses the kind.  A bar in some
body is misused, for no kind begins in a line of shown tags.
-/

namespace UsageLine

namespace Text

/-- A separator that does not shape a line, but for spaces. -/
def Quiet (separator : Text) : Prop :=
  ∀ c ∈ separator, c ∉ ['<', '>', '[', ']', ':', '|']

/-- A body that stays in its brackets and begins no kind. -/
def Enclosed (body : Text) : Prop :=
  ∀ c ∈ body, c ∉ ['<', '>', '[', ']', ':']

instance (separator : Text) : Decidable (Quiet separator) :=
  List.decidableBAll (fun c => c ∉ ['<', '>', '[', ']', ':', '|']) separator

instance (body : Text) : Decidable (Enclosed body) :=
  List.decidableBAll (fun c => c ∉ ['<', '>', '[', ']', ':']) body

theorem Enclosed.append {first second : Text} (enclosed : Enclosed first)
    (enclosed' : Enclosed second) : Enclosed (first ++ second) := by
  intro c mem
  rcases List.mem_append.mp mem with early | late
  · exact enclosed c early
  · exact enclosed' c late

theorem Enclosed.unspaced {text : Text} (enclosed : Enclosed text) :
    Enclosed text.unspaced :=
  fun c mem => enclosed c (List.mem_filter.mp mem).1

theorem Enclosed.colonless {text : Text} (enclosed : Enclosed text) :
    ':' ∉ text := by
  intro colon
  exact enclosed ':' colon (by decide)

theorem Enclosed.openless {text : Text} (enclosed : Enclosed text) :
    ∀ c ∈ text, c ≠ '<' ∧ c ≠ '[' := by
  intro c mem
  have chars := enclosed c mem
  simp_all

theorem Enclosed.closeless {text : Text} (enclosed : Enclosed text) :
    ∀ c ∈ text, c ≠ '>' ∧ c ≠ ']' := by
  intro c mem
  have chars := enclosed c mem
  simp_all

theorem Quiet.enclosed {text : Text} (quiet : Quiet text) : Enclosed text := by
  intro c mem
  have chars := quiet c mem
  simp_all

theorem Quiet.barless {text : Text} (quiet : Quiet text) : '|' ∉ text := by
  intro bar
  exact quiet '|' bar (by decide)

theorem Quiet.unspaced {text : Text} (quiet : Quiet text) :
    Quiet text.unspaced :=
  fun c mem => quiet c (List.mem_filter.mp mem).1

theorem Plain.quiet {text : Text} (plain : Plain text) : Quiet text := by
  intro c mem
  have unshaping := plain c mem
  simp_all [shaping]

end Text

/-- Each tag with what stands before it: a separator, but for the first one. -/
def withSeparator (separator : Text) : List Tag → List (Text × Tag)
  | [] => []
  | first :: rest => ([], first) :: rest.map fun tag => (separator, tag)

theorem of_mem_withSeparator {separator : Text} {tags : List Tag}
    {separated : Text × Tag} (mem : separated ∈ withSeparator separator tags) :
    (separated.1 = [] ∨ separated.1 = separator) ∧ separated.2 ∈ tags := by
  cases tags with
  | nil => cases mem
  | cons first rest =>
      rcases List.mem_cons.mp mem with rfl | later
      · exact ⟨.inl rfl, List.mem_cons_self⟩
      · obtain ⟨tag, inside, rfl⟩ := List.mem_map.mp later
        exact ⟨.inr rfl, List.mem_cons_of_mem _ inside⟩

theorem map_snd_withSeparator (separator : Text) (tags : List Tag) :
    (withSeparator separator tags).map Prod.snd = tags := by
  cases tags with
  | nil => rfl
  | cons first rest => simp [withSeparator, Function.comp_def]

/-- What tags are read as when they were shown with a separator: the spaces are
gone, and the separator has become a part of every name but the first. -/
def rereading (separator : Text) (tags : List Tag) : List Tag :=
  (withSeparator separator tags).map fun (before, tag) =>
    Tag.ofName tag.required (before.unspaced ++ tag.body.unspaced)

namespace Tag

/-- What is shown in front of the closing bracket, with what stands before. -/
def shownPiece (before : Text) (tag : Tag) : Text × Char :=
  (before ++ tag.opening :: tag.body.unspaced, tag.closing)

end Tag

/-! ## The segment of a shown tag -/

namespace Segment

variable {seg : Segment} {tag : Tag} {before : Text}

/-- A segment without a colon of its own stands for a name alone, which is
literal only if a colon from before was met. -/
theorem tag_of_colonless (colonless : ':' ∉ Placed.text seg.own) :
    seg.tag =
      { Tag.ofName seg.required (Placed.text seg.own) with
        literal := seg.meets } := by
  obtain ⟨name, _, doubled, written⟩ := spelling_of_no_colon colonless
  have barless : '|' ∉ Placed.text seg.kindWritten := by simp [written]
  have chosen : seg.chosen = Tag.shorthand (Placed.text seg.own) := by
    rw [chosen_of_unwritten (latest_of_unwritten written), name]
  have marked : seg.marked = false := by
    rw [Segment.marked, chosen]
    exact Tag.bare_of_chosen (Tag.shorthand_kind_mem _)
  rw [Tag.ofName_eq_shorthand, Segment.tag, earlier, if_neg barless, unmarked,
    marked, chosen, literal, doubled, Bool.or_false]
  rfl

theorem own_of_shown (quiet : Text.Quiet before)
    (enclosed : Text.Enclosed tag.body)
    (spells : Spells seg (tag.shownPiece before)) :
    Placed.text seg.own = before ++ tag.body.unspaced ∧
      ':' ∉ Placed.text seg.own := by
  have front := quiet.enclosed
  have own : Placed.text seg.own = before ++ tag.body.unspaced := by
    rw [own_of_not_waiting spells.1]
    exact text_body_of_bracket spells.2 tag.opening_eq_or front.openless
      enclosed.unspaced.openless
  refine ⟨own, ?_⟩
  rw [own]
  exact (front.append enclosed.unspaced).colonless

/-- Only bars can be misused in a shown tag, and all of them are. -/
theorem misuses_of_shown (quiet : Text.Quiet before)
    (enclosed : Text.Enclosed tag.body)
    (spells : Spells seg (tag.shownPiece before)) :
    seg.misuses =
      (seg.own.filter (·.1 == '|')).map fun c => (.barOutsideKind, c.2) := by
  obtain ⟨own, colonless⟩ := own_of_shown quiet enclosed spells
  obtain ⟨name, _, _, written⟩ := spelling_of_no_colon colonless
  have angles : '<' ∉ before := fun angle =>
    (quiet.enclosed.openless '<' angle).1 rfl
  have nestings : seg.nestings = [] :=
    nestings_eq_nil spells.2 angles enclosed.unspaced.openless
  rw [misuses, nestings, strayBars, extraColons, name, written]
  simp

theorem reads_shown (quiet : Text.Quiet before)
    (enclosed : Text.Enclosed tag.body)
    (spells : Spells seg (tag.shownPiece before)) :
    seg.leaves = false ∧
      seg.tag = Tag.ofName tag.required (before ++ tag.body.unspaced) := by
  obtain ⟨own, colonless⟩ := own_of_shown quiet enclosed spells
  have side := (spelling_of_no_colon colonless).2.1
  have unmet : seg.meets = false := by simp [meets, spells.1]
  have required : seg.required = tag.required := by
    have angles : '<' ∉ before := fun angle =>
      (quiet.enclosed.openless '<' angle).1 rfl
    have angles' : '<' ∉ tag.body.unspaced := fun angle =>
      (enclosed.unspaced.openless '<' angle).1 rfl
    rw [Segment.required, spells.2, Tag.shownPiece, Tag.opening]
    cases tag.required <;> simp [angles, angles']
  constructor
  · simp [leaves, canMeet, spells.1, side]
  · rw [tag_of_colonless colonless, own, required, unmet,
      Tag.ofName_eq_shorthand]

end Segment

/-! ## The line of shown tags -/

theorem render_eq_flatMap (separator : Text) (tags : List Tag) :
    render separator tags =
      (withSeparator separator tags).flatMap
        fun (before, tag) => before ++ tag.display := by
  cases tags with
  | nil => rfl
  | cons first rest =>
      induction rest generalizing first with
      | nil => simp [withSeparator, render_singleton]
      | cons second more ih =>
          rw [render_cons_cons, ih second]
          simp [withSeparator]

def Tag.separatedPiece (separated : Text × Tag) : Text × Char :=
  separated.2.shownPiece separated.1.unspaced

theorem unspaced_render (separator : Text) (tags : List Tag) :
    (render separator tags).unspaced =
      Segment.spelledOut
        ((withSeparator separator tags).map Tag.separatedPiece) := by
  rw [render_eq_flatMap, Segment.spelledOut, Text.unspaced, List.filter_flatMap,
    List.flatMap_map]
  congr 1
  funext separated
  obtain ⟨before, tag⟩ := separated
  have opening : (tag.opening != ' ') = true := by
    rcases tag.opening_eq_or with angle | square
    · simp [angle]
    · simp [square]
  have closing : (tag.closing != ' ') = true := by
    rcases tag.closing_eq_or with angle | square
    · simp [angle]
    · simp [square]
  simp [Tag.separatedPiece, Tag.shownPiece, Tag.display, Text.unspaced, opening,
    closing]

section Shown

variable {separator : Text} {tags : List Tag} (quiet : separator.Quiet)
include quiet

/-- With a quiet separator the bars of the line are in the bodies. -/
theorem bar_mem_render_iff :
    '|' ∈ render separator tags ↔ ∃ tag ∈ tags, '|' ∈ tag.body := by
  have bar_mem_display (tag : Tag) : '|' ∈ tag.display ↔ '|' ∈ tag.body := by
    rcases tag.opening_eq_or with opening | opening <;>
      rcases tag.closing_eq_or with closing | closing <;>
        simp [Tag.display, opening, closing]
  have barless := quiet.barless
  rw [render_eq_flatMap]
  cases tags with
  | nil => simp [withSeparator]
  | cons first rest => simp [withSeparator, barless, bar_mem_display]

variable (enclosed : ∀ tag ∈ tags, tag.body.Enclosed)
include enclosed

theorem quiet_of_mem {separated : Text × Tag}
    (mem : separated ∈ withSeparator separator tags) :
    separated.1.unspaced.Quiet ∧ separated.2.body.Enclosed := by
  obtain ⟨before, inside⟩ := of_mem_withSeparator mem
  refine ⟨?_, enclosed _ inside⟩
  rcases before with nothing | behind
  · rw [nothing]
    decide
  · rw [behind]
    exact quiet.unspaced

theorem closes_of_mem :
    ∀ separated ∈ withSeparator separator tags,
      Segment.Closes (Tag.separatedPiece separated) := by
  intro separated mem
  obtain ⟨silent, body⟩ := quiet_of_mem quiet enclosed mem
  refine ⟨fun c found => ?_, separated.2.closing_eq_or⟩
  rcases List.mem_append.mp found with before | rest
  · exact silent.enclosed.closeless c before
  rcases List.mem_cons.mp rest with rfl | inside
  · rcases separated.2.opening_eq_or with angle | square
    · simp [angle]
    · simp [square]
  · exact body.unspaced.closeless c inside

/-- The misused marks in a line of shown tags are its bars. -/
theorem mem_misuses_render {misuse : Misuse × Nat} :
    misuse ∈ Text.misuses (render separator tags) ↔
      ∃ c ∈ Text.solid (render separator tags),
        c.1 = '|' ∧ misuse = (.barOutsideKind, c.2) := by
  obtain ⟨segs, segments, spelled⟩ := segments_of_spelledOut
    (unspaced_render separator tags) (closes_of_mem quiet enclosed)
    (by
      intro separated mem seg spells
      obtain ⟨silent, body⟩ := quiet_of_mem quiet enclosed mem
      exact (Segment.reads_shown silent body spells).1)
  have each : ∀ seg ∈ segs, seg.waiting = false ∧ seg.misuses =
      (seg.own.filter (·.1 == '|')).map fun c => (.barOutsideKind, c.2) := by
    intro seg mem
    obtain ⟨separated, inside, spells⟩ := exists_spelled spelled mem
    obtain ⟨silent, body⟩ := quiet_of_mem quiet enclosed inside
    exact ⟨spells.1, Segment.misuses_of_shown silent body spells⟩
  have cut_eq : Segment.cut false (Text.solid (render separator tags)) =
      segs ++ [⟨false, []⟩] := segments
  rw [Text.misuses, segments, Segment.allMisuses, List.mem_flatMap]
  constructor
  · rintro ⟨seg, mem, found⟩
    rcases List.mem_append.mp mem with closed | final
    · rw [(each seg closed).2] at found
      obtain ⟨c, bar, rfl⟩ := List.mem_map.mp found
      obtain ⟨own, isBar⟩ := List.mem_filter.mp bar
      have subset := (Segment.written_subset_of_mem_cut (cut_eq ▸ mem)).1
      exact ⟨c, subset (seg.own_sublist.subset own), by simpa using isBar, rfl⟩
    · rw [List.mem_singleton.mp final] at found
      cases found
  · rintro ⟨c, mem, bar, rfl⟩
    have unclosing : c.isClosing = false := by simp [Placed.isClosing, bar]
    have unopening : c.isOpening = false := by simp [Placed.isOpening, bar]
    obtain ⟨seg, inside, written⟩ := Segment.exists_mem_cut mem unclosing false
    rw [cut_eq] at inside
    refine ⟨seg, inside, ?_⟩
    rcases List.mem_append.mp inside with closed | final
    · obtain ⟨fresh, misuses⟩ := each seg closed
      have own : c ∈ seg.own := by
        rw [Segment.own_of_not_waiting fresh]
        exact List.mem_filter.mpr ⟨written, by simp [unopening]⟩
      rw [misuses]
      exact List.mem_map.mpr ⟨c, List.mem_filter.mpr ⟨own, by simp [bar]⟩, rfl⟩
    · rw [List.mem_singleton.mp final] at written
      cases written

/-- Enclosed bodies without bars are read as tags again. -/
theorem parse_render_of_barless (barless : ∀ tag ∈ tags, '|' ∉ tag.body) :
    parse (render separator tags) = .ok (rereading separator tags) := by
  apply parse_of_spelledOut _ (unspaced_render separator tags)
    (closes_of_mem quiet enclosed)
  · intro separated mem seg spells
    obtain ⟨silent, body⟩ := quiet_of_mem quiet enclosed mem
    obtain ⟨still, same⟩ := Segment.reads_shown silent body spells
    refine ⟨?_, still, same⟩
    obtain ⟨own, _⟩ := Segment.own_of_shown silent body spells
    have none : seg.own.filter (·.1 == '|') = [] := by
      rw [Placed.filter_eq_nil_iff, own, List.mem_append]
      rintro (before | inside)
      · exact silent.barless before
      · have inside := (List.mem_filter.mp inside).1
        exact barless _ (of_mem_withSeparator mem).2 inside
    rw [Segment.misuses_of_shown silent body spells, none]
    rfl
  · intro tag mem
    obtain ⟨⟨before, shown⟩, _, rfl⟩ :=
      List.mem_map.mp ((List.dropLast_sublist _).subset mem)
    show (Tag.ofName _ _).rest = false
    rw [Tag.ofName_eq_shorthand]

/-- The first bar of the line stands before all other misuses. -/
theorem leads_misuses_render (bar : ∃ tag ∈ tags, '|' ∈ tag.body) :
    Leads (.barOutsideKind, (render separator tags).idxOf '|')
      (Text.misuses (render separator tags)) := by
  have found := (bar_mem_render_iff quiet).mpr bar
  constructor
  · refine (mem_misuses_render quiet enclosed).mpr
      ⟨('|', (render separator tags).idxOf '|'), ?_, rfl, rfl⟩
    refine List.mem_filter.mpr ⟨?_, rfl⟩
    exact List.mem_zipIdx_iff_getElem?.mpr (List.getElem?_idxOf found)
  · intro other mem
    obtain ⟨c, solid, isBar, rfl⟩ := (mem_misuses_render quiet enclosed).mp mem
    have place := List.mem_zipIdx_iff_getElem?.mp (List.mem_filter.mp solid).1
    obtain ⟨inside, isChar⟩ := List.getElem?_eq_some_iff.mp place
    have first_le : (render separator tags).idxOf '|' ≤ c.2 := by
      by_contra! before
      have unlike := List.not_of_lt_findIdx before
      simp [isChar, isBar] at unlike
    rcases Nat.eq_or_lt_of_le first_le with same | later
    · exact .inl (Prod.ext rfl same.symm)
    · exact .inr later

/-- A line of shown tags is read as tags again, or refused for its first bar. -/
theorem parse_render_of_enclosed :
    parse (render separator tags) =
      if ∃ tag ∈ tags, '|' ∈ tag.body then
        .error (.misused .barOutsideKind ((render separator tags).idxOf '|'))
      else .ok (rereading separator tags) := by
  by_cases bar : ∃ tag ∈ tags, '|' ∈ tag.body
  · rw [if_pos bar]
    exact parse_of_leads (leads_misuses_render quiet enclosed bar)
  · rw [if_neg bar]
    apply parse_render_of_barless quiet enclosed
    intro tag mem inside
    exact bar ⟨tag, mem, inside⟩

end Shown

/-! ## The tags of a line, shown and read again -/

namespace Tag.Admissible

variable {tag : Tag}

theorem body_enclosed (admissible : tag.Admissible) : tag.body.Enclosed := by
  refine Text.Enclosed.append ?_ tag.ending_plain.quiet.enclosed
  rw [label]
  split
  · rename_i options _ some_options
    intro c found
    rcases mem_alternatives found with rfl | ⟨alternative, mem, inside⟩
    · decide
    · have plain := admissible.alternatives options some_options alternative mem
      exact plain.quiet.enclosed c inside
  · exact admissible.name.quiet.enclosed

theorem bar_mem_body_iff (admissible : tag.Admissible) :
    '|' ∈ tag.body ↔ tag.literal = true ∧ tag.options.isSome = true := by
  have ending := tag.ending_plain.quiet.barless
  have name := admissible.name.quiet.barless
  rw [body, List.mem_append, or_iff_left ending, label]
  cases literal : tag.literal with
  | false => simpa using name
  | true =>
      cases some_options : tag.options with
      | none => simpa using name
      | some options =>
          have several := (admissible.listed options some_options).2
          simpa using bar_mem_alternatives several

end Tag.Admissible

end UsageLine

import UsageLine.Proofs.Rereading

/-!
# What a shown line tells

A line of shown tags tells how each of them is shown, whatever the separator
is: every display ends at its first closing bracket, so a separator that looks
like tags is not mistaken for some.  A single display tells the brackets and
either the alternatives and the rest marker, or the name with the rest marker
behind it.
-/

namespace UsageLine

namespace Tag

/-- The tag is literal and has options, so these are shown. -/
def ShowsAlternatives (tag : Tag) : Prop :=
  tag.literal = true ∧ tag.options.isSome = true

/-- Two tags show the same, though they need not be the same. -/
structure Alike (first second : Tag) : Prop where
  required : first.required = second.required
  shown :
    (first.ShowsAlternatives ∧ second.ShowsAlternatives ∧
      first.options = second.options ∧ first.rest = second.rest) ∨
    (¬ first.ShowsAlternatives ∧ ¬ second.ShowsAlternatives ∧
      first.name ++ first.ending = second.name ++ second.ending)

/-! ## Displays -/

variable {first second : Tag}

theorem display_eq_iff_body :
    first.display = second.display ↔
      first.required = second.required ∧ first.body = second.body := by
  constructor
  · intro same
    obtain ⟨opening_eq, rest⟩ := List.cons.inj same
    refine ⟨?_, (List.append_inj' rest rfl).1⟩
    cases required : first.required <;> cases required' : second.required <;>
      simp_all [opening]
  · rintro ⟨required, body⟩
    rw [display, display, opening, opening, closing, closing, required, body]

/-- The closing bracket is the first in a display, so what follows it can be
told from the display. -/
theorem display_append_inj (enclosed : first.body.Enclosed)
    (enclosed' : second.body.Enclosed) {behind behind' : Text}
    (same : first.display ++ behind = second.display ++ behind') :
    first.display = second.display ∧ behind = behind' := by
  have cut (tag : Tag) (enclosed : tag.body.Enclosed) (behind : Text) :
      (tag.display ++ behind).takeWhile (fun c => !(c == '>' || c == ']')) =
        tag.opening :: tag.body ∧
      (tag.display ++ behind).dropWhile (fun c => !(c == '>' || c == ']')) =
        tag.closing :: behind := by
    have quiet : ∀ c ∈ tag.opening :: tag.body,
        (!(c == '>' || c == ']')) = true := by
      intro c mem
      rcases List.mem_cons.mp mem with rfl | inside
      · rcases tag.opening_eq_or with opening | opening <;> simp [opening]
      · simp [enclosed.closeless c inside]
    have parts : tag.display ++ behind =
        (tag.opening :: tag.body) ++ tag.closing :: behind := by
      simp [display]
    rw [parts, List.takeWhile_append_of_pos quiet,
      List.dropWhile_append_of_pos quiet]
    rcases tag.closing_eq_or with closing | closing <;> simp [closing]
  obtain ⟨front, closer⟩ := cut first enclosed behind
  obtain ⟨front', closer'⟩ := cut second enclosed' behind'
  rw [same, front'] at front
  rw [same, closer'] at closer
  obtain ⟨closing_eq, behind_eq⟩ := List.cons.inj closer
  refine ⟨?_, behind_eq.symm⟩
  rw [display, display, ← List.cons_append, ← List.cons_append, ← front,
    closing_eq]

/-! ## Bodies -/

theorem alternatives_concat {earlier : List Text} (some_earlier : earlier ≠ [])
    (last : Text) :
    alternatives (earlier ++ [last]) = alternatives earlier ++ '|' :: last := by
  induction earlier with
  | nil => exact absurd rfl some_earlier
  | cons alternative rest ih =>
      cases rest with
      | nil => simp [alternatives, List.intercalate]
      | cons next more =>
          have tail := ih (List.cons_ne_nil next more)
          simp only [alternatives, List.cons_append,
            List.intercalate_cons_cons, List.append_assoc] at tail ⊢
          rw [tail]

/-- Only a rest tag ends in the rest marker where it shows its alternatives. -/
theorem marker_suffix_body_iff (admissible : first.Admissible)
    (shows : first.ShowsAlternatives) :
    restMarker <:+ first.body ↔ first.rest = true := by
  obtain ⟨options, listed⟩ := Option.isSome_iff_exists.mp shows.2
  rw [body_of_listed shows.1 listed, ending]
  cases rest : first.rest with
  | true => simp
  | false =>
      have several := (admissible.listed options listed).2
      obtain ⟨earlier, last, rfl⟩ := List.eq_nil_or_concat' options
        |>.resolve_left (by rintro rfl; simp at several)
      have some_earlier : earlier ≠ [] := by rintro rfl; simp at several
      have final : ¬ restMarker <:+ last := by
        simpa using (admissible.last _ listed rest).2
      rw [alternatives_concat some_earlier]
      -- The marker holds no bar, so it would have to end the last alternative.
      refine iff_of_false (fun marker => ?_) Bool.false_ne_true
      have bar : '|' :: last <:+ alternatives earlier ++ '|' :: last ++ [] := by
        simp
      rcases List.suffix_or_suffix_of_suffix marker bar with inside | around
      · rcases List.suffix_cons_iff.mp inside with whole | inside
        · cases whole
        · exact final inside
      · exact absurd (around.subset List.mem_cons_self) (by decide)

theorem alternatives_inj {options options' : List Text}
    (barless : ∀ alternative ∈ options, '|' ∉ alternative)
    (barless' : ∀ alternative ∈ options', '|' ∉ alternative)
    (some_options : options ≠ []) (some_options' : options' ≠ [])
    (same : alternatives options = alternatives options') :
    options = options' := by
  rw [← List.splitOn_intercalate '|' barless some_options,
    ← List.splitOn_intercalate '|' barless' some_options']
  exact congrArg (List.splitOn '|') same

/-- Shown alternatives tell the options and the rest marker. -/
theorem body_eq_iff_of_listed (admissible : first.Admissible)
    (admissible' : second.Admissible) (shows : first.ShowsAlternatives)
    (shows' : second.ShowsAlternatives) :
    first.body = second.body ↔
      first.options = second.options ∧ first.rest = second.rest := by
  obtain ⟨options, listed⟩ := Option.isSome_iff_exists.mp shows.2
  obtain ⟨options', listed'⟩ := Option.isSome_iff_exists.mp shows'.2
  have body := body_of_listed shows.1 listed
  have body' := body_of_listed shows'.1 listed'
  constructor
  · intro same
    have rest : first.rest = second.rest := by
      rw [Bool.eq_iff_iff, ← marker_suffix_body_iff admissible shows, same,
        marker_suffix_body_iff admissible' shows']
    refine ⟨?_, rest⟩
    have several := (admissible.listed options listed).2
    have several' := (admissible'.listed options' listed').2
    rw [body, body', ending, ending, rest] at same
    rw [listed, listed', alternatives_inj
      (fun alternative mem =>
        (admissible.alternatives options listed alternative mem).barless)
      (fun alternative mem =>
        (admissible'.alternatives options' listed' alternative mem).barless)
      (by rintro rfl; simp at several) (by rintro rfl; simp at several')
      (List.append_cancel_right same)]
  · rintro ⟨options_eq, rest⟩
    rw [listed, listed', Option.some.injEq] at options_eq
    rw [body, body', ending, ending, options_eq, rest]

/-- What a display tells of a tag that a line can have. -/
theorem display_eq_iff (admissible : first.Admissible)
    (admissible' : second.Admissible) :
    first.display = second.display ↔ first.Alike second := by
  rw [display_eq_iff_body]
  have bar : '|' ∈ first.body ↔ first.ShowsAlternatives :=
    admissible.bar_mem_body_iff
  have bar' : '|' ∈ second.body ↔ second.ShowsAlternatives :=
    admissible'.bar_mem_body_iff
  constructor
  · rintro ⟨required, body⟩
    refine ⟨required, ?_⟩
    by_cases shows : first.ShowsAlternatives
    · have shows' : second.ShowsAlternatives := by
        rwa [← bar', ← body, bar]
      exact .inl ⟨shows, shows',
        (body_eq_iff_of_listed admissible admissible' shows shows').mp body⟩
    · have shows' : ¬ second.ShowsAlternatives := by
        rwa [← bar', ← body, bar]
      rw [body_of_unlisted shows, body_of_unlisted shows'] at body
      exact .inr ⟨shows, shows', body⟩
  · rintro ⟨required, ⟨shows, shows', same⟩ | ⟨shows, shows', same⟩⟩
    · exact ⟨required,
        (body_eq_iff_of_listed admissible admissible' shows shows').mpr same⟩
    · rw [body_of_unlisted shows, body_of_unlisted shows']
      exact ⟨required, same⟩

end Tag

/-! ## Lines -/

theorem render_cons (separator : Text) (first : Tag) (rest : List Tag) :
    render separator (first :: rest) =
      first.display ++ rest.flatMap fun tag => separator ++ tag.display := by
  simp [render_eq_flatMap, withSeparator, List.flatMap_map]

/-- Two rows of tags are shown the same, one by one. -/
def ShownAlike (tags others : List Tag) : Prop :=
  List.Forall₂ (fun first second => first.display = second.display) tags others

/-- Tags behind separators tell how each of them is shown. -/
theorem shownAlike_of_behind {separator : Text} {tags others : List Tag}
    (enclosed : ∀ tag ∈ tags, tag.body.Enclosed)
    (enclosed' : ∀ tag ∈ others, tag.body.Enclosed)
    (same : (tags.flatMap fun tag => separator ++ tag.display) =
      others.flatMap fun tag => separator ++ tag.display) :
    ShownAlike tags others := by
  induction tags generalizing others with
  | nil =>
      cases others with
      | nil => exact .nil
      | cons other others => simp [Tag.display] at same
  | cons tag tags ih =>
      cases others with
      | nil => simp [Tag.display] at same
      | cons other others =>
          simp only [List.flatMap_cons, List.append_assoc,
            List.append_cancel_left_eq] at same
          obtain ⟨display, behind⟩ := Tag.display_append_inj
            (enclosed tag List.mem_cons_self) (enclosed' other List.mem_cons_self)
            same
          exact .cons display (ih
            (fun tag mem => enclosed tag (List.mem_cons_of_mem _ mem))
            (fun tag mem => enclosed' tag (List.mem_cons_of_mem _ mem)) behind)

theorem shownAlike_of_render {separator : Text} {tags others : List Tag}
    (enclosed : ∀ tag ∈ tags, tag.body.Enclosed)
    (enclosed' : ∀ tag ∈ others, tag.body.Enclosed)
    (same : render separator tags = render separator others) :
    ShownAlike tags others := by
  have behind : (tags.flatMap fun tag => separator ++ tag.display) =
      others.flatMap fun tag => separator ++ tag.display := by
    cases tags with
    | nil =>
        cases others with
        | nil => rfl
        | cons other others =>
            simp [render_cons, render_nil, Tag.display] at same
    | cons tag tags =>
        cases others with
        | nil => simp [render_cons, render_nil, Tag.display] at same
        | cons other others =>
            rw [render_cons, render_cons] at same
            simp [same]
  exact shownAlike_of_behind enclosed enclosed' behind

theorem render_of_shownAlike {tags others : List Tag}
    (alike : ShownAlike tags others) (separator : Text) :
    render separator tags = render separator others := by
  have displays : tags.map Tag.display = others.map Tag.display := by
    induction alike with
    | nil => rfl
    | cons display _ ih => rw [List.map_cons, List.map_cons, display, ih]
  rw [render, render, displays]

/-- The tags of two accepted lines are shown alike behind any separator exactly
if they are as many and shown alike one by one.  Two of them are shown alike
exactly if they have the same brackets and both show the same alternatives and
the same rest marker, or both a name and no alternatives, and the names with
their rest markers are the same. -/
theorem render_eq_iff {line other : Text} {tags others : List Tag}
    (accepted : parse line = .ok tags) (accepted' : parse other = .ok others) :
    (∀ separator, render separator tags = render separator others ↔
      ShownAlike tags others) ∧
    ∀ first ∈ tags, ∀ second ∈ others,
      first.display = second.display ↔ first.Alike second := by
  have admissible := (admissible_of_parse accepted).each
  have admissible' := (admissible_of_parse accepted').each
  constructor
  · intro separator
    refine ⟨?_, fun alike => render_of_shownAlike alike separator⟩
    exact shownAlike_of_render
      (fun tag mem => (admissible tag mem).body_enclosed)
      (fun tag mem => (admissible' tag mem).body_enclosed)
  · intro first mem second mem'
    exact Tag.display_eq_iff (admissible first mem) (admissible' second mem')

/-- `<a::x|y>[b...]` and `<c::x|y>[b:z...]` are shown alike behind the separator
`>[`, and the names `a` and `c` cannot be told apart. -/
theorem render_eq_iff_of_lossy :
    render ['>', '[']
      [{ name := ['a'], kind := Tag.optionsKind, required := true,
         options := some [['x'], ['y']], literal := true },
       { name := ['b', '.', '.', '.'], kind := Tag.literalKind }] =
    render ['>', '[']
      [{ name := ['c'], kind := Tag.optionsKind, required := true,
         options := some [['x'], ['y']], literal := true },
       { name := ['b'], kind := ['z'], rest := true }] ∧
    Tag.Alike { name := ['b', '.', '.', '.'], kind := Tag.literalKind }
      { name := ['b'], kind := ['z'], rest := true } := by
  have accepted : parse ['<', 'a', ':', ':', 'x', '|', 'y', '>', '[', 'b', '.',
      '.', '.', ']'] =
      .ok [{ name := ['a'], kind := Tag.optionsKind, required := true,
             options := some [['x'], ['y']], literal := true },
        { name := ['b', '.', '.', '.'], kind := Tag.literalKind }] := rfl
  have accepted' : parse ['<', 'c', ':', ':', 'x', '|', 'y', '>', '[', 'b', ':',
      'z', '.', '.', '.', ']'] =
      .ok [{ name := ['c'], kind := Tag.optionsKind, required := true,
             options := some [['x'], ['y']], literal := true },
        { name := ['b'], kind := ['z'], rest := true }] := rfl
  constructor
  · exact ((render_eq_iff accepted accepted').1 _).mpr
      (.cons rfl (.cons rfl .nil))
  · exact ((render_eq_iff accepted accepted').2 _ (by simp) _ (by simp)).mp rfl

end UsageLine

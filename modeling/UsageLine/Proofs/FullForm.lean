import UsageLine.Proofs.Admissible

/-!
# Full forms

The full form of a tag writes its kind as well as its name: behind one colon or
two stand the alternatives, or the kind itself, and then the rest marker.  The
full forms of admissible tags in a row are a line that is read as these tags.
Since every accepted line has admissible tags, these are exactly the tags that
a line can have, and the full form of a line is read as the line itself.
-/

namespace UsageLine

namespace Tag

/-- The kind as the author of the line writes it. -/
def kindText (tag : Tag) : Text :=
  match tag.options with
  | some options => alternatives options
  | none => tag.kind

def colons (tag : Tag) : Text := if tag.literal then [':', ':'] else [':']

/-- What stands between the brackets of the full form. -/
def fullBody (tag : Tag) : Text :=
  tag.name ++ tag.colons ++ (tag.kindText ++ tag.ending)

/-- The full form in front of its closing bracket, and the bracket. -/
def fullPiece (tag : Tag) : Text × Char :=
  (tag.opening :: tag.fullBody, tag.closing)

/-- The tag with everything that is known of it. -/
def fullForm (tag : Tag) : Text :=
  tag.opening :: (tag.fullBody ++ [tag.closing])

theorem alternatives_append (earlier : List Text) (last behind : Text) :
    alternatives (earlier ++ [last]) ++ behind =
      alternatives (earlier ++ [last ++ behind]) := by
  induction earlier with
  | nil => simp [alternatives]
  | cons first rest ih =>
      cases rest with
      | nil => simp [alternatives, List.intercalate]
      | cons second more =>
          simp only [alternatives, List.cons_append,
            List.intercalate_cons_cons, List.append_assoc] at ih ⊢
          rw [ih]

namespace Admissible

variable {tag : Tag}

/-- Nothing but bars is left of the shaping characters in a kind. -/
theorem kind_chars (admissible : tag.Admissible) {c : Char}
    (found : c ∈ tag.kindText ++ tag.ending) :
    c ∉ [' ', '<', '>', '[', ']', ':'] := by
  have of_plain {text : Text} (plain : Text.Plain text) (mem : c ∈ text) :
      c ∉ [' ', '<', '>', '[', ']', ':'] := by
    have unshaping := plain c mem
    simp_all [Text.shaping]
  rcases List.mem_append.mp found with kind | marker
  · rw [kindText] at kind
    split at kind
    · rename_i options some_options
      rcases mem_alternatives kind with rfl | ⟨alternative, mem, inside⟩
      · decide
      · exact of_plain
          (admissible.alternatives options some_options alternative mem) inside
    · exact of_plain admissible.kind kind
  · exact of_plain (ending_plain tag) marker

theorem fullBody_chars (admissible : tag.Admissible) {c : Char}
    (found : c ∈ tag.fullBody) : c ∉ [' ', '<', '>', '[', ']'] := by
  rcases List.mem_append.mp found with front | kind
  · rcases List.mem_append.mp front with name | colon
    · have unshaping := admissible.name c name
      simp_all [Text.shaping]
    · have colon_eq : c = ':' := by
        rw [colons] at colon
        split at colon <;> simpa using colon
      rw [colon_eq]
      decide
  · have unshaping := admissible.kind_chars kind
    simp_all

theorem fullPiece_chars (admissible : tag.Admissible) {c : Char}
    (found : c ∈ tag.fullPiece.1) : c ∉ [' ', '>', ']'] := by
  rcases List.mem_cons.mp found with rfl | inside
  · rcases tag.opening_eq_or with angle | square
    · simp [angle]
    · simp [square]
  · have chars := admissible.fullBody_chars inside
    simp_all

end Admissible

end Tag

/-! ## The segment of a full form -/

namespace Segment

variable {seg : Segment} {tag : Tag}

theorem leaves_of_latest (fresh : seg.waiting = false)
    (written : seg.latest ≠ []) : seg.leaves = false := by
  have many : seg.kindSide.length ≠ 1 := by
    intro single
    have side := List.length_eq_one_iff.mp single
    have empty := (kindWritten_of_kindSide (.inr side)).2
    exact written (latest_of_unwritten empty)
  simp [leaves, canMeet, fresh, many]

theorem fullBody_unbracketed (admissible : tag.Admissible) :
    ∀ c ∈ tag.fullBody, c ≠ '<' ∧ c ≠ '[' := by
  intro c found
  have chars := admissible.fullBody_chars found
  simp_all

/-- The name and the kind are found where the full form puts them. -/
theorem spelling_of_fullForm (admissible : tag.Admissible)
    (fresh : seg.waiting = false)
    (written : Placed.text seg.written = tag.opening :: tag.fullBody) :
    Placed.text seg.nameSide = tag.name ∧ seg.doubled = tag.literal ∧
      Placed.text seg.kindWritten = tag.kindText ++ tag.ending := by
  have own : Placed.text seg.own = tag.fullBody := by
    rw [own_of_not_waiting fresh]
    have front : Placed.text seg.written =
        [] ++ tag.opening :: tag.fullBody := written
    have body := text_body_of_bracket front tag.opening_eq_or (by simp)
      (fullBody_unbracketed admissible)
    exact body
  have colonless := admissible.name.colonless
  cases literal : tag.literal with
  | true =>
      apply spelling_of_colons _ colonless
      simp [own, Tag.fullBody, Tag.colons, literal]
  | false =>
      apply spelling_of_colon _ colonless
      · intro colon
        exact admissible.kind_chars (List.mem_of_mem_head? colon) (by decide)
      · simp [own, Tag.fullBody, Tag.colons, literal]

theorem parts_of_single (admissible : tag.Admissible)
    (kind : Placed.text seg.kindWritten = tag.kindText ++ tag.ending)
    (single : tag.options = none) :
    seg.earlier = none ∧ seg.latest = tag.kind ++ tag.ending := by
  have written : Placed.text seg.kindWritten = tag.kind ++ tag.ending := by
    rw [kind, Tag.kindText, single]
  have barless : '|' ∉ Placed.text seg.kindWritten := by
    rw [written]
    exact (admissible.kind.append tag.ending_plain).barless
  constructor
  · rw [earlier, if_neg barless]
  · rw [latest, alternatives_of_no_bar barless, written]
    rfl

theorem parts_of_listed (admissible : tag.Admissible)
    (kind : Placed.text seg.kindWritten = tag.kindText ++ tag.ending)
    {before : List Text} {last : Text}
    (listed : tag.options = some (before ++ [last])) :
    seg.earlier = some before ∧ seg.latest = last ++ tag.ending := by
  have plain := admissible.alternatives _ listed
  have written : Placed.text seg.kindWritten =
      Tag.alternatives (before ++ [last]) ++ tag.ending := by
    rw [kind, Tag.kindText, listed]
  have pieces : seg.alternatives = before ++ [last ++ tag.ending] := by
    rw [alternatives, written, Tag.alternatives_append, Tag.alternatives]
    apply List.splitOn_intercalate
    · intro alternative mem
      rcases List.mem_append.mp mem with early | late
      · exact (plain alternative (List.mem_append_left _ early)).barless
      · rw [List.mem_singleton.mp late]
        exact ((plain last (by simp)).append tag.ending_plain).barless
    · simp
  have bar : '|' ∈ Placed.text seg.kindWritten := by
    rw [written]
    exact List.mem_append_left _
      (Tag.bar_mem_alternatives (admissible.listed _ listed).2)
  constructor
  · rw [earlier, if_pos bar, pieces, List.dropLast_concat]
  · rw [latest, pieces]
    simp

/-- The options and the kind are read back, but for the rest marker at the end
of what is read last. -/
theorem alternatives_of_fullForm (admissible : tag.Admissible)
    (kind : Placed.text seg.kindWritten = tag.kindText ++ tag.ending) :
    ∃ last, seg.latest = last ++ tag.ending ∧
      (tag.rest = false → Text.Final last) ∧
      seg.earlier.map (· ++ [last]) = tag.options ∧
      (if seg.earlier.isSome then Tag.optionsKind else last) = tag.kind := by
  cases some_options : tag.options with
  | none =>
      obtain ⟨earlier, latest⟩ := parts_of_single admissible kind some_options
      refine ⟨tag.kind, latest, admissible.single some_options, ?_, ?_⟩
      · rw [earlier]
        rfl
      · rw [earlier]
        rfl
  | some options =>
      obtain ⟨kind_eq, count⟩ := admissible.listed options some_options
      have nonempty : options ≠ [] := by
        rintro rfl
        simp at count
      obtain ⟨before, last, rfl⟩ : ∃ before last, options = before ++ [last] :=
        ⟨_, _, (List.dropLast_concat_getLast nonempty).symm⟩
      obtain ⟨earlier, latest⟩ := parts_of_listed admissible kind some_options
      refine ⟨last, latest, ?_, ?_, ?_⟩
      · intro bare
        simpa using admissible.last _ some_options bare
      · rw [earlier]
        rfl
      · rw [earlier, kind_eq]
        rfl

theorem unmarked_of_latest {last : Text}
    (latest : seg.latest = last ++ tag.ending)
    (final : tag.rest = false → Text.Final last) :
    seg.latest ≠ [] ∧ seg.marked = tag.rest ∧ seg.unmarked = last := by
  have written : seg.latest ≠ [] := by
    rw [latest, Tag.ending]
    cases rest : tag.rest with
    | true => simp [Tag.restMarker]
    | false => simpa using (final rest).1
  have kept : seg.chosen.2 = last ++ tag.ending := by
    rw [chosen_of_written written]
    exact latest
  have marked : seg.marked = tag.rest := by
    rw [Segment.marked, kept, Tag.ending]
    cases rest : tag.rest with
    | true =>
        rw [if_pos rfl, List.isSuffixOf_iff_suffix]
        exact List.suffix_append last Tag.restMarker
    | false =>
        rw [if_neg Bool.false_ne_true, List.append_nil, ← Bool.not_eq_true,
          List.isSuffixOf_iff_suffix]
        exact (final rest).2
  refine ⟨written, marked, ?_⟩
  rw [unmarked, marked, kept, Tag.ending]
  cases tag.rest with
  | true => simp
  | false => simp

/-- The segment of a full form is free of misuse and stands for the tag. -/
theorem reads_fullForm (admissible : tag.Admissible)
    (spells : Spells seg tag.fullPiece) :
    seg.misuses = [] ∧ seg.leaves = false ∧ seg.tag = tag := by
  have fresh : seg.waiting = false := spells.1
  have written : Placed.text seg.written = tag.opening :: tag.fullBody :=
    spells.2
  obtain ⟨name, doubled, kind⟩ :=
    spelling_of_fullForm admissible fresh written
  obtain ⟨last, latest, final, options, kind_eq⟩ :=
    alternatives_of_fullForm admissible kind
  obtain ⟨nonempty, marked, unmarked⟩ := unmarked_of_latest latest final
  have inside := fullBody_unbracketed admissible
  refine ⟨?_, leaves_of_latest fresh nonempty, ?_⟩
  · rw [misuses_eq_nil_iff, strayBars_eq_nil_iff, extraColons_eq_nil_iff,
      name, kind]
    have front : Placed.text seg.written =
        [] ++ tag.opening :: tag.fullBody := written
    refine ⟨nestings_eq_nil front List.not_mem_nil inside, ?_, ?_⟩
    · exact admissible.name.barless
    · intro colon
      exact admissible.kind_chars colon (by decide)
  · have chosen_name : seg.chosen.1 = tag.name := by
      rw [chosen_of_written nonempty]
      exact name
    have required : seg.required = tag.required := by
      rw [Segment.required, written, Tag.opening]
      cases tag.required with
      | true => simp
      | false =>
          have angleless : '<' ∉ tag.fullBody := fun angle =>
            (inside '<' angle).1 rfl
          simp [angleless]
    have unmet : seg.meets = false := by simp [meets, fresh]
    rw [Segment.tag, chosen_name, unmarked, kind_eq, options, marked, required,
      literal, unmet, doubled, Bool.false_or]

end Segment

/-- The full forms of tags in a row. -/
def fullForm (tags : List Tag) : Text := tags.flatMap Tag.fullForm

theorem spelledOut_fullForm {tags : List Tag} (admissible : Admissible tags) :
    (fullForm tags).unspaced =
      Segment.spelledOut (tags.map Tag.fullPiece) := by
  rw [Segment.spelledOut, List.flatMap_map]
  apply List.filter_eq_self.mpr
  intro c found
  obtain ⟨tag, mem, inside⟩ := List.mem_flatMap.mp found
  rw [Tag.fullForm, ← List.cons_append, List.mem_append] at inside
  rcases inside with front | bracket
  · have chars := (admissible.each tag mem).fullPiece_chars front
    simp_all
  · have closing := tag.closing_eq_or
    rw [← List.mem_singleton.mp bracket] at closing
    rcases closing with rfl | rfl <;> rfl

theorem parse_fullForm {tags : List Tag} (admissible : Admissible tags) :
    parse (fullForm tags) = .ok tags := by
  have closes : ∀ tag ∈ tags, Segment.Closes (Tag.fullPiece tag) := by
    intro tag mem
    refine ⟨fun c found => ?_, tag.closing_eq_or⟩
    have chars := (admissible.each tag mem).fullPiece_chars found
    simp_all
  have restLast : ∀ tag ∈ (tags.map id).dropLast, tag.rest = false := by
    rw [List.map_id]
    exact admissible.restLast
  have read := parse_of_spelledOut id (spelledOut_fullForm admissible) closes
    (fun tag mem seg => Segment.reads_fullForm (admissible.each tag mem))
    restLast
  rwa [List.map_id] at read

/-- The lists of tags that lines are read as are the admissible ones.  Each of
them is the reading of its full form, so the full form of what a line is read
as is read as the line is. -/
theorem parse_image :
    (∀ tags, (∃ line, parse line = .ok tags) ↔ Admissible tags) ∧
      (∀ tags, parse (fullForm tags) = .ok tags ↔ Admissible tags) ∧
      ∀ line, (parse line).bind (fun tags => parse (fullForm tags)) =
        parse line := by
  refine ⟨fun tags => ⟨?_, ?_⟩, fun tags => ⟨?_, ?_⟩, fun line => ?_⟩
  · rintro ⟨line, accepted⟩
    exact admissible_of_parse accepted
  · intro admissible
    exact ⟨fullForm tags, parse_fullForm admissible⟩
  · exact admissible_of_parse
  · exact parse_fullForm
  · cases accepted : parse line with
    | error error => rfl
    | ok tags => exact parse_fullForm (admissible_of_parse accepted)

end UsageLine

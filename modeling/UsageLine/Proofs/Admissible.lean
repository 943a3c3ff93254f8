import UsageLine.Proofs.Reading
import UsageLine.Tag.Display

/-!
# Admissible tags

Not every list of tags is the reading of a line.  No name, kind or alternative
holds a character that shapes a line, only the last tag is a rest tag, and what
stands at the end of a kind is neither empty nor ends in a rest marker of its
own, unless the tag is a rest tag.  Every accepted line has admissible tags.
-/

namespace UsageLine

namespace Text

/-- The characters that shape a line. -/
def shaping : List Char := [' ', '<', '>', '[', ']', ':', '|']

/-- A text without the characters that shape a line. -/
def Plain (text : Text) : Prop := ∀ c ∈ text, c ∉ shaping

instance (text : Text) : Decidable (Plain text) :=
  List.decidableBAll (fun c => c ∉ shaping) text

/-- A text that can end a kind without making it empty or a rest kind. -/
def Final (text : Text) : Prop := text ≠ [] ∧ ¬ Tag.restMarker <:+ text

theorem Plain.of_subset {text part : Text} (plain : Plain text)
    (subset : part ⊆ text) : Plain part :=
  fun c mem => plain c (subset mem)

theorem Plain.append {first second : Text} (plain : Plain first)
    (plain' : Plain second) : Plain (first ++ second) := by
  intro c mem
  rcases List.mem_append.mp mem with early | late
  · exact plain c early
  · exact plain' c late

theorem Plain.barless {text : Text} (plain : Plain text) : '|' ∉ text := by
  intro bar
  exact plain '|' bar (by decide)

theorem Plain.colonless {text : Text} (plain : Plain text) : ':' ∉ text := by
  intro colon
  exact plain ':' colon (by decide)

theorem of_mem_splitOn {text piece : Text} (found : piece ∈ text.splitOn '|') :
    piece ⊆ text ∧ '|' ∉ piece := by
  induction text generalizing piece with
  | nil =>
      rw [List.splitOn_nil, List.mem_singleton] at found
      subst found
      exact ⟨List.Subset.refl _, List.not_mem_nil⟩
  | cons c rest ih =>
      rw [List.splitOn_cons_eq_if_modifyHead] at found
      match pieces : rest.splitOn '|', List.splitOn_ne_nil '|' rest with
      | first :: others, _ =>
          rw [pieces] at ih found
          by_cases bar : c = '|'
          · rw [if_pos (by simp [bar]), List.mem_cons] at found
            rcases found with rfl | later
            · exact ⟨List.nil_subset _, List.not_mem_nil⟩
            · obtain ⟨subset, barless⟩ := ih later
              exact ⟨List.subset_cons_of_subset c subset, barless⟩
          · rw [if_neg (by simp [bar]), List.modifyHead_cons,
              List.mem_cons] at found
            rcases found with rfl | later
            · obtain ⟨subset, barless⟩ := ih List.mem_cons_self
              refine ⟨List.cons_subset_cons c subset, ?_⟩
              simpa [Ne.symm bar] using barless
            · obtain ⟨subset, barless⟩ := ih (List.mem_cons_of_mem _ later)
              exact ⟨List.subset_cons_of_subset c subset, barless⟩

theorem two_le_length_splitOn {text : Text} (bar : '|' ∈ text) :
    2 ≤ (text.splitOn '|').length := by
  match pieces : text.splitOn '|', List.splitOn_ne_nil '|' text with
  | [only], _ =>
      have whole : ['|'].intercalate (text.splitOn '|') = text :=
        List.intercalate_splitOn '|'
      rw [pieces] at whole
      have found : only ∈ text.splitOn '|' := by simp [pieces]
      have barless := (of_mem_splitOn found).2
      rw [List.intercalate_singleton] at whole
      exact absurd (whole ▸ bar) barless
  | first :: second :: more, _ => simp

end Text

/-- A tag that a line can have, wherever it stands. -/
structure Tag.Admissible (tag : Tag) : Prop where
  name : Text.Plain tag.name
  kind : Text.Plain tag.kind
  /-- The end of a single kind. -/
  single : tag.options = none → tag.rest = false → Text.Final tag.kind
  /-- The kind that stands for alternatives. -/
  listed : ∀ options, tag.options = some options →
    tag.kind = Tag.optionsKind ∧ 2 ≤ options.length
  alternatives : ∀ options, tag.options = some options →
    ∀ alternative ∈ options, Text.Plain alternative
  /-- The end of the last alternative. -/
  last : ∀ options, tag.options = some options → tag.rest = false →
    Text.Final (options.getLastD [])

/-- Tags that a line can have, one after the other. -/
structure Admissible (tags : List Tag) : Prop where
  each : ∀ tag ∈ tags, tag.Admissible
  restLast : ∀ tag ∈ tags.dropLast, tag.rest = false

/-! ## Names that choose the kind -/

namespace Tag

theorem shorthand_name_suffix (name : Text) : (shorthand name).1 <:+ name := by
  unfold shorthand
  split
  · exact ⟨['@', '@'], rfl⟩
  · exact ⟨['@'], rfl⟩
  · exact List.suffix_rfl

theorem shorthand_kind_plain (name : Text) : Text.Plain (shorthand name).2 := by
  have plain : ∀ kind ∈ chosenKinds, Text.Plain kind := by decide
  exact plain _ (shorthand_kind_mem name)

theorem ending_plain (tag : Tag) : Text.Plain tag.ending := by
  rw [ending]
  split
  · decide
  · decide

end Tag

namespace Segment

variable {line : Text} {seg : Segment}

theorem plain_nameSide (mem : seg ∈ Text.segments line)
    (clean : seg.misuses = []) : Text.Plain (Placed.text seg.nameSide) := by
  intro c found
  have own := own_chars mem
    ((seg.nameSide_sublist.map Prod.fst).subset found)
  have barless := strayBars_eq_nil_iff.mp (seg.misuses_eq_nil_iff.mp clean).2.1
  have colonless : c ≠ ':' := by
    rw [text_nameSide] at found
    simpa using List.mem_takeWhile_imp found
  have bar : c ≠ '|' := fun bar => barless (bar ▸ found)
  simp_all [Text.shaping]

theorem plain_of_mem_alternatives (mem : seg ∈ Text.segments line)
    (clean : seg.misuses = []) {alternative : Text}
    (found : alternative ∈ seg.alternatives) : Text.Plain alternative := by
  obtain ⟨subset, barless⟩ := Text.of_mem_splitOn found
  have colonless :=
    extraColons_eq_nil_iff.mp (seg.misuses_eq_nil_iff.mp clean).2.2
  intro c inside
  have written := subset inside
  have own := own_chars mem
    ((seg.kindWritten_sublist.map Prod.fst).subset written)
  have colon : c ≠ ':' := fun colon => colonless (colon ▸ written)
  have bar : c ≠ '|' := fun bar => barless (bar ▸ inside)
  simp_all [Text.shaping]

theorem latest_mem_alternatives (seg : Segment) :
    seg.latest ∈ seg.alternatives := by
  rw [← seg.dropLast_append_latest]
  simp

theorem plain_chosen (mem : seg ∈ Text.segments line)
    (clean : seg.misuses = []) :
    Text.Plain seg.chosen.1 ∧ Text.Plain seg.chosen.2 := by
  have name := plain_nameSide mem clean
  by_cases unwritten : seg.latest = []
  · rw [chosen_of_unwritten unwritten]
    exact ⟨name.of_subset (Tag.shorthand_name_suffix _).subset,
      Tag.shorthand_kind_plain _⟩
  · rw [chosen_of_written unwritten]
    exact ⟨name,
      plain_of_mem_alternatives mem clean seg.latest_mem_alternatives⟩

/-- Every segment has some kind, since its name chooses one otherwise. -/
theorem chosen_kind_ne_nil (seg : Segment) : seg.chosen.2 ≠ [] := by
  by_cases unwritten : seg.latest = []
  · rw [chosen_of_unwritten unwritten]
    exact Tag.shorthand_kind_ne_nil _
  · rwa [chosen_of_written unwritten]

theorem unmarked_subset (seg : Segment) : seg.unmarked ⊆ seg.chosen.2 := by
  rw [unmarked]
  split
  · exact List.take_subset _ _
  · exact List.Subset.refl _

/-- What carries no rest marker can end a kind. -/
theorem final_unmarked (bare : seg.marked = false) :
    Text.Final seg.unmarked := by
  rw [unmarked, bare]
  refine ⟨seg.chosen_kind_ne_nil, fun suffix => ?_⟩
  rw [← List.isSuffixOf_iff_suffix] at suffix
  exact Bool.false_ne_true (bare.symm.trans suffix)

/-- Only bars make options, and the rest marker is taken off the last one. -/
theorem options_tag {options : List Text}
    (some_options : seg.tag.options = some options) :
    '|' ∈ Placed.text seg.kindWritten ∧
      options = seg.alternatives.dropLast ++ [seg.unmarked] := by
  by_cases bar : '|' ∈ Placed.text seg.kindWritten
  · simp only [tag, earlier, if_pos bar, Option.map_some,
      Option.some.injEq] at some_options
    exact ⟨bar, some_options.symm⟩
  · simp [tag, earlier, if_neg bar] at some_options

/-- A segment without misuses stands for an admissible tag. -/
theorem tag_admissible (mem : seg ∈ Text.segments line)
    (clean : seg.misuses = []) : seg.tag.Admissible := by
  have chosen_plain := plain_chosen mem clean
  have unmarked_plain := chosen_plain.2.of_subset seg.unmarked_subset
  refine ⟨chosen_plain.1, ?_, ?_, ?_, ?_, ?_⟩
  · show Text.Plain (if seg.earlier.isSome then Tag.optionsKind else seg.unmarked)
    split
    · decide
    · exact unmarked_plain
  · intro no_options bare
    have single : seg.earlier = none := Option.map_eq_none_iff.mp no_options
    show Text.Final (if seg.earlier.isSome then Tag.optionsKind else seg.unmarked)
    rw [single]
    exact final_unmarked bare
  · intro options some_options
    obtain ⟨bar, rfl⟩ := options_tag some_options
    have count := Text.two_le_length_splitOn bar
    have several : seg.earlier.isSome = true := by simp [earlier, bar]
    refine ⟨if_pos several, ?_⟩
    rw [List.length_append, List.length_dropLast, alternatives]
    simp only [List.length_singleton]
    omega
  · intro options some_options alternative found
    obtain ⟨bar, rfl⟩ := options_tag some_options
    rcases List.mem_append.mp found with early | late
    · exact plain_of_mem_alternatives mem clean
        ((List.dropLast_sublist _).subset early)
    · rw [List.mem_singleton.mp late]
      exact unmarked_plain
  · intro options some_options bare
    obtain ⟨bar, rfl⟩ := options_tag some_options
    simpa using final_unmarked bare

end Segment

/-- Every accepted line has admissible tags. -/
theorem admissible_of_parse {line : Text} {tags : List Tag}
    (accepted : parse line = .ok tags) : Admissible tags := by
  obtain ⟨clean, bare, rfl⟩ := parse_eq_ok_iff.mp accepted
  constructor
  · intro tag mem
    obtain ⟨seg, closed, rfl⟩ := List.mem_map.mp mem
    have mem := (List.dropLast_sublist _).subset closed
    exact Segment.tag_admissible mem (List.flatMap_eq_nil_iff.mp clean seg mem)
  · intro tag mem
    rw [← List.map_dropLast] at mem
    obtain ⟨seg, early, rfl⟩ := List.mem_map.mp mem
    exact bare seg early

end UsageLine

import UsageLine.Tag

/-!
# Showing tags

A tag is shown in its brackets by its name, or by its alternatives where it is
literal and has some; a rest tag ends in the rest marker.  The kind is not
shown.  A line of tags puts a separator between neighbours.
-/

namespace UsageLine

namespace Tag

def opening (tag : Tag) : Char := if tag.required then '<' else '['

def closing (tag : Tag) : Char := if tag.required then '>' else ']'

theorem opening_eq_or (tag : Tag) : tag.opening = '<' ∨ tag.opening = '[' := by
  cases required : tag.required with
  | true => simp [opening, required]
  | false => simp [opening, required]

theorem closing_eq_or (tag : Tag) : tag.closing = '>' ∨ tag.closing = ']' := by
  cases required : tag.required with
  | true => simp [closing, required]
  | false => simp [closing, required]

/-- Alternatives are written with bars between them. -/
def alternatives (options : List Text) : Text :=
  List.intercalate ['|'] options

/-- A character of some alternatives is in one of them, or parts them. -/
theorem mem_alternatives {options : List Text} {c : Char}
    (found : c ∈ alternatives options) :
    c = '|' ∨ ∃ alternative ∈ options, c ∈ alternative := by
  induction options with
  | nil => cases found
  | cons first rest ih =>
      cases rest with
      | nil =>
          rw [alternatives, List.intercalate_singleton] at found
          exact .inr ⟨first, List.mem_cons_self, found⟩
      | cons second more =>
          rw [alternatives, List.intercalate_cons_cons, List.mem_append,
            List.mem_append, List.mem_singleton] at found
          rcases found with (early | bar) | later
          · exact .inr ⟨first, List.mem_cons_self, early⟩
          · exact .inl bar
          · rcases ih later with bar | ⟨alternative, mem, inside⟩
            · exact .inl bar
            · exact .inr ⟨alternative, List.mem_cons_of_mem _ mem, inside⟩

theorem bar_mem_alternatives {options : List Text}
    (several : 2 ≤ options.length) : '|' ∈ alternatives options := by
  match options with
  | first :: second :: more =>
      rw [alternatives, List.intercalate_cons_cons]
      simp

/-- What stands for the tag between its brackets, the rest marker aside. -/
def label (tag : Tag) : Text :=
  match tag.literal, tag.options with
  | true, some options => alternatives options
  | _, _ => tag.name

/-- The rest marker, where the tag is a rest tag. -/
def ending (tag : Tag) : Text := if tag.rest then restMarker else []

/-- All that stands between the brackets. -/
def body (tag : Tag) : Text := tag.label ++ tag.ending

theorem body_of_listed {tag : Tag} {options : List Text}
    (literal : tag.literal = true) (listed : tag.options = some options) :
    tag.body = alternatives options ++ tag.ending := by
  rw [body, label, literal, listed]

theorem body_of_unlisted {tag : Tag}
    (unlisted : ¬ (tag.literal = true ∧ tag.options.isSome = true)) :
    tag.body = tag.name ++ tag.ending := by
  rw [body, label]
  split
  · rename_i options literal some_options
    exact absurd ⟨literal, by simp [some_options]⟩ unlisted
  · rfl

def display (tag : Tag) : Text :=
  tag.opening :: (tag.body ++ [tag.closing])

end Tag

/-- What stands between two shown tags where no other separator is asked for. -/
def defaultSeparator : Text := [' ']

/-- Tags shown in a line, with the separator between neighbours. -/
def render (separator : Text) (tags : List Tag) : Text :=
  List.intercalate separator (tags.map Tag.display)

theorem render_nil (separator : Text) : render separator [] = [] := rfl

theorem render_singleton (separator : Text) (tag : Tag) :
    render separator [tag] = tag.display := by
  simp [render]

theorem render_cons_cons (separator : Text) (first second : Tag)
    (rest : List Tag) :
    render separator (first :: second :: rest) =
      first.display ++ (separator ++ render separator (second :: rest)) := by
  simp [render, List.intercalate]

end UsageLine

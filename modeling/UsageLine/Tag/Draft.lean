import UsageLine.Tag.DecodeError

/-!
# Drafts of tags

A draft is a tag of which some fields are known; it becomes a tag once none is
missing.  Only the options may stay away, since a tag need not have any.
-/

namespace UsageLine

/-- A tag of which some fields are known. -/
structure Draft where
  name : Option Text := none
  kind : Option Text := none
  required : Option Bool := none
  rest : Option Bool := none
  options : Option (Option (List Text)) := none
  literal : Option Bool := none
  deriving DecidableEq, Repr

namespace Draft

def has (draft : Draft) : Field → Bool
  | .name => draft.name.isSome
  | .kind => draft.kind.isSome
  | .required => draft.required.isSome
  | .rest => draft.rest.isSome
  | .options => draft.options.isSome
  | .literal => draft.literal.isSome

/-- A value that must be known. -/
def need {α : Type} (field : Field) : Option α → Except DecodeError α
  | some value => .ok value
  | none => .error (.missing field)

/-- The tag of a draft; the first field that is missing is named. -/
def complete (draft : Draft) : Except DecodeError Tag := do
  let name ← need .name draft.name
  let kind ← need .kind draft.kind
  let required ← need .required draft.required
  let rest ← need .rest draft.rest
  let literal ← need .literal draft.literal
  return { name, kind, required, rest, options := draft.options.join, literal }

def ofTag (tag : Tag) : Draft where
  name := some tag.name
  kind := some tag.kind
  required := some tag.required
  rest := some tag.rest
  options := some tag.options
  literal := some tag.literal

theorem complete_ofTag (tag : Tag) : (ofTag tag).complete = .ok tag := rfl

end Draft

end UsageLine

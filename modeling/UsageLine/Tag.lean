import UsageLine.Text

/-!
# Tags

A tag describes one argument of a usage line: what it is called, what it
holds, and how it is shown.  Four kinds are given by the reader itself; every
other kind is written by the author of the line.
-/

namespace UsageLine

/-- One argument of a usage line. -/
structure Tag where
  /-- The name, without a leading `@` or `@@` that chose the kind. -/
  name : Text := []
  /-- What the argument holds: a kind the author wrote or one the reader gave. -/
  kind : Text := []
  /-- Angle brackets make a tag required, square ones leave it optional. -/
  required : Bool := false
  /-- A rest tag takes all values that remain. -/
  rest : Bool := false
  /-- The alternatives, where the author wrote them with bars. -/
  options : Option (List Text) := none
  /-- A literal tag shows its alternatives in place of its name. -/
  literal : Bool := false
  deriving DecidableEq, Repr, Inhabited

namespace Tag

/-- The kind of a tag that was written without one. -/
def literalKind : Text := ['l', 'i', 't', 'e', 'r', 'a', 'l']

/-- The kind of a tag written `@@name`. -/
def memberKind : Text := ['m', 'e', 'm', 'b', 'e', 'r']

/-- The kind of a tag written `@name`. -/
def userKind : Text := ['u', 's', 'e', 'r']

/-- The kind of a tag that lists alternatives. -/
def optionsKind : Text := ['o', 'p', 't', 'i', 'o', 'n', 's']

/-- What ends the kind of a rest tag. -/
def restMarker : Text := ['.', '.', '.']

/-- The alternatives syntax gave this tag its kind. -/
def isOptions (tag : Tag) : Bool := tag.kind == optionsKind

/-- The `@name` shorthand gave this tag its kind. -/
def isUser (tag : Tag) : Bool := tag.kind == userKind

/-- The `@@name` shorthand gave this tag its kind. -/
def isMember (tag : Tag) : Bool := tag.kind == memberKind

/-- The tag has the kind of one that was written without a kind. -/
def isLiteralKind (tag : Tag) : Bool := tag.kind == literalKind

def hasRestMarker (tag : Tag) : Bool := restMarker.isSuffixOf tag.kind

theorem hasRestMarker_iff {tag : Tag} :
    tag.hasRestMarker = true ↔ ∃ stem, tag.kind = stem ++ restMarker := by
  rw [hasRestMarker, List.isSuffixOf_iff_suffix]
  exact ⟨fun ⟨stem, h⟩ => ⟨stem, h.symm⟩, fun ⟨stem, h⟩ => ⟨stem, h.symm⟩⟩

end Tag

end UsageLine

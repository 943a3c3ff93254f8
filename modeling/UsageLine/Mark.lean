import UsageLine.Text

/-!
# Marks

The characters of a usage line by the part they play.  Brackets, colons and
bars shape the tags, a space means nothing, and every other character is a
letter of a name or a kind.  Both closing brackets play one part.
-/

namespace UsageLine

/-- The part a character plays in a usage line. -/
inductive Mark
  /-- A space, which is dropped wherever it stands. -/
  | blank
  /-- An angle bracket, which makes the tag required. -/
  | openRequired
  /-- A square bracket, which opens an optional tag. -/
  | openOptional
  /-- Either closing bracket, which ends the tag. -/
  | close
  /-- A colon, which starts the kind; a second one makes the tag literal. -/
  | colon
  /-- A bar, which ends an alternative. -/
  | bar
  /-- Any other character, which is written into the tag. -/
  | letter (c : Char)
  deriving DecidableEq, Repr

def Mark.ofChar : Char → Mark
  | ' ' => .blank
  | '<' => .openRequired
  | '[' => .openOptional
  | '>' => .close
  | ']' => .close
  | ':' => .colon
  | '|' => .bar
  | c => .letter c

end UsageLine

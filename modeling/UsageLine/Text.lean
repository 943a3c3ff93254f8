/-!
# Texts

A text is the list of its characters, so that a place in it is a number of
characters and a cut never falls inside one.  The beginnings of a text are
what a reader sees while the text is being typed.
-/

namespace UsageLine

/-- A text is the list of its characters. -/
abbrev Text := List Char

namespace Text

/-- The beginnings of a text, from the empty one to the whole. -/
def beginnings (text : Text) : List Text :=
  (List.range (text.length + 1)).map text.take

end Text

end UsageLine

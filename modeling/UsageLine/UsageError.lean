import UsageLine.Utf8

/-!
# Why a usage line is refused

A line is refused where its bytes are no text, at the first mark used where it
must not stand, or for a rest marker before the last tag.
-/

namespace UsageLine

/-- A mark used where it must not stand. -/
inductive Misuse
  /-- A square bracket opens inside a tag that is already required. -/
  | optionalInsideRequired
  /-- A colon stands where the kind has already begun. -/
  | repeatedColon
  /-- A bar stands where the kind has not begun. -/
  | barOutsideKind
  deriving DecidableEq, Repr

inductive UsageError
  /-- The bytes are not UTF-8. -/
  | notText (fault : Utf8.Fault)
  /-- The character at a position, counted from zero, is misused. -/
  | misused (what : Misuse) (position : Nat)
  /-- The tag at an index, counted from zero, has a rest marker though it is
  not the last of so many tags. -/
  | restNotLast (index count : Nat)
  deriving DecidableEq, Repr

namespace UsageError

def complaint : Misuse → String
  | .optionalInsideRequired =>
      "cannot open an optional tag inside a required tag"
  | .repeatedColon => "colons can only be used once per tag"
  | .barOutsideKind => "option separator '|' used outside the type field"

def message : UsageError → String
  | .notText _ => "usage input must be valid UTF-8 text"
  | .misused what position =>
      complaint what ++ " at character " ++ toString position ++ " (zero-based)"
  | .restNotLast index count =>
      "rest arguments can only be used as the last argument (tag " ++
        toString index ++ " of " ++ toString count ++ ")"

/-- Two errors of one kind may differ in the place they name. -/
def sameKind : UsageError → UsageError → Bool
  | .notText _, .notText _ => true
  | .misused what _, .misused other _ => what == other
  | .restNotLast _ _, .restNotLast _ _ => true
  | _, _ => false

end UsageError

end UsageLine

import UsageLine.Resolution
import UsageLine.Scan

/-!
# Reading a usage line

A line is scanned, then its tags are resolved.  Bytes are first read as UTF-8,
all of them, so a fault in them comes before any misused mark.
-/

namespace UsageLine

/-- The tags of a usage line. -/
def parse (line : Text) : Except UsageError (List Tag) :=
  (scan line).tags.bind resolve

def parseBytes (bytes : List UInt8) : Except UsageError (List Tag) :=
  match Utf8.decode bytes with
  | .error fault => .error (.notText fault)
  | .ok line => parse line

/-- What each beginning of a line reads as, the empty one first. -/
def parseBeginnings (line : Text) : List (Except UsageError (List Tag)) :=
  (Text.beginnings line).map parse

/-- Two readings give the same tags, or fail in the same way at one place. -/
def sameReading :
    Except UsageError (List Tag) → Except UsageError (List Tag) → Bool
  | .ok first, .ok second => first == second
  | .error first, .error second => first == second
  | _, _ => false

theorem sameReading_iff {first second : Except UsageError (List Tag)} :
    sameReading first second = true ↔ first = second := by
  cases first <;> cases second <;> simp [sameReading]

/-- Two readings agree in kind: both give tags, or both fail in one way, maybe
at different places. -/
def sameKindOfReading :
    Except UsageError (List Tag) → Except UsageError (List Tag) → Bool
  | .ok _, .ok _ => true
  | .error first, .error second => first.sameKind second
  | _, _ => false

end UsageLine

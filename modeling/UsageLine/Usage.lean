import UsageLine.Parse
import UsageLine.Tag.Display

/-!
# Usages

A usage is the tags of an accepted line.  It is shown with a separator of
choice, and it knows its rest tag, which can only be the last one.
-/

namespace UsageLine

/-- The tags of an accepted line, or none at all. -/
structure Usage where
  tags : List Tag := []
  deriving DecidableEq, Repr, Inhabited

namespace Usage

def ofText (line : Text) : Except UsageError Usage :=
  (parse line).map Usage.mk

def ofBytes (bytes : List UInt8) : Except UsageError Usage :=
  (parseBytes bytes).map Usage.mk

def restTag? (usage : Usage) : Option Tag :=
  usage.tags.getLast?.filter (·.rest)

def format (usage : Usage) (separator : Text) : Text :=
  render separator usage.tags

def display (usage : Usage) : Text := usage.format defaultSeparator

/-- Read again what the usage is shown as. -/
def reread (usage : Usage) (separator : Text) : Except UsageError Usage :=
  ofText (usage.format separator)

end Usage

def formatLine (separator line : Text) : Except UsageError Text :=
  (parse line).map (render separator)

end UsageLine

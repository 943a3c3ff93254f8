import UsageLine.Usage

/-!
# Sessions

A session holds one usage, the empty one at first.  Some steps put another in
its place, the others ask about it.  A step that fails leaves the usage as it
was.
-/

namespace UsageLine

inductive Step
  /-- Put the usage of a line in place. -/
  | loadText (line : Text)
  /-- Put the usage of a line given as bytes in place. -/
  | loadBytes (bytes : List UInt8)
  /-- Read again what the usage is shown as. -/
  | reread (separator : Text)
  /-- Show the usage. -/
  | display
  /-- Show the usage with a separator. -/
  | format (separator : Text)
  /-- Ask for the rest tag. -/
  | restTag
  /-- Ask for the tag at an index. -/
  | get (index : Nat)
  deriving DecidableEq, Repr

inductive Answer
  /-- The usage that is now in place. -/
  | loaded (tags : List Tag)
  /-- The usage was not replaced. -/
  | refused (error : UsageError)
  /-- The usage as it is shown. -/
  | shown (text : Text)
  /-- The rest tag, if there is one. -/
  | restTag (tag : Option Tag)
  /-- The tag at an index, if there is one. -/
  | tag (tag : Option Tag)
  deriving DecidableEq, Repr

namespace Usage

/-- Put a usage in place if it was read. -/
def replace (usage : Usage) :
    Except UsageError Usage → Usage × Answer
  | .ok next => (next, .loaded next.tags)
  | .error error => (usage, .refused error)

def step (usage : Usage) : Step → Usage × Answer
  | .loadText line => usage.replace (ofText line)
  | .loadBytes bytes => usage.replace (ofBytes bytes)
  | .reread separator => usage.replace (usage.reread separator)
  | .display => (usage, .shown usage.display)
  | .format separator => (usage, .shown (usage.format separator))
  | .restTag => (usage, .restTag usage.restTag?)
  | .get index => (usage, .tag usage.tags[index]?)

/-- Do steps one after another: the usage they leave and their answers. -/
def steps (usage : Usage) : List Step → Usage × List Answer
  | [] => (usage, [])
  | first :: rest =>
      let (next, answer) := usage.step first
      let (last, answers) := next.steps rest
      (last, answer :: answers)

end Usage

def session (list : List Step) : List Answer :=
  (Usage.steps {} list).2

end UsageLine

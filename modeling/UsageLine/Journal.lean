import UsageLine.Parse
import UsageLine.Tag.Spelled

/-!
# The journal of a reading

Reading a usage line keeps a journal.  It records each tag as it closes, the
unfinished tag that the end of the line throws away, and each rest marker and
list of options that is resolved.  A line that is refused leaves the records
made before the error.
-/

namespace UsageLine

/-- How much a record matters. -/
inductive Level
  | trace
  | debug
  deriving DecidableEq, Repr

def Level.name : Level → String
  | .trace => "TRACE"
  | .debug => "DEBUG"

/-- Something that happened while a line was read. -/
inductive Record
  /-- A tag closed; its rest marker and options are not resolved yet. -/
  | scanned (tag : Tag)
  /-- The line ended inside a tag. -/
  | discarded (tag : Tag)
  /-- The tag of a name turned out to be a rest tag. -/
  | restResolved (name : Text)
  /-- The options of the tag of a name were completed. -/
  | optionsResolved (name : Text) (options : List Text)
  deriving DecidableEq, Repr

namespace Record

/-- Only what is thrown away deserves more than a trace. -/
def level : Record → Level
  | .discarded _ => .debug
  | _ => .trace

def text : Record → Text
  | .scanned tag => "scanned usage tag ".toList ++ tag.spelled
  | .discarded tag =>
      "discarding unterminated usage tag ".toList ++ tag.spelled
  | .restResolved name => "resolved rest tag `".toList ++ name ++ ['\x60']
  | .optionsResolved name options =>
      "resolved options tag `".toList ++ name ++ "` with ".toList ++
        Text.quotedList options

end Record

def Scan.recorded (s : Scan) (c : Char) : List Record :=
  if Mark.ofChar c = .close then [.scanned s.current.classified] else []

/-- What the scan of a text records, up to a misused mark or to the end, where
the current tag is thrown away unless it holds nothing. -/
def Scan.journal (s : Scan) : Text → List Record
  | [] => if s.atBoundary then [] else [.discarded s.current]
  | c :: rest =>
      match s.read c with
      | .error _ => []
      | .ok next => s.recorded c ++ next.journal rest

def Tag.resolutionJournal (tag : Tag) : List Record :=
  (if tag.hasRestMarker then [.restResolved tag.name] else []) ++
    match tag.resolved.options with
    | some options => [.optionsResolved tag.name options]
    | none => []

/-- What the resolution of tags records from an index on, up to a misplaced rest
marker. -/
def resolutionJournalFrom (count index : Nat) : List Tag → List Record
  | [] => []
  | tag :: rest =>
      if tag.hasRestMarker ∧ index + 1 ≠ count then []
      else tag.resolutionJournal ++ resolutionJournalFrom count (index + 1) rest

def resolutionJournal (tags : List Tag) : List Record :=
  resolutionJournalFrom tags.length 0 tags

/-- What the reading of a line records: first its scan, then the resolution of
its tags. -/
def journal (line : Text) : List Record :=
  Scan.journal {} line ++
    match (scan line).tags with
    | .ok tags => resolutionJournal tags
    | .error _ => []

end UsageLine

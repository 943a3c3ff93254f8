import UsageLine.Mark
import UsageLine.Tag.Shorthand
import UsageLine.UsageError

/-!
# Scanning a line

A line is scanned one character at a time.  A scan holds the tags that are
closed, the tag being written, whether its kind has begun, and whether a colon
waits for a second one.  A waiting colon outlives brackets and spaces, so it
can meet its second in a later tag.  A run stops at the first misused mark and
still holds what was closed before.
-/

namespace UsageLine

/-- What is known of a line at one place of it. -/
structure Scan where
  /-- The tags closed so far, first one first. -/
  closed : List Tag := []
  /-- The tag being written. -/
  current : Tag := {}
  /-- The kind of the current tag has begun. -/
  inKind : Bool := false
  /-- The last colon still waits for a second one. -/
  colonPending : Bool := false
  deriving DecidableEq, Repr, Inhabited

namespace Scan

/-- Write a letter into the kind once it has begun, otherwise into the name. -/
def write (s : Scan) (c : Char) : Scan :=
  if s.inKind then
    { s with
      current := { s.current with kind := s.current.kind ++ [c] }
      colonPending := false }
  else
    { s with
      current := { s.current with name := s.current.name ++ [c] }
      colonPending := false }

/-- Put the alternative just written among the others and start the next. -/
def nextAlternative (s : Scan) : Scan :=
  { s with
    current := { s.current with
      options := some (s.current.options.getD [] ++ [s.current.kind])
      kind := [] }
    colonPending := false }

def close (s : Scan) : Scan :=
  { s with
    closed := s.closed ++ [s.current.classified]
    current := {}
    inKind := false }

def step (s : Scan) : Mark → Except Misuse Scan
  | .blank => .ok s
  | .openRequired =>
      .ok { s with current := { s.current with required := true } }
  | .openOptional =>
      if s.current.required then .error .optionalInsideRequired else .ok s
  | .close => .ok s.close
  | .colon =>
      if s.colonPending then
        .ok { s with
          current := { s.current with literal := true }
          colonPending := false }
      else if s.inKind then .error .repeatedColon
      else .ok { s with inKind := true, colonPending := true }
  | .bar =>
      if s.inKind then .ok s.nextAlternative else .error .barOutsideKind
  | .letter c => .ok (s.write c)

def read (s : Scan) (c : Char) : Except Misuse Scan :=
  s.step (Mark.ofChar c)

/-- The current tag holds nothing and its kind has not begun. -/
def atBoundary (s : Scan) : Bool :=
  !s.inKind && s.current == {}

end Scan

/-- How far a run came: the scan at its end, and the misused mark that stopped
it with its position, if one did. -/
structure Scanned where
  last : Scan
  stop : Option (Misuse × Nat) := none
  deriving DecidableEq, Repr

namespace Scan

/-- Read a text that begins at a position of the line. -/
def run (s : Scan) (position : Nat) : Text → Scanned
  | [] => { last := s }
  | c :: rest =>
      match s.read c with
      | .error what => { last := s, stop := some (what, position) }
      | .ok next => next.run (position + 1) rest

/-- A run over two pieces goes on where the first piece left it, unless it was
stopped there. -/
theorem run_append (s : Scan) (position : Nat) (first second : Text) :
    s.run position (first ++ second) =
      match (s.run position first).stop with
      | some _ => s.run position first
      | none =>
          (s.run position first).last.run (position + first.length) second := by
  induction first generalizing s position with
  | nil => simp [run]
  | cons c rest ih =>
      simp only [List.cons_append, run, List.length_cons]
      cases s.read c with
      | error what => rfl
      | ok next =>
          simp only [ih]
          rw [show position + 1 + rest.length =
            position + (rest.length + 1) by omega]

end Scan

def scan (line : Text) : Scanned :=
  Scan.run {} 0 line

/-- The tags that a scan closed, unless a misused mark stopped it. -/
def Scanned.tags (result : Scanned) : Except UsageError (List Tag) :=
  match result.stop with
  | some (what, position) => .error (.misused what position)
  | none => .ok result.last.closed

end UsageLine

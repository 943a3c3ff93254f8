import UsageLine.Proofs.Placed
import UsageLine.Proofs.Tag.Naming

/-!
# Segments

A segment is what stands between two closing brackets, or after the last one.
It is read as a whole: its body is what is left without opening brackets, a
colon that waits from before may meet its second at the beginning of the body,
and the first colon that is left parts the name from the kind.  A segment also
knows which of its characters are misused, and whether a colon waits at its
end.
-/

namespace UsageLine

/-- A stretch of solid characters without closing brackets. -/
structure Segment where
  /-- A colon from before still waits for a second one. -/
  waiting : Bool
  /-- The characters of the segment. -/
  written : List Placed

namespace Segment

/-- All characters but opening brackets. -/
def body (seg : Segment) : List Placed :=
  seg.written.filter fun c => !c.isOpening

/-- The colon that waits meets its second in front of the body. -/
def meets (seg : Segment) : Bool :=
  seg.waiting && (Placed.text seg.body).head? == some ':'

/-- The body without the colon that was met. -/
def own (seg : Segment) : List Placed :=
  if seg.meets then seg.body.tail else seg.body

def nameSide (seg : Segment) : List Placed :=
  seg.own.takeWhile (·.1 != ':')

def kindSide (seg : Segment) : List Placed :=
  seg.own.dropWhile (·.1 != ':')

def doubled (seg : Segment) : Bool :=
  (Placed.text seg.kindSide.tail).head? == some ':'

/-- What stands after the colon or the two colons. -/
def kindWritten (seg : Segment) : List Placed :=
  seg.kindSide.drop (if seg.doubled then 2 else 1)

/-- The colon from before still waits, since nothing of the body is there. -/
def canMeet (seg : Segment) : Bool := seg.waiting && seg.body.isEmpty

/-- A colon waits at the end: the one from before, or the first one where it is
the last character. -/
def leaves (seg : Segment) : Bool :=
  seg.canMeet || seg.kindSide.length == 1

/-! ## Misused marks -/

/-- Square brackets that open after an angle bracket. -/
def nestings (seg : Segment) : List Placed :=
  (seg.written.dropWhile (·.1 != '<')).filter (·.1 == '[')

/-- Bars before the first colon. -/
def strayBars (seg : Segment) : List Placed :=
  seg.nameSide.filter (·.1 == '|')

/-- Colons after the one or two that part the name from the kind. -/
def extraColons (seg : Segment) : List Placed :=
  seg.kindWritten.filter (·.1 == ':')

def misuses (seg : Segment) : List (Misuse × Nat) :=
  seg.nestings.map (fun c => (.optionalInsideRequired, c.2)) ++
    seg.strayBars.map (fun c => (.barOutsideKind, c.2)) ++
    seg.extraColons.map (fun c => (.repeatedColon, c.2))

/-! ## The tag of a segment -/

def required (seg : Segment) : Bool :=
  decide ('<' ∈ Placed.text seg.written)

/-- Two colons met, across the beginning of the segment or inside it. -/
def literal (seg : Segment) : Bool := seg.meets || seg.doubled

/-- Bars part the kind into alternatives. -/
def alternatives (seg : Segment) : List Text :=
  (Placed.text seg.kindWritten).splitOn '|'

/-- All alternatives but the last, if there is a bar. -/
def earlier (seg : Segment) : Option (List Text) :=
  if '|' ∈ Placed.text seg.kindWritten then some seg.alternatives.dropLast
  else none

/-- The last alternative, which is the whole kind where there is no bar. -/
def latest (seg : Segment) : Text := seg.alternatives.getLastD []

/-- The name and the last alternative; where that one is empty the beginning
of the name chooses it. -/
def chosen (seg : Segment) : Text × Text :=
  if seg.latest = [] then
    let named := Tag.ofName seg.required (Placed.text seg.nameSide)
    (named.name, named.kind)
  else (Placed.text seg.nameSide, seg.latest)

def marked (seg : Segment) : Bool := Tag.restMarker.isSuffixOf seg.chosen.2

def unmarked (seg : Segment) : Text :=
  if seg.marked then seg.chosen.2.take (seg.chosen.2.length - Tag.restMarker.length)
  else seg.chosen.2

def tag (seg : Segment) : Tag where
  name := seg.chosen.1
  kind := if seg.earlier.isSome then Tag.optionsKind else seg.unmarked
  required := seg.required
  rest := seg.marked
  options := seg.earlier.map (· ++ [seg.unmarked])
  literal := seg.literal

/-! ## What the parts hold -/

theorem own_sublist (seg : Segment) : seg.own.Sublist seg.written := by
  have body_sublist : seg.body.Sublist seg.written := List.filter_sublist
  unfold own
  split
  · exact (List.tail_sublist _).trans body_sublist
  · exact body_sublist

theorem nameSide_sublist (seg : Segment) : seg.nameSide.Sublist seg.own :=
  List.takeWhile_sublist _

theorem kindSide_sublist (seg : Segment) : seg.kindSide.Sublist seg.own :=
  List.dropWhile_sublist _

theorem kindWritten_sublist (seg : Segment) :
    seg.kindWritten.Sublist seg.own :=
  (List.drop_sublist _ _).trans seg.kindSide_sublist

/-- What begins the name chooses as the reader does. -/
theorem chosen_of_unwritten {seg : Segment} (unwritten : seg.latest = []) :
    seg.chosen = Tag.shorthand (Placed.text seg.nameSide) := by
  rw [chosen, if_pos unwritten, Tag.ofName_eq_shorthand]

theorem chosen_of_written {seg : Segment} (written : seg.latest ≠ []) :
    seg.chosen = (Placed.text seg.nameSide, seg.latest) :=
  if_neg written

theorem exists_of_mem_misuses {seg : Segment} {misuse : Misuse × Nat}
    (found : misuse ∈ seg.misuses) : ∃ c ∈ seg.written, c.2 = misuse.2 := by
  simp only [misuses, List.mem_append, List.mem_map] at found
  rcases found with (⟨c, mem, rfl⟩ | ⟨c, mem, rfl⟩) | ⟨c, mem, rfl⟩
  · have rest := (List.mem_filter.mp mem).1
    exact ⟨c, (List.dropWhile_sublist _).subset rest, rfl⟩
  · have name := (List.mem_filter.mp mem).1
    exact ⟨c, seg.own_sublist.subset (seg.nameSide_sublist.subset name), rfl⟩
  · have kind := (List.mem_filter.mp mem).1
    exact ⟨c, seg.own_sublist.subset (seg.kindWritten_sublist.subset kind), rfl⟩

theorem misuses_eq_nil_iff (seg : Segment) :
    seg.misuses = [] ↔
      seg.nestings = [] ∧ seg.strayBars = [] ∧ seg.extraColons = [] := by
  simp only [misuses, List.append_eq_nil_iff, List.map_eq_nil_iff, and_assoc]

end Segment

end UsageLine

import UsageLine.Proofs.Run

/-!
# The beginnings of a line

What a line is read as tells what its beginnings are read as, and the other way
round.  A beginning of an accepted line has the first of its tags.  A misused
mark is found as soon as it is written, and nothing that follows changes it.  A
misplaced rest marker stays misplaced, unless some mark behind it is misused.
-/

namespace UsageLine

/-- A line that is scanned to its end has closed the tags of its beginning and
one more for each closing bracket behind it. -/
theorem closed_of_beginning {start line : Text} (isStart : start <+: line)
    (through : (scan line).stop = none) :
    (scan start).stop = none ∧
      ∃ more, (scan line).last.closed = (scan start).last.closed ++ more ∧
        more.length = Text.closers (line.drop start.length) := by
  obtain ⟨behind, rfl⟩ := isStart
  cases stopped : (scan start).stop with
  | some stop =>
      rw [scan, Scan.run_append_of_stop stopped, ← scan, stopped] at through
      cases through
  | none =>
      rw [scan, Scan.run_append_of_none stopped] at through ⊢
      rw [List.drop_left]
      exact ⟨rfl, Scan.closed_of_run through⟩

/-- A beginning of an accepted line has one of its tags for each closing
bracket. -/
theorem parse_start_of_ok {start line : Text} {tags : List Tag}
    (isStart : start <+: line) (accepted : parse line = .ok tags) :
    ∃ first, parse start = .ok first ∧ first <+: tags ∧
      first.length = start.closers := by
  obtain ⟨through, placed, rfl⟩ := closed_of_parse accepted
  obtain ⟨through', more, closed, _⟩ := closed_of_beginning isStart through
  have start_closed : (scan start).last.closed <+: (scan line).last.closed :=
    ⟨more, closed.symm⟩
  refine ⟨(scan start).last.closed.map Tag.resolved, ?_,
    start_closed.map Tag.resolved, ?_⟩
  · rw [parse_of_through through', resolve_eq_ok_iff]
    exact ⟨misplacedRest?_eq_none_of_start start_closed placed, rfl⟩
  · rw [List.length_map, length_closed through']

theorem parse_of_start_misused {start line : Text} {what : Misuse}
    {position : Nat} (isStart : start <+: line)
    (refused : parse start = .error (.misused what position)) :
    parse line = .error (.misused what position) := by
  obtain ⟨behind, rfl⟩ := isStart
  rw [parse_eq_misused_iff] at refused ⊢
  rw [scan, Scan.run_append_of_stop refused, ← scan, refused]

theorem parse_ne_of_short {start line : Text} {what : Misuse} {position : Nat}
    (refused : parse line = .error (.misused what position))
    (isStart : start <+: line) (short : start.length ≤ position)
    (other : Misuse) (place : Nat) :
    parse start ≠ .error (.misused other place) := by
  rw [parse_eq_misused_iff] at refused
  obtain ⟨before, after, rfl, rfl, through⟩ := Scan.sign_of_run refused
  rw [Nat.zero_add] at short
  have inside : start <+: before :=
    List.prefix_of_prefix_length_le isStart (List.prefix_append _ _) short
  exact stop_eq_none_iff.mp (closed_of_beginning inside through).1 other place

/-- A misplaced rest marker stays where it is, and the count goes on, unless a
mark behind it is misused. -/
theorem parse_of_start_restNotLast {start line : Text} {index count : Nat}
    (isStart : start <+: line)
    (refused : parse start = .error (.restNotLast index count)) :
    (∃ what position, parse line = .error (.misused what position)) ∨
      parse line = .error (.restNotLast index
        (count + Text.closers (line.drop start.length))) := by
  cases stopped : (scan line).stop with
  | some stop => exact .inl ⟨_, _, parse_eq_misused_iff.mpr stopped⟩
  | none =>
      obtain ⟨through, more, closed, number⟩ :=
        closed_of_beginning isStart stopped
      rw [parse_of_through through, resolve_eq_restNotLast_iff] at refused
      obtain ⟨misplaced, rfl⟩ := refused
      refine .inr ?_
      rw [parse_of_through stopped, resolve_eq_restNotLast_iff, closed,
        List.length_append, number]
      exact ⟨misplacedRest?_of_start (List.prefix_append _ _) misplaced, rfl⟩

/-! ## All beginnings in a row -/

/-- What is known of the reading of a line once one of its beginnings is read:
no tag of it is lost, a misused mark stays, and so does a misplaced rest marker
unless some mark is misused later. -/
structure Foretells (earlier later : Except UsageError (List Tag)) : Prop where
  accepted : ∀ tags, later = .ok tags →
    ∃ first, earlier = .ok first ∧ first <+: tags
  misused : ∀ what position, earlier = .error (.misused what position) →
    later = earlier
  restNotLast : ∀ index count, earlier = .error (.restNotLast index count) →
    (∃ what position, later = .error (.misused what position)) ∨
      ∃ more, later = .error (.restNotLast index (count + more))

theorem foretells_of_start {start line : Text} (isStart : start <+: line) :
    Foretells (parse start) (parse line) where
  accepted := by
    intro tags accepted
    obtain ⟨first, read, isFirst, _⟩ := parse_start_of_ok isStart accepted
    exact ⟨first, read, isFirst⟩
  misused := by
    intro what position refused
    rw [parse_of_start_misused isStart refused, refused]
  restNotLast := by
    intro index count refused
    rcases parse_of_start_restNotLast isStart refused with misused | misplaced
    · exact .inl misused
    · exact .inr ⟨_, misplaced⟩

/-- While a line is being typed, what is read of it foretells what will be. -/
theorem pairwise_parseBeginnings (line : Text) :
    (parseBeginnings line).Pairwise Foretells := by
  rw [parseBeginnings, Text.beginnings, List.map_map, List.pairwise_map]
  refine List.pairwise_lt_range.imp fun {shorter longer} before => ?_
  exact foretells_of_start (List.take_prefix_take_left before.le)

/-- How a line is read and how its beginnings are read go together: a beginning
of an accepted line has the first of its tags; a misused mark of a beginning is
the first one of the line; and a misplaced rest marker of a beginning is one of
the line, if no mark behind it is misused. -/
theorem parse_beginning (start : Text) {line : Text} (isStart : start <+: line) :
    (∀ tags, parse line = .ok tags →
      ∃ first, parse start = .ok first ∧ first <+: tags ∧
        first.length = start.closers) ∧
    (∀ what position, parse start = .error (.misused what position) →
      parse line = .error (.misused what position) ∧
        start[position]? = some what.sign ∧
        ∀ shorter, shorter <+: line → shorter.length ≤ position →
          ∀ other place, parse shorter ≠ .error (.misused other place)) ∧
    ∀ index count, parse start = .error (.restNotLast index count) →
      (∃ what position, parse line = .error (.misused what position)) ∨
        parse line = .error (.restNotLast index
          (count + Text.closers (line.drop start.length))) := by
  refine ⟨?_, ?_, ?_⟩
  · intro tags accepted
    exact parse_start_of_ok isStart accepted
  · intro what position refused
    have refused' := parse_of_start_misused isStart refused
    refine ⟨refused', getElem?_of_stop (parse_eq_misused_iff.mp refused), ?_⟩
    intro shorter isShorter short
    exact parse_ne_of_short refused' isShorter short
  · intro index count refused
    exact parse_of_start_restNotLast isStart refused

/-- `<a:b>[c:d...` leaves its second tag open and has only the first tag of
`<a:b>[c:d...]`.  The bar of `<a|` is misused in `<a|b>` as well.  The marker
that is misplaced in `<a:b...>[c]` is the first of two tags, and in
`<a:b...>[c]]` the first of three. -/
theorem parse_beginning_of_cuts :
    (∃ first, parse ['<', 'a', ':', 'b', '>', '[', 'c', ':', 'd', '.', '.',
        '.'] = .ok first ∧
      first <+: [{ name := ['a'], kind := ['b'], required := true },
        { name := ['c'], kind := ['d'], rest := true }] ∧ first.length = 1) ∧
    parse ['<', 'a', '|', 'b', '>'] = .error (.misused .barOutsideKind 2) ∧
    ((∃ what position, parse ['<', 'a', ':', 'b', '.', '.', '.', '>', '[', 'c',
        ']', ']'] = .error (.misused what position)) ∨
      parse ['<', 'a', ':', 'b', '.', '.', '.', '>', '[', 'c', ']', ']'] =
        .error (.restNotLast 0 3)) := by
  refine ⟨?_, ?_, ?_⟩
  · have laws := parse_beginning ['<', 'a', ':', 'b', '>', '[', 'c', ':', 'd',
      '.', '.', '.'] (List.prefix_append _ [']'])
    exact laws.1 _ rfl
  · have laws := parse_beginning ['<', 'a', '|'] (List.prefix_append _ ['b', '>'])
    exact (laws.2.1 _ _ rfl).1
  · have laws := parse_beginning ['<', 'a', ':', 'b', '.', '.', '.', '>', '[',
      'c', ']'] (List.prefix_append _ [']'])
    exact laws.2.2 0 2 rfl

end UsageLine

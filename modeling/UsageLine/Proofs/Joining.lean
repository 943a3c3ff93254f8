import UsageLine.Proofs.Run

/-!
# Lines in two pieces

A line can be cut at the boundary of two tags.  The second piece is then read
as if it stood alone, but behind the tags of the first one.  Only a colon that
still waits at the cut can reach across it, so such a colon must not be the
first thing that the second piece says.  A rest tag at the end of the first
piece is misplaced once the second piece closes a tag.
-/

namespace UsageLine

/-- The first character of a text that is neither a space nor a bracket. -/
def Text.saidFirst (text : Text) : Option Char :=
  text.find? fun c => c ∉ [' ', '<', '>', '[', ']']

/-! ## Tags that were closed before -/

namespace Scan

/-- The scan behind tags that were closed before. -/
def behind (earlier : List Tag) (s : Scan) : Scan :=
  { s with closed := earlier ++ s.closed }

theorem step_behind (earlier : List Tag) (s : Scan) (mark : Mark) :
    (s.behind earlier).step mark = (s.step mark).map (behind earlier) := by
  cases mark with
  | blank => rfl
  | openRequired => rfl
  | openOptional =>
      cases required : s.current.required <;>
        simp [step, behind, Except.map, required]
  | close => simp [step, close, behind, Except.map]
  | colon =>
      cases pending : s.colonPending <;> cases inKind : s.inKind <;>
        simp [step, behind, Except.map, pending, inKind]
  | bar =>
      cases inKind : s.inKind <;>
        simp [step, nextAlternative, behind, Except.map, inKind]
  | letter c =>
      cases inKind : s.inKind <;> simp [step, write, behind, Except.map, inKind]

end Scan

/-- The result of a run behind tags that were closed before, so many characters
further on. -/
def Scanned.behind (earlier : List Tag) (offset : Nat) (result : Scanned) :
    Scanned where
  last := result.last.behind earlier
  stop := result.stop.map fun (what, position) => (what, position + offset)

namespace Scan

/-- A run behind other tags differs from the run alone by these tags, and by
where it begins. -/
theorem run_behind (earlier : List Tag) (offset : Nat) (s : Scan)
    (position : Nat) (text : Text) :
    (s.behind earlier).run (position + offset) text =
      (s.run position text).behind earlier offset := by
  induction text generalizing s position with
  | nil => rfl
  | cons c rest ih =>
      have step := step_behind earlier s (Mark.ofChar c)
      simp only [run, read, step]
      cases s.step (Mark.ofChar c) with
      | error what => rfl
      | ok next =>
          simp only [Except.map]
          rw [← ih next (position + 1),
            show position + offset + 1 = position + 1 + offset by omega]

/-! ## A colon that is left waiting -/

def calm (s : Scan) : Scan := { s with colonPending := false }

theorem read_calm_of_passing {c : Char} (passing : c ∈ [' ', '<', '>', '[', ']'])
    (s : Scan) : s.calm.read c = (s.read c).map calm := by
  simp only [List.mem_cons, List.not_mem_nil, or_false] at passing
  rcases passing with rfl | rfl | rfl | rfl | rfl
  · rfl
  · rfl
  · rfl
  · cases required : s.current.required <;>
      simp [read, Mark.ofChar, step, calm, Except.map, required]
  · rfl

theorem inKind_of_passing {s next : Scan} {c : Char}
    (passing : c ∈ [' ', '<', '>', '[', ']']) (kindless : s.inKind = false)
    (taken : s.read c = .ok next) : next.inKind = false := by
  simp only [List.mem_cons, List.not_mem_nil, or_false] at passing
  rcases passing with rfl | rfl | rfl | rfl | rfl
  · cases taken
    exact kindless
  · cases taken
    exact kindless
  · cases taken
    rfl
  · cases required : s.current.required <;>
      simp_all [read, Mark.ofChar, step]
  · cases taken
    rfl

theorem read_calm_of_said {s : Scan} (kindless : s.inKind = false) {c : Char}
    (said : c ∉ [' ', '<', '>', '[', ']']) (other : c ≠ ':') :
    s.calm.read c = s.read c := by
  by_cases bar : c = '|'
  · simp [bar, read, Mark.ofChar, step, calm, kindless]
  · have letter : Mark.ofChar c = .letter c := by
      unfold Mark.ofChar
      split <;> simp_all
    simp [read, letter, step, write, calm, kindless]

/-- A waiting colon that is not met first makes no difference to what a run
closes and where it stops. -/
theorem run_calm (s : Scan) (kindless : s.inKind = false) {text : Text}
    (apart : text.saidFirst ≠ some ':') (position : Nat) :
    (s.calm.run position text).stop = (s.run position text).stop ∧
      (s.calm.run position text).last.closed =
        (s.run position text).last.closed := by
  induction text generalizing s position with
  | nil => exact ⟨rfl, rfl⟩
  | cons c rest ih =>
      by_cases passing : c ∈ [' ', '<', '>', '[', ']']
      · have apart' : Text.saidFirst rest ≠ some ':' := by
          rwa [Text.saidFirst, List.find?_cons_of_neg
            (by simpa only [decide_eq_true_eq, not_not] using passing)] at apart
        simp only [run, read_calm_of_passing passing]
        cases taken : s.read c with
        | error what => exact ⟨rfl, rfl⟩
        | ok next =>
            exact ih next (inKind_of_passing passing kindless taken) apart'
              (position + 1)
      · have other : c ≠ ':' := by
          rintro rfl
          exact apart (List.find?_cons_of_pos (by simp))
        simp only [run, read_calm_of_said kindless passing other]
        cases s.read c with
        | error what => exact ⟨rfl, rfl⟩
        | ok next => exact ⟨rfl, rfl⟩

end Scan

/-! ## Both pieces -/

/-- The first piece is scanned to the boundary of two tags, and no colon that
waits there is met by the second piece. -/
structure Parted (first second : Text) : Prop where
  through : (scan first).stop = none
  boundary : (scan first).last.atBoundary = true
  apart : (scan first).last.colonPending = false ∨ second.saidFirst ≠ some ':'

namespace Parted

variable {first second : Text}

/-- The scan of the second piece goes on as if it stood alone. -/
theorem scan_append (parted : Parted first second) :
    (scan (first ++ second)).stop = (scan second).stop.map
        (fun (what, position) => (what, position + first.length)) ∧
      (scan (first ++ second)).last.closed =
        (scan first).last.closed ++ (scan second).last.closed := by
  obtain ⟨through, boundary, apart⟩ := parted
  rw [scan, Scan.run_append_of_none through, ← scan]
  generalize (scan first).last = cut at boundary apart ⊢
  obtain ⟨closed, current, inKind, pending⟩ := cut
  simp only [Scan.atBoundary, Bool.and_eq_true, Bool.not_eq_true',
    beq_iff_eq] at boundary
  obtain ⟨rfl, rfl⟩ := boundary
  have alone : Scan.run ⟨closed, {}, false, false⟩ (0 + first.length) second =
      (scan second).behind closed first.length := by
    rw [scan, ← Scan.run_behind, Scan.behind, List.append_nil]
  -- A colon that waits at the cut is not met, so it may as well not be there.
  have calm : (Scan.run ⟨closed, {}, false, false⟩ (0 + first.length) second).stop =
        (Scan.run ⟨closed, {}, false, pending⟩ (0 + first.length) second).stop ∧
      (Scan.run ⟨closed, {}, false, false⟩ (0 + first.length) second).last.closed =
        (Scan.run ⟨closed, {}, false, pending⟩
          (0 + first.length) second).last.closed := by
    rcases apart with rfl | apart
    · exact ⟨rfl, rfl⟩
    · exact Scan.run_calm ⟨closed, {}, false, pending⟩ rfl apart _
  rw [alone] at calm
  exact ⟨calm.1.symm, calm.2.symm⟩

theorem parse_of_misused (parted : Parted first second) {what : Misuse}
    {position : Nat} (refused : parse second = .error (.misused what position)) :
    parse (first ++ second) =
      .error (.misused what (position + first.length)) := by
  rw [parse_eq_misused_iff] at refused ⊢
  rw [parted.scan_append.1, refused]
  rfl

/-- Where the second piece misuses no mark, the tags of both pieces are resolved
together. -/
theorem parse_of_through (parted : Parted first second)
    (through : (scan second).stop = none) :
    parse (first ++ second) =
      resolve ((scan first).last.closed ++ (scan second).last.closed) := by
  obtain ⟨stop, closed⟩ := parted.scan_append
  rw [through] at stop
  rw [UsageLine.parse_of_through stop, closed]

/-- Behind tags that are no rest tags, the second piece is read as it is alone,
and a misplaced marker is counted with these tags before it. -/
theorem parse_of_noRest (parted : Parted first second) {tags : List Tag}
    (accepted : parse first = .ok tags) (noRest : ∀ tag ∈ tags, tag.rest = false) :
    (∀ more, parse second = .ok more →
      parse (first ++ second) = .ok (tags ++ more)) ∧
    ∀ index count, parse second = .error (.restNotLast index count) →
      parse (first ++ second) = .error
        (.restNotLast (index + tags.length) (count + tags.length)) := by
  obtain ⟨through, _, rfl⟩ := closed_of_parse accepted
  have bare : ∀ tag ∈ (scan first).last.closed, tag.hasRestMarker = false := by
    intro tag mem
    rw [← rest_resolved_of_closed through mem]
    exact noRest _ (List.mem_map_of_mem mem)
  constructor
  · intro more accepted'
    have through' := (closed_of_parse accepted').1
    rw [UsageLine.parse_of_through through'] at accepted'
    rw [parted.parse_of_through through']
    exact (resolve_append_of_bare bare).1 more accepted'
  · intro index count refused
    have through' : (scan second).stop = none := by
      rw [stop_eq_none_iff, refused]
      simp
    rw [UsageLine.parse_of_through through'] at refused
    rw [parted.parse_of_through through', List.length_map]
    exact (resolve_append_of_bare bare).2 index count refused

/-- A rest tag at the end of the first piece must not be followed by a tag of
the second. -/
theorem parse_of_rest (parted : Parted first second) {tags : List Tag}
    (accepted : parse first = .ok tags) {last : Tag}
    (isLast : tags.getLast? = some last) (rest : last.rest = true)
    (through : (scan second).stop = none) :
    parse (first ++ second) =
      if second.closers = 0 then .ok tags
      else .error
        (.restNotLast (tags.length - 1) (tags.length + second.closers)) := by
  obtain ⟨through', placed, rfl⟩ := closed_of_parse accepted
  rw [List.getLast?_map, Option.map_eq_some_iff] at isLast
  obtain ⟨tag, isLast, rfl⟩ := isLast
  have marked : tag.hasRestMarker = true := by
    rw [← rest_resolved_of_closed through' (List.mem_of_getLast? isLast)]
    exact rest
  rw [parted.parse_of_through through, ← length_closed through, List.length_map]
  cases more : (scan second).last.closed with
  | nil =>
      rw [List.append_nil, resolve_eq_ok_iff.mpr ⟨placed, rfl⟩]
      rfl
  | cons next others =>
      rw [resolve_append_of_marked placed isLast marked
        (List.cons_ne_nil next others), if_neg (by simp)]

end Parted

/-- A line of two pieces that are parted at the boundary of two tags is read by
the tags of the first piece and the reading of the second.  A misused mark of
the second piece is found so many characters further on.  Otherwise its tags
follow those of the first piece, unless the last of these is a rest tag, which
must not be followed. -/
theorem parse_append (first second : Text) {tags : List Tag}
    (accepted : parse first = .ok tags)
    (boundary : (scan first).last.atBoundary = true)
    (apart : (scan first).last.colonPending = false ∨
      second.saidFirst ≠ some ':') :
    (∀ what position, parse second = .error (.misused what position) →
      parse (first ++ second) =
        .error (.misused what (position + first.length))) ∧
    ((∀ tag ∈ tags, tag.rest = false) →
      (∀ more, parse second = .ok more →
        parse (first ++ second) = .ok (tags ++ more)) ∧
      ∀ index count, parse second = .error (.restNotLast index count) →
        parse (first ++ second) = .error
          (.restNotLast (index + tags.length) (count + tags.length))) ∧
    ∀ last, tags.getLast? = some last → last.rest = true →
      (∀ what position, parse second ≠ .error (.misused what position)) →
      parse (first ++ second) =
        if second.closers = 0 then .ok tags
        else .error
          (.restNotLast (tags.length - 1) (tags.length + second.closers)) := by
  have parted : Parted first second :=
    ⟨(closed_of_parse accepted).1, boundary, apart⟩
  refine ⟨?_, ?_, ?_⟩
  · intro what position refused
    exact parted.parse_of_misused refused
  · intro noRest
    exact parted.parse_of_noRest accepted noRest
  · intro last isLast rest unstopped
    exact parted.parse_of_rest accepted isLast rest
      (stop_eq_none_iff.mpr unstopped)

/-- The colon of `<a:>` still waits, but `[b:c...]` does not begin with one, so
both are read as alone; the bar of `b|` is misused four characters further on.
`[c]` misplaces the marker of `<a:b...>`. -/
theorem parse_append_of_tags :
    parse (['<', 'a', ':', '>'] ++
        ['[', 'b', ':', 'c', '.', '.', '.', ']']) =
      .ok ([{ name := ['a'], kind := Tag.literalKind, required := true }] ++
        [{ name := ['b'], kind := ['c'], rest := true }]) ∧
    parse (['<', 'a', ':', '>'] ++ ['b', '|']) =
      .error (.misused .barOutsideKind 5) ∧
    parse (['<', 'a', ':', 'b', '.', '.', '.', '>'] ++ ['[', 'c', ']']) =
      .error (.restNotLast 0 2) := by
  have waiting : parse ['<', 'a', ':', '>'] =
      .ok [{ name := ['a'], kind := Tag.literalKind, required := true }] := rfl
  have marked : parse ['<', 'a', ':', 'b', '.', '.', '.', '>'] =
      .ok [{ name := ['a'], kind := ['b'], required := true, rest := true }] :=
    rfl
  refine ⟨?_, ?_, ?_⟩
  · have laws := parse_append _ ['[', 'b', ':', 'c', '.', '.', '.', ']'] waiting
      rfl (.inr (by decide))
    exact (laws.2.1 (by decide)).1 _ rfl
  · have laws := parse_append _ ['b', '|'] waiting rfl (.inr (by decide))
    exact laws.1 _ _ rfl
  · have laws := parse_append _ ['[', 'c', ']'] marked rfl (.inl rfl)
    have unstopped := stop_eq_none_iff.mp
      (show (scan ['[', 'c', ']']).stop = none from rfl)
    exact laws.2.2 _ rfl rfl unstopped

end UsageLine

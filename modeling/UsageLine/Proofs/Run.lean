import UsageLine.Proofs.Resolving

/-!
# Runs

A run only adds to the closed tags, one at each closing bracket.  It is stopped
by one of three signs, and what stands before the sign comes through.  So what
a line is refused for, or how many tags it closes, can be told from its pieces.
-/

namespace UsageLine

def Text.closers (text : Text) : Nat :=
  text.countP fun c => c == '>' || c == ']'

def Misuse.sign : Misuse → Char
  | .optionalInsideRequired => '['
  | .repeatedColon => ':'
  | .barOutsideKind => '|'

namespace Text

theorem closers_append (first second : Text) :
    closers (first ++ second) = closers first + closers second :=
  List.countP_append ..

theorem closers_cons (c : Char) (rest : Text) :
    closers (c :: rest) = closers [c] + closers rest := by
  rw [← List.singleton_append, closers_append]

theorem closers_singleton (c : Char) :
    closers [c] = if Mark.ofChar c = .close then 1 else 0 := by
  unfold Mark.ofChar
  split <;> simp_all [closers]

end Text

namespace Scan

variable {s next : Scan}

/-! ## One step -/

/-- What a step makes of a scan, by the mark that it reads. -/
inductive Takes (s : Scan) : Mark → Scan → Prop
  | blank : Takes s .blank s
  | openRequired :
      Takes s .openRequired
        { s with current := { s.current with required := true } }
  | openOptional (optional : s.current.required = false) :
      Takes s .openOptional s
  | close : Takes s .close s.close
  /-- The second colon of a pair. -/
  | pairing (pending : s.colonPending = true) :
      Takes s .colon
        { s with
          current := { s.current with literal := true }
          colonPending := false }
  /-- The colon that begins the kind. -/
  | beginning (calm : s.colonPending = false) (name : s.inKind = false) :
      Takes s .colon { s with inKind := true, colonPending := true }
  | bar (kind : s.inKind = true) : Takes s .bar s.nextAlternative
  | letter (c : Char) : Takes s (.letter c) (s.write c)

/-- What a step refuses, by the mark that it reads. -/
inductive Refuses (s : Scan) : Mark → Misuse → Prop
  | openOptional (required : s.current.required = true) :
      Refuses s .openOptional .optionalInsideRequired
  | colon (calm : s.colonPending = false) (kind : s.inKind = true) :
      Refuses s .colon .repeatedColon
  | bar (name : s.inKind = false) : Refuses s .bar .barOutsideKind

theorem takes_of_step {mark : Mark} (taken : s.step mark = .ok next) :
    s.Takes mark next := by
  cases mark with
  | blank =>
      cases taken
      exact .blank
  | openRequired =>
      cases taken
      exact .openRequired
  | openOptional =>
      cases required : s.current.required with
      | true => simp [step, required] at taken
      | false =>
          simp only [step, required, Bool.false_eq_true, if_false,
            Except.ok.injEq] at taken
          exact taken ▸ .openOptional required
  | close =>
      cases taken
      exact .close
  | colon =>
      cases pending : s.colonPending with
      | true =>
          simp only [step, pending, if_true, Except.ok.injEq] at taken
          exact taken ▸ .pairing pending
      | false =>
          cases kind : s.inKind with
          | true => simp [step, pending, kind] at taken
          | false =>
              simp only [step, pending, kind, Bool.false_eq_true, if_false,
                Except.ok.injEq] at taken
              exact taken ▸ .beginning pending kind
  | bar =>
      cases kind : s.inKind with
      | true =>
          simp only [step, kind, if_true, Except.ok.injEq] at taken
          exact taken ▸ .bar kind
      | false => simp [step, kind] at taken
  | letter c =>
      cases taken
      exact .letter c

theorem refuses_of_step {mark : Mark} {what : Misuse}
    (refused : s.step mark = .error what) : s.Refuses mark what := by
  cases mark with
  | openOptional =>
      cases required : s.current.required with
      | true =>
          simp only [step, required, if_true, Except.error.injEq] at refused
          exact refused ▸ .openOptional required
      | false => simp [step, required] at refused
  | colon =>
      cases pending : s.colonPending with
      | true => simp [step, pending] at refused
      | false =>
          cases kind : s.inKind with
          | true =>
              simp only [step, pending, kind, Bool.false_eq_true, if_true,
                if_false, Except.error.injEq] at refused
              exact refused ▸ .colon pending kind
          | false => simp [step, pending, kind] at refused
  | bar =>
      cases kind : s.inKind with
      | true => simp [step, kind] at refused
      | false =>
          simp only [step, kind, Bool.false_eq_true, if_false,
            Except.error.injEq] at refused
          exact refused ▸ .bar kind
  | blank => cases refused
  | openRequired => cases refused
  | close => cases refused
  | letter c => cases refused

@[simp] theorem closed_write (s : Scan) (c : Char) :
    (s.write c).closed = s.closed := by
  rw [write]
  split <;> rfl

/-- A step closes the current tag at a closing bracket, and none elsewhere. -/
theorem closed_of_step {mark : Mark} (taken : s.step mark = .ok next) :
    next.closed =
      s.closed ++ if mark = .close then [s.current.classified] else [] := by
  cases takes_of_step taken with
  | close => rfl
  | blank => simp
  | openRequired => simp
  | openOptional => simp
  | pairing => simp
  | beginning => simp
  | bar => simp [nextAlternative]
  | letter c => simp

theorem mark_of_step {mark : Mark} {what : Misuse}
    (refused : s.step mark = .error what) : mark = Mark.ofChar what.sign := by
  cases refuses_of_step refused with
  | openOptional => rfl
  | colon => rfl
  | bar => rfl

theorem sign_of_read {c : Char} {what : Misuse}
    (refused : s.read c = .error what) : c = what.sign := by
  have mark := mark_of_step refused
  cases what <;> unfold Mark.ofChar at mark <;> split at mark <;>
    simp_all [Misuse.sign]

/-! ## Whole runs -/

theorem run_append_of_stop {position : Nat} {first : Text}
    {stop : Misuse × Nat} (stopped : (s.run position first).stop = some stop)
    (second : Text) : s.run position (first ++ second) = s.run position first := by
  rw [run_append, stopped]

theorem run_append_of_none {position : Nat} {first : Text}
    (through : (s.run position first).stop = none) (second : Text) :
    s.run position (first ++ second) =
      (s.run position first).last.run (position + first.length) second := by
  rw [run_append, through]

/-- A run that comes through closes one more tag at each closing bracket. -/
theorem closed_of_run {position : Nat} {text : Text}
    (through : (s.run position text).stop = none) :
    ∃ more, (s.run position text).last.closed = s.closed ++ more ∧
      more.length = text.closers := by
  induction text generalizing s position with
  | nil => exact ⟨[], by simp [run], rfl⟩
  | cons c rest ih =>
      cases taken : s.read c with
      | error what => simp [run, taken] at through
      | ok next =>
          simp only [run, taken] at through ⊢
          obtain ⟨more, closed, count⟩ := ih through
          rw [closed, closed_of_step taken, List.append_assoc]
          refine ⟨_, rfl, ?_⟩
          rw [Text.closers_cons, Text.closers_singleton, List.length_append, count]
          split <;> rfl

/-- A run is stopped at a sign of misuse, and comes through all that stands
before it. -/
theorem sign_of_run {position place : Nat} {text : Text} {what : Misuse}
    (stopped : (s.run position text).stop = some (what, place)) :
    ∃ before after, text = before ++ what.sign :: after ∧
      place = position + before.length ∧
      (s.run position before).stop = none := by
  induction text generalizing s position with
  | nil => cases stopped
  | cons c rest ih =>
      cases taken : s.read c with
      | error other =>
          simp only [run, taken, Option.some.injEq, Prod.mk.injEq] at stopped
          obtain ⟨rfl, rfl⟩ := stopped
          exact ⟨[], rest, by rw [sign_of_read taken]; rfl, rfl, rfl⟩
      | ok next =>
          simp only [run, taken] at stopped
          obtain ⟨before, after, rfl, rfl, through⟩ := ih stopped
          refine ⟨c :: before, after, rfl, ?_, ?_⟩
          · simp only [List.length_cons]
            omega
          · simpa only [run, taken] using through

end Scan

/-! ## Lines by their scan -/

theorem parse_eq_misused_iff {line : Text} {what : Misuse} {position : Nat} :
    parse line = .error (.misused what position) ↔
      (scan line).stop = some (what, position) := by
  rw [parse, Scanned.tags]
  cases (scan line).stop with
  | some stop =>
      obtain ⟨other, place⟩ := stop
      simp [Except.bind]
  | none =>
      rw [show Except.bind (.ok _) resolve = resolve _ from rfl, resolve_eq]
      split <;> simp

theorem parse_of_through {line : Text} (through : (scan line).stop = none) :
    parse line = resolve (scan line).last.closed := by
  rw [parse, Scanned.tags, through]
  rfl

theorem stop_eq_none_iff {line : Text} :
    (scan line).stop = none ↔
      ∀ what position, parse line ≠ .error (.misused what position) := by
  simp only [ne_eq, parse_eq_misused_iff]
  cases (scan line).stop with
  | none => simp
  | some stop =>
      obtain ⟨other, place⟩ := stop
      simp

theorem getElem?_of_stop {text : Text} {what : Misuse} {position : Nat}
    (stopped : (scan text).stop = some (what, position)) :
    text[position]? = some what.sign := by
  obtain ⟨before, after, rfl, rfl, _⟩ := Scan.sign_of_run stopped
  simp

theorem length_closed {line : Text} (through : (scan line).stop = none) :
    (scan line).last.closed.length = line.closers := by
  obtain ⟨more, closed, count⟩ := Scan.closed_of_run through
  rw [scan, closed, List.nil_append, count]

theorem closed_eq_rawTags {line : Text} (through : (scan line).stop = none) :
    (scan line).last.closed = Segment.rawTags (Text.segments line) := by
  have tags := scan_tags line
  rw [Scanned.tags, through] at tags
  cases found : earliest (Text.misuses line) with
  | some misuse =>
      rw [found] at tags
      cases tags
  | none =>
      rw [found] at tags
      exact Except.ok.inj tags

/-- A closed tag becomes a rest tag exactly if it carries the rest marker. -/
theorem rest_resolved_of_closed {line : Text} (through : (scan line).stop = none)
    {tag : Tag} (mem : tag ∈ (scan line).last.closed) :
    tag.resolved.rest = tag.hasRestMarker := by
  rw [closed_eq_rawTags through, Segment.rawTags] at mem
  obtain ⟨seg, _, rfl⟩ := List.mem_map.mp mem
  rw [Segment.resolved_classified_rawTag, Segment.hasRestMarker_classified_rawTag]
  rfl

/-- An accepted line is scanned to its end, no marker is misplaced, and its tags
are the closed ones, resolved. -/
theorem closed_of_parse {line : Text} {tags : List Tag}
    (accepted : parse line = .ok tags) :
    (scan line).stop = none ∧ misplacedRest? (scan line).last.closed = none ∧
      (scan line).last.closed.map Tag.resolved = tags := by
  have through : (scan line).stop = none := by
    rw [stop_eq_none_iff, accepted]
    simp
  rw [parse_of_through through, resolve_eq_ok_iff] at accepted
  exact ⟨through, accepted⟩

end UsageLine

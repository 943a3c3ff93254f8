import UsageLine.Proofs.Segment.Alternatives
import UsageLine.Proofs.Segment.Misuses
import Mathlib.Data.List.Induction

/-!
# Scanning a segment

What a scan holds at the end of a segment is a function of the segment: the
tags closed before, the tag the segment has written so far, whether a colon is
there, and whether one waits.  One more character takes that scan to the one of
the grown segment, or stops it if the character is misused.  So the scan of a
segment stops at its first misuse, and comes through if there is none.
-/

namespace UsageLine.Segment

/-- The tag as it is written so far, before its kind is chosen or resolved. -/
def rawTag (seg : Segment) : Tag where
  name := Placed.text seg.nameSide
  kind := seg.latest
  required := seg.required
  options := seg.earlier
  literal := seg.literal

/-- What a scan holds at the end of a segment. -/
def scanAfter (seg : Segment) (closed : List Tag) : Scan where
  closed := closed
  current := seg.rawTag
  inKind := !seg.kindSide.isEmpty
  colonPending := seg.leaves

/-- What one more character makes of that scan. -/
def outcome (seg : Segment) (closed : List Tag) (c : Placed) :
    Except Misuse Scan :=
  match seg.verdict c with
  | some what => .error what
  | none => .ok ((seg.grow c).scanAfter closed)

theorem outcome_of_some {seg : Segment} {c : Placed} {what : Misuse}
    (misused : seg.verdict c = some what) (closed : List Tag) :
    seg.outcome closed c = .error what := by
  rw [outcome, misused]

theorem outcome_of_none {seg : Segment} {c : Placed}
    (free : seg.verdict c = none) (closed : List Tag) :
    seg.outcome closed c = .ok ((seg.grow c).scanAfter closed) := by
  rw [outcome, free]

theorem scanAfter_nil (waiting : Bool) (closed : List Tag) :
    scanAfter ⟨waiting, []⟩ closed =
      { closed := closed, colonPending := waiting } := by
  cases waiting <;> rfl

theorem ofChar_letter {c : Placed} (solid : c.isSolid = true)
    (unclosing : c.isClosing = false) (inside : c.isOpening = false)
    (colon : c.1 ≠ ':') (bar : c.1 ≠ '|') : Mark.ofChar c.1 = .letter c.1 := by
  simp only [Placed.isSolid, Placed.isClosing, Placed.isOpening, bne_iff_ne,
    Bool.or_eq_false_iff, beq_eq_false_iff_ne] at solid unclosing inside
  unfold Mark.ofChar
  split <;> simp_all

/-! ## One more character -/

theorem read_bracket {seg : Segment} {c : Placed}
    (opening : c.isOpening = true) (closed : List Tag)
    (canMeet : (seg.grow c).canMeet = seg.canMeet)
    (meets : (seg.grow c).meets = seg.meets)
    (name : (seg.grow c).nameSide = seg.nameSide)
    (kind : (seg.grow c).kindSide = seg.kindSide) :
    (seg.scanAfter closed).read c.1 = seg.outcome closed c := by
  obtain ⟨doubled, written⟩ := kind_of_kindSide kind
  obtain ⟨earlier, latest⟩ := alternatives_of_kindWritten written
  have same (required : (seg.grow c).required = seg.required) :
      (seg.grow c).scanAfter closed = seg.scanAfter closed := by
    simp only [scanAfter, rawTag, literal, leaves, canMeet, meets, name, kind,
      doubled, earlier, latest, required]
  simp only [Placed.isOpening, Bool.or_eq_true, beq_iff_eq] at opening
  rcases opening with angle | square
  · have required : (seg.grow c).required = true := by
      simp [required, grow, angle]
    rw [outcome_of_none (verdict_of_other (by simp [angle]) (by simp [angle])
      (by simp [angle])), angle]
    simp only [Scan.read, Mark.ofChar, Scan.step, scanAfter, rawTag, literal,
      leaves, canMeet, meets, name, kind, doubled, earlier, latest, required]
  · have unchanged : (seg.grow c).required = seg.required := by
      simp [required, grow, square]
    rw [outcome, verdict_of_nest square, square]
    cases required : seg.required with
    | true => simp [Scan.read, Mark.ofChar, Scan.step, scanAfter, rawTag, required]
    | false =>
        simp [Scan.read, Mark.ofChar, Scan.step, same unchanged]
        simp [scanAfter, rawTag, required]

theorem required_grow {c : Placed} (inside : c.isOpening = false)
    (seg : Segment) : (seg.grow c).required = seg.required := by
  have other : '<' ≠ c.1 := by
    rintro angle
    simp [Placed.isOpening, ← angle] at inside
  simp [required, grow, other]

theorem read_colon {seg : Segment} {c : Placed} (colon : c.1 = ':')
    (closed : List Tag) :
    (seg.scanAfter closed).read c.1 = seg.outcome closed c := by
  have inside : c.isOpening = false := by simp [Placed.isOpening, colon]
  have required := required_grow inside seg
  rw [outcome, verdict_of_colon colon]
  cases seg.growth c with
  | bracket opening => simp [inside] at opening
  | naming _ other => exact absurd colon other
  | meeting _ ready canMeet unmet meets name side kind =>
      obtain ⟨doubled, doubled', earlier, latest⟩ :=
        unwritten_parts (.inl side) (.inl kind)
      simp [colon, Scan.read, Mark.ofChar, Scan.step, scanAfter, rawTag, leaves,
        literal, ready, canMeet, meets, name, side, kind, doubled',
        earlier, latest, required]
  | beginning _ notMet canMeet meets name side kind =>
      obtain ⟨doubled, doubled', earlier, latest⟩ :=
        unwritten_parts (.inl side) (.inr ⟨c, kind⟩)
      simp [colon, Scan.read, Mark.ofChar, Scan.step, scanAfter, rawTag, leaves,
        literal, notMet, canMeet, meets, name, side, kind, doubled, doubled',
        earlier, latest, required]
  | doubling _ canMeet meets name first side kind =>
      obtain ⟨doubled, written⟩ := kindWritten_of_kindSide (.inr ⟨first, side⟩)
      have double : (seg.grow c).doubled = true := by
        simp [Segment.doubled, kind, colon]
      have written' : (seg.grow c).kindWritten = [] := by
        simp [kindWritten, double, kind]
      obtain ⟨earlier, latest⟩ :=
        alternatives_of_kindWritten (written'.trans written.symm)
      simp [colon, Scan.read, Mark.ofChar, Scan.step, scanAfter, rawTag, leaves,
        literal, canMeet, meets, name, side, kind, double, earlier, latest,
        required]
  | writing _ canMeet meets name side other kind doubled written =>
      have begun : 0 < seg.kindSide.length := List.length_pos_iff.mpr side
      have more : seg.kindSide.length ≠ 1 := fun one => other one colon
      have long : 2 ≤ seg.kindSide.length := by omega
      have pending : seg.leaves = false := by
        simp [leaves, canMeet_of_kindSide side, more]
      simp [colon, Scan.read, Mark.ofChar, Scan.step, scanAfter, pending, side,
        long]

theorem read_bar {seg : Segment} {c : Placed} (bar : c.1 = '|')
    (closed : List Tag) :
    (seg.scanAfter closed).read c.1 = seg.outcome closed c := by
  have inside : c.isOpening = false := by simp [Placed.isOpening, bar]
  have required := required_grow inside seg
  rw [outcome, verdict_of_bar bar]
  cases seg.growth c with
  | bracket opening => simp [inside] at opening
  | meeting colon => simp [bar] at colon
  | beginning colon => simp [bar] at colon
  | doubling colon => simp [bar] at colon
  | naming _ other canMeet meets name side kind =>
      simp [bar, Scan.read, Mark.ofChar, Scan.step, scanAfter, side]
  | writing _ canMeet meets name side other kind doubled written =>
      obtain ⟨earlier, latest⟩ := alternatives_grow_bar written bar
      have begun : seg.kindSide.isEmpty = false := by simpa using side
      simp [bar, Scan.read, Mark.ofChar, Scan.step, Scan.nextAlternative,
        scanAfter, rawTag, leaves, literal, canMeet, meets, name, side, begun,
        kind, doubled, earlier, latest, required, earlier_append_latest]

theorem read_letter {seg : Segment} {c : Placed}
    (inside : c.isOpening = false) (colon : c.1 ≠ ':') (bar : c.1 ≠ '|')
    (letter : Mark.ofChar c.1 = .letter c.1) (closed : List Tag) :
    (seg.scanAfter closed).read c.1 = .ok ((seg.grow c).scanAfter closed) := by
  have required := required_grow inside seg
  rw [Scan.read, letter]
  cases seg.growth c with
  | bracket opening => simp [inside] at opening
  | meeting other => exact absurd other colon
  | beginning other => exact absurd other colon
  | doubling other => exact absurd other colon
  | naming _ other canMeet meets name side kind =>
      obtain ⟨doubled, doubled', earlier, latest⟩ :=
        unwritten_parts (.inl side) (.inl kind)
      simp [Scan.step, Scan.write, scanAfter, rawTag, leaves, literal, canMeet,
        meets, name, side, kind, doubled, doubled', earlier, latest, required]
  | writing _ canMeet meets name side other kind doubled written =>
      obtain ⟨earlier, latest⟩ := alternatives_grow_letter written bar
      have begun : seg.kindSide.isEmpty = false := by simpa using side
      simp [Scan.step, Scan.write, scanAfter, rawTag, leaves, literal, canMeet,
        meets, name, side, begun,
        kind, doubled, earlier, latest, required]

/-- One more character takes the scan to that of the grown segment, or stops it
if the character is misused. -/
theorem read_scanAfter (seg : Segment) {c : Placed} (solid : c.isSolid = true)
    (unclosing : c.isClosing = false) (closed : List Tag) :
    (seg.scanAfter closed).read c.1 = seg.outcome closed c := by
  by_cases opening : c.isOpening = true
  · cases seg.growth c with
    | bracket _ canMeet meets name kind =>
        exact read_bracket opening closed canMeet meets name kind
    | meeting colon => simp [Placed.isOpening, colon] at opening
    | naming inside => simp [inside] at opening
    | beginning colon => simp [Placed.isOpening, colon] at opening
    | doubling colon => simp [Placed.isOpening, colon] at opening
    | writing inside => simp [inside] at opening
  by_cases colon : c.1 = ':'
  · exact read_colon colon closed
  by_cases bar : c.1 = '|'
  · exact read_bar bar closed
  have inside : c.isOpening = false := Bool.eq_false_iff.mpr opening
  have square : c.1 ≠ '[' := by
    rintro square
    simp [Placed.isOpening, square] at inside
  rw [outcome_of_none (verdict_of_other square bar colon)]
  exact read_letter inside colon bar
    (ofChar_letter solid unclosing inside colon bar) closed

/-! ## The whole segment -/

/-- The characters of a segment are neither spaces nor closing brackets. -/
def Proper (seg : Segment) : Prop :=
  ∀ c ∈ seg.written, c.isSolid = true ∧ c.isClosing = false

theorem misuses_nil (waiting : Bool) : misuses ⟨waiting, []⟩ = [] := by
  cases waiting <;> rfl

/-- A misuse that leads the others still leads them when the segment grows,
since the new character stands behind. -/
theorem leads_grow {seg : Segment} {c : Placed} {first : Misuse × Nat}
    (leads : Leads first seg.misuses)
    (behind : ∀ d ∈ seg.written, d.2 < c.2) :
    Leads first (seg.grow c).misuses := by
  refine ⟨mem_misuses_grow.mpr (.inl leads.1), ?_⟩
  intro other found
  rcases mem_misuses_grow.mp found with old | ⟨what, _, rfl⟩
  · exact leads.2 other old
  · obtain ⟨d, mem, place⟩ := exists_of_mem_misuses leads.1
    exact .inr (place ▸ behind d mem)

/-- The first misuse leads, since nothing stood before it. -/
theorem leads_of_verdict {seg : Segment} {c : Placed} {what : Misuse}
    (clean : seg.misuses = []) (misused : seg.verdict c = some what) :
    Leads (what, c.2) (seg.grow c).misuses := by
  constructor
  · exact mem_misuses_grow.mpr (.inr ⟨what, misused, rfl⟩)
  · intro other found
    rcases mem_misuses_grow.mp found with old | ⟨what', same, rfl⟩
    · rw [clean] at old
      cases old
    · rw [misused] at same
      exact .inl (by rw [Option.some.inj same])

theorem misuses_grow_of_free {seg : Segment} {c : Placed}
    (clean : seg.misuses = []) (free : seg.verdict c = none) :
    (seg.grow c).misuses = [] := by
  apply List.eq_nil_iff_forall_not_mem.mpr
  intro other found
  rcases mem_misuses_grow.mp found with old | ⟨what, same, _⟩
  · rw [clean] at old
    cases old
  · rw [free] at same
    cases same

/-- The scan of a segment stops at the misuse that leads all others, and comes
through where there is none. -/
theorem follow_written {seg : Segment} (proper : seg.Proper)
    (rising : Placed.Rising seg.written) (closed : List Tag) :
    (∃ part first, Leads first seg.misuses ∧
      Scan.follow { closed := closed, colonPending := seg.waiting }
        seg.written = { last := scanAfter part closed, stop := some first }) ∨
    (seg.misuses = [] ∧
      Scan.follow { closed := closed, colonPending := seg.waiting }
        seg.written = { last := seg.scanAfter closed }) := by
  obtain ⟨waiting, written⟩ := seg
  -- The scan is a function of what was read, so the segment grows at its end.
  induction written using List.reverseRecOn with
  | nil => exact .inr ⟨misuses_nil waiting, by rw [scanAfter_nil]; rfl⟩
  | append_singleton before c ih =>
      have grown : (⟨waiting, before ++ [c]⟩ : Segment) =
        grow ⟨waiting, before⟩ c := rfl
      rw [grown]
      have rising' := List.pairwise_append.mp rising
      have behind : ∀ d ∈ before, d.2 < c.2 := fun d mem =>
        rising'.2.2 d mem c (List.mem_singleton_self c)
      have proper' : Proper ⟨waiting, before⟩ := fun d mem =>
        proper d (List.mem_append_left _ mem)
      obtain ⟨solid, unclosing⟩ := proper c (by simp)
      rcases ih proper' rising'.1 with
        ⟨part, first, leads, stopped⟩ | ⟨clean, through⟩
      · refine .inl ⟨part, first, leads_grow leads behind, ?_⟩
        have stop := congrArg Scanned.stop stopped
        exact (Scan.follow_append_of_stop stop [c]).trans stopped
      · have step := read_scanAfter ⟨waiting, before⟩ solid unclosing closed
        have split := Scan.follow_append_of_last through [c]
        cases verdict : verdict ⟨waiting, before⟩ c with
        | some what =>
            rw [outcome_of_some verdict] at step
            exact .inl ⟨⟨waiting, before⟩, (what, c.2),
              leads_of_verdict clean verdict,
              split.trans (Scan.follow_of_error step [])⟩
        | none =>
            rw [outcome_of_none verdict] at step
            exact .inr ⟨misuses_grow_of_free clean verdict,
              split.trans (Scan.follow_of_ok step [])⟩

theorem read_closing (seg : Segment) {c : Placed} (closing : c.isClosing = true)
    (closed : List Tag) :
    (seg.scanAfter closed).read c.1 =
      .ok { closed := closed ++ [seg.rawTag.classified]
            colonPending := seg.leaves } := by
  simp only [Placed.isClosing, Bool.or_eq_true, beq_iff_eq] at closing
  rcases closing with angle | square
  · rw [angle]
    rfl
  · rw [square]
    rfl

/-- A segment without misuses is closed, and what it leaves waiting goes over
to the next one. -/
theorem follow_closed {seg : Segment} {closed : List Tag}
    (through : Scan.follow { closed := closed, colonPending := seg.waiting }
      seg.written = { last := seg.scanAfter closed })
    {c : Placed} (closing : c.isClosing = true) (rest : List Placed) :
    Scan.follow { closed := closed, colonPending := seg.waiting }
        (seg.written ++ c :: rest) =
      Scan.follow { closed := closed ++ [seg.rawTag.classified]
                    colonPending := seg.leaves } rest := by
  rw [Scan.follow_append_of_last through,
    Scan.follow_of_ok (seg.read_closing closing closed)]

end UsageLine.Segment

import UsageLine.Proofs.Segment.Growth

/-!
# Misuses in a segment that grows

A character is misused for what stands before it in its segment alone.  So a
segment that grows keeps its misuses and gains at most the one of the new
character.
-/

namespace UsageLine.Segment

/-- The misuse that one more character would be. -/
def verdict (seg : Segment) (c : Placed) : Option Misuse :=
  match c.1 with
  | '[' => if seg.required then some .optionalInsideRequired else none
  | '|' => if seg.kindSide.isEmpty then some .barOutsideKind else none
  | ':' => if 2 ≤ seg.kindSide.length then some .repeatedColon else none
  | _ => none

theorem verdict_of_nest {seg : Segment} {c : Placed} (nest : c.1 = '[') :
    seg.verdict c =
      if seg.required then some .optionalInsideRequired else none := by
  rw [verdict, nest]
  rfl

theorem verdict_of_bar {seg : Segment} {c : Placed} (bar : c.1 = '|') :
    seg.verdict c =
      if seg.kindSide.isEmpty then some .barOutsideKind else none := by
  rw [verdict, bar]
  rfl

theorem verdict_of_colon {seg : Segment} {c : Placed} (colon : c.1 = ':') :
    seg.verdict c =
      if 2 ≤ seg.kindSide.length then some .repeatedColon else none := by
  rw [verdict, colon]
  rfl

theorem verdict_of_other {seg : Segment} {c : Placed} (nest : c.1 ≠ '[')
    (bar : c.1 ≠ '|') (colon : c.1 ≠ ':') : seg.verdict c = none := by
  rw [verdict]
  split <;> simp_all

/-! ## The three sorts -/

theorem required_iff {seg : Segment} :
    seg.required = true ↔ ∃ c ∈ seg.written, c.1 = '<' := by
  rw [required, decide_eq_true_iff, Placed.text, List.mem_map]

theorem nestings_grow (seg : Segment) (c : Placed) :
    (seg.grow c).nestings =
      seg.nestings ++ if seg.required = true ∧ c.1 = '[' then [c] else [] := by
  simp only [nestings, grow, List.dropWhile_append]
  by_cases required : seg.required = true
  · have kept : (seg.written.dropWhile (·.1 != '<')).isEmpty = false := by
      obtain ⟨d, mem, angle⟩ := required_iff.mp required
      rw [Bool.eq_false_iff, ne_eq, List.isEmpty_iff,
        List.dropWhile_eq_nil_iff]
      exact fun none_angle => by simpa [angle] using none_angle d mem
    by_cases square : c.1 = '[' <;> simp [kept, required, square]
  · have dropped : seg.written.dropWhile (·.1 != '<') = [] := by
      rw [List.dropWhile_eq_nil_iff]
      intro d mem
      exact bne_iff_ne.mpr fun angle =>
        required (required_iff.mpr ⟨d, mem, angle⟩)
    by_cases angle : c.1 = '<' <;> simp [dropped, required, angle]

theorem strayBars_grow (seg : Segment) (c : Placed) :
    (seg.grow c).strayBars =
      seg.strayBars ++
        if seg.kindSide = [] ∧ c.1 = '|' then [c] else [] := by
  simp only [strayBars]
  cases seg.growth c with
  | bracket opening canMeet meets name kind =>
      have other : c.1 ≠ '|' := by
        intro bar
        simp [Placed.isOpening, bar] at opening
      simp [name, other]
  | meeting colon ready canMeet unmet meets name side kind =>
      simp [name, colon]
  | naming inside other canMeet meets name side kind =>
      by_cases bar : c.1 = '|' <;> simp [name, side, bar]
  | beginning colon closed canMeet meets name side kind =>
      simp [name, colon]
  | doubling colon canMeet meets name first side kind =>
      simp [name, side]
  | writing inside canMeet meets name side other kind doubled written =>
      simp [name, side]

theorem extraColons_grow (seg : Segment) (c : Placed) :
    (seg.grow c).extraColons =
      seg.extraColons ++
        if 2 ≤ seg.kindSide.length ∧ c.1 = ':' then [c] else [] := by
  simp only [extraColons]
  cases seg.growth c with
  | bracket opening canMeet meets name kind =>
      have other : c.1 ≠ ':' := by
        intro colon
        simp [Placed.isOpening, colon] at opening
      simp [(kind_of_kindSide kind).2, other]
  | meeting colon ready canMeet unmet meets name side kind =>
      simp [kindWritten, kind, side]
  | naming inside other canMeet meets name side kind =>
      simp [kindWritten, kind, side]
  | beginning colon closed canMeet meets name side kind =>
      simp [kindWritten, kind, side, doubled]
  | doubling colon canMeet meets name first side kind =>
      simp [kindWritten, kind, side, doubled, colon]
  | writing inside canMeet meets name side other kind doubled written =>
      have begun : 0 < seg.kindSide.length := List.length_pos_iff.mpr side
      by_cases colon : c.1 = ':'
      · have long : 2 ≤ seg.kindSide.length := by
          have more : seg.kindSide.length ≠ 1 := fun one => other one colon
          omega
        simp [written, colon, long]
      · simp [written, colon]

/-- A segment that grows gains the misuse of the new character. -/
theorem mem_misuses_grow {seg : Segment} {c : Placed}
    {misuse : Misuse × Nat} :
    misuse ∈ (seg.grow c).misuses ↔
      misuse ∈ seg.misuses ∨
        ∃ what, seg.verdict c = some what ∧ misuse = (what, c.2) := by
  simp only [misuses, nestings_grow, strayBars_grow, extraColons_grow,
    List.map_append, List.mem_append]
  by_cases nest : c.1 = '['
  · rw [verdict_of_nest nest]
    cases required : seg.required with
    | true => simp [nest]; grind
    | false => simp [nest]
  by_cases bar : c.1 = '|'
  · rw [verdict_of_bar bar]
    by_cases side : seg.kindSide = []
    · simp [bar, side]; grind
    · simp [bar, side]
  by_cases colon : c.1 = ':'
  · rw [verdict_of_colon colon]
    by_cases long : 2 ≤ seg.kindSide.length
    · simp [colon, long]; grind
    · simp [colon, long]
  · simp [verdict_of_other nest bar colon, nest, bar, colon]

end UsageLine.Segment

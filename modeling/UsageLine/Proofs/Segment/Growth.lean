import UsageLine.Proofs.Segment
import Mathlib.Data.List.TakeWhile

/-!
# Segments that grow

A segment grows by one character at its end.  The character is an opening
bracket, or it is the second colon of a pair that began before the segment, or
it is added to what the segment says itself.  What each sort of character adds
to the parts of the segment is said here once.
-/

namespace UsageLine.Segment

def grow (seg : Segment) (c : Placed) : Segment :=
  { seg with written := seg.written ++ [c] }

/-! ## The body and what is left of it -/

theorem body_grow_of_isOpening {c : Placed} (opening : c.isOpening = true)
    (seg : Segment) : (seg.grow c).body = seg.body := by
  simp [grow, body, opening]

theorem body_grow {c : Placed} (inside : c.isOpening = false)
    (seg : Segment) : (seg.grow c).body = seg.body ++ [c] := by
  simp [grow, body, inside]

theorem meets_grow_of_isOpening {c : Placed} (opening : c.isOpening = true)
    (seg : Segment) : (seg.grow c).meets = seg.meets := by
  rw [meets, body_grow_of_isOpening opening]
  rfl

theorem own_grow_of_isOpening {c : Placed} (opening : c.isOpening = true)
    (seg : Segment) : (seg.grow c).own = seg.own := by
  rw [own, meets_grow_of_isOpening opening, body_grow_of_isOpening opening]
  rfl

theorem meets_of_canMeet {seg : Segment} (ready : seg.canMeet = true) :
    seg.meets = false := by
  have empty : seg.body = [] := by
    simp only [canMeet, Bool.and_eq_true, List.isEmpty_iff] at ready
    exact ready.2
  simp [meets, empty]

theorem own_of_canMeet {seg : Segment} (ready : seg.canMeet = true) :
    seg.own = [] := by
  have empty : seg.body = [] := by
    simp only [canMeet, Bool.and_eq_true, List.isEmpty_iff] at ready
    exact ready.2
  simp [own, empty]

/-- Once the kind has begun, no colon from before can be met. -/
theorem canMeet_of_kindSide {seg : Segment} (kind : seg.kindSide ≠ []) :
    seg.canMeet = false := by
  refine Bool.eq_false_iff.mpr fun ready => kind ?_
  rw [kindSide, own_of_canMeet ready]
  rfl

/-- The second colon of a pair is taken, and nothing else is added. -/
theorem meets_grow_of_canMeet {seg : Segment} (ready : seg.canMeet = true)
    {c : Placed} (colon : c.1 = ':') :
    (seg.grow c).meets = true ∧ (seg.grow c).own = [] := by
  have inside : c.isOpening = false := by simp [Placed.isOpening, colon]
  simp only [canMeet, Bool.and_eq_true, List.isEmpty_iff] at ready
  have met : (seg.grow c).meets = true := by
    rw [meets, body_grow inside, ready.2]
    simp [grow, ready.1, colon]
  refine ⟨met, ?_⟩
  rw [own, if_pos met, body_grow inside, ready.2]
  rfl

/-- Any other character is added to what the segment says itself. -/
theorem own_grow {seg : Segment} {c : Placed} (inside : c.isOpening = false)
    (single : seg.canMeet = true → c.1 ≠ ':') :
    (seg.grow c).meets = seg.meets ∧ (seg.grow c).own = seg.own ++ [c] := by
  have body_eq := body_grow inside seg
  cases body_nil : seg.body with
  | nil =>
      rw [body_nil, List.nil_append] at body_eq
      have unmet : (seg.grow c).meets = false := by
        rw [meets, body_eq]
        cases waiting : seg.waiting with
        | false => simp [grow, waiting]
        | true =>
            have other := single (by simp [canMeet, waiting, body_nil])
            simp [other]
      have unmet_before : seg.meets = false := by simp [meets, body_nil]
      refine ⟨unmet.trans unmet_before.symm, ?_⟩
      simp [own, unmet, unmet_before, body_eq, body_nil]
  | cons first rest =>
      rw [body_nil] at body_eq
      have same : (seg.grow c).meets = seg.meets := by
        simp only [meets, body_eq, body_nil, List.cons_append,
          Placed.text_cons, List.head?_cons]
        rfl
      refine ⟨same, ?_⟩
      rw [own, own, same, body_eq, body_nil]
      split <;> rfl

/-! ## The name and the kind -/

theorem sides_of_own {seg other : Segment} (same : other.own = seg.own) :
    other.nameSide = seg.nameSide ∧ other.kindSide = seg.kindSide := by
  simp only [nameSide, kindSide, same, and_self]

theorem kind_of_kindSide {seg other : Segment}
    (same : other.kindSide = seg.kindSide) :
    other.doubled = seg.doubled ∧ other.kindWritten = seg.kindWritten := by
  have double : other.doubled = seg.doubled := by rw [doubled, same, doubled]
  exact ⟨double, by rw [kindWritten, double, same, kindWritten]⟩

theorem kindSide_eq_nil_iff {seg : Segment} :
    seg.kindSide = [] ↔ ':' ∉ Placed.text seg.own := by
  rw [kindSide, List.dropWhile_eq_nil_iff]
  simp only [Placed.text, List.mem_map, not_exists, not_and, bne_iff_ne]

theorem nameSide_of_kindSide {seg : Segment} (name : seg.kindSide = []) :
    seg.nameSide = seg.own := by
  have whole := List.takeWhile_append_dropWhile (p := (·.1 != ':')) (l := seg.own)
  rw [show seg.own.dropWhile (·.1 != ':') = [] from name,
    List.append_nil] at whole
  exact whole

theorem sides_grow_name {seg : Segment} {c : Placed}
    (own_eq : (seg.grow c).own = seg.own ++ [c]) (name : seg.kindSide = [])
    (other : c.1 ≠ ':') :
    (seg.grow c).nameSide = seg.nameSide ++ [c] ∧
      (seg.grow c).kindSide = [] := by
  have no_colon : ∀ d ∈ seg.own, (d.1 != ':') = true :=
    List.dropWhile_eq_nil_iff.mp name
  rw [nameSide_of_kindSide name, nameSide, kindSide, own_eq,
    List.takeWhile_append_of_pos no_colon, List.dropWhile_append_of_pos no_colon]
  simp [other]

theorem sides_grow_colon {seg : Segment} {c : Placed}
    (own_eq : (seg.grow c).own = seg.own ++ [c]) (name : seg.kindSide = [])
    (colon : c.1 = ':') :
    (seg.grow c).nameSide = seg.nameSide ∧ (seg.grow c).kindSide = [c] := by
  have no_colon : ∀ d ∈ seg.own, (d.1 != ':') = true :=
    List.dropWhile_eq_nil_iff.mp name
  rw [nameSide_of_kindSide name, nameSide, kindSide, own_eq,
    List.takeWhile_append_of_pos no_colon, List.dropWhile_append_of_pos no_colon]
  simp [colon]

theorem sides_grow_kind {seg : Segment} {c : Placed}
    (own_eq : (seg.grow c).own = seg.own ++ [c]) (kind : seg.kindSide ≠ []) :
    (seg.grow c).nameSide = seg.nameSide ∧
      (seg.grow c).kindSide = seg.kindSide ++ [c] := by
  have begun : ∃ d ∈ seg.own, ¬ (d.1 != ':') = true := by
    simpa [kindSide, List.dropWhile_eq_nil_iff] using kind
  obtain ⟨d, mem, colon⟩ := begun
  rw [nameSide, nameSide, kindSide, kindSide, own_eq]
  constructor
  · rw [List.takeWhile_append]
    split
    · rename_i whole
      have all := List.takeWhile_eq_self_iff.mp
        ((List.takeWhile_sublist _).eq_of_length whole)
      exact absurd (all d mem) colon
    · rfl
  · rw [List.dropWhile_append]
    split
    · rename_i none_left
      exact absurd (List.isEmpty_iff.mp none_left) kind
    · rfl

theorem kind_grow {seg : Segment} {c : Placed}
    (grown : (seg.grow c).kindSide = seg.kindSide ++ [c])
    (kind : seg.kindSide ≠ [])
    (other : seg.kindSide.length = 1 → c.1 ≠ ':') :
    (seg.grow c).doubled = seg.doubled ∧
      (seg.grow c).kindWritten = seg.kindWritten ++ [c] := by
  match side : seg.kindSide, kind with
  | [first], _ =>
      rw [side] at grown
      have letter := other (by rw [side]; rfl)
      have undoubled : (seg.grow c).doubled = false := by
        simp [doubled, grown, letter]
      have undoubled_before : seg.doubled = false := by simp [doubled, side]
      refine ⟨undoubled.trans undoubled_before.symm, ?_⟩
      simp [kindWritten, undoubled, undoubled_before, grown, side]
  | first :: second :: rest, _ =>
      rw [side] at grown
      have same : (seg.grow c).doubled = seg.doubled := by
        simp [doubled, grown, side]
      refine ⟨same, ?_⟩
      rw [kindWritten, kindWritten, same, grown, side]
      split <;> rfl

theorem kindWritten_of_kindSide {seg : Segment}
    (side : seg.kindSide = [] ∨ ∃ first, seg.kindSide = [first]) :
    seg.doubled = false ∧ seg.kindWritten = [] := by
  rcases side with side | ⟨first, side⟩ <;>
    simp [doubled, kindWritten, side]

/-! ## The ways to grow -/

/-- What one more character does to a segment, by the part it plays. -/
inductive Growth (seg next : Segment) (c : Placed) : Prop
  /-- An opening bracket adds nothing to the body. -/
  | bracket (opening : c.isOpening = true) (canMeet : next.canMeet = seg.canMeet)
      (meets : next.meets = seg.meets) (name : next.nameSide = seg.nameSide)
      (kind : next.kindSide = seg.kindSide)
  /-- The colon from before meets its second. -/
  | meeting (colon : c.1 = ':') (ready : seg.canMeet = true)
      (canMeet : next.canMeet = false) (unmet : seg.meets = false)
      (meets : next.meets = true) (name : next.nameSide = seg.nameSide)
      (side : seg.kindSide = []) (kind : next.kindSide = [])
  /-- A letter of the name, or a bar that is misused there. -/
  | naming (inside : c.isOpening = false) (other : c.1 ≠ ':')
      (canMeet : next.canMeet = false) (meets : next.meets = seg.meets)
      (name : next.nameSide = seg.nameSide ++ [c])
      (side : seg.kindSide = []) (kind : next.kindSide = [])
  /-- The first colon. -/
  | beginning (colon : c.1 = ':') (closed : seg.canMeet = false)
      (canMeet : next.canMeet = false) (meets : next.meets = seg.meets)
      (name : next.nameSide = seg.nameSide)
      (side : seg.kindSide = []) (kind : next.kindSide = [c])
  /-- A second colon right after the first. -/
  | doubling (colon : c.1 = ':') (canMeet : next.canMeet = false)
      (meets : next.meets = seg.meets) (name : next.nameSide = seg.nameSide)
      (first : Placed) (side : seg.kindSide = [first])
      (kind : next.kindSide = [first, c])
  /-- A character of the kind, or a colon that is misused there. -/
  | writing (inside : c.isOpening = false) (canMeet : next.canMeet = false)
      (meets : next.meets = seg.meets) (name : next.nameSide = seg.nameSide)
      (side : seg.kindSide ≠ [])
      (other : seg.kindSide.length = 1 → c.1 ≠ ':')
      (kind : next.kindSide = seg.kindSide ++ [c])
      (doubled : next.doubled = seg.doubled)
      (written : next.kindWritten = seg.kindWritten ++ [c])

/-- A body that is not empty has nothing in front of it to meet. -/
theorem canMeet_grow {c : Placed} (inside : c.isOpening = false)
    (seg : Segment) : (seg.grow c).canMeet = false := by
  simp [canMeet, body_grow inside]

/-- Every character makes a segment grow in one of these ways. -/
theorem growth (seg : Segment) (c : Placed) : Growth seg (seg.grow c) c := by
  by_cases opening : c.isOpening = true
  · obtain ⟨name, kind⟩ := sides_of_own (own_grow_of_isOpening opening seg)
    refine .bracket opening ?_ (meets_grow_of_isOpening opening seg) name kind
    rw [canMeet, body_grow_of_isOpening opening]
    rfl
  · have inside : c.isOpening = false := Bool.eq_false_iff.mpr opening
    have met := canMeet_grow inside seg
    by_cases meeting : seg.canMeet = true ∧ c.1 = ':'
    · obtain ⟨ready, colon⟩ := meeting
      obtain ⟨meets, own⟩ := meets_grow_of_canMeet ready colon
      have before := own_of_canMeet ready
      obtain ⟨name, kind⟩ := sides_of_own (own.trans before.symm)
      have side : seg.kindSide = [] := by simp [kindSide, before]
      exact .meeting colon ready met (meets_of_canMeet ready) meets name side
        (kind.trans side)
    · obtain ⟨meets, own⟩ := own_grow inside
        (fun ready colon => meeting ⟨ready, colon⟩)
      by_cases side : seg.kindSide = []
      · by_cases colon : c.1 = ':'
        · obtain ⟨name, kind⟩ := sides_grow_colon own side colon
          have closed : seg.canMeet = false :=
            Bool.eq_false_iff.mpr fun ready => meeting ⟨ready, colon⟩
          exact .beginning colon closed met meets name side kind
        · obtain ⟨name, kind⟩ := sides_grow_name own side colon
          exact .naming inside colon met meets name side kind
      · obtain ⟨name, kind⟩ := sides_grow_kind own side
        by_cases double : seg.kindSide.length = 1 ∧ c.1 = ':'
        · obtain ⟨first, single⟩ := List.length_eq_one_iff.mp double.1
          rw [single] at kind
          exact .doubling double.2 met meets name first single kind
        · have other := fun single colon => double ⟨single, colon⟩
          obtain ⟨doubled, written⟩ := kind_grow kind side other
          exact .writing inside met meets name side other kind doubled written

end UsageLine.Segment

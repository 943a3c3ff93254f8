import UsageLine.Proofs.Segment.Growth

/-!
# Alternatives in a segment that grows

The alternatives of a kind are what its bars part.  A bar at the end begins an
empty alternative; any other character is written into the last one.
-/

namespace UsageLine

namespace Text

theorem splitOn_append_bar (text : Text) :
    (text ++ ['|']).splitOn '|' = text.splitOn '|' ++ [[]] := by
  rw [List.splitOn_append_cons_self, List.splitOn_nil]

theorem splitOn_append_letter (text : Text) {c : Char} (letter : c ≠ '|') :
    (text ++ [c]).splitOn '|' =
      (text.splitOn '|').dropLast ++ [(text.splitOn '|').getLastD [] ++ [c]] := by
  induction text with
  | nil => simp [List.splitOn_cons_eq_if_modifyHead, letter,
      List.splitOn_eq_singleton]
  | cons d rest ih =>
      rw [List.cons_append, List.splitOn_cons_eq_if_modifyHead,
        List.splitOn_cons_eq_if_modifyHead, ih]
      match pieces : rest.splitOn '|', List.splitOn_ne_nil '|' rest with
      | [only], _ => by_cases bar : d = '|' <;> simp [bar]
      | first :: second :: more, _ =>
          by_cases bar : d = '|' <;> simp [bar]

end Text

namespace Segment

theorem alternatives_ne_nil (seg : Segment) : seg.alternatives ≠ [] :=
  List.splitOn_ne_nil _ _

theorem dropLast_append_latest (seg : Segment) :
    seg.alternatives.dropLast ++ [seg.latest] = seg.alternatives := by
  rw [latest, List.getLastD_eq_getLast?,
    List.getLast?_eq_some_getLast seg.alternatives_ne_nil, Option.getD_some]
  exact List.dropLast_concat_getLast seg.alternatives_ne_nil

/-- Nothing is the only alternative where no kind is written. -/
theorem latest_of_unwritten {seg : Segment} (unwritten : seg.kindWritten = []) :
    seg.latest = [] := by
  rw [latest, alternatives, unwritten]
  rfl

theorem alternatives_of_no_bar {seg : Segment}
    (plain : '|' ∉ Placed.text seg.kindWritten) :
    seg.alternatives = [Placed.text seg.kindWritten] :=
  List.splitOn_eq_singleton plain

theorem earlier_append_latest (seg : Segment) :
    seg.earlier.getD [] ++ [seg.latest] = seg.alternatives := by
  by_cases bar : '|' ∈ Placed.text seg.kindWritten
  · rw [earlier, if_pos bar, Option.getD_some, dropLast_append_latest]
  · rw [earlier, if_neg bar, latest, alternatives_of_no_bar bar]
    rfl

theorem alternatives_grow_bar {seg : Segment} {c : Placed}
    (written : (seg.grow c).kindWritten = seg.kindWritten ++ [c])
    (bar : c.1 = '|') :
    (seg.grow c).earlier = some seg.alternatives ∧
      (seg.grow c).latest = [] := by
  have pieces : (seg.grow c).alternatives = seg.alternatives ++ [[]] := by
    rw [alternatives, written, Placed.text_append, Placed.text_cons, bar]
    exact Text.splitOn_append_bar (Placed.text seg.kindWritten)
  constructor
  · rw [earlier, if_pos (by simp [written, bar]), pieces,
      List.dropLast_concat]
  · rw [latest, pieces]
    simp

theorem alternatives_grow_letter {seg : Segment} {c : Placed}
    (written : (seg.grow c).kindWritten = seg.kindWritten ++ [c])
    (letter : c.1 ≠ '|') :
    (seg.grow c).earlier = seg.earlier ∧
      (seg.grow c).latest = seg.latest ++ [c.1] := by
  have pieces : (seg.grow c).alternatives =
      seg.alternatives.dropLast ++ [seg.latest ++ [c.1]] := by
    rw [alternatives, written, Placed.text_append]
    exact Text.splitOn_append_letter (Placed.text seg.kindWritten) letter
  constructor
  · rw [earlier, earlier, pieces, List.dropLast_concat, written]
    simp [letter.symm]
  · rw [latest, pieces]
    simp

theorem alternatives_of_kindWritten {seg other : Segment}
    (same : other.kindWritten = seg.kindWritten) :
    other.earlier = seg.earlier ∧ other.latest = seg.latest := by
  simp only [earlier, latest, alternatives, same, and_self]

/-- Kinds that nothing is written into have the same alternatives. -/
theorem unwritten_parts {seg other : Segment}
    (side : seg.kindSide = [] ∨ ∃ first, seg.kindSide = [first])
    (side' : other.kindSide = [] ∨ ∃ first, other.kindSide = [first]) :
    seg.doubled = false ∧ other.doubled = false ∧
      other.earlier = seg.earlier ∧ other.latest = seg.latest := by
  obtain ⟨doubled, written⟩ := kindWritten_of_kindSide side
  obtain ⟨doubled', written'⟩ := kindWritten_of_kindSide side'
  exact ⟨doubled, doubled',
    alternatives_of_kindWritten (written'.trans written.symm)⟩

end Segment

end UsageLine

import UsageLine.Proofs.Run
import Mathlib.Data.List.Induction
import Mathlib.Data.List.Nodup

/-!
# Spaces in a line

A line without its spaces is read as the line itself.  Only the place of a
misused mark is another one: it comes forward by the spaces that stood before
it.
-/

namespace UsageLine

namespace Text

/-- Where a place of a text is once the spaces are gone. -/
def unspacedPlace (text : Text) (place : Nat) : Nat :=
  place - (text.take place).count ' '

theorem solid_concat (text : Text) (c : Char) :
    solid (text ++ [c]) =
      solid text ++ if c = ' ' then [] else [(c, text.length)] := by
  rw [solid, solid, List.zipIdx_append, List.filter_append, List.zipIdx_singleton,
    Nat.zero_add]
  by_cases space : c = ' ' <;> simp [Placed.isSolid, space]

theorem mem_solid_iff {text : Text} {c : Char} {place : Nat} :
    (c, place) ∈ solid text ↔ text[place]? = some c ∧ c ≠ ' ' := by
  rw [solid, List.mem_filter, List.mem_zipIdx_iff_getElem?, Placed.isSolid,
    bne_iff_ne]

theorem length_unspaced (text : Text) :
    text.unspaced.length = text.length - text.count ' ' := by
  have parts := List.length_eq_countP_add_countP (· == ' ') (l := text)
  have kept : text.unspaced.length = text.countP fun c => ¬ (c == ' ') = true := by
    rw [List.countP_eq_length_filter, unspaced]
    apply congrArg List.length
    apply List.filter_congr
    intro c _
    by_cases space : c = ' ' <;> simp [space]
  rw [kept, List.count]
  omega

/-- The solid characters of a text without its spaces are those of the text,
come forward. -/
theorem solid_unspaced (text : Text) :
    solid text.unspaced =
      (solid text).map fun c => (c.1, text.unspacedPlace c.2) := by
  -- The characters before keep their places when the text grows at its end.
  induction text using List.reverseRecOn with
  | nil => rfl
  | append_singleton before c ih =>
      have kept : (solid before).map
            (fun d => (d.1, unspacedPlace (before ++ [c]) d.2)) =
          (solid before).map fun d => (d.1, unspacedPlace before d.2) := by
        apply List.map_congr_left
        rintro ⟨d, place⟩ mem
        have inside := (List.getElem?_eq_some_iff.mp (mem_solid_iff.mp mem).1).1
        rw [unspacedPlace, unspacedPlace,
          List.take_append_of_le_length (Nat.le_of_lt inside)]
      rw [solid_concat, List.map_append, kept, ← ih]
      by_cases space : c = ' '
      · simp [unspaced, space]
      · have shorter : unspaced (before ++ [c]) = unspaced before ++ [c] := by
          simp [unspaced, space]
        rw [shorter, solid_concat, if_neg space, if_neg space,
          List.map_singleton, unspacedPlace, List.take_left, length_unspaced]

theorem unspacedPlace_inj {text : Text} {c d : Char} {place other : Nat}
    (here : (c, place) ∈ solid text) (there : (d, other) ∈ solid text)
    (same : text.unspacedPlace place = text.unspacedPlace other) :
    place = other := by
  have rising : ((solid text).map fun c => text.unspacedPlace c.2).Pairwise
      (· < ·) := by
    have places := List.pairwise_map.mpr (rising_solid text.unspaced)
    rwa [solid_unspaced, List.map_map] at places
  have both := List.inj_on_of_nodup_map (rising.imp Nat.ne_of_lt) here there same
  exact congrArg Prod.snd both

end Text

namespace Scan

/-- A scan that knows other places stops at another place. -/
theorem follow_map (f : Nat → Nat) (s : Scan) (placed : List Placed) :
    s.follow (placed.map fun c => (c.1, f c.2)) =
      { last := (s.follow placed).last
        stop := (s.follow placed).stop.map fun stop => (stop.1, f stop.2) } := by
  induction placed generalizing s with
  | nil => rfl
  | cons c rest ih =>
      simp only [List.map_cons, follow]
      cases s.read c.1 with
      | error what => rfl
      | ok next => exact ih next

end Scan

/-- Without its spaces a line is scanned in the same way, but for the place where
the scan is stopped. -/
theorem scan_unspaced (line : Text) :
    (scan line.unspaced).last = (scan line).last ∧
      (scan line.unspaced).stop = (scan line).stop.map fun stop =>
        (stop.1, line.unspacedPlace stop.2) := by
  rw [scan_eq_follow, scan_eq_follow, Text.solid_unspaced, Scan.follow_map]
  exact ⟨rfl, rfl⟩

theorem mem_solid_of_stop {line : Text} {what : Misuse} {position : Nat}
    (stopped : (scan line).stop = some (what, position)) :
    (what.sign, position) ∈ Text.solid line := by
  refine Text.mem_solid_iff.mpr ⟨getElem?_of_stop stopped, ?_⟩
  cases what <;> decide

/-- Where a line is refused for a misused mark, it is refused for the same mark
without its spaces, and the other way round. -/
theorem parse_unspaced_of_misused {text : Text} {what : Misuse} {position : Nat} :
    parse text = .error (.misused what position) ↔
      (∃ c, text[position]? = some c ∧ c ≠ ' ') ∧
        parse text.unspaced =
          .error (.misused what (text.unspacedPlace position)) := by
  rw [parse_eq_misused_iff, parse_eq_misused_iff, (scan_unspaced text).2]
  constructor
  · intro stopped
    refine ⟨⟨what.sign, Text.mem_solid_iff.mp (mem_solid_of_stop stopped)⟩, ?_⟩
    rw [stopped]
    rfl
  · rintro ⟨⟨c, solid⟩, moved⟩
    obtain ⟨⟨other, place⟩, stopped, moved⟩ := Option.map_eq_some_iff.mp moved
    obtain ⟨rfl, together⟩ := Prod.mk.inj moved
    have same := Text.unspacedPlace_inj (mem_solid_of_stop stopped)
      (Text.mem_solid_iff.mpr solid) together
    rw [stopped, same]

theorem parse_unspaced_of_other {line : Text}
    {reading : Except UsageError (List Tag)}
    (other : ∀ what position, reading ≠ .error (.misused what position)) :
    parse line = reading ↔ parse line.unspaced = reading := by
  cases stopped : (scan line).stop with
  | none =>
      obtain ⟨last, stop⟩ := scan_unspaced line
      rw [stopped] at stop
      rw [parse_of_through stopped, parse_of_through stop, last]
  | some stop =>
      have refused := parse_eq_misused_iff.mpr stopped
      rw [refused, (parse_unspaced_of_misused.mp refused).2]
      exact iff_of_false (other _ _).symm (other _ _).symm

/-- Spaces mean nothing, wherever they stand: a line without them has the same
tags, or is refused for the same reason at the same character. -/
theorem parse_unspaced (text : Text) :
    (∀ tags, parse text = .ok tags ↔ parse text.unspaced = .ok tags) ∧
    (∀ index count, parse text = .error (.restNotLast index count) ↔
      parse text.unspaced = .error (.restNotLast index count)) ∧
    ∀ what position, parse text = .error (.misused what position) ↔
      (∃ c, text[position]? = some c ∧ c ≠ ' ') ∧
        parse text.unspaced = .error
          (.misused what (position - (text.take position).count ' ')) := by
  refine ⟨?_, ?_, ?_⟩
  · intro tags
    exact parse_unspaced_of_other (by simp)
  · intro index count
    exact parse_unspaced_of_other (by simp)
  · intro what position
    exact parse_unspaced_of_misused

end UsageLine

import UsageLine.Scan

/-!
# Placed characters

A line can be read as a list of characters that know their positions.  Then a
cut does not move what follows it, and the spaces can be left out beforehand.
Misuses know their positions too, so the first of them is the one that stands
before all others.
-/

namespace UsageLine

/-- A character with its position in a line. -/
abbrev Placed := Char × Nat

namespace Placed

def text (placed : List Placed) : Text := placed.map Prod.fst

def isSolid (c : Placed) : Bool := c.1 != ' '

def isClosing (c : Placed) : Bool := c.1 == '>' || c.1 == ']'

def isOpening (c : Placed) : Bool := c.1 == '<' || c.1 == '['

/-- Positions rise from left to right. -/
def Rising (placed : List Placed) : Prop :=
  placed.Pairwise fun first second => first.2 < second.2

@[simp] theorem text_nil : text [] = [] := rfl

@[simp] theorem text_cons (c : Placed) (rest : List Placed) :
    text (c :: rest) = c.1 :: text rest := rfl

@[simp] theorem text_append (first second : List Placed) :
    text (first ++ second) = text first ++ text second :=
  List.map_append

theorem text_filter (p : Char → Bool) (placed : List Placed) :
    text (placed.filter fun c => p c.1) = (text placed).filter p :=
  (List.filter_map (f := Prod.fst)).symm

theorem text_takeWhile (p : Char → Bool) (placed : List Placed) :
    text (placed.takeWhile fun c => p c.1) = (text placed).takeWhile p :=
  (List.takeWhile_map ..).symm

theorem text_dropWhile (p : Char → Bool) (placed : List Placed) :
    text (placed.dropWhile fun c => p c.1) = (text placed).dropWhile p :=
  (List.dropWhile_map ..).symm

theorem filter_eq_nil_iff {x : Char} {placed : List Placed} :
    placed.filter (·.1 == x) = [] ↔ x ∉ text placed := by
  simp only [List.filter_eq_nil_iff, beq_iff_eq, text, List.mem_map,
    not_exists, not_and]

theorem text_zipIdx (text : Text) (position : Nat) :
    Placed.text (text.zipIdx position) = text :=
  List.zipIdx_map_fst ..

theorem rising_zipIdx (text : Text) (position : Nat) :
    Rising (text.zipIdx position) := by
  induction text generalizing position with
  | nil => exact List.Pairwise.nil
  | cons c rest ih =>
      rw [List.zipIdx_cons]
      refine List.pairwise_cons.mpr ⟨?_, ih (position + 1)⟩
      intro later found
      exact List.le_snd_of_mem_zipIdx found

end Placed

/-- The characters of a line that are not spaces, at their places. -/
def Text.solid (line : Text) : List Placed :=
  line.zipIdx.filter Placed.isSolid

theorem Text.rising_solid (line : Text) : Placed.Rising (Text.solid line) :=
  List.Pairwise.filter _ (Placed.rising_zipIdx line 0)

def Text.unspaced (text : Text) : Text := text.filter (· != ' ')

theorem Text.text_solid (line : Text) :
    Placed.text (Text.solid line) = line.unspaced := by
  rw [Text.unspaced, Text.solid, show Placed.isSolid = fun c => c.1 != ' ' from rfl,
    Placed.text_filter (· != ' '), Placed.text_zipIdx]

namespace Scan

def follow (s : Scan) : List Placed → Scanned
  | [] => { last := s }
  | c :: rest =>
      match s.read c.1 with
      | .error what => { last := s, stop := some (what, c.2) }
      | .ok next => next.follow rest

theorem run_eq_follow (s : Scan) (position : Nat) (text : Text) :
    s.run position text = s.follow (text.zipIdx position) := by
  induction text generalizing s position with
  | nil => rfl
  | cons c rest ih =>
      simp only [run, List.zipIdx_cons, follow]
      cases s.read c with
      | error what => rfl
      | ok next => exact ih next (position + 1)

/-- Spaces leave no trace in a scan. -/
theorem follow_filter_isSolid (s : Scan) (placed : List Placed) :
    s.follow (placed.filter Placed.isSolid) = s.follow placed := by
  induction placed generalizing s with
  | nil => rfl
  | cons c rest ih =>
      by_cases solid : c.1 = ' '
      · have skipped : s.read c.1 = .ok s := by rw [solid]; rfl
        rw [List.filter_cons_of_neg (by simp [Placed.isSolid, solid])]
        simp only [follow, skipped]
        exact ih s
      · rw [List.filter_cons_of_pos (by simp [Placed.isSolid, solid])]
        simp only [follow]
        cases s.read c.1 with
        | error what => rfl
        | ok next => exact ih next

theorem follow_of_error {s : Scan} {c : Placed} {what : Misuse}
    (refused : s.read c.1 = .error what) (rest : List Placed) :
    s.follow (c :: rest) = { last := s, stop := some (what, c.2) } := by
  simp only [follow, refused]

theorem follow_of_ok {s next : Scan} {c : Placed}
    (taken : s.read c.1 = .ok next) (rest : List Placed) :
    s.follow (c :: rest) = next.follow rest := by
  simp only [follow, taken]

theorem follow_append_of_stop {s : Scan} {first : List Placed}
    {stop : Misuse × Nat} (stopped : (s.follow first).stop = some stop)
    (second : List Placed) : s.follow (first ++ second) = s.follow first := by
  induction first generalizing s with
  | nil => cases stopped
  | cons c rest ih =>
      cases taken : s.read c.1 with
      | error what =>
          rw [List.cons_append, follow_of_error taken, follow_of_error taken]
      | ok next =>
          rw [List.cons_append, follow_of_ok taken, follow_of_ok taken]
          rw [follow_of_ok taken] at stopped
          exact ih stopped

theorem follow_append_of_last {s next : Scan} {first : List Placed}
    (through : s.follow first = { last := next }) (second : List Placed) :
    s.follow (first ++ second) = next.follow second := by
  induction first generalizing s with
  | nil =>
      have same : s = next := congrArg Scanned.last through
      rw [same]
      rfl
  | cons c rest ih =>
      cases taken : s.read c.1 with
      | error what =>
          rw [follow_of_error taken] at through
          cases congrArg Scanned.stop through
      | ok next =>
          rw [List.cons_append, follow_of_ok taken]
          rw [follow_of_ok taken] at through
          exact ih through

end Scan

/-- A line is scanned by its solid characters. -/
theorem scan_eq_follow (line : Text) :
    scan line = Scan.follow {} (Text.solid line) := by
  rw [scan, Scan.run_eq_follow, Text.solid, Scan.follow_filter_isSolid]

/-! ## The first of several misuses -/

/-- The misuse at the least position. -/
def earliest (misuses : List (Misuse × Nat)) : Option (Misuse × Nat) :=
  misuses.minOn? Prod.snd

/-- A misuse stands before every other one. -/
def Leads (first : Misuse × Nat) (misuses : List (Misuse × Nat)) : Prop :=
  first ∈ misuses ∧
    ∀ other ∈ misuses, other = first ∨ first.2 < other.2

theorem Leads.earliest_eq {first : Misuse × Nat}
    {misuses : List (Misuse × Nat)} (leads : Leads first misuses) :
    earliest misuses = some first := by
  have some_found := List.isSome_minOn?_of_mem (f := Prod.snd) leads.1
  obtain ⟨least, found⟩ := Option.isSome_iff_exists.mp some_found
  have least_le : least.2 ≤ first.2 := by
    have bound := List.apply_get_minOn?_le_of_mem (f := Prod.snd) leads.1
    simpa only [found, Option.get_some] using bound
  rcases leads.2 least (List.minOn?_mem found) with same | later
  · rw [earliest, found, same]
  · omega

/-- What leads some misuses leads those behind them as well. -/
theorem Leads.append {first : Misuse × Nat}
    {misuses later : List (Misuse × Nat)} (leads : Leads first misuses)
    (behind : ∀ other ∈ later, first.2 < other.2) :
    Leads first (misuses ++ later) := by
  refine ⟨List.mem_append_left _ leads.1, ?_⟩
  intro other found
  rcases List.mem_append.mp found with near | far
  · exact leads.2 other near
  · exact .inr (behind other far)

theorem earliest_eq_none_iff {misuses : List (Misuse × Nat)} :
    earliest misuses = none ↔ misuses = [] := by
  rw [earliest, ← Option.not_isSome_iff_eq_none, List.isSome_minOn?_iff,
    ne_eq, Decidable.not_not]

end UsageLine

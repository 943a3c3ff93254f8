import UsageLine.Tag
import UsageLine.UsageError

/-!
# Resolution

A scanned tag still carries its rest marker at the end of its kind, and the
last alternative still stands in the kind and not among the options.
Resolution takes the marker off and completes the options, tag by tag, and ends
at the first tag that carries a marker though another one follows it.
-/

namespace UsageLine

namespace Tag

/-- Take the rest marker off the kind once, and make the tag a rest tag. -/
def takeRestMarker (tag : Tag) : Tag :=
  if tag.hasRestMarker then
    { tag with
      kind := tag.kind.take (tag.kind.length - restMarker.length)
      rest := true }
  else tag

/-- Move the last alternative from the kind to the options. -/
def completeOptions (tag : Tag) : Tag :=
  match tag.options with
  | some options =>
      { tag with options := some (options ++ [tag.kind]), kind := optionsKind }
  | none => tag

/-- The marker goes first, so it may follow the last alternative. -/
def resolved (tag : Tag) : Tag := tag.takeRestMarker.completeOptions

end Tag

/-- Resolve tags from an index on.  A rest marker on another tag than the last
of so many ends it. -/
def resolveFrom (count index : Nat) :
    List Tag → Except UsageError (List Tag)
  | [] => .ok []
  | tag :: rest =>
      if tag.hasRestMarker ∧ index + 1 ≠ count then
        .error (.restNotLast index count)
      else (resolveFrom count (index + 1) rest).map (tag.resolved :: ·)

def resolve (tags : List Tag) : Except UsageError (List Tag) :=
  resolveFrom tags.length 0 tags

/-! ## Where resolution ends -/

/-- The index of the first tag that carries a rest marker though another tag
follows it. -/
def misplacedRest? : List Tag → Option Nat
  | [] => none
  | [_] => none
  | tag :: next :: rest =>
      if tag.hasRestMarker then some 0
      else (misplacedRest? (next :: rest)).map (· + 1)

/-- The place of a tag tells whether its marker is misplaced. -/
theorem misplacedRest?_cons {tag : Tag} {rest : List Tag} {count index : Nat}
    (whole : index + (tag :: rest).length = count) :
    misplacedRest? (tag :: rest) =
      if tag.hasRestMarker ∧ index + 1 ≠ count then some 0
      else (misplacedRest? rest).map (· + 1) := by
  cases rest with
  | nil =>
      have last : index + 1 = count := whole
      simp [misplacedRest?, last]
  | cons next more =>
      have followed : index + 1 ≠ count := by
        simp only [List.length_cons] at whole
        omega
      simp [misplacedRest?, followed]

theorem resolveFrom_eq {tags : List Tag} {count index : Nat}
    (whole : index + tags.length = count) :
    resolveFrom count index tags =
      match misplacedRest? tags with
      | some place => .error (.restNotLast (index + place) count)
      | none => .ok (tags.map Tag.resolved) := by
  induction tags generalizing index with
  | nil => rfl
  | cons tag rest ih =>
      have later : index + 1 + rest.length = count := by
        simp only [List.length_cons] at whole
        omega
      rw [resolveFrom, misplacedRest?_cons whole, ih later]
      by_cases misplaced : tag.hasRestMarker ∧ index + 1 ≠ count
      · rw [if_pos misplaced, if_pos misplaced]
        rfl
      · rw [if_neg misplaced, if_neg misplaced]
        cases misplacedRest? rest with
        | none => rfl
        | some place =>
            simp [Except.map, Nat.add_assoc, Nat.add_comm 1 place]

/-- Tags are refused for the first misplaced marker, and all of them are
resolved where there is none. -/
theorem resolve_eq (tags : List Tag) :
    resolve tags =
      match misplacedRest? tags with
      | some index => .error (.restNotLast index tags.length)
      | none => .ok (tags.map Tag.resolved) := by
  rw [resolve, resolveFrom_eq (Nat.zero_add _)]
  cases misplacedRest? tags <;> simp

end UsageLine

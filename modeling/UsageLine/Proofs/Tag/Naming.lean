import UsageLine.Tag.Shorthand

/-!
# Names that choose the kind

A name without a kind chooses one by what it begins with: two marks make a
member, a single one a user, and any other name is a literal.  The marks that
choose are taken off the name.  The reader finds them character by character;
here they are beginnings of the name.
-/

namespace UsageLine

/-- The tag of a name alone: a member, a user, or a literal. -/
def Tag.ofName (required : Bool) (name : Text) : Tag :=
  if ['@', '@'] <+: name then
    { name := name.drop 2, kind := memberKind, required }
  else if ['@'] <+: name then
    { name := name.drop 1, kind := userKind, required }
  else
    { name, kind := literalKind, required }

namespace Tag

theorem shorthand_of_single {rest : Text} (unpaired : ¬ ['@'] <+: rest) :
    shorthand ('@' :: rest) = (rest, userKind) := by
  cases rest with
  | nil => rfl
  | cons c more =>
      have other : c ≠ '@' := by
        rintro rfl
        exact unpaired ⟨more, rfl⟩
      unfold shorthand
      split <;> simp_all

theorem shorthand_of_none {name : Text} (unmentioned : ¬ ['@'] <+: name) :
    shorthand name = (name, literalKind) := by
  cases name with
  | nil => rfl
  | cons c rest =>
      have other : c ≠ '@' := by
        rintro rfl
        exact unmentioned ⟨rest, rfl⟩
      unfold shorthand
      split <;> simp_all

/-- A name has two marks in front, or one, or none. -/
theorem shorthand_cases (name : Text) :
    (∃ rest, name = '@' :: '@' :: rest) ∨
      (∃ rest, name = '@' :: rest ∧ ¬ ['@'] <+: rest) ∨ ¬ ['@'] <+: name := by
  by_cases single : ['@'] <+: name
  · obtain ⟨rest, rfl⟩ := single
    by_cases pair : ['@'] <+: rest
    · obtain ⟨more, rfl⟩ := pair
      exact .inl ⟨more, rfl⟩
    · exact .inr (.inl ⟨rest, rfl, pair⟩)
  · exact .inr (.inr single)

theorem shorthand_kind_eq_user_iff {name : Text} :
    (shorthand name).2 = userKind ↔
      ['@'] <+: name ∧ ¬ ['@', '@'] <+: name := by
  rcases shorthand_cases name with ⟨rest, rfl⟩ | ⟨rest, rfl, unpaired⟩ | none
  · simp [shorthand, memberKind, userKind]
  · simpa [shorthand_of_single unpaired] using unpaired
  · simp [shorthand_of_none none, literalKind, userKind, none]

theorem shorthand_kind_eq_member_iff {name : Text} :
    (shorthand name).2 = memberKind ↔ ['@', '@'] <+: name := by
  rcases shorthand_cases name with ⟨rest, rfl⟩ | ⟨rest, rfl, unpaired⟩ | none
  · simp [shorthand]
  · simpa [shorthand_of_single unpaired, userKind, memberKind] using unpaired
  · have unpaired : ¬ ['@', '@'] <+: name := by
      rintro ⟨rest, rfl⟩
      exact none ⟨'@' :: rest, rfl⟩
    simp [shorthand_of_none none, literalKind, memberKind, unpaired]

theorem shorthand_kind_eq_literal_iff {name : Text} :
    (shorthand name).2 = literalKind ↔ ¬ ['@'] <+: name := by
  rcases shorthand_cases name with ⟨rest, rfl⟩ | ⟨rest, rfl, unpaired⟩ | none
  · simp [shorthand, memberKind, literalKind]
  · simp [shorthand_of_single unpaired, userKind, literalKind]
  · simp [shorthand_of_none none, none]

/-- A tag without a kind gets the one that its name chooses. -/
theorem ofName_eq_shorthand (required : Bool) (name : Text) :
    ofName required name =
      { name := (shorthand name).1, kind := (shorthand name).2, required } := by
  rcases shorthand_cases name with ⟨rest, rfl⟩ | ⟨rest, rfl, unpaired⟩ | none
  · rw [ofName, if_pos ⟨rest, rfl⟩]
    rfl
  · have not_pair : ¬ ['@', '@'] <+: '@' :: rest := by
      rintro ⟨more, same⟩
      exact unpaired ⟨more, (List.cons.inj same).2⟩
    rw [ofName, if_neg not_pair, if_pos ⟨rest, rfl⟩,
      shorthand_of_single unpaired]
    rfl
  · have not_pair : ¬ ['@', '@'] <+: name := by
      rintro ⟨more, rfl⟩
      exact none ⟨'@' :: more, rfl⟩
    rw [ofName, if_neg not_pair, if_neg none, shorthand_of_none none]

def chosenKinds : List Text := [literalKind, userKind, memberKind]

theorem shorthand_kind_mem (name : Text) : (shorthand name).2 ∈ chosenKinds := by
  unfold shorthand
  split <;> simp [chosenKinds]

theorem bare_of_chosen {kind : Text} (given : kind ∈ chosenKinds) :
    restMarker.isSuffixOf kind = false := by
  revert kind
  decide

end Tag

end UsageLine

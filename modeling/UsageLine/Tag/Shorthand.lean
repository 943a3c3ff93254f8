import UsageLine.Tag

/-!
# Kinds chosen by the name

A tag may be written without a kind.  Then its name decides: `@@` in front
makes it a member, a single `@` a user, anything else a literal.  The marks
that decided are not part of the name.  A kind that was written stays.
-/

namespace UsageLine.Tag

/-- The kind a name chooses, and the name without the marks that chose it. -/
def shorthand : Text → Text × Text
  | '@' :: '@' :: name => (name, memberKind)
  | '@' :: name => (name, userKind)
  | name => (name, literalKind)

/-- Give a tag that was written without a kind the one its name chooses. -/
def classified (tag : Tag) : Tag :=
  if tag.kind = [] then
    { tag with name := (shorthand tag.name).1, kind := (shorthand tag.name).2 }
  else tag

theorem classified_of_kind {tag : Tag} (written : tag.kind ≠ []) :
    tag.classified = tag := by
  simp [classified, written]

theorem shorthand_kind_ne_nil (name : Text) : (shorthand name).2 ≠ [] := by
  unfold shorthand
  split <;> simp [memberKind, userKind, literalKind]

theorem classified_kind_ne_nil (tag : Tag) : tag.classified.kind ≠ [] := by
  by_cases written : tag.kind = []
  · simpa [classified, written] using shorthand_kind_ne_nil tag.name
  · simpa [classified_of_kind written] using written

end UsageLine.Tag

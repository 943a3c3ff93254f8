import UsageLine.Proofs.Resolving
import Mathlib.Data.List.Forall2

/-!
# Resolved tags

Tags are resolved one after the other.  A tag loses its rest marker first and
completes its options then, and the first marker that another tag follows ends
it all.  So whether tags can be resolved depends on their kinds alone, and each
tag is resolved on its own, whatever the others are.
-/

namespace UsageLine

/-! ## The first misplaced marker -/

/-- The first tag whose kind ends in the rest marker stands at an index, and
another tag follows it. -/
structure FirstMisplaced (tags : List Tag) (index : Nat) : Prop where
  followed : index + 1 < tags.length
  marked : ∃ tag, tags[index]? = some tag ∧ Tag.restMarker <:+ tag.kind
  first : ∀ earlier < index, ∀ tag, tags[earlier]? = some tag →
    ¬ Tag.restMarker <:+ tag.kind

theorem Tag.hasRestMarker_iff_suffix {tag : Tag} :
    tag.hasRestMarker = true ↔ restMarker <:+ tag.kind := by
  rw [hasRestMarker, List.isSuffixOf_iff_suffix]

theorem misplacedRest?_eq_some_iff {tags : List Tag} {index : Nat} :
    misplacedRest? tags = some index ↔ FirstMisplaced tags index := by
  rw [misplacedRest?_eq_findIdx?, List.findIdx?_eq_some_iff_getElem]
  simp only [List.getElem_dropLast, List.length_dropLast,
    Tag.hasRestMarker_iff_suffix]
  constructor
  · rintro ⟨inside, marked, first⟩
    have followed : index + 1 < tags.length := by omega
    refine ⟨followed, ⟨_, List.getElem?_eq_getElem (by omega), marked⟩, ?_⟩
    intro earlier before tag found
    obtain ⟨_, rfl⟩ := List.getElem?_eq_some_iff.mp found
    exact first earlier before
  · rintro ⟨followed, ⟨tag, found, marked⟩, first⟩
    obtain ⟨_, rfl⟩ := List.getElem?_eq_some_iff.mp found
    refine ⟨by omega, marked, ?_⟩
    intro earlier before
    exact first earlier before _ (List.getElem?_eq_getElem (by omega))

theorem exists_firstMisplaced_iff {tags : List Tag} :
    (∃ index, FirstMisplaced tags index) ↔
      ∃ tag ∈ tags.dropLast, Tag.restMarker <:+ tag.kind := by
  simp only [← misplacedRest?_eq_some_iff, ← Option.isSome_iff_exists,
    misplacedRest?_eq_findIdx?, List.findIdx?_isSome, List.any_eq_true,
    Tag.hasRestMarker_iff_suffix]

theorem resolve_eq_error_iff {tags : List Tag} {error : UsageError} :
    resolve tags = .error error ↔
      ∃ index, FirstMisplaced tags index ∧
        error = .restNotLast index tags.length := by
  simp only [← misplacedRest?_eq_some_iff]
  rw [resolve_eq]
  cases misplacedRest? tags with
  | none => simp
  | some index => simp [eq_comm]

/-! ## What becomes of a tag -/

namespace Tag

/-- What the kind of a tag is without its rest marker, and whether the tag is a
rest tag then. -/
inductive Strips (tag : Tag) : Text → Bool → Prop
  | marked {stem : Text} (ends : tag.kind = stem ++ restMarker) :
      tag.Strips stem true
  | bare (unmarked : ¬ restMarker <:+ tag.kind) : tag.Strips tag.kind tag.rest

/-- The options and the kind of a tag, once its last alternative is known. -/
inductive Completes (tag : Tag) (last : Text) : Option (List Text) → Text → Prop
  | single (unlisted : tag.options = none) : tag.Completes last none last
  | listed {options : List Text} (listed : tag.options = some options) :
      tag.Completes last (some (options ++ [last])) optionsKind

/-- What a tag is resolved to. -/
structure Resolves (tag resolved : Tag) : Prop where
  name : resolved.name = tag.name
  required : resolved.required = tag.required
  literal : resolved.literal = tag.literal
  kind : ∃ stem, tag.Strips stem resolved.rest ∧
    tag.Completes stem resolved.options resolved.kind

theorem takeRestMarker_of_bare {tag : Tag} (bare : tag.hasRestMarker = false) :
    tag.takeRestMarker = tag :=
  if_neg (by simp [bare])

theorem takeRestMarker_of_marked {tag : Tag} {stem : Text}
    (ends : tag.kind = stem ++ restMarker) :
    tag.takeRestMarker = { tag with kind := stem, rest := true } := by
  have marked : tag.hasRestMarker = true := hasRestMarker_iff.mpr ⟨stem, ends⟩
  rw [takeRestMarker, if_pos marked, ends, List.length_append,
    Nat.add_sub_cancel, List.take_left]

/-- The marker is taken off once, and nothing else is changed. -/
theorem exists_takeRestMarker_eq (tag : Tag) :
    ∃ stem rest, tag.Strips stem rest ∧
      tag.takeRestMarker = { tag with kind := stem, rest := rest } := by
  cases marked : tag.hasRestMarker with
  | true =>
      obtain ⟨stem, ends⟩ := hasRestMarker_iff.mp marked
      exact ⟨stem, true, .marked ends, takeRestMarker_of_marked ends⟩
  | false =>
      have unmarked : ¬ restMarker <:+ tag.kind := by
        rw [← hasRestMarker_iff_suffix, marked]
        exact Bool.false_ne_true
      exact ⟨tag.kind, tag.rest, .bare unmarked, takeRestMarker_of_bare marked⟩

/-- Every tag is resolved on its own: its marker goes first, and its options are
completed by what is left of its kind. -/
theorem resolves_resolved (tag : Tag) : tag.Resolves tag.resolved := by
  obtain ⟨stem, rest, strips, stripped⟩ := tag.exists_takeRestMarker_eq
  rw [resolved, stripped, completeOptions]
  cases listed : tag.options with
  | none => exact ⟨rfl, rfl, rfl, stem, strips, .single listed⟩
  | some options => exact ⟨rfl, rfl, rfl, stem, strips, .listed listed⟩

end Tag

/-- Which tags can be resolved, and to what.  Resolution fails exactly if
another tag than the last has a kind that ends in the rest marker, and the error
names the first such tag and the number of tags.  Otherwise every tag keeps its
name and its brackets, loses one rest marker, and completes its options. -/
theorem tags_resolved (tags : List Tag) :
    ((∃ error, resolve tags = .error error) ↔
      ∃ tag ∈ tags.dropLast, Tag.restMarker <:+ tag.kind) ∧
    (∀ error, resolve tags = .error error ↔
      ∃ index, FirstMisplaced tags index ∧
        error = .restNotLast index tags.length) ∧
    ((¬ ∃ tag ∈ tags.dropLast, Tag.restMarker <:+ tag.kind) →
      ∃ resolved, resolve tags = .ok resolved ∧
        List.Forall₂ Tag.Resolves tags resolved) := by
  refine ⟨?_, fun error => resolve_eq_error_iff, ?_⟩
  · rw [← exists_firstMisplaced_iff]
    simp only [resolve_eq_error_iff]
    constructor
    · rintro ⟨_, index, misplaced, _⟩
      exact ⟨index, misplaced⟩
    · rintro ⟨index, misplaced⟩
      exact ⟨_, index, misplaced, rfl⟩
  · intro placed
    have none_misplaced : misplacedRest? tags = none := by
      rw [← exists_firstMisplaced_iff, not_exists] at placed
      refine Option.eq_none_iff_forall_ne_some.mpr fun index misplaced => ?_
      exact placed index (misplacedRest?_eq_some_iff.mp misplaced)
    refine ⟨tags.map Tag.resolved,
      resolve_eq_ok_iff.mpr ⟨none_misplaced, rfl⟩, ?_⟩
    rw [List.forall₂_map_right_iff, List.forall₂_same]
    exact fun tag _ => tag.resolves_resolved

/-- A kind of two markers loses one of them.  A tag that is a rest tag before it
is resolved stays one, and options without an alternative get their first. -/
theorem tags_resolved_of_two_markers :
    List.Forall₂ Tag.Resolves
      [{ name := ['a'], kind := ['x'], rest := true, options := some [] },
       { name := ['@', 'b'], kind := ['.', '.', '.', '.', '.', '.'],
         required := true, options := some [['y']], literal := true }]
      [{ name := ['a'], kind := Tag.optionsKind, rest := true,
         options := some [['x']] },
       { name := ['@', 'b'], kind := Tag.optionsKind, required := true,
         rest := true, options := some [['y'], ['.', '.', '.']],
         literal := true }] := by
  obtain ⟨resolved, accepted, each⟩ := (tags_resolved
    [{ name := ['a'], kind := ['x'], rest := true, options := some [] },
     { name := ['@', 'b'], kind := ['.', '.', '.', '.', '.', '.'],
       required := true, options := some [['y']],
       literal := true }]).2.2 (by decide)
  cases accepted
  exact each

end UsageLine

import UsageLine.Proofs.Reading

/-!
# Resolving tags in pieces

Tags are resolved one by one, and only a rest marker asks for what follows.  So
a misplaced marker stays misplaced when more tags follow, and it is found where
the first of the pieces that has one shows it.
-/

namespace UsageLine

theorem resolve_eq_ok_iff {tags resolved : List Tag} :
    resolve tags = .ok resolved ↔
      misplacedRest? tags = none ∧ tags.map Tag.resolved = resolved := by
  rw [resolve_eq]
  cases misplacedRest? tags with
  | some index => simp
  | none => simp

theorem resolve_eq_restNotLast_iff {tags : List Tag} {index count : Nat} :
    resolve tags = .error (.restNotLast index count) ↔
      misplacedRest? tags = some index ∧ tags.length = count := by
  rw [resolve_eq]
  cases misplacedRest? tags with
  | some index => simp
  | none => simp

/-! ## Tags that go on -/

theorem dropLast_of_start {tags more : List Tag} (isStart : tags <+: more) :
    tags.dropLast <+: more.dropLast := by
  obtain ⟨later, rfl⟩ := isStart
  cases later with
  | nil => simp
  | cons next rest =>
      rw [List.dropLast_append_of_ne_nil (List.cons_ne_nil next rest)]
      have shorter := List.dropLast_prefix tags
      exact shorter.trans (List.prefix_append _ _)

theorem misplacedRest?_of_start {tags more : List Tag} {index : Nat}
    (isStart : tags <+: more) (misplaced : misplacedRest? tags = some index) :
    misplacedRest? more = some index := by
  rw [misplacedRest?_eq_findIdx?] at misplaced ⊢
  exact (dropLast_of_start isStart).findIdx?_eq_some misplaced

theorem misplacedRest?_eq_none_of_start {tags more : List Tag}
    (isStart : tags <+: more) (placed : misplacedRest? more = none) :
    misplacedRest? tags = none := by
  cases found : misplacedRest? tags with
  | none => rfl
  | some index =>
      rw [misplacedRest?_of_start isStart found] at placed
      cases placed

/-! ## Tags in two pieces -/

/-- Behind tags without markers, a marker is misplaced where it is misplaced on
its own. -/
theorem misplacedRest?_append_of_bare {first : List Tag}
    (bare : ∀ tag ∈ first, tag.hasRestMarker = false) (second : List Tag) :
    misplacedRest? (first ++ second) =
      (misplacedRest? second).map (· + first.length) := by
  have none_first : first.findIdx? Tag.hasRestMarker = none :=
    List.findIdx?_eq_none_iff.mpr bare
  rw [misplacedRest?_eq_findIdx?, misplacedRest?_eq_findIdx?]
  cases second with
  | nil =>
      rw [List.append_nil]
      apply List.findIdx?_eq_none_iff.mpr
      intro tag mem
      exact bare tag ((List.dropLast_sublist first).subset mem)
  | cons next rest =>
      rw [List.dropLast_append_of_ne_nil (List.cons_ne_nil next rest),
        List.findIdx?_append, none_first, Option.none_or]

theorem misplacedRest?_append_of_marked {before : List Tag} {last : Tag}
    (bare : ∀ tag ∈ before, tag.hasRestMarker = false)
    (marked : last.hasRestMarker = true) {second : List Tag}
    (more : second ≠ []) :
    misplacedRest? (before ++ [last] ++ second) = some before.length := by
  have none_before : before.findIdx? Tag.hasRestMarker = none :=
    List.findIdx?_eq_none_iff.mpr bare
  rw [misplacedRest?_eq_findIdx?, List.dropLast_append_of_ne_nil more,
    List.append_assoc, List.findIdx?_append, none_before, Option.none_or,
    List.singleton_append, List.findIdx?_cons, if_pos marked, Option.map_some,
    Nat.zero_add]

/-- Behind tags without markers, other tags are resolved as they are alone. -/
theorem resolve_append_of_bare {first second : List Tag}
    (bare : ∀ tag ∈ first, tag.hasRestMarker = false) :
    (∀ tags, resolve second = .ok tags →
      resolve (first ++ second) = .ok (first.map Tag.resolved ++ tags)) ∧
    ∀ index count, resolve second = .error (.restNotLast index count) →
      resolve (first ++ second) =
        .error (.restNotLast (index + first.length) (count + first.length)) := by
  constructor
  · intro tags accepted
    obtain ⟨placed, rfl⟩ := resolve_eq_ok_iff.mp accepted
    rw [resolve_eq_ok_iff, misplacedRest?_append_of_bare bare, placed,
      List.map_append]
    exact ⟨rfl, rfl⟩
  · intro index count refused
    obtain ⟨misplaced, rfl⟩ := resolve_eq_restNotLast_iff.mp refused
    rw [resolve_eq_restNotLast_iff, misplacedRest?_append_of_bare bare, misplaced,
      List.length_append]
    exact ⟨rfl, Nat.add_comm ..⟩

/-- The marker of the last tag is the only one in an accepted line, and it is
misplaced once other tags follow. -/
theorem resolve_append_of_marked {first second : List Tag} {last : Tag}
    (placed : misplacedRest? first = none) (isLast : first.getLast? = some last)
    (marked : last.hasRestMarker = true) (more : second ≠ []) :
    resolve (first ++ second) =
      .error (.restNotLast (first.length - 1) (first.length + second.length)) := by
  obtain ⟨before, rfl⟩ := List.getLast?_eq_some_iff.mp isLast
  rw [misplacedRest?_eq_findIdx?, List.dropLast_concat,
    List.findIdx?_eq_none_iff] at placed
  rw [resolve_eq_restNotLast_iff,
    misplacedRest?_append_of_marked placed marked more]
  exact ⟨by simp, List.length_append⟩

end UsageLine

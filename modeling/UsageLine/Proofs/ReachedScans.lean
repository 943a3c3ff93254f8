import UsageLine.Proofs.Admissible
import UsageLine.Proofs.Run
import Mathlib.Data.List.DropRight

/-!
# Scans that can be reached

Not every scan comes about while a line is read.  The tags that are closed have
a kind and are not resolved yet, the current tag has a kind only once it has
begun, and a colon that waits stands in front of nothing that is written.  One
character keeps all of this, so it holds at every place of every line.  Whether
a colon waits is told by the line alone: by the colons at the end of what it
says.
-/

namespace UsageLine

namespace Text

/-- The characters that say nothing: they leave a waiting colon alone. -/
def silent : List Char := [' ', '<', '>', '[', ']']

/-- What is left of a text without them. -/
def said (text : Text) : Text := text.filter fun c => c ∉ silent

/-- How many colons stand at the end of what a text says. -/
def endingColons (text : Text) : Nat :=
  (text.said.rtakeWhile (· == ':')).length

theorem endingColons_of_silent {c : Char} (isSilent : c ∈ silent) (text : Text) :
    endingColons (text ++ [c]) = text.endingColons := by
  simp [endingColons, said, isSilent]

theorem endingColons_of_colon (text : Text) :
    endingColons (text ++ [':']) = text.endingColons + 1 := by
  rw [endingColons, said, List.filter_append,
    List.filter_cons_of_pos (by decide), List.filter_nil,
    List.rtakeWhile_concat_pos _ _ _ (by decide), List.length_append]
  rfl

theorem endingColons_of_other {c : Char} (speaks : c ∉ silent) (other : c ≠ ':')
    (text : Text) : endingColons (text ++ [c]) = 0 := by
  rw [endingColons, said, List.filter_append,
    List.filter_cons_of_pos (by simpa using speaks), List.filter_nil,
    List.rtakeWhile_concat_neg _ _ _ (by simpa using other)]
  rfl

end Text

/-! ## Tags that are not resolved -/

namespace Tag

/-- A tag as it is before its rest marker and its options are resolved. -/
structure Unresolved (tag : Tag) : Prop where
  rest : tag.rest = false
  name : Text.Plain tag.name
  kind : Text.Plain tag.kind
  alternatives : ∀ options, tag.options = some options →
    ∀ alternative ∈ options, Text.Plain alternative
  listed : tag.options ≠ some []

structure Kindless (tag : Tag) : Prop where
  kind : tag.kind = []
  options : tag.options = none

theorem unresolved_empty : Unresolved {} :=
  ⟨rfl, nofun, nofun, nofun, nofun⟩

theorem Unresolved.classified {tag : Tag} (unresolved : tag.Unresolved) :
    tag.classified.Unresolved := by
  obtain ⟨rest, name, kind, alternatives, listed⟩ := unresolved
  rw [Tag.classified]
  split
  · exact ⟨rest, name.of_subset (shorthand_name_suffix _).subset,
      shorthand_kind_plain _, alternatives, listed⟩
  · exact ⟨rest, name, kind, alternatives, listed⟩

end Tag

namespace Scan

variable {s next : Scan} {line : Text} {c : Char}

theorem unresolved_write (unresolved : s.current.Unresolved)
    (plain : Text.Plain [c]) : (s.write c).current.Unresolved := by
  obtain ⟨rest, name, kind, alternatives, listed⟩ := unresolved
  rw [write]
  split
  · exact ⟨rest, name, kind.append plain, alternatives, listed⟩
  · exact ⟨rest, name.append plain, kind, alternatives, listed⟩

theorem unresolved_nextAlternative (unresolved : s.current.Unresolved) :
    s.nextAlternative.current.Unresolved := by
  obtain ⟨rest, name, kind, alternatives, listed⟩ := unresolved
  refine ⟨rest, name, nofun, ?_, by simp [nextAlternative]⟩
  rintro options ⟨⟩ alternative found
  rcases List.mem_append.mp found with early | last
  · cases some_options : s.current.options with
    | none => simp [some_options] at early
    | some earlier =>
        rw [some_options] at early
        exact alternatives earlier some_options alternative early
  · rw [List.mem_singleton.mp last]
    exact kind

/-! ## One character -/

/-- What is always true of a scan. -/
structure Sound (s : Scan) : Prop where
  kinds : ∀ tag ∈ s.closed, tag.kind ≠ []
  closed : ∀ tag ∈ s.closed, tag.Unresolved
  current : s.current.Unresolved
  unbegun : s.inKind = false → s.current.Kindless
  waiting : s.colonPending = true → s.current.Kindless
  /-- A colon that waits though no kind has begun comes from an earlier tag, and
  so far only angle brackets were read after that. -/
  carried : s.colonPending = true → s.inKind = false →
    s.closed ≠ [] ∧ s.current = { required := s.current.required }

theorem sound_empty : Sound {} :=
  ⟨nofun, nofun, Tag.unresolved_empty, fun _ => ⟨rfl, rfl⟩, nofun, nofun⟩

theorem Sound.step {mark : Mark} (sound : s.Sound)
    (plain : ∀ c, mark = .letter c → Text.Plain [c])
    (taken : s.step mark = .ok next) : next.Sound := by
  obtain ⟨kinds, closed, current, unbegun, waiting, carried⟩ := sound
  cases takes_of_step taken with
  | blank => exact ⟨kinds, closed, current, unbegun, waiting, carried⟩
  | openOptional => exact ⟨kinds, closed, current, unbegun, waiting, carried⟩
  | openRequired =>
      obtain ⟨rest, name, kind, alternatives, listed⟩ := current
      refine ⟨kinds, closed, ⟨rest, name, kind, alternatives, listed⟩,
        fun kindless => ⟨(unbegun kindless).kind, (unbegun kindless).options⟩,
        fun pending => ⟨(waiting pending).kind, (waiting pending).options⟩,
        fun pending kindless => ?_⟩
      obtain ⟨some_closed, empty⟩ := carried pending kindless
      refine ⟨some_closed, ?_⟩
      rw [empty]
  | close =>
      have each (P : Tag → Prop) (before : ∀ tag ∈ s.closed, P tag)
          (last : P s.current.classified) : ∀ tag ∈ s.close.closed, P tag := by
        intro tag mem
        rcases List.mem_append.mp mem with early | late
        · exact before tag early
        · exact List.mem_singleton.mp late ▸ last
      exact ⟨each _ kinds s.current.classified_kind_ne_nil,
        each _ closed current.classified, Tag.unresolved_empty,
        fun _ => ⟨rfl, rfl⟩, fun _ => ⟨rfl, rfl⟩,
        fun _ _ => ⟨by simp [Scan.close], rfl⟩⟩
  | pairing pending =>
      obtain ⟨rest, name, kind, alternatives, listed⟩ := current
      exact ⟨kinds, closed, ⟨rest, name, kind, alternatives, listed⟩,
        fun kindless => ⟨(unbegun kindless).kind, (unbegun kindless).options⟩,
        nofun, nofun⟩
  | beginning calm kindless =>
      exact ⟨kinds, closed, current, nofun, fun _ => unbegun kindless, nofun⟩
  | bar begun =>
      exact ⟨kinds, closed, unresolved_nextAlternative current,
        fun kindless => absurd (begun.symm.trans kindless) (by decide), nofun,
        nofun⟩
  | letter c =>
      have written := unresolved_write current (plain c rfl)
      refine ⟨by simpa using kinds, by simpa using closed, written, ?_, ?_, ?_⟩
      · intro kindless
        cases begun : s.inKind with
        | true => simp [write, begun] at kindless
        | false =>
            obtain ⟨kind, options⟩ := unbegun begun
            simp only [write, begun, Bool.false_eq_true, if_false]
            exact ⟨kind, options⟩
      · intro pending
        cases begun : s.inKind <;> simp [write, begun] at pending
      · intro pending
        cases begun : s.inKind <;> simp [write, begun] at pending

theorem plain_of_letter {d : Char} (letter : Mark.ofChar c = .letter d) :
    Text.Plain [d] := by
  unfold Mark.ofChar at letter
  split at letter <;> cases letter
  intro e mem
  rw [List.mem_singleton.mp mem]
  simp_all [Text.shaping]

/-! ## A colon that waits -/

/-- A colon would be taken as the second of a pair: the tag becomes literal, and
nothing else begins. -/
def PairsColon (s : Scan) : Prop :=
  s.read ':' = .ok
    { s with current := { s.current with literal := true }, colonPending := false }

theorem pairsColon_iff : s.PairsColon ↔ s.colonPending = true := by
  constructor
  · intro pairs
    by_contra calm
    rw [PairsColon, read, show Mark.ofChar ':' = .colon from rfl, Scan.step,
      if_neg calm] at pairs
    split at pairs
    · cases pairs
    · rename_i kindless
      exact kindless (congrArg Scan.inKind (Except.ok.inj pairs)).symm
  · intro pending
    simp [PairsColon, read, Mark.ofChar, Scan.step, pending]

theorem colonPending_of_silent (isSilent : c ∈ Text.silent)
    (taken : s.read c = .ok next) : next.colonPending = s.colonPending := by
  simp only [Text.silent, List.mem_cons, List.not_mem_nil, or_false] at isSilent
  rcases isSilent with rfl | rfl | rfl | rfl | rfl <;>
    cases takes_of_step taken <;> rfl

theorem colonPending_of_colon (taken : s.read ':' = .ok next) :
    next.colonPending = !s.colonPending := by
  cases takes_of_step taken with
  | pairing pending => simp [pending]
  | beginning calm => simp [calm]

theorem colonPending_of_other (speaks : c ∉ Text.silent) (other : c ≠ ':')
    (taken : s.read c = .ok next) : next.colonPending = false := by
  have mark : Mark.ofChar c = .bar ∨ Mark.ofChar c = .letter c := by
    unfold Mark.ofChar
    split <;> simp_all [Text.silent]
  rw [read] at taken
  rcases mark with bar | letter
  · rw [bar] at taken
    cases takes_of_step taken
    rfl
  · rw [letter] at taken
    cases takes_of_step taken
    rw [write]
    split <;> rfl

/-- A colon is the last thing that a line says, and it was not taken as the
second of a pair. -/
def EndsInOpenColon (line : Text) : Prop :=
  ∃ before after, line = before ++ ':' :: after ∧
    (∀ c ∈ after, c ∈ Text.silent) ∧ ¬ (scan before).last.PairsColon

theorem endsInOpenColon_of_silent (isSilent : c ∈ Text.silent) :
    EndsInOpenColon (line ++ [c]) ↔ EndsInOpenColon line := by
  constructor
  · rintro ⟨before, after, split, quiet, unpaired⟩
    rcases List.eq_nil_or_concat' after with rfl | ⟨front, last, rfl⟩
    · obtain ⟨-, colon⟩ := List.append_inj' split rfl
      obtain rfl := List.singleton_inj.mp colon
      exact absurd isSilent (by simp [Text.silent])
    · rw [← List.cons_append, ← List.append_assoc] at split
      obtain ⟨same, -⟩ := List.append_inj' split rfl
      exact ⟨before, front, same,
        fun d mem => quiet d (List.mem_append_left _ mem), unpaired⟩
  · rintro ⟨before, after, rfl, quiet, unpaired⟩
    refine ⟨before, after ++ [c], by simp, fun d mem => ?_, unpaired⟩
    rcases List.mem_append.mp mem with early | late
    · exact quiet d early
    · exact List.mem_singleton.mp late ▸ isSilent

/-- A line that says something last ends in an open colon only if that is the
colon. -/
theorem endsInOpenColon_of_spoken (speaks : c ∉ Text.silent) :
    EndsInOpenColon (line ++ [c]) ↔
      c = ':' ∧ ¬ (scan line).last.PairsColon := by
  constructor
  · rintro ⟨before, after, split, quiet, unpaired⟩
    rcases List.eq_nil_or_concat' after with rfl | ⟨front, last, rfl⟩
    · obtain ⟨rfl, colon⟩ := List.append_inj' split rfl
      exact ⟨List.singleton_inj.mp colon, unpaired⟩
    · rw [← List.cons_append, ← List.append_assoc] at split
      obtain ⟨-, same⟩ := List.append_inj' split rfl
      obtain rfl := List.singleton_inj.mp same
      exact absurd (quiet c (by simp)) speaks
  · rintro ⟨rfl, unpaired⟩
    exact ⟨line, [], rfl, nofun, unpaired⟩

/-! ## Whole lines -/

/-- The scans that the characters of a line lead to one after the other, where
none of them is misused. -/
inductive Reaches : Text → Scan → Prop
  | start : Reaches [] {}
  | read {line : Text} {s next : Scan} {c : Char} (reached : Reaches line s)
      (taken : s.read c = .ok next) : Reaches (line ++ [c]) next

/-- A line leads to the scan that it leaves when it is scanned to its end. -/
theorem reaches_iff : Reaches line s ↔ scan line = { last := s } := by
  constructor
  · intro reached
    induction reached with
    | start => rfl
    | read reached taken ih =>
        rw [scan] at ih ⊢
        rw [run_append, ih]
        simp only [run, taken]
  · intro scanned
    induction line using List.reverseRecOn generalizing s with
    | nil =>
        cases scanned
        exact .start
    | append_singleton line c ih =>
        rw [scan, run_append, ← scan] at scanned
        cases before : scan line with
        | mk last stop =>
            rw [before] at scanned
            cases stop with
            | some stop => cases scanned
            | none =>
                simp only [run] at scanned
                cases taken : last.read c with
                | error what => rw [taken] at scanned; cases scanned
                | ok next =>
                    rw [taken] at scanned
                    cases scanned
                    exact .read (ih before) taken

/-- What is true of a scan that a line leads to. -/
structure Kept (s : Scan) (line : Text) : Prop where
  count : s.closed.length = line.closers
  sound : s.Sound
  pending : s.colonPending = true ↔ EndsInOpenColon line
  /-- The colons at the end of what a line says are paired from the first on. -/
  odd : s.colonPending = true ↔ line.endingColons % 2 = 1

/-- One character keeps what is true of a scan. -/
theorem Kept.read (kept : s.Kept line) (reached : Reaches line s)
    (taken : s.read c = .ok next) : next.Kept (line ++ [c]) := by
  have last : (scan line).last = s := congrArg Scanned.last (reaches_iff.mp reached)
  have sound := kept.sound.step (fun _ letter => plain_of_letter letter) taken
  have count : next.closed.length = (line ++ [c]).closers := by
    rw [closed_of_step taken, List.length_append, kept.count,
      Text.closers_append, Text.closers_singleton]
    split <;> rfl
  by_cases isSilent : c ∈ Text.silent
  · refine ⟨count, sound, ?_, ?_⟩
    · rw [colonPending_of_silent isSilent taken, endsInOpenColon_of_silent isSilent]
      exact kept.pending
    · rw [colonPending_of_silent isSilent taken, Text.endingColons_of_silent isSilent]
      exact kept.odd
  by_cases colon : c = ':'
  · subst colon
    have turned := colonPending_of_colon taken
    have odd := kept.odd
    refine ⟨count, sound, ?_, ?_⟩
    · rw [turned, endsInOpenColon_of_spoken isSilent, last, pairsColon_iff]
      simp
    · rw [turned, Text.endingColons_of_colon, Bool.not_eq_true', Bool.eq_false_iff,
        ne_eq, odd]
      omega
  · have calm := colonPending_of_other isSilent colon taken
    refine ⟨count, sound, ?_, ?_⟩
    · rw [calm, endsInOpenColon_of_spoken isSilent]
      simp [colon]
    · rw [calm, Text.endingColons_of_other isSilent colon]
      simp

end Scan

/-- Every scan that characters lead to has closed one tag at each closing
bracket, all of them with a kind.  Its tags are not resolved: none is a rest
tag, none has options without an alternative, and no text in them holds a
character that shapes a line.  Nothing of a kind is written before it begins or
while a colon waits; a colon that waits where no kind has begun comes from an
earlier tag.  A colon waits exactly if it is the last thing that was said and
was not taken as the second of a pair, which is to say if an odd number of
colons ends what was said. -/
theorem reached_kept {line : Text} {s : Scan} (reached : Scan.Reaches line s) :
    s.Kept line := by
  induction reached with
  | start =>
      refine ⟨rfl, Scan.sound_empty, ?_, ?_⟩
      · refine iff_of_false nofun ?_
        rintro ⟨before, after, split, -⟩
        simp at split
      · exact iff_of_false nofun (by decide)
  | read reached taken ih => exact ih.read reached taken

/-- A colon that waits is carried past the bracket that closes its tag and the
one that opens the next. -/
theorem reached_kept_of_carried_colon :
    Scan.Kept
      { closed := [{ name := ['a'], kind := Tag.literalKind, required := true }]
        current := { required := true }
        colonPending := true }
      ['<', 'a', ':', ' ', '>', '<'] :=
  reached_kept (Scan.reaches_iff.mpr (by decide))

end UsageLine

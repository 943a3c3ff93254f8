import UsageLine.Proofs.Segment.Scan
import UsageLine.Parse

/-!
# The segments of a line

A line is cut behind each closing bracket.  Every piece but the last is a
closed segment, and each segment meets the colon that the one before leaves
waiting.  The scan of a line stops at the first misuse of all its segments, and
without one it closes the tag of each closed segment in turn.
-/

namespace UsageLine

namespace Segment

/-- Segments in a row, each with the colon that the one before leaves. -/
def chain : Bool → List (List Placed) → List Segment
  | _, [] => []
  | waiting, written :: rest =>
      ⟨waiting, written⟩ :: chain (leaves ⟨waiting, written⟩) rest

/-- The segments of placed characters. -/
def cut (waiting : Bool) (placed : List Placed) : List Segment :=
  chain waiting (placed.splitOnP Placed.isClosing)

/-- Placed characters end in an open segment, or begin with a closed one. -/
theorem cut_induction {motive : List Placed → Prop}
    (last : ∀ written, (∀ c ∈ written, c.isClosing = false) → motive written)
    (closed : ∀ written c rest, (∀ d ∈ written, d.isClosing = false) →
      c.isClosing = true → motive rest → motive (written ++ c :: rest))
    (placed : List Placed) : motive placed := by
  have whole := List.takeWhile_append_dropWhile
    (p := fun c => !Placed.isClosing c) (l := placed)
  have unclosing : ∀ c ∈ placed.takeWhile fun c => !Placed.isClosing c,
      c.isClosing = false := fun c mem => by
    simpa using List.mem_takeWhile_imp mem
  match remaining : placed.dropWhile fun c => !Placed.isClosing c with
  | [] =>
      rw [remaining, List.append_nil] at whole
      exact last placed (whole ▸ unclosing)
  | c :: rest =>
      have closing : c.isClosing = true := by
        have first := List.head_dropWhile_not
          (fun c => !Placed.isClosing c) (l := placed) (by simp [remaining])
        simpa [remaining] using first
      rw [remaining] at whole
      have shorter : rest.length < placed.length := by
        have lengths := congrArg List.length whole
        simp only [List.length_append, List.length_cons] at lengths
        omega
      rw [← whole]
      exact closed _ c rest unclosing closing
        (cut_induction last closed rest)
termination_by placed.length

theorem cut_open (waiting : Bool) {written : List Placed}
    (unclosing : ∀ c ∈ written, c.isClosing = false) :
    cut waiting written = [⟨waiting, written⟩] := by
  rw [cut, List.splitOnP_eq_singleton unclosing]
  rfl

theorem cut_closed (waiting : Bool) {written : List Placed} {c : Placed}
    (unclosing : ∀ d ∈ written, d.isClosing = false)
    (closing : c.isClosing = true) (rest : List Placed) :
    cut waiting (written ++ c :: rest) =
      ⟨waiting, written⟩ :: cut (leaves ⟨waiting, written⟩) rest := by
  rw [cut, List.splitOnP_append_cons_of_forall_mem unclosing c closing]
  rfl

theorem cut_ne_nil (waiting : Bool) (placed : List Placed) :
    cut waiting placed ≠ [] := by
  cases placed using cut_induction with
  | last written unclosing => simp [cut_open waiting unclosing]
  | closed written c rest unclosing closing _ =>
      simp [cut_closed waiting unclosing closing]

theorem written_subset_of_mem_cut {waiting : Bool} {placed : List Placed}
    {seg : Segment} (mem : seg ∈ cut waiting placed) :
    seg.written ⊆ placed ∧ ∀ c ∈ seg.written, c.isClosing = false := by
  induction placed using cut_induction generalizing waiting with
  | last written unclosing =>
      rw [cut_open waiting unclosing, List.mem_singleton] at mem
      subst mem
      exact ⟨List.Subset.refl written, unclosing⟩
  | closed written c rest unclosing closing ih =>
      rw [cut_closed waiting unclosing closing, List.mem_cons] at mem
      rcases mem with rfl | later
      · exact ⟨List.subset_append_left _ _, unclosing⟩
      · obtain ⟨subset, clean⟩ := ih later
        refine ⟨fun d found => ?_, clean⟩
        exact List.mem_append_right _ (List.mem_cons_of_mem _ (subset found))

theorem exists_mem_cut {placed : List Placed} {c : Placed} (mem : c ∈ placed)
    (unclosing : c.isClosing = false) (waiting : Bool) :
    ∃ seg ∈ cut waiting placed, c ∈ seg.written := by
  induction placed using cut_induction generalizing waiting with
  | last written quiet =>
      rw [cut_open waiting quiet]
      exact ⟨_, List.mem_singleton_self _, mem⟩
  | closed written closer rest quiet closing ih =>
      rw [cut_closed waiting quiet closing]
      rcases List.mem_append.mp mem with early | later
      · exact ⟨_, List.mem_cons_self, early⟩
      rcases List.mem_cons.mp later with rfl | later
      · exact absurd closing (by simp [unclosing])
      · obtain ⟨seg, inside, found⟩ := ih later (leaves ⟨waiting, written⟩)
        exact ⟨seg, List.mem_cons_of_mem _ inside, found⟩

def allMisuses (segs : List Segment) : List (Misuse × Nat) :=
  segs.flatMap misuses

theorem exists_of_mem_allMisuses {waiting : Bool} {placed : List Placed}
    {misuse : Misuse × Nat} (found : misuse ∈ allMisuses (cut waiting placed)) :
    ∃ c ∈ placed, c.2 = misuse.2 := by
  obtain ⟨seg, mem, inside⟩ := List.mem_flatMap.mp found
  obtain ⟨c, written, place⟩ := exists_of_mem_misuses inside
  exact ⟨c, (written_subset_of_mem_cut mem).1 written, place⟩

/-- The tags that a row of segments closes; the last segment stays open. -/
def rawTags (segs : List Segment) : List Tag :=
  segs.dropLast.map fun seg => seg.rawTag.classified

/-- What leads the misuses of a segment leads those of the segments behind it as
well. -/
theorem leads_append_cut {seg : Segment} {c : Placed} {rest : List Placed}
    {first : Misuse × Nat}
    (rising : Placed.Rising (seg.written ++ c :: rest))
    (leads : Leads first seg.misuses) (waiting : Bool) :
    Leads first (seg.misuses ++ allMisuses (cut waiting rest)) := by
  apply leads.append
  intro other found
  obtain ⟨d, mem, place⟩ := exists_of_mem_misuses leads.1
  obtain ⟨e, later, place'⟩ := exists_of_mem_allMisuses found
  rw [← place, ← place']
  exact (List.pairwise_append.mp rising).2.2 d mem e
    (List.mem_cons_of_mem _ later)

/-- A scan stops at the misuse that leads all those of the segments.  Without
one it closes their tags and ends in the last segment. -/
theorem follow_cut (placed : List Placed)
    (solid : ∀ c ∈ placed, c.isSolid = true) (rising : Placed.Rising placed)
    (waiting : Bool) (closed : List Tag) :
    (∃ last first, Leads first (allMisuses (cut waiting placed)) ∧
      Scan.follow { closed := closed, colonPending := waiting } placed =
        { last := last, stop := some first }) ∨
    (allMisuses (cut waiting placed) = [] ∧
      ∃ last, (cut waiting placed).getLast? = some last ∧
        Scan.follow { closed := closed, colonPending := waiting } placed =
          { last := last.scanAfter
              (closed ++ rawTags (cut waiting placed)) }) := by
  induction placed using cut_induction generalizing waiting closed with
  | last written unclosing =>
      rw [cut_open waiting unclosing]
      have proper : Proper ⟨waiting, written⟩ := fun c mem =>
        ⟨solid c mem, unclosing c mem⟩
      have all : allMisuses [⟨waiting, written⟩] = misuses ⟨waiting, written⟩ :=
        List.flatMap_singleton ..
      rw [all]
      rcases follow_written proper rising closed with
        ⟨part, first, leads, stopped⟩ | ⟨clean, through⟩
      · exact .inl ⟨_, first, leads, stopped⟩
      · refine .inr ⟨clean, _, rfl, ?_⟩
        simpa [rawTags] using through
  | closed written c rest unclosing closing ih =>
      rw [cut_closed waiting unclosing closing]
      have parts := List.pairwise_append.mp rising
      have proper : Proper ⟨waiting, written⟩ := fun d mem =>
        ⟨solid d (List.mem_append_left _ mem), unclosing d mem⟩
      have all : allMisuses (⟨waiting, written⟩ ::
          cut (leaves ⟨waiting, written⟩) rest) =
          misuses ⟨waiting, written⟩ ++
            allMisuses (cut (leaves ⟨waiting, written⟩) rest) :=
        List.flatMap_cons ..
      rw [all]
      rcases follow_written proper parts.1 closed with
        ⟨part, first, leads, stopped⟩ | ⟨clean, through⟩
      · exact .inl ⟨_, first, leads_append_cut rising leads _,
          (Scan.follow_append_of_stop (congrArg Scanned.stop stopped) _).trans
            stopped⟩
      · rw [clean, List.nil_append, follow_closed through closing]
        have solid' : ∀ d ∈ rest, d.isSolid = true := fun d mem =>
          solid d (List.mem_append_right _ (List.mem_cons_of_mem _ mem))
        have rising' := (List.pairwise_cons.mp parts.2.1).2
        have more := cut_ne_nil (leaves ⟨waiting, written⟩) rest
        rcases ih solid' rising' (leaves ⟨waiting, written⟩)
            (closed ++ [(rawTag ⟨waiting, written⟩).classified]) with
          ⟨last, first, leads, stopped⟩ | ⟨clean', last, isLast, ended⟩
        · exact .inl ⟨last, first, leads, stopped⟩
        · refine .inr ⟨clean', last, ?_, ?_⟩
          · rw [List.getLast?_cons, isLast]
            rfl
          · rw [ended, rawTags, rawTags, List.dropLast_cons_of_ne_nil more,
              List.map_cons, List.append_assoc]
            rfl

end Segment

def Text.segments (line : Text) : List Segment :=
  Segment.cut false (Text.solid line)

def Text.misuses (line : Text) : List (Misuse × Nat) :=
  Segment.allMisuses (Text.segments line)

/-- What a line scans to: its first misuse, or the tags of its closed
segments. -/
theorem scan_tags (line : Text) :
    (scan line).tags =
      match earliest (Text.misuses line) with
      | some (what, position) => .error (.misused what position)
      | none => .ok (Segment.rawTags (Text.segments line)) := by
  have solid : ∀ c ∈ Text.solid line, c.isSolid = true := fun c mem =>
    (List.mem_filter.mp mem).2
  rw [scan_eq_follow]
  rcases Segment.follow_cut (Text.solid line) solid (Text.rising_solid line)
      false [] with ⟨last, first, leads, stopped⟩ | ⟨clean, last, _, ended⟩
  · rw [Text.misuses, Text.segments, leads.earliest_eq]
    rw [show Scan.follow {} (Text.solid line) = _ from stopped]
    rfl
  · rw [Text.misuses, Text.segments, clean, earliest_eq_none_iff.mpr rfl]
    rw [show Scan.follow {} (Text.solid line) = _ from ended]
    rfl

end UsageLine

import UsageLine.Proofs.Segment.Line
import Mathlib.Data.List.Forall2

/-!
# Segments by their spelling

What a segment stands for depends on its characters alone, and not on their
places.  Here its parts are read off its text: a text with a colon is cut at
the first one, and a text without a colon is a name.
-/

namespace UsageLine.Segment

variable {seg : Segment}

/-! ## The text of the parts -/

/-- Without a waiting colon the body is all that the segment says. -/
theorem own_of_not_waiting (fresh : seg.waiting = false) :
    seg.own = seg.body := by
  simp [own, meets, fresh]

theorem text_body (seg : Segment) :
    Placed.text seg.body =
      (Placed.text seg.written).filter fun c => !(c == '<' || c == '[') :=
  Placed.text_filter (fun c => !(c == '<' || c == '[')) seg.written

/-- The body of a single opening bracket is what stands around it. -/
theorem text_body_of_bracket {before inner : Text} {bracket : Char}
    (written : Placed.text seg.written = before ++ bracket :: inner)
    (opening : bracket = '<' ∨ bracket = '[')
    (front : ∀ c ∈ before, c ≠ '<' ∧ c ≠ '[')
    (inside : ∀ c ∈ inner, c ≠ '<' ∧ c ≠ '[') :
    Placed.text seg.body = before ++ inner := by
  rw [text_body, written, List.filter_append]
  congr 1
  · apply List.filter_eq_self.mpr
    intro c mem
    simp [front c mem]
  · rw [List.filter_cons_of_neg]
    · apply List.filter_eq_self.mpr
      intro c mem
      simp [inside c mem]
    · rcases opening with rfl | rfl
      · simp
      · simp

theorem text_nameSide (seg : Segment) :
    Placed.text seg.nameSide =
      (Placed.text seg.own).takeWhile (· != ':') :=
  Placed.text_takeWhile (· != ':') seg.own

theorem text_kindSide (seg : Segment) :
    Placed.text seg.kindSide =
      (Placed.text seg.own).dropWhile (· != ':') :=
  Placed.text_dropWhile (· != ':') seg.own

theorem text_kindWritten (seg : Segment) :
    Placed.text seg.kindWritten =
      (Placed.text seg.kindSide).drop (if seg.doubled then 2 else 1) :=
  List.map_drop ..

theorem spelling_of_no_colon (colonless : ':' ∉ Placed.text seg.own) :
    seg.nameSide = seg.own ∧ seg.kindSide = [] ∧ seg.doubled = false ∧
      seg.kindWritten = [] := by
  have side := kindSide_eq_nil_iff.mpr colonless
  obtain ⟨doubled, written⟩ := kindWritten_of_kindSide (.inl side)
  exact ⟨nameSide_of_kindSide side, side, doubled, written⟩

theorem sides_of_colon {name rest : Text}
    (own : Placed.text seg.own = name ++ ':' :: rest)
    (colonless : ':' ∉ name) :
    Placed.text seg.nameSide = name ∧
      Placed.text seg.kindSide = ':' :: rest := by
  have letters : ∀ c ∈ name, (c != ':') = true := fun c mem =>
    bne_iff_ne.mpr fun colon => colonless (colon ▸ mem)
  rw [text_nameSide, text_kindSide, own,
    List.takeWhile_append_of_pos letters, List.dropWhile_append_of_pos letters]
  simp

theorem spelling_of_colon {name kind : Text}
    (own : Placed.text seg.own = name ++ ':' :: kind)
    (colonless : ':' ∉ name) (single : kind.head? ≠ some ':') :
    Placed.text seg.nameSide = name ∧ seg.doubled = false ∧
      Placed.text seg.kindWritten = kind := by
  obtain ⟨nameSide, kindSide⟩ := sides_of_colon own colonless
  have tail : Placed.text seg.kindSide.tail = kind := by
    rw [Placed.text, List.map_tail]
    exact congrArg List.tail kindSide
  have undoubled : seg.doubled = false := by
    rw [doubled, tail]
    exact beq_eq_false_iff_ne.mpr single
  refine ⟨nameSide, undoubled, ?_⟩
  rw [text_kindWritten, undoubled, kindSide]
  rfl

theorem spelling_of_colons {name kind : Text}
    (own : Placed.text seg.own = name ++ ':' :: ':' :: kind)
    (colonless : ':' ∉ name) :
    Placed.text seg.nameSide = name ∧ seg.doubled = true ∧
      Placed.text seg.kindWritten = kind := by
  obtain ⟨nameSide, kindSide⟩ := sides_of_colon own colonless
  have tail : Placed.text seg.kindSide.tail = ':' :: kind := by
    rw [Placed.text, List.map_tail]
    exact congrArg List.tail kindSide
  have double : seg.doubled = true := by
    rw [doubled, tail]
    rfl
  refine ⟨nameSide, double, ?_⟩
  rw [text_kindWritten, double, kindSide]
  rfl

/-! ## Misuses by the spelling -/

theorem strayBars_eq_nil_iff :
    seg.strayBars = [] ↔ '|' ∉ Placed.text seg.nameSide :=
  Placed.filter_eq_nil_iff

theorem extraColons_eq_nil_iff :
    seg.extraColons = [] ↔ ':' ∉ Placed.text seg.kindWritten :=
  Placed.filter_eq_nil_iff

theorem nestings_eq_nil {before inner : Text} {bracket : Char}
    (written : Placed.text seg.written = before ++ bracket :: inner)
    (angles : '<' ∉ before) (inside : ∀ c ∈ inner, c ≠ '<' ∧ c ≠ '[') :
    seg.nestings = [] := by
  have spelled : Placed.text seg.nestings =
      ((Placed.text seg.written).dropWhile (· != '<')).filter (· == '[') := by
    rw [nestings, Placed.text_filter (· == '['),
      Placed.text_dropWhile (· != '<')]
  have letters : ∀ c ∈ before, (c != '<') = true := fun c mem =>
    bne_iff_ne.mpr fun angle => angles (angle ▸ mem)
  have empty : Placed.text seg.nestings = [] := by
    rw [spelled, written, List.dropWhile_append_of_pos letters]
    apply List.filter_eq_nil_iff.mpr
    intro c mem
    -- From the angle bracket on there is only what stands inside it.
    by_cases angle : bracket = '<'
    · rw [List.dropWhile_cons_of_neg (by simp [angle]), List.mem_cons] at mem
      rcases mem with rfl | mem
      · simp [angle]
      · simp [(inside c mem).2]
    · rw [List.dropWhile_cons_of_pos (by simp [angle])] at mem
      have mem := (List.dropWhile_sublist _).subset mem
      simp [(inside c mem).2]
  exact List.map_eq_nil_iff.mp empty

/-! ## What stands in a segment of a line -/

theorem own_chars {line : Text} (mem : seg ∈ Text.segments line)
    {c : Char} (found : c ∈ Placed.text seg.own) :
    c ∉ [' ', '<', '>', '[', ']'] := by
  obtain ⟨subset, unclosing⟩ := written_subset_of_mem_cut mem
  obtain ⟨d, own, rfl⟩ := List.mem_map.mp found
  have written := seg.own_sublist.subset own
  have solid := (List.mem_filter.mp (subset written)).2
  have closing := unclosing d written
  have body : d ∈ seg.body := by
    rw [Segment.own] at own
    split at own
    · exact List.mem_of_mem_tail own
    · exact own
  have opening := (List.mem_filter.mp body).2
  simp only [Placed.isSolid, Placed.isClosing, Placed.isOpening, bne_iff_ne,
    Bool.or_eq_false_iff, beq_eq_false_iff_ne, Bool.not_eq_true',
    ne_eq] at solid closing opening
  simp [solid, closing, opening]

/-! ## Cutting by the spelling -/

/-- Pieces of text, each with the bracket that closes it. -/
def spelledOut (pieces : List (Text × Char)) : Text :=
  pieces.flatMap fun piece => piece.1 ++ [piece.2]

/-- A segment that nothing waits for and that is spelled like a piece. -/
def Spells (seg : Segment) (piece : Text × Char) : Prop :=
  seg.waiting = false ∧ Placed.text seg.written = piece.1

/-- A piece that is closed by its own bracket and by no other. -/
structure Closes (piece : Text × Char) : Prop where
  inside : ∀ c ∈ piece.1, c ≠ '>' ∧ c ≠ ']'
  bracket : piece.2 = '>' ∨ piece.2 = ']'

/-- A text of closed pieces that leave no colon waiting is cut into them, and
an empty segment stays open. -/
theorem cut_of_spelledOut {pieces : List (Text × Char)} {placed : List Placed}
    (spelled : Placed.text placed = spelledOut pieces)
    (closes : ∀ piece ∈ pieces, Closes piece)
    (still : ∀ piece ∈ pieces, ∀ seg, Spells seg piece → seg.leaves = false) :
    ∃ segs, cut false placed = segs ++ [⟨false, []⟩] ∧
      List.Forall₂ Spells segs pieces := by
  induction pieces generalizing placed with
  | nil =>
      have empty : placed = [] := List.map_eq_nil_iff.mp spelled
      subst empty
      exact ⟨[], cut_open false (by simp), .nil⟩
  | cons piece rest ih =>
      obtain ⟨inner, bracket⟩ := piece
      have parts : Placed.text placed =
          inner ++ bracket :: spelledOut rest := by
        rw [spelled]
        simp [spelledOut]
      obtain ⟨written, behind, rfl, text_written, text_behind⟩ :=
        List.map_eq_append_iff.mp parts
      obtain ⟨closer, after, rfl, isBracket, text_after⟩ :=
        List.map_eq_cons_iff.mp text_behind
      obtain ⟨unclosing, bracket_eq⟩ := closes _ List.mem_cons_self
      have quiet : ∀ d ∈ written, Placed.isClosing d = false := by
        intro d mem
        have inside : d.1 ∈ inner := text_written ▸ List.mem_map_of_mem mem
        simp [Placed.isClosing, unclosing d.1 inside]
      have closing : Placed.isClosing closer = true := by
        rw [← isBracket] at bracket_eq
        simpa [Placed.isClosing] using bracket_eq
      have spells : Spells ⟨false, written⟩ (inner, bracket) :=
        ⟨rfl, text_written⟩
      obtain ⟨segs, cut_eq, others⟩ := ih text_after
        (fun piece mem => closes piece (List.mem_cons_of_mem _ mem))
        (fun piece mem => still piece (List.mem_cons_of_mem _ mem))
      refine ⟨⟨false, written⟩ :: segs, ?_, .cons spells others⟩
      rw [cut_closed false quiet closing,
        still _ List.mem_cons_self _ spells, cut_eq]
      rfl

end UsageLine.Segment

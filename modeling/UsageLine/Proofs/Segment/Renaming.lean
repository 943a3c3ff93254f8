import UsageLine.Proofs.Reading

/-!
# Segments under a renaming

Only some characters mean anything to a reader of usage lines.  A map that
keeps these and makes no new one renames the others.  What a segment says is
told by its body, by whether it is required, and by the colon that waits before
it; so two segments that agree in these, but for a renaming, have the same parts
but for the renames.
-/

namespace UsageLine

/-- The characters that a reader of usage lines tells from others. -/
def Text.signs : List Char := [' ', '<', '>', '[', ']', ':', '|', '@', '.']

/-- A map of characters that keeps every sign and makes no new one. -/
structure Renaming (f : Char → Char) : Prop where
  keeps : ∀ c ∈ Text.signs, f c = c
  apart : ∀ c ∉ Text.signs, f c ∉ Text.signs

namespace Renaming

variable {f : Char → Char} (renames : Renaming f)

theorem refl : Renaming id := ⟨fun _ _ => rfl, fun _ other => other⟩

include renames

theorem eq_iff {c sign : Char} (mem : sign ∈ Text.signs) :
    f c = sign ↔ c = sign := by
  constructor
  · intro renamed
    by_cases own : c ∈ Text.signs
    · rw [← renames.keeps c own]
      exact renamed
    · exact absurd (renamed ▸ mem) (renames.apart c own)
  · rintro rfl
    exact renames.keeps c mem

theorem beq_eq {c sign : Char} (mem : sign ∈ Text.signs) :
    (f c == sign) = (c == sign) := by
  rw [Bool.eq_iff_iff, beq_iff_eq, beq_iff_eq, renames.eq_iff mem]

theorem bne_eq {c sign : Char} (mem : sign ∈ Text.signs) :
    (f c != sign) = (c != sign) :=
  congrArg not (renames.beq_eq mem)

theorem mem_map_iff {text : Text} {sign : Char} (mem : sign ∈ Text.signs) :
    sign ∈ text.map f ↔ sign ∈ text := by
  rw [List.mem_map]
  constructor
  · rintro ⟨c, found, renamed⟩
    rw [← (renames.eq_iff mem).mp renamed]
    exact found
  · intro found
    exact ⟨sign, found, renames.keeps sign mem⟩

theorem head?_map_beq {text : Text} {sign : Char} (mem : sign ∈ Text.signs) :
    ((text.map f).head? == some sign) = (text.head? == some sign) := by
  cases text with
  | nil => rfl
  | cons c rest => exact renames.beq_eq mem

theorem map_eq_iff {part signs : Text} (all : ∀ c ∈ signs, c ∈ Text.signs) :
    part.map f = signs ↔ part = signs := by
  induction signs generalizing part with
  | nil => exact List.map_eq_nil_iff
  | cons sign rest ih =>
      have first := all sign List.mem_cons_self
      have others := fun c mem => all c (List.mem_cons_of_mem _ mem)
      cases part with
      | nil => simp
      | cons c more =>
          rw [List.map_cons, List.cons.injEq, List.cons.injEq,
            renames.eq_iff first, ih others]

theorem isSuffixOf_map {text signs : Text} (all : ∀ c ∈ signs, c ∈ Text.signs) :
    signs.isSuffixOf (text.map f) = signs.isSuffixOf text := by
  rw [Bool.eq_iff_iff, List.isSuffixOf_iff_suffix, List.isSuffixOf_iff_suffix,
    List.suffix_map_iff]
  constructor
  · rintro ⟨part, ends, renamed⟩
    rwa [(renames.map_eq_iff all).mp renamed.symm] at ends
  · intro ends
    exact ⟨signs, ends, ((renames.map_eq_iff all).mpr rfl).symm⟩

theorem prefix_map_iff {text signs : Text} (all : ∀ c ∈ signs, c ∈ Text.signs) :
    signs <+: text.map f ↔ signs <+: text := by
  rw [List.prefix_map_iff]
  constructor
  · rintro ⟨part, starts, renamed⟩
    rwa [(renames.map_eq_iff all).mp renamed.symm] at starts
  · intro starts
    exact ⟨signs, starts, ((renames.map_eq_iff all).mpr rfl).symm⟩

theorem takeWhile_map_bne {text : Text} {sign : Char} (mem : sign ∈ Text.signs) :
    (text.map f).takeWhile (· != sign) = (text.takeWhile (· != sign)).map f := by
  rw [List.takeWhile_map]
  exact congrArg (fun p => (text.takeWhile p).map f)
    (funext fun c => renames.bne_eq mem)

theorem dropWhile_map_bne {text : Text} {sign : Char} (mem : sign ∈ Text.signs) :
    (text.map f).dropWhile (· != sign) = (text.dropWhile (· != sign)).map f := by
  rw [List.dropWhile_map]
  exact congrArg (fun p => (text.dropWhile p).map f)
    (funext fun c => renames.bne_eq mem)

end Renaming

namespace Placed

theorem text_tail (placed : List Placed) :
    text placed.tail = (text placed).tail :=
  List.map_tail

theorem isEmpty_text (placed : List Placed) :
    (text placed).isEmpty = placed.isEmpty :=
  List.isEmpty_map

theorem length_text (placed : List Placed) :
    (text placed).length = placed.length :=
  List.length_map ..

end Placed

theorem Text.splitOnP_map {α : Type} (f : α → Char) (p : Char → Bool)
    (placed : List α) :
    (placed.map f).splitOnP p = (placed.splitOnP (p ∘ f)).map (List.map f) := by
  induction placed with
  | nil => rfl
  | cons c rest ih =>
      rw [List.map_cons, List.splitOnP_cons_eq_if_modifyHead,
        List.splitOnP_cons_eq_if_modifyHead, ih]
      match pieces : rest.splitOnP (p ∘ f), List.splitOnP_ne_nil (p ∘ f) rest with
      | first :: others, _ => by_cases ends : p (f c) <;> simp [ends]

theorem Renaming.splitOn_map {f : Char → Char} (renames : Renaming f)
    (text : Text) :
    (text.map f).splitOn '|' = (text.splitOn '|').map (List.map f) := by
  rw [List.splitOn_eq_splitOnP, List.splitOn_eq_splitOnP, Text.splitOnP_map]
  exact congrArg (fun p => (text.splitOnP p).map (List.map f))
    (funext fun c => renames.beq_eq (by decide))

/-- The tag with its name, its kind and its alternatives renamed. -/
def Tag.renamed (f : Char → Char) (tag : Tag) : Tag :=
  { tag with
    name := tag.name.map f
    kind := tag.kind.map f
    options := tag.options.map (List.map (List.map f)) }

namespace Segment

/-- Two segments say the same but for a renaming, and wait for the same. -/
structure Alike (f : Char → Char) (seg other : Segment) : Prop where
  waiting : other.waiting = seg.waiting
  body : Placed.text other.body = (Placed.text seg.body).map f
  required : other.required = seg.required

namespace Alike

variable {f : Char → Char} {seg other : Segment} (renames : Renaming f)
  (alike : Alike f seg other)
include renames alike

theorem meets : other.meets = seg.meets := by
  rw [Segment.meets, Segment.meets, alike.waiting, alike.body,
    renames.head?_map_beq (by decide)]

theorem own : Placed.text other.own = (Placed.text seg.own).map f := by
  rw [Segment.own, Segment.own, alike.meets renames]
  split
  · rw [Placed.text_tail, Placed.text_tail, alike.body, List.map_tail]
  · exact alike.body

theorem nameSide :
    Placed.text other.nameSide = (Placed.text seg.nameSide).map f := by
  rw [text_nameSide, text_nameSide, alike.own renames,
    renames.takeWhile_map_bne (by decide)]

theorem kindSide :
    Placed.text other.kindSide = (Placed.text seg.kindSide).map f := by
  rw [text_kindSide, text_kindSide, alike.own renames,
    renames.dropWhile_map_bne (by decide)]

theorem doubled : other.doubled = seg.doubled := by
  rw [Segment.doubled, Segment.doubled, Placed.text_tail, Placed.text_tail,
    alike.kindSide renames, ← List.map_tail, renames.head?_map_beq (by decide)]

theorem kindWritten :
    Placed.text other.kindWritten = (Placed.text seg.kindWritten).map f := by
  rw [text_kindWritten, text_kindWritten, alike.doubled renames,
    alike.kindSide renames, List.map_drop]

theorem leaves : other.leaves = seg.leaves := by
  have empty : other.body.isEmpty = seg.body.isEmpty := by
    rw [← Placed.isEmpty_text, alike.body, List.isEmpty_map,
      Placed.isEmpty_text]
  have kind : other.kindSide.length = seg.kindSide.length := by
    rw [← Placed.length_text, alike.kindSide renames, List.length_map,
      Placed.length_text]
  rw [Segment.leaves, Segment.leaves, canMeet, canMeet, alike.waiting, empty,
    kind]

theorem literal : other.literal = seg.literal := by
  rw [Segment.literal, Segment.literal, alike.meets renames,
    alike.doubled renames]

theorem alternatives :
    other.alternatives = seg.alternatives.map (List.map f) := by
  rw [Segment.alternatives, Segment.alternatives, alike.kindWritten renames,
    renames.splitOn_map]

theorem earlier :
    other.earlier = seg.earlier.map (List.map (List.map f)) := by
  have bar : '|' ∈ Placed.text other.kindWritten ↔
      '|' ∈ Placed.text seg.kindWritten := by
    rw [alike.kindWritten renames, renames.mem_map_iff (by decide)]
  rw [Segment.earlier, Segment.earlier, alike.alternatives renames]
  by_cases written : '|' ∈ Placed.text seg.kindWritten
  · rw [if_pos written, if_pos (bar.mpr written), Option.map_some,
      List.map_dropLast]
  · rw [if_neg written, if_neg (mt bar.mp written)]
    rfl

theorem latest : other.latest = seg.latest.map f := by
  rw [Segment.latest, Segment.latest, alike.alternatives renames,
    List.getLastD_eq_getLast?, List.getLastD_eq_getLast?, List.getLast?_map]
  cases seg.alternatives.getLast? <;> rfl

/-- What they write before anything is resolved is the same but for the
renaming. -/
theorem rawTag : other.rawTag = seg.rawTag.renamed f := by
  rw [Segment.rawTag, alike.nameSide renames, alike.latest renames,
    alike.earlier renames, alike.required, alike.literal renames]
  rfl

theorem unmisused (barless : seg.strayBars = []) (colonless : seg.extraColons = []) :
    other.strayBars = [] ∧ other.extraColons = [] := by
  rw [strayBars_eq_nil_iff] at barless ⊢
  rw [extraColons_eq_nil_iff] at colonless ⊢
  rw [alike.nameSide renames, alike.kindWritten renames,
    renames.mem_map_iff (by decide), renames.mem_map_iff (by decide)]
  exact ⟨barless, colonless⟩

end Alike

/-! ## Rows of segments -/

/-- What is the same in segments that say the same is the same in a row of
them. -/
theorem map_eq_of_alike {α : Type} {f : Char → Char} {g : Segment → α}
    (same : ∀ seg other, Alike f seg other → g other = g seg)
    {segs others : List Segment} (alike : List.Forall₂ (Alike f) segs others) :
    others.map g = segs.map g := by
  induction alike with
  | nil => rfl
  | cons first _ ih => rw [List.map_cons, List.map_cons, same _ _ first, ih]

theorem written_chain (waiting : Bool) (pieces : List (List Placed)) :
    (chain waiting pieces).map Segment.written = pieces := by
  induction pieces generalizing waiting with
  | nil => rfl
  | cons written rest ih => rw [chain, List.map_cons, ih]

theorem dropLast_chain (waiting : Bool) (pieces : List (List Placed)) :
    (chain waiting pieces).dropLast = chain waiting pieces.dropLast := by
  induction pieces generalizing waiting with
  | nil => rfl
  | cons written rest ih =>
      cases rest with
      | nil => rfl
      | cons next more =>
          rw [chain, chain, List.dropLast_cons_cons, ← chain, ih,
            List.dropLast_cons_cons, chain]

/-- Pieces that say the same but for a renaming make segments that do. -/
theorem alike_chain {f : Char → Char} (renames : Renaming f)
    {pieces others : List (List Placed)}
    (alike : List.Forall₂ (fun written other => ∀ waiting,
      Alike f ⟨waiting, written⟩ ⟨waiting, other⟩) pieces others)
    (waiting : Bool) :
    List.Forall₂ (Alike f) (chain waiting pieces) (chain waiting others) := by
  induction alike generalizing waiting with
  | nil => exact .nil
  | @cons written other pieces others first _ ih =>
      rw [chain, chain]
      refine .cons (first waiting) ?_
      rw [(first waiting).leaves renames]
      exact ih _

end Segment

/-! ## The pieces of a line -/

namespace Text

def isCloser (c : Char) : Bool := c == '>' || c == ']'

/-- What the closing brackets of a line part, without spaces. -/
def pieces (line : Text) : List Text := line.unspaced.splitOnP isCloser

def unbracketed (piece : Text) : Text :=
  piece.filter fun c => !(c == '<' || c == '[')

/-- A piece says what another one says, but for a renaming: both have the same
body, and an angle bracket opens in both or in neither. -/
structure SaysAs (f : Char → Char) (piece other : Text) : Prop where
  body : other.unbracketed = piece.unbracketed.map f
  required : '<' ∈ other ↔ '<' ∈ piece

theorem pieces_eq_map (line : Text) :
    line.pieces =
      ((solid line).splitOnP Placed.isClosing).map Placed.text := by
  rw [pieces, ← text_solid, Placed.text, splitOnP_map]
  rfl

theorem pieces_eq_segments (line : Text) :
    line.pieces = (segments line).map fun seg => Placed.text seg.written := by
  rw [pieces_eq_map, segments, Segment.cut, ← Segment.written_chain false
    ((solid line).splitOnP Placed.isClosing), List.map_map,
    Segment.written_chain]
  rfl

end Text

/-- Closed pieces that say the same but for a renaming make closed segments that
do. -/
theorem Segment.alike_segments {f : Char → Char} (renames : Renaming f)
    {line other : Text}
    (agree : List.Forall₂ (Text.SaysAs f) line.pieces.dropLast
      other.pieces.dropLast) :
    List.Forall₂ (Alike f) (Text.segments line).dropLast
      (Text.segments other).dropLast := by
  rw [Text.pieces_eq_map, Text.pieces_eq_map, ← List.map_dropLast,
    ← List.map_dropLast, List.forall₂_map_left_iff,
    List.forall₂_map_right_iff] at agree
  rw [Text.segments, Text.segments, cut, cut, dropLast_chain, dropLast_chain]
  refine alike_chain renames (agree.imp fun written other same waiting => ?_) false
  refine ⟨rfl, ?_, ?_⟩
  · rw [text_body, text_body]
    exact same.body
  · rw [Segment.required, Segment.required, decide_eq_decide]
    exact same.required

end UsageLine

import UsageLine.Proofs.Run
import UsageLine.Proofs.Segment.Renaming

/-!
# Brackets of a line

Both closing brackets close a tag in the same way, and of the opening ones only
the angle bracket tells something: the tag is required.  So a line that misuses
no mark has a normal form, in which each closed tag stands between a pair of
brackets that match and nothing stands outside of them.  Any other way to set
brackets adds nothing to what lines can say.
-/

namespace UsageLine

namespace Text

/-! ## Closing brackets exchanged -/

/-- The other closing bracket; any other character stays. -/
def exchange : Char → Char
  | '>' => ']'
  | ']' => '>'
  | c => c

/-- The line with the closing brackets at chosen places exchanged. -/
def exchanged (chosen : Nat → Bool) (line : Text) : Text :=
  line.mapIdx fun place c => if chosen place then exchange c else c

theorem ofChar_exchange (c : Char) :
    Mark.ofChar (exchange c) = Mark.ofChar c := by
  unfold exchange
  split <;> rfl

theorem map_ofChar_exchanged (chosen : Nat → Bool) (line : Text) :
    (line.exchanged chosen).map Mark.ofChar = line.map Mark.ofChar := by
  apply List.ext_getElem
  · simp [exchanged]
  · intro place inside _
    simp only [exchanged, List.getElem_map, List.getElem_mapIdx]
    cases chosen place with
    | true => exact ofChar_exchange _
    | false => rfl

end Text

/-- A run looks at nothing but marks. -/
theorem Scan.run_of_marks {first second : Text}
    (same : first.map Mark.ofChar = second.map Mark.ofChar) (s : Scan)
    (position : Nat) : s.run position first = s.run position second := by
  induction first generalizing second s position with
  | nil =>
      rw [List.map_nil, eq_comm, List.map_eq_nil_iff] at same
      rw [same]
  | cons c rest ih =>
      obtain ⟨d, more, rfl, mark, others⟩ := List.map_eq_cons_iff.mp same.symm
      simp only [run, read, mark]
      cases s.step (Mark.ofChar c) with
      | error what => rfl
      | ok next => exact ih others.symm next (position + 1)

theorem parse_of_marks {line other : Text}
    (same : line.map Mark.ofChar = other.map Mark.ofChar) :
    parse line = parse other := by
  rw [parse, parse, scan, scan, Scan.run_of_marks same]

namespace Text

/-! ## The normal form -/

/-- What opens a piece, and its body. -/
def opened (piece : Text) : Text :=
  (if '<' ∈ piece then '<' else '[') :: piece.unbracketed

/-- A body in a pair of brackets that match. -/
def inPair (angle : Bool) (body : Text) : Text :=
  if angle then '<' :: (body ++ ['>']) else '[' :: (body ++ [']'])

/-- The body of a piece between angle brackets if one opens in the piece, and
between square ones otherwise. -/
def bracketed (piece : Text) : Text :=
  inPair (decide ('<' ∈ piece)) piece.unbracketed

/-- The line without its spaces and its unclosed end, and with each closed piece
in brackets that match. -/
def normalForm (line : Text) : Text :=
  line.pieces.dropLast.flatMap bracketed

theorem bracketed_eq (piece : Text) :
    ∃ closer, isCloser closer = true ∧ closer ≠ ' ' ∧
      piece.bracketed = piece.opened ++ [closer] := by
  by_cases angle : '<' ∈ piece
  · exact ⟨'>', rfl, by decide, by simp [bracketed, inPair, opened, angle]⟩
  · exact ⟨']', rfl, by decide, by simp [bracketed, inPair, opened, angle]⟩

theorem of_mem_pieces {line piece : Text} (mem : piece ∈ line.pieces) :
    ∀ c ∈ piece, c ≠ ' ' ∧ isCloser c = false := by
  rw [pieces_eq_segments] at mem
  obtain ⟨seg, inside, rfl⟩ := List.mem_map.mp mem
  obtain ⟨subset, unclosing⟩ := Segment.written_subset_of_mem_cut inside
  intro c found
  obtain ⟨placed, written, rfl⟩ := List.mem_map.mp found
  have solid := (List.mem_filter.mp (subset written)).2
  exact ⟨bne_iff_ne.mp solid, unclosing placed written⟩

theorem of_mem_opened {line piece : Text} (mem : piece ∈ line.pieces) :
    ∀ c ∈ piece.opened, c ≠ ' ' ∧ isCloser c = false := by
  intro c found
  rcases List.mem_cons.mp found with rfl | inside
  · split <;> exact ⟨by decide, rfl⟩
  · exact of_mem_pieces mem c (List.mem_filter.mp inside).1

/-- Pieces that are closed one by one are parted by what closes them. -/
theorem splitOnP_bracketed {line : Text} {pieces : List Text}
    (part : ∀ piece ∈ pieces, piece ∈ line.pieces) :
    (pieces.flatMap bracketed).splitOnP isCloser = pieces.map opened ++ [[]] := by
  induction pieces with
  | nil => rfl
  | cons piece rest ih =>
      obtain ⟨closer, closing, _, ends⟩ := bracketed_eq piece
      have open_part := of_mem_opened (part piece List.mem_cons_self)
      rw [List.flatMap_cons, ends, List.append_assoc, List.singleton_append,
        List.splitOnP_append_cons_of_forall_mem
          (fun c mem => (open_part c mem).2) closer closing,
        ih fun piece mem => part piece (List.mem_cons_of_mem _ mem)]
      rfl

/-- The pieces of the normal form are the closed pieces, opened once, and an
empty one stays open. -/
theorem pieces_normalForm (line : Text) :
    line.normalForm.pieces = line.pieces.dropLast.map opened ++ [[]] := by
  have part : ∀ piece ∈ line.pieces.dropLast, piece ∈ line.pieces :=
    fun piece mem => (List.dropLast_sublist _).subset mem
  have spaceless : line.normalForm.unspaced = line.normalForm := by
    apply List.filter_eq_self.mpr
    intro c mem
    obtain ⟨piece, inside, found⟩ := List.mem_flatMap.mp mem
    obtain ⟨closer, _, other, ends⟩ := bracketed_eq piece
    rw [ends, List.mem_append, List.mem_singleton] at found
    rcases found with found | rfl
    · exact bne_iff_ne.mpr (of_mem_opened (part piece inside) c found).1
    · exact bne_iff_ne.mpr other
  rw [pieces, spaceless, normalForm]
  exact splitOnP_bracketed part

theorem of_mem_unbracketed {piece : Text} :
    ∀ c ∈ piece.unbracketed, c ≠ '<' ∧ c ≠ '[' := by
  intro c mem
  simpa using (List.mem_filter.mp mem).2

theorem saysAs_opened (piece : Text) : SaysAs id piece piece.opened := by
  have angleless : '<' ∉ piece.unbracketed := fun angle =>
    (of_mem_unbracketed '<' angle).1 rfl
  constructor
  · have body : unbracketed piece.unbracketed = piece.unbracketed := by
      simp [unbracketed]
    rw [List.map_id]
    by_cases angle : '<' ∈ piece
    · rw [opened, if_pos angle]
      exact body
    · rw [opened, if_neg angle]
      exact body
  · by_cases angle : '<' ∈ piece
    · simp [opened, angle]
    · simp [opened, angle, angleless]

/-- Bodies without spaces and brackets of their own, each in a pair of brackets
that match, and nothing else. -/
def InPairs (line : Text) : Prop :=
  ∃ bodies : List (Bool × Text),
    (∀ body ∈ bodies, ∀ c ∈ body.2, c ∉ [' ', '<', '>', '[', ']']) ∧
      line = bodies.flatMap fun body => inPair body.1 body.2

theorem inPairs_normalForm (line : Text) : InPairs line.normalForm := by
  refine ⟨line.pieces.dropLast.map fun piece =>
    (decide ('<' ∈ piece), piece.unbracketed), ?_, ?_⟩
  · rw [List.forall_mem_map]
    intro piece closed c mem
    have opening := of_mem_unbracketed c mem
    have other := of_mem_pieces ((List.dropLast_sublist _).subset closed) c
      (List.mem_filter.mp mem).1
    simp only [isCloser, Bool.or_eq_false_iff, beq_eq_false_iff_ne] at other
    simp [opening, other]
  · rw [List.flatMap_map]
    rfl

/-! ## The segments of the normal form -/

/-- In normal form a line has the closed segments that it has, but for places
and brackets, and an empty one stays open. -/
theorem segments_normalForm (line : Text) :
    ∃ closed last, segments line.normalForm = closed ++ [last] ∧
      last.written = [] ∧
      (∀ seg ∈ closed, ∃ piece, Placed.text seg.written = opened piece) ∧
      List.Forall₂ (Segment.Alike id) (segments line).dropLast closed := by
  have spelled := (pieces_eq_segments line.normalForm).symm
  rw [pieces_normalForm] at spelled
  obtain ⟨closed, rest, segments_eq, opened_eq, empty⟩ :=
    List.map_eq_append_iff.mp spelled
  obtain ⟨last, rfl, unwritten⟩ := List.map_eq_singleton_iff.mp empty
  refine ⟨closed, last, segments_eq, List.map_eq_nil_iff.mp unwritten, ?_, ?_⟩
  · intro seg mem
    have written : Placed.text seg.written ∈ line.pieces.dropLast.map opened :=
      opened_eq ▸ List.mem_map_of_mem mem
    obtain ⟨piece, _, same⟩ := List.mem_map.mp written
    exact ⟨piece, same.symm⟩
  · have agree : List.Forall₂ (SaysAs id) line.pieces.dropLast
        line.normalForm.pieces.dropLast := by
      rw [pieces_normalForm, List.dropLast_concat, List.forall₂_map_right_iff,
        List.forall₂_same]
      exact fun piece _ => saysAs_opened piece
    have alike := Segment.alike_segments Renaming.refl agree
    rwa [segments_eq, List.dropLast_concat] at alike

end Text

namespace Segment

theorem rawTags_of_alike {segs others : List Segment}
    (alike : List.Forall₂ (Alike id) segs.dropLast others.dropLast) :
    rawTags others = rawTags segs := by
  refine map_eq_of_alike (fun seg other alike => ?_) alike
  rw [alike.rawTag Renaming.refl]
  simp [Tag.renamed]

/-- Segments that say the same misuse no bars and no colons, where the first
ones do not. -/
theorem unmisused_of_alike {segs others : List Segment}
    (alike : List.Forall₂ (Alike id) segs others)
    (clean : allMisuses segs = []) :
    ∀ other ∈ others, other.strayBars = [] ∧ other.extraColons = [] := by
  induction alike with
  | nil => exact fun other mem => absurd mem List.not_mem_nil
  | @cons seg other segs others alike _ ih =>
      obtain ⟨clean_first, clean_later⟩ := List.append_eq_nil_iff.mp clean
      obtain ⟨_, barless, colonless⟩ := (misuses_eq_nil_iff seg).mp clean_first
      exact List.forall_mem_cons.mpr
        ⟨alike.unmisused Renaming.refl barless colonless, ih clean_later⟩

end Segment

theorem stop_eq_none_iff_misuses {line : Text} :
    (scan line).stop = none ↔ Text.misuses line = [] := by
  have tags := scan_tags line
  rw [← earliest_eq_none_iff]
  rw [Scanned.tags] at tags
  cases stop : (scan line).stop <;>
    cases found : earliest (Text.misuses line) <;> simp_all

theorem misuses_normalForm {line : Text} (clean : Text.misuses line = []) :
    Text.misuses line.normalForm = [] := by
  obtain ⟨closed, last, segments, unwritten, opened, alike⟩ :=
    Text.segments_normalForm line
  have clean_closed : Segment.allMisuses (Text.segments line).dropLast = [] := by
    rw [Text.misuses, Segment.allMisuses, List.flatMap_eq_nil_iff] at clean
    exact List.flatMap_eq_nil_iff.mpr fun seg mem =>
      clean seg ((List.dropLast_sublist _).subset mem)
  rw [Text.misuses, segments, Segment.allMisuses, List.flatMap_eq_nil_iff,
    List.forall_mem_append, List.forall_mem_singleton]
  constructor
  · intro seg mem
    -- Only the one bracket in front opens; bars and colons are those of the line.
    obtain ⟨piece, written⟩ := opened seg mem
    have unnested : seg.nestings = [] :=
      Segment.nestings_eq_nil (written.trans (List.nil_append _).symm)
        List.not_mem_nil Text.of_mem_unbracketed
    exact (Segment.misuses_eq_nil_iff seg).mpr
      ⟨unnested, Segment.unmisused_of_alike alike clean_closed seg mem⟩
  · obtain ⟨waiting, written⟩ := last
    cases unwritten
    exact Segment.misuses_nil waiting

/-- Closing brackets may be exchanged anywhere, and a line that misuses no mark
is read as its normal form, whose brackets match. -/
theorem parse_bracketed (line : Text) :
    (∀ chosen, parse (line.exchanged chosen) = parse line) ∧
    ((∀ what position, parse line ≠ .error (.misused what position)) →
      line.normalForm.InPairs ∧ parse line.normalForm = parse line) := by
  refine ⟨fun chosen => parse_of_marks (line.map_ofChar_exchanged chosen), ?_⟩
  intro unmisused
  have through := stop_eq_none_iff.mpr unmisused
  have through_normal : (scan line.normalForm).stop = none :=
    stop_eq_none_iff_misuses.mpr
      (misuses_normalForm (stop_eq_none_iff_misuses.mp through))
  obtain ⟨closed, last, segments, _, _, alike⟩ := Text.segments_normalForm line
  have same : Segment.rawTags (Text.segments line.normalForm) =
      Segment.rawTags (Text.segments line) :=
    Segment.rawTags_of_alike (by rwa [segments, List.dropLast_concat])
  refine ⟨line.inPairs_normalForm, ?_⟩
  rw [parse_of_through through_normal, parse_of_through through,
    closed_eq_rawTags through_normal, closed_eq_rawTags through, same]

/-- Brackets that are stray or do not match, an end that is not closed, and
colons that meet across all of them. -/
theorem parse_bracketed_of_strays :
    Text.normalForm "]@a:[>:: x |<y] [b:]:c< ]< @@d>tail<:".toList =
        "[][@a:]<::x|y>[b:]<:c><@@d>".toList ∧
      parse "]@a:[>:: x |<y] [b:]:c< ]< @@d>tail<:".toList =
        .ok
          [{ kind := Tag.literalKind },
            { name := ['a'], kind := Tag.userKind },
            { kind := Tag.optionsKind, required := true,
              options := some [['x'], ['y']], literal := true },
            { name := ['b'], kind := Tag.literalKind },
            { name := ['c'], kind := Tag.literalKind, required := true,
              literal := true },
            { name := ['d'], kind := Tag.memberKind, required := true }] ∧
      parse "[][@a:]<::x|y>[b:]<:c><@@d>".toList =
        parse "]@a:[>:: x |<y] [b:]:c< ]< @@d>tail<:".toList := by
  have normal : Text.normalForm "]@a:[>:: x |<y] [b:]:c< ]< @@d>tail<:".toList =
      "[][@a:]<::x|y>[b:]<:c><@@d>".toList := by decide
  refine ⟨normal, by decide, ?_⟩
  rw [← normal]
  exact ((parse_bracketed _).2 (stop_eq_none_iff.mp (by decide))).2

end UsageLine

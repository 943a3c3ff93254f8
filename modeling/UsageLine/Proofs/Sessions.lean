import UsageLine.Proofs.Rereading
import UsageLine.Session

/-!
# What a session keeps

The usage of a session is at any time what the text that was accepted last is
read as.  So whatever separators put into the texts that are read again, its
tags are those of a line: only the last one can be a rest tag, and a tag with
options has several of them.  Where the separator brings no colon, a usage that
was read again has names and nothing else.
-/

namespace UsageLine

/-! ## Lines without colons -/

theorem mem_of_mem_written {line : Text} {seg : Segment}
    (mem : seg ∈ Text.segments line) {c : Char}
    (found : c ∈ Placed.text seg.written) : c ∈ line := by
  obtain ⟨d, written, rfl⟩ := List.mem_map.mp found
  have solid := (Segment.written_subset_of_mem_cut mem).1 written
  have unspaced : d.1 ∈ Placed.text (Text.solid line) :=
    List.mem_map_of_mem solid
  rw [Text.text_solid] at unspaced
  exact (List.mem_filter.mp unspaced).1

/-- A tag without anything that a colon begins. -/
structure Tag.Bare (tag : Tag) : Prop where
  rest : tag.rest = false
  options : tag.options = none
  literal : tag.literal = false

theorem bare_of_colonless {line : Text} {tags : List Tag}
    (colonless : ':' ∉ line) (accepted : parse line = .ok tags) :
    ∀ tag ∈ tags, tag.Bare := by
  obtain ⟨_, _, rfl⟩ := parse_eq_ok_iff.mp accepted
  intro tag mem
  obtain ⟨seg, closed, rfl⟩ := List.mem_map.mp mem
  have inside := (List.dropLast_sublist _).subset closed
  have written : ':' ∉ Placed.text seg.written := fun colon =>
    colonless (mem_of_mem_written inside colon)
  have own : ':' ∉ Placed.text seg.own := fun colon =>
    written ((seg.own_sublist.map Prod.fst).subset colon)
  have unmet : seg.meets = false := by
    rw [Segment.meets, Bool.and_eq_false_iff]
    refine .inr (beq_eq_false_iff_ne.mpr fun first => written ?_)
    have body := List.mem_of_mem_head? first
    exact (List.filter_sublist.map Prod.fst).subset body
  rw [Segment.tag_of_colonless own, unmet, Tag.ofName_eq_shorthand]
  exact ⟨rfl, rfl, rfl⟩

theorem colonless_render {separator : Text} {tags : List Tag}
    (colonless : ':' ∉ separator) (admissible : Admissible tags) :
    ':' ∉ render separator tags := by
  rw [render_eq_flatMap, List.mem_flatMap]
  rintro ⟨⟨before, tag⟩, separated, colon⟩
  obtain ⟨place, mem⟩ := of_mem_withSeparator separated
  have body := (admissible.each tag mem).body_enclosed.colonless
  rcases List.mem_append.mp colon with early | shown
  · rcases place with rfl | rfl
    · cases early
    · exact colonless early
  · rcases tag.opening_eq_or with opening | opening <;>
      rcases tag.closing_eq_or with closing | closing <;>
        simp [Tag.display, opening, closing, body] at shown

namespace Usage

/-! ## What was accepted last -/

/-- The text that a step reads, if it reads one. -/
def asked? (usage : Usage) : Step → Option Text
  | .loadText line => some line
  | .loadBytes bytes => (Utf8.decode bytes).toOption
  | .reread separator => some (usage.format separator)
  | _ => none

/-- The text that a step reads, if it describes a usage. -/
def accepted? (usage : Usage) (step : Step) : Option Text :=
  (usage.asked? step).filter fun line => (parse line).isOk

def lastAccepted? (usage : Usage) : List Step → Option Text
  | [] => none
  | first :: rest =>
      ((usage.step first).1.lastAccepted? rest).or (usage.accepted? first)

/-- The usage is what a text is read as, or it is empty without one. -/
def Describes (usage : Usage) : Option Text → Prop
  | some line => parse line = .ok usage.tags
  | none => usage = {}

theorem accepted?_eq_some_iff {usage : Usage} {step : Step} {line : Text} :
    usage.accepted? step = some line ↔
      usage.asked? step = some line ∧ ∃ tags, parse line = .ok tags := by
  rw [accepted?, Option.filter_eq_some_iff]
  cases parse line <;> simp [Except.isOk, Except.toBool]

/-- A text that is asked for is put in place if it can be read, and nothing
happens otherwise. -/
theorem step_of_asked {usage : Usage} {step : Step} {line : Text}
    (asked : usage.asked? step = some line) :
    usage.step step = usage.replace (ofText line) := by
  cases step with
  | loadText text =>
      cases asked
      rfl
  | loadBytes bytes =>
      cases decoded : Utf8.decode bytes with
      | error fault =>
          rw [asked?, decoded] at asked
          cases asked
      | ok text =>
          rw [asked?, decoded] at asked
          cases asked
          rw [Usage.step, ofBytes, parseBytes, decoded, ofText]
  | reread separator =>
      cases asked
      rfl
  | display => cases asked
  | format separator => cases asked
  | restTag => cases asked
  | get index => cases asked

theorem step_of_unasked {usage : Usage} {step : Step}
    (unasked : usage.asked? step = none) :
    (usage.step step).1 = usage ∧
      ∀ tags, (usage.step step).2 ≠ .loaded tags := by
  cases step with
  | loadText line => cases unasked
  | loadBytes bytes =>
      cases decoded : Utf8.decode bytes with
      | error fault =>
          simp [Usage.step, ofBytes, parseBytes, decoded, Except.map, replace]
      | ok text =>
          rw [asked?, decoded] at unasked
          cases unasked
  | reread separator => cases unasked
  | display => exact ⟨rfl, nofun⟩
  | format separator => exact ⟨rfl, nofun⟩
  | restTag => exact ⟨rfl, nofun⟩
  | get index => exact ⟨rfl, nofun⟩

/-- What a step does: it puts the usage of the text that it reads in place, or
it accepts no text and leaves the usage as it was. -/
theorem step_cases (usage : Usage) (step : Step) :
    (∃ line tags, usage.asked? step = some line ∧ parse line = .ok tags ∧
      usage.step step = (⟨tags⟩, .loaded tags)) ∨
    usage.accepted? step = none ∧ (usage.step step).1 = usage ∧
      ∀ tags, (usage.step step).2 ≠ .loaded tags := by
  cases asked : usage.asked? step with
  | none =>
      refine .inr ⟨?_, step_of_unasked asked⟩
      rw [accepted?, asked]
      rfl
  | some line =>
      rw [step_of_asked asked, accepted?, asked, ofText]
      cases read : parse line with
      | ok tags => exact .inl ⟨line, tags, rfl, read, rfl⟩
      | error error =>
          refine .inr ⟨?_, rfl, nofun⟩
          simp [read, Except.isOk, Except.toBool]

/-- A step keeps the usage of the text that was accepted last. -/
theorem describes_step {usage : Usage} {last : Option Text}
    (describes : usage.Describes last) (step : Step) :
    (usage.step step).1.Describes ((usage.accepted? step).or last) := by
  rcases usage.step_cases step with
    ⟨line, tags, asked, read, done⟩ | ⟨unaccepted, kept, _⟩
  · rw [accepted?_eq_some_iff.mpr ⟨asked, tags, read⟩, done]
    exact read
  · rwa [unaccepted, kept]

theorem describes_steps {usage : Usage} {last : Option Text}
    (describes : usage.Describes last) (list : List Step) :
    (usage.steps list).1.Describes ((usage.lastAccepted? list).or last) := by
  induction list generalizing usage last with
  | nil => exact describes
  | cons first rest ih =>
      have after := ih (describes_step describes first)
      rwa [← Option.or_assoc] at after

theorem Describes.admissible {usage : Usage} {last : Option Text}
    (describes : usage.Describes last) : Admissible usage.tags := by
  cases last with
  | some line => exact admissible_of_parse describes
  | none =>
      have empty : usage = {} := describes
      rw [empty]
      exact admissible_of_parse (show parse [] = .ok [] from rfl)

/-! ## What is known of the usage -/

/-- Where only the last tag can be a rest tag, asking for the rest tag finds
it. -/
theorem restTag?_eq_some_iff {usage : Usage}
    (restLast : ∀ tag ∈ usage.tags.dropLast, tag.rest = false) (tag : Tag) :
    usage.restTag? = some tag ↔ tag ∈ usage.tags ∧ tag.rest = true := by
  rw [restTag?, Option.filter_eq_some_iff]
  refine and_congr_left fun isRest => ⟨List.mem_of_getLast?, fun mem => ?_⟩
  obtain ⟨before, last, tags⟩ := List.eq_nil_or_concat' usage.tags
    |>.resolve_left (List.ne_nil_of_mem mem)
  rw [tags, List.dropLast_concat] at restLast
  rw [tags, List.mem_append, List.mem_singleton] at mem
  rcases mem with early | rfl
  · exact absurd isRest (by simp [restLast tag early])
  · rw [tags, List.getLast?_concat]

theorem restTag?_eq_none_iff {usage : Usage}
    (restLast : ∀ tag ∈ usage.tags.dropLast, tag.rest = false) :
    usage.restTag? = none ↔ ∀ tag ∈ usage.tags, tag.rest = false := by
  simp [Option.eq_none_iff_forall_ne_some, restTag?_eq_some_iff restLast]

/-- What holds of the usage of a session, with the text that was accepted
last. -/
structure Kept (usage : Usage) (last : Option Text) : Prop where
  describes : usage.Describes last
  restLast : ∀ tag ∈ usage.tags.dropLast, tag.rest = false
  restTag : ∀ tag, usage.restTag? = some tag ↔
    tag ∈ usage.tags ∧ tag.rest = true
  listed : ∀ tag ∈ usage.tags, ∀ options, tag.options = some options →
    tag.kind = Tag.optionsKind ∧ 2 ≤ options.length
  /-- A text that is asked for and can be read is put in place. -/
  loaded : ∀ step line tags, usage.asked? step = some line →
    parse line = .ok tags → usage.step step = (⟨tags⟩, .loaded tags)
  /-- A step that does not load a usage leaves the one in place. -/
  unloaded : ∀ step, (∀ tags, (usage.step step).2 ≠ .loaded tags) →
    (usage.step step).1 = usage
  /-- Without a colon in the separator only names are read again. -/
  bare : ∀ separator tags, ':' ∉ separator →
    (usage.step (.reread separator)).2 = .loaded tags →
    (usage.step (.reread separator)).1.tags = tags ∧
      (usage.step (.reread separator)).1.restTag? = none ∧
      ∀ tag ∈ tags, tag.Bare

theorem bare_of_reread {usage : Usage} (admissible : Admissible usage.tags)
    {separator : Text} {tags : List Tag} (colonless : ':' ∉ separator)
    (loaded : (usage.step (.reread separator)).2 = .loaded tags) :
    (usage.step (.reread separator)).1.tags = tags ∧
      (usage.step (.reread separator)).1.restTag? = none ∧
      ∀ tag ∈ tags, tag.Bare := by
  rcases usage.step_cases (.reread separator) with
    ⟨line, read, asked, accepted, done⟩ | ⟨_, _, unloaded⟩
  · rw [done] at loaded ⊢
    cases loaded
    cases asked
    have bare := bare_of_colonless (colonless_render colonless admissible) accepted
    refine ⟨rfl, ?_, bare⟩
    have restLast := (admissible_of_parse accepted).restLast
    exact (restTag?_eq_none_iff restLast).mpr fun tag mem => (bare tag mem).rest
  · exact absurd loaded (unloaded tags)

end Usage

/-- After any steps the usage of a session is empty or what the text that was
accepted last is read as.  Only its last tag can be a rest tag, and it is found
as such; a tag with options has the kind of alternatives and several of them.
A text that is asked for is put in place if it can be read, and a step that
loads no usage changes nothing.  What is read again behind a separator without a
colon has neither a rest tag nor options nor literal tags. -/
theorem session_keeps (list : List Step) :
    (Usage.steps {} list).1.Kept (Usage.lastAccepted? {} list) := by
  have describes : (Usage.steps {} list).1.Describes
      (Usage.lastAccepted? {} list) := by
    have start : Usage.Describes {} none := rfl
    have after := Usage.describes_steps start list
    rwa [Option.or_none] at after
  have admissible := describes.admissible
  refine ⟨describes, admissible.restLast,
    Usage.restTag?_eq_some_iff admissible.restLast, ?_, ?_, ?_, ?_⟩
  · intro tag mem
    exact (admissible.each tag mem).listed
  · intro step line tags asked read
    rw [Usage.step_of_asked asked, Usage.ofText, read]
    rfl
  · intro step unloaded
    rcases Usage.step_cases _ step with ⟨_, tags, _, _, done⟩ | ⟨_, kept, _⟩
    · exact absurd (congrArg Prod.snd done) (unloaded tags)
    · exact kept
  · intro separator tags
    exact Usage.bare_of_reread admissible

/-- The separator `:x|y>` puts a tag with options between `<a>` and `[b]`, and a
line that is refused leaves it there. -/
example :
    (Usage.steps {} [.loadText ['<', 'a', '>', '[', 'b', ']'],
      .reread [':', 'x', '|', 'y', '>'], .loadText ['<', '|']]).1.tags.map
        (fun tag => (tag.name, tag.options)) =
      [(['a'], none), ([], some [['x'], ['y']]), (['b'], none)] := rfl

end UsageLine

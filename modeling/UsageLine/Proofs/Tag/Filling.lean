import UsageLine.Proofs.Json.ReadBack
import UsageLine.Tag.Json
import UsageLine.Tag.JsonText

/-!
# Drafts are filled from texts as from values

Where a value fills in a field of a draft, its compact text fills it in alike,
and the reader goes on behind it.  So members that fill in a draft one after
the other are read as a whole, if none fills in a field that is known already.
-/

namespace UsageLine

namespace Json

/-! ## Lists of texts -/

theorem toTexts_eq_ok_iff {items : List Json} {texts : List Text} :
    toTexts items = .ok texts ↔ items = texts.map .text := by
  constructor
  · intro hold
    induction items generalizing texts with
    | nil =>
        cases hold
        rfl
    | cons item more ih =>
        cases item with
        | text t =>
            cases others : toTexts more with
            | error error => rw [toTexts, others] at hold; cases hold
            | ok ts =>
                rw [toTexts, others] at hold
                cases hold
                rw [ih others, List.map_cons]
        | null | bool | number | list | object => cases hold
  · rintro rfl
    induction texts with
    | nil => rfl
    | cons t ts ih =>
        rw [List.map_cons, toTexts, ih]
        rfl

/-! ## Compact texts of single values -/

theorem readText_quote (t rest : Text) :
    readText (quote t ++ rest) = .ok (t, rest) := by
  have quoted : quote t ++ rest = '"' :: (t.flatMap escape ++ '"' :: rest) := by
    simp [quote]
  rw [readText, quoted, skipBlank_cons rfl]
  simp only [if_true, readString_quote]
  rfl

theorem readBool_compact (b : Bool) (rest : Text) :
    readBool ((Json.bool b).compact ++ rest) = .ok (b, rest) := by
  cases b <;> rfl

theorem readTexts_eq (cs : Text) :
    readTexts cs =
      match readText cs with
      | .error error => .error error
      | .ok (first, rest) =>
          match skipBlank rest with
          | [] => .error (.text .ended)
          | c :: rest =>
              if c = ']' then .ok ([first], rest)
              else if c = ',' then
                match readTexts rest with
                | .error error => .error error
                | .ok (texts, rest) => .ok (first :: texts, rest)
              else .error (.text .malformed) := by
  rw [readTexts]
  cases readText cs with
  | error error => rfl
  | ok taken =>
      simp only
      cases skipBlank taken.2 <;> rfl

theorem readTexts_compactItems (t : Text) (ts : List Text) (rest : Text) :
    readTexts (compactItems ((t :: ts).map .text) ++ rest) =
      .ok (t :: ts, rest) := by
  induction ts generalizing t with
  | nil =>
      rw [List.map_singleton, compactItems, List.append_assoc, compact,
        readTexts_eq, readText_quote]
      rfl
  | cons next ts ih =>
      rw [List.map_cons, List.map_cons, compactItems, List.append_assoc, compact,
        readTexts_eq, readText_quote, List.cons_append]
      simp only [skipBlank_cons (c := ',') rfl, show ¬ (',' = ']') by decide,
        if_false, if_true, ← List.map_cons, ih]

theorem readOptions_ofTexts (texts : List Text) (rest : Text) :
    readOptions ((ofTexts texts).compact ++ rest) = .ok (some texts, rest) := by
  cases texts with
  | nil => rfl
  | cons t ts =>
      have read := readTexts_compactItems t ts rest
      have quoted : ∃ cs, compactItems ((t :: ts).map .text) ++ rest =
          '"' :: cs := by
        cases ts <;> exact ⟨_, rfl⟩
      obtain ⟨cs, quoted⟩ := quoted
      rw [readOptions, ofTexts, compact, List.cons_append, skipBlank_cons rfl]
      simp only [show ¬ ('[' = 'n') by decide, if_false, if_true]
      rw [quoted] at read ⊢
      rw [skipBlank_cons rfl, read]
      rfl

end Json

namespace Draft

open Json

/-- What a field takes from a value, and the draft that it gives. -/
inductive Filled (draft : Draft) : Field → Json → Draft → Prop
  | name (t : Text) : Filled draft .name (.text t) { draft with name := some t }
  | kind (t : Text) : Filled draft .kind (.text t) { draft with kind := some t }
  | required (b : Bool) :
      Filled draft .required (.bool b) { draft with required := some b }
  | rest (b : Bool) : Filled draft .rest (.bool b) { draft with rest := some b }
  | noOptions : Filled draft .options .null { draft with options := some none }
  | options (texts : List Text) :
      Filled draft .options (ofTexts texts)
        { draft with options := some (some texts) }
  | literal (b : Bool) :
      Filled draft .literal (.bool b) { draft with literal := some b }

/-- A field is filled in from the values that it takes, and from no others. -/
theorem set_eq_ok_iff {draft next : Draft} {value : Json} {field : Field} :
    draft.set value field = .ok next ↔ draft.Filled field value next := by
  constructor
  · intro fills
    cases field with
    | name =>
        cases value <;> cases fills
        exact .name _
    | kind =>
        cases value <;> cases fills
        exact .kind _
    | required =>
        cases value <;> cases fills
        exact .required _
    | rest =>
        cases value <;> cases fills
        exact .rest _
    | literal =>
        cases value <;> cases fills
        exact .literal _
    | options =>
        cases value with
        | null =>
            cases fills
            exact .noOptions
        | list items =>
            cases hold : toTexts items with
            | error error =>
                rw [set, toOptions, hold] at fills
                cases fills
            | ok texts =>
                rw [set, toOptions, hold] at fills
                cases fills
                obtain rfl := toTexts_eq_ok_iff.mp hold
                exact .options texts
        | bool | number | text | object => cases fills
  · intro filled
    cases filled with
    | options texts =>
        rw [set, ofTexts, toOptions, toTexts_eq_ok_iff.mpr rfl]
        rfl
    | _ => rfl

theorem read_of_filled {draft next : Draft} {value : Json} {field : Field}
    (filled : draft.Filled field value next) (rest : Text) :
    draft.read (value.compact ++ rest) field = .ok (next, rest) := by
  cases filled with
  | name t | kind t =>
      rw [read, compact, readText_quote]
      rfl
  | required b | rest b | literal b =>
      rw [read, readBool_compact]
      rfl
  | noOptions => rfl
  | options texts =>
      rw [read, readOptions_ofTexts]
      rfl

theorem setMembers_of_filled {draft next : Draft} {field : Field} {value : Json}
    {members : List (Text × Json)}
    (found : member? field.key members = some value)
    (filled : draft.Filled field value next) (fields : List Field) :
    setMembers members (field :: fields) draft =
      setMembers members fields next := by
  rw [setMembers, found]
  simp only [set_eq_ok_iff.mpr filled]
  rfl

theorem setMembers_of_missing {draft : Draft} {field : Field}
    {members : List (Text × Json)}
    (missing : member? field.key members = none) (fields : List Field) :
    setMembers members (field :: fields) draft =
      setMembers members fields draft := by
  rw [setMembers, missing]

/-! ## Members in a row -/

/-- What a member does to a draft: a field that is not known yet is filled in,
any other key is passed over. -/
inductive Gains (draft : Draft) : Text × Json → Draft → Prop
  | field {field : Field} {value : Json} {next : Draft}
      (fresh : draft.has field = false)
      (filled : draft.Filled field value next) :
      Gains draft (field.key, value) next
  | other {key : Text} (unknown : Field.ofKey? key = none) (value : Json) :
      Gains draft (key, value) draft

/-- What members do to a draft one after the other. -/
inductive Gathers : Draft → List (Text × Json) → Draft → Prop
  | nil (draft : Draft) : Gathers draft [] draft
  | cons {draft next last : Draft} {member : Text × Json}
      {more : List (Text × Json)} (gains : draft.Gains member next)
      (gathers : Gathers next more last) : Gathers draft (member :: more) last

/-- Wherever it is written, the value of a member is passed over if its key
names no field. -/
def Skips (member : Text × Json) : Prop :=
  Field.ofKey? member.1 = none →
    ∀ rest, Ends rest → skipValue (member.2.compact ++ rest) = .ok rest

theorem skips_key (field : Field) (value : Json) :
    Skips (field.key, value) := by
  intro unknown
  rw [Field.ofKey?_key] at unknown
  cases unknown

theorem readMember_of_gains {draft next : Draft} {member : Text × Json}
    (gains : draft.Gains member next) (skips : Skips member) {rest : Text}
    (ends : Ends rest) :
    draft.readMember (member.1.flatMap escape ++
      '"' :: ':' :: (member.2.compact ++ rest)) = .ok (next, rest) := by
  cases gains with
  | @field field value _ fresh filled =>
      simp only [readMember, readString_quote, Field.ofKey?_key,
        Option.filter_some, fresh]
      exact read_of_filled filled rest
  | @other key unknown value =>
      simp only [readMember, readString_quote, unknown, Option.filter_none]
      have colon : readColon (':' :: (value.compact ++ rest)) =
          .ok (value.compact ++ rest) := rfl
      simp only [colon, readValue, skips unknown rest ends]
      rfl

theorem compactMembers_one (member : Text × Json) (rest : Text) :
    compactMembers [member] ++ rest =
      '"' :: (member.1.flatMap escape ++
        '"' :: ':' :: (member.2.compact ++ '}' :: rest)) := by
  simp [compactMembers, quote]

theorem compactMembers_more (member next : Text × Json)
    (more : List (Text × Json)) (rest : Text) :
    compactMembers (member :: next :: more) ++ rest =
      '"' :: (member.1.flatMap escape ++ '"' :: ':' ::
        (member.2.compact ++ ',' :: (compactMembers (next :: more) ++ rest))) := by
  simp [compactMembers, quote]

theorem readMembers_eq (draft : Draft) (cs : Text) :
    draft.readMembers ('"' :: cs) =
      match draft.readMember cs with
      | .error error => .error error
      | .ok (draft, rest) =>
          match skipBlank rest with
          | [] => .error (.text .ended)
          | c :: rest =>
              if c = '}' then .ok (draft, rest)
              else if c = ',' then draft.readMembers rest
              else .error (.text .malformed) := by
  rw [readMembers, skipBlank_cons rfl]
  simp only [if_true]
  cases draft.readMember cs with
  | error error => rfl
  | ok taken =>
      simp only
      cases skipBlank taken.2 <;> rfl

/-- Members that fill in a draft are read from their compact text. -/
theorem readMembers_of_gathers {draft last : Draft}
    {members : List (Text × Json)} (gathers : Gathers draft members last)
    (some_members : members ≠ []) (skips : ∀ member ∈ members, Skips member)
    (rest : Text) :
    draft.readMembers (compactMembers members ++ rest) = .ok (last, rest) := by
  induction gathers with
  | nil => exact absurd rfl some_members
  | @cons draft next last member more gains gathers ih =>
      have skipped := skips member List.mem_cons_self
      cases gathers with
      | nil =>
          rw [compactMembers_one, readMembers_eq,
            readMember_of_gains gains skipped (ends_cons (by decide) rest)]
          rfl
      | @cons _ _ _ following more =>
          rw [compactMembers_more, readMembers_eq,
            readMember_of_gains gains skipped (ends_cons (by decide) _)]
          exact ih (List.cons_ne_nil following more) fun member mem =>
            skips member (List.mem_cons_of_mem _ mem)

end Draft

/-- A tag is read from the compact text of an object whose members fill in all
that it needs. -/
theorem Tag.ofJsonText_of_gathers {draft : Draft} {tag : Tag}
    {members : List (Text × Json)} (gathers : Draft.Gathers {} members draft)
    (skips : ∀ member ∈ members, Draft.Skips member)
    (completes : draft.complete = .ok tag) :
    Tag.ofJsonText (Json.compact (.object members)) = .ok tag := by
  have some_members : members ≠ [] := by
    rintro rfl
    cases gathers
    cases completes
  have read := Draft.readMembers_of_gathers gathers some_members skips []
  obtain ⟨cs, quoted⟩ := Json.compactMembers_begins some_members []
  have object : Draft.readObject (Json.compactMembers members) =
      .ok (draft, []) := by
    rw [List.append_nil] at quoted read
    rw [quoted] at read ⊢
    exact read
  rw [Tag.ofJsonText, Tag.read, Json.compact, Json.skipBlank_cons rfl]
  simp only [show ¬ ('{' = '[') by decide, if_false, if_true, object,
    Draft.completed, completes]
  rfl

end UsageLine

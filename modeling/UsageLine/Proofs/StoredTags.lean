import UsageLine.Parse
import UsageLine.Proofs.Tag.Filling

/-!
# Stored tags

A tag, whatever its texts hold, is read back from its compact JSON text and
decoded from its JSON value.  Options that it does not have are left out of
both, so they are told apart from options that are empty.  Hence a text that
stores tags stores no others.
-/

namespace UsageLine

namespace Tag

theorem member?_options (tag : Tag) :
    Json.member? Field.options.key tag.members = tag.options.map Json.ofTexts := by
  cases tag with
  | mk name kind required rest options literal => cases options <;> rfl

theorem numbers_toJson (tag : Tag) : tag.toJson.numbers = [] := by
  have texts : ∀ ts : List Text, Json.itemNumbers (ts.map .text) = [] := by
    intro ts
    induction ts with
    | nil => rfl
    | cons t ts ih => rwa [List.map_cons, Json.itemNumbers]
  cases tag with
  | mk name kind required rest options literal =>
      cases options with
      | none => rfl
      | some options =>
          simp [toJson, members, Json.numbers, Json.memberNumbers, Json.ofTexts,
            texts]

/-- The members of a stored tag fill in its draft. -/
theorem gathers_members (tag : Tag) :
    ∃ draft, Draft.Gathers {} tag.members draft ∧ draft.complete = .ok tag := by
  cases tag with
  | mk name kind required rest options literal =>
      cases options with
      | none =>
          exact ⟨_, .cons (.field rfl (.name name)) <|
            .cons (.field rfl (.kind kind)) <|
            .cons (.field rfl (.required required)) <|
            .cons (.field rfl (.rest rest)) <|
            .cons (.field rfl (.literal literal)) (.nil _), rfl⟩
      | some options =>
          exact ⟨_, .cons (.field rfl (.name name)) <|
            .cons (.field rfl (.kind kind)) <|
            .cons (.field rfl (.required required)) <|
            .cons (.field rfl (.rest rest)) <|
            .cons (.field rfl (.options options)) <|
            .cons (.field rfl (.literal literal)) (.nil _), rfl⟩

theorem skips_members (tag : Tag) :
    ∀ member ∈ tag.members, Draft.Skips member := by
  cases tag with
  | mk name kind required rest options literal =>
      cases options <;> simp [members, Draft.skips_key]

theorem ofJsonText_jsonText (tag : Tag) : ofJsonText tag.jsonText = .ok tag := by
  obtain ⟨draft, gathers, completes⟩ := gathers_members tag
  exact ofJsonText_of_gathers gathers (skips_members tag) completes

theorem ofJson_toJson (tag : Tag) : ofJson tag.toJson = .ok tag := by
  cases tag with
  | mk name kind required rest options literal =>
      cases options with
      | none =>
          rw [toJson, ofJson, Field.byKey,
            Draft.setMembers_of_filled rfl (.literal literal),
            Draft.setMembers_of_filled rfl (.name name),
            Draft.setMembers_of_missing rfl,
            Draft.setMembers_of_filled rfl (.required required),
            Draft.setMembers_of_filled rfl (.rest rest),
            Draft.setMembers_of_filled rfl (.kind kind)]
          rfl
      | some options =>
          rw [toJson, ofJson, Field.byKey,
            Draft.setMembers_of_filled rfl (.literal literal),
            Draft.setMembers_of_filled rfl (.name name),
            Draft.setMembers_of_filled rfl (.options options),
            Draft.setMembers_of_filled rfl (.required required),
            Draft.setMembers_of_filled rfl (.rest rest),
            Draft.setMembers_of_filled rfl (.kind kind)]
          rfl

theorem ofText_jsonText (tag : Tag) : Json.ofText tag.jsonText = .ok tag.toJson :=
  Json.ofText_compact (numbers_toJson tag)

theorem ofJsons_toJson (tags : List Tag) : ofJsons (tags.map toJson) = .ok tags := by
  induction tags with
  | nil => rfl
  | cons tag tags ih =>
      rw [List.map_cons, ofJsons, ofJson_toJson, ih]
      rfl

end Tag

theorem ofText_tagsJsonText (tags : List Tag) :
    Json.ofText (tagsJsonText tags) = .ok (.list (tags.map Tag.toJson)) := by
  have plain : Json.itemNumbers (tags.map Tag.toJson) = [] := by
    induction tags with
    | nil => rfl
    | cons tag tags ih =>
        rw [List.map_cons, Json.itemNumbers, Tag.numbers_toJson, ih]
        rfl
  exact Json.ofText_compact plain

theorem tagsJsonText_injective : Function.Injective tagsJsonText := by
  intro tags others same
  have spelled := ofText_tagsJsonText tags
  rw [same, ofText_tagsJsonText others] at spelled
  have decoded := Tag.ofJsons_toJson tags
  rw [← Json.list.inj (Except.ok.inj spelled), Tag.ofJsons_toJson] at decoded
  exact (Except.ok.inj decoded).symm

/-- A tag is read back from its compact text, decoded from its value, and this
value is what the text spells; only options that the tag does not have are left
out.  Texts that store tags are the same if and only if the tags are, and so
for what two lines are read as. -/
theorem stored_read_back :
    (∀ tag : Tag,
      Tag.ofJsonText tag.jsonText = .ok tag ∧
      Json.ofText tag.jsonText = .ok tag.toJson ∧
      Tag.ofJson tag.toJson = .ok tag ∧
      Json.member? Field.options.key tag.members =
        tag.options.map Json.ofTexts) ∧
    (∀ tags others : List Tag,
      tagsJsonText tags = tagsJsonText others ↔ tags = others) ∧
    ∀ line other : Text,
      (parse line).map tagsJsonText = (parse other).map tagsJsonText ↔
        parse line = parse other := by
  refine ⟨fun tag => ⟨tag.ofJsonText_jsonText, tag.ofText_jsonText,
    tag.ofJson_toJson, tag.member?_options⟩, fun tags others =>
    tagsJsonText_injective.eq_iff, fun line other => ⟨fun same => ?_, ?_⟩⟩
  · cases first : parse line with
    | error error =>
        cases second : parse other with
        | error error' =>
            rw [first, second] at same
            exact congrArg Except.error (Except.error.inj same)
        | ok tags => rw [first, second] at same; cases same
    | ok tags =>
        cases second : parse other with
        | error error => rw [first, second] at same; cases same
        | ok others =>
            rw [first, second] at same
            exact congrArg Except.ok (tagsJsonText_injective (Except.ok.inj same))
  · exact congrArg (Except.map tagsJsonText)

end UsageLine

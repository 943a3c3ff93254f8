import UsageLine.Json.Compact
import UsageLine.Tag.Draft

/-!
# Tags as JSON values

A tag is stored as an object in which options that it does not have are left
out.  It is decoded from an object, whose other members do not matter, or from
a list of its fields in order.  In an object the fields are visited in the
order of their keys; a value of the wrong shape is reported before a field
that is missing.
-/

namespace UsageLine

namespace Json

def ofTexts (texts : List Text) : Json := .list (texts.map .text)

def toText : Json → Except DecodeError Text
  | .text value => .ok value
  | value => .error (.wrongType value.shape .text)

def toBool : Json → Except DecodeError Bool
  | .bool value => .ok value
  | value => .error (.wrongType value.shape .bool)

/-- The texts that values hold; the first that holds none is reported. -/
def toTexts : List Json → Except DecodeError (List Text)
  | [] => .ok []
  | item :: rest => do
      let text ← toText item
      let texts ← toTexts rest
      return text :: texts

/-- The options that a value holds, or that there are none. -/
def toOptions : Json → Except DecodeError (Option (List Text))
  | .null => .ok none
  | .list items => (toTexts items).map some
  | value => .error (.wrongType value.shape .list)

end Json

namespace Tag

def members (tag : Tag) : List (Text × Json) :=
  [(Field.name.key, .text tag.name),
   (Field.kind.key, .text tag.kind),
   (Field.required.key, .bool tag.required),
   (Field.rest.key, .bool tag.rest)] ++
  (match tag.options with
    | some options => [(Field.options.key, Json.ofTexts options)]
    | none => []) ++
  [(Field.literal.key, .bool tag.literal)]

def toJson (tag : Tag) : Json := .object tag.members

def jsonText (tag : Tag) : Text := tag.toJson.compact

end Tag

def tagsJsonText (tags : List Tag) : Text :=
  (Json.list (tags.map Tag.toJson)).compact

namespace Draft

def set (draft : Draft) (value : Json) : Field → Except DecodeError Draft
  | .name => value.toText.map fun name => { draft with name }
  | .kind => value.toText.map fun kind => { draft with kind }
  | .required => value.toBool.map fun required => { draft with required }
  | .rest => value.toBool.map fun rest => { draft with rest }
  | .options => value.toOptions.map fun options => { draft with options }
  | .literal => value.toBool.map fun literal => { draft with literal }

/-- Fill in the fields that an object has. -/
def setMembers (members : List (Text × Json)) :
    List Field → Draft → Except DecodeError Draft
  | [], draft => .ok draft
  | field :: fields, draft =>
      match Json.member? field.key members with
      | none => setMembers members fields draft
      | some value => do
          let draft ← draft.set value field
          setMembers members fields draft

/-- Fill in fields from the items of a list, which begin at an index.  Where
the list has no more items the options are passed over. -/
def setItems : Nat → List Field → List Json → Draft → Except DecodeError Draft
  | _, [], [], draft => .ok draft
  | index, [], items, _ => .error (.tooLong (index + items.length))
  | index, .options :: fields, [], draft => setItems (index + 1) fields [] draft
  | index, _ :: _, [], _ => .error (.tooShort index)
  | index, field :: fields, item :: items, draft => do
      let draft ← draft.set item field
      setItems (index + 1) fields items draft

end Draft

def Tag.ofJson : Json → Except DecodeError Tag
  | .object members => do
      let draft ← Draft.setMembers members Field.byKey {}
      draft.complete
  | .list items => do
      let draft ← Draft.setItems 0 Field.inOrder items {}
      draft.complete
  | value => .error (.wrongType value.shape .tag)

/-- The tags that values store; the first that stores none is reported. -/
def Tag.ofJsons : List Json → Except DecodeError (List Tag)
  | [] => .ok []
  | item :: rest => do
      let tag ← Tag.ofJson item
      let tags ← Tag.ofJsons rest
      return tag :: tags

end UsageLine

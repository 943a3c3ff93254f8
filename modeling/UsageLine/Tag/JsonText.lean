import UsageLine.Json.Reader
import UsageLine.Tag.Draft

/-!
# Tags read from JSON texts

A tag is read from a text as it comes, so the first problem of any sort is the
one reported: a text that breaks off or goes wrong, a value of the wrong
shape, a field that an object repeats, and at the end of an object a field
that is missing.  Members that are no fields are skipped.
-/

namespace UsageLine

inductive ReadError
  /-- The text is no JSON. -/
  | text (fault : Json.Fault)
  /-- The text goes well up to a point, but what it holds is no tag. -/
  | data (error : DecodeError)
  deriving DecidableEq, Repr

namespace Json

/-- What a reading of text gives, as part of the reading of a tag. -/
def lift {α : Type} : Except Fault α → Except ReadError α
  | .ok value => .ok value
  | .error fault => .error (.text fault)

theorem ok_of_lift {α : Type} {result : Except Fault α} {value : α}
    (lifted : lift result = .ok value) : result = .ok value := by
  cases result with
  | error fault => cases lifted
  | ok inner => exact congrArg Except.ok (Except.ok.inj lifted)

/-- Read as much of a value as it takes to know its shape. -/
def readShape : Text → Except Fault Shape
  | [] => .error .ended
  | c :: cs =>
      if c = '"' then (readString cs).map fun (content, _) => .text content
      else if c = '[' then .ok .list
      else if c = '{' then .ok .object
      else if c = 'n' then (readWord ['u', 'l', 'l'] cs).map fun _ => .null
      else if c = 't' then
        (readWord ['r', 'u', 'e'] cs).map fun _ => .bool true
      else if c = 'f' then
        (readWord ['a', 'l', 's', 'e'] cs).map fun _ => .bool false
      else if c = '-' || isDigit c then
        (readNumber (c :: cs)).map fun (value, _) => .number value
      else .error .malformed

/-- Why a text that begins otherwise than expected is refused. -/
def unexpected (expected : Expected) (cs : Text) : ReadError :=
  match readShape cs with
  | .ok found => .data (.wrongType found expected)
  | .error fault => .text fault

def readText (cs : Text) : Except ReadError (Text × Text) :=
  match skipBlank cs with
  | [] => .error (.text .ended)
  | c :: rest =>
      if c = '"' then lift (readString rest)
      else .error (unexpected .text (c :: rest))

theorem readText_length {cs rest taken : Text}
    (read : readText cs = .ok (taken, rest)) : rest.length < cs.length := by
  cases found : skipBlank cs with
  | nil => simp [readText, found] at read
  | cons c after =>
      have shorter := length_lt_of_skipBlank found
      simp only [readText, found] at read
      split at read
      · exact Nat.lt_trans (readString_length (ok_of_lift read)) shorter
      · cases read

def readBool (cs : Text) : Except ReadError (Bool × Text) :=
  match skipBlank cs with
  | [] => .error (.text .ended)
  | c :: rest =>
      if c = 't' then
        lift ((readWord ['r', 'u', 'e'] rest).map fun rest => (true, rest))
      else if c = 'f' then
        lift ((readWord ['a', 'l', 's', 'e'] rest).map fun rest => (false, rest))
      else .error (unexpected .bool (c :: rest))

theorem readBool_length {cs rest : Text} {value : Bool}
    (read : readBool cs = .ok (value, rest)) : rest.length < cs.length := by
  cases found : skipBlank cs with
  | nil => simp [readBool, found] at read
  | cons c after =>
      have shorter := length_lt_of_skipBlank found
      simp only [readBool, found] at read
      split at read
      · exact Nat.lt_of_le_of_lt (length_le_of_word (ok_of_lift read)) shorter
      split at read
      · exact Nat.lt_of_le_of_lt (length_le_of_word (ok_of_lift read)) shorter
      · cases read

/-- Read texts up to the bracket that closes their list. -/
def readTexts (cs : Text) : Except ReadError (List Text × Text) :=
  match _taken : readText cs with
  | .error error => .error error
  | .ok (first, rest) =>
      match _found : skipBlank rest with
      | [] => .error (.text .ended)
      | c :: rest =>
          if c = ']' then .ok ([first], rest)
          else if c = ',' then
            match readTexts rest with
            | .error error => .error error
            | .ok (texts, rest) => .ok (first :: texts, rest)
          else .error (.text .malformed)
termination_by cs.length
decreasing_by
  have after_text := readText_length _taken
  have after_comma := length_lt_of_skipBlank _found
  omega

theorem readTexts_length {cs rest : Text} {texts : List Text}
    (read : readTexts cs = .ok (texts, rest)) : rest.length < cs.length := by
  rw [readTexts] at read
  split at read
  case h_1 => cases read
  case h_2 taken =>
    have after_text := readText_length taken
    split at read
    case h_1 => cases read
    case h_2 c after found =>
      have after_mark := length_lt_of_skipBlank found
      split at read
      · cases read
        omega
      split at read
      · split at read
        case h_1 => cases read
        case h_2 inner =>
          have later := readTexts_length inner
          cases read
          omega
      · cases read
termination_by cs.length

def readOptions (cs : Text) :
    Except ReadError (Option (List Text) × Text) :=
  match skipBlank cs with
  | [] => .error (.text .ended)
  | c :: rest =>
      if c = 'n' then
        lift ((readWord ['u', 'l', 'l'] rest).map fun rest => (none, rest))
      else if c = '[' then
        match skipBlank rest with
        | ']' :: rest => .ok (some [], rest)
        | _ => (readTexts rest).map fun (texts, rest) => (some texts, rest)
      else .error (unexpected .list (c :: rest))

theorem readOptions_length {cs rest : Text} {options : Option (List Text)}
    (read : readOptions cs = .ok (options, rest)) : rest.length < cs.length := by
  cases found : skipBlank cs with
  | nil => simp [readOptions, found] at read
  | cons c after =>
      have shorter := length_lt_of_skipBlank found
      simp only [readOptions, found] at read
      split at read
      · exact Nat.lt_of_le_of_lt (length_le_of_word (ok_of_lift read)) shorter
      split at read
      · split at read
        case h_1 behind closed =>
          cases read
          exact Nat.lt_trans (length_lt_of_skipBlank closed) shorter
        case h_2 =>
          obtain ⟨⟨texts, behind⟩, taken, same⟩ := rest_of_map read
          cases same
          exact Nat.lt_trans (readTexts_length taken) shorter
      · cases read

end Json

namespace Draft

def read (draft : Draft) (cs : Text) :
    Field → Except ReadError (Draft × Text)
  | .name =>
      (Json.readText cs).map fun (name, rest) =>
        ({ draft with name := some name }, rest)
  | .kind =>
      (Json.readText cs).map fun (kind, rest) =>
        ({ draft with kind := some kind }, rest)
  | .required =>
      (Json.readBool cs).map fun (required, rest) =>
        ({ draft with required := some required }, rest)
  | .rest =>
      (Json.readBool cs).map fun (isRest, rest) =>
        ({ draft with rest := some isRest }, rest)
  | .options =>
      (Json.readOptions cs).map fun (options, rest) =>
        ({ draft with options := some options }, rest)
  | .literal =>
      (Json.readBool cs).map fun (literal, rest) =>
        ({ draft with literal := some literal }, rest)

theorem read_length {draft next : Draft} {cs rest : Text} {field : Field}
    (filled : draft.read cs field = .ok (next, rest)) :
    rest.length < cs.length := by
  cases field with
  | name =>
      obtain ⟨⟨value, after⟩, taken, same⟩ := Json.rest_of_map filled
      cases same
      exact Json.readText_length taken
  | kind =>
      obtain ⟨⟨value, after⟩, taken, same⟩ := Json.rest_of_map filled
      cases same
      exact Json.readText_length taken
  | required =>
      obtain ⟨⟨value, after⟩, taken, same⟩ := Json.rest_of_map filled
      cases same
      exact Json.readBool_length taken
  | rest =>
      obtain ⟨⟨value, after⟩, taken, same⟩ := Json.rest_of_map filled
      cases same
      exact Json.readBool_length taken
  | options =>
      obtain ⟨⟨value, after⟩, taken, same⟩ := Json.rest_of_map filled
      cases same
      exact Json.readOptions_length taken
  | literal =>
      obtain ⟨⟨value, after⟩, taken, same⟩ := Json.rest_of_map filled
      cases same
      exact Json.readBool_length taken

/-- The text from the next item of a list on; an item that is not the first
follows a comma.  None where the bracket closes the list. -/
def nextItem? (first : Bool) (cs : Text) : Except ReadError (Option Text) :=
  match Json.skipBlank cs with
  | [] => .error (.text .ended)
  | c :: rest =>
      if c = ']' then .ok none
      else if first then .ok (some (c :: rest))
      else if c = ',' then .ok (some rest)
      else .error (.text .malformed)

/-- Fill in fields from the items of a list, which begin at an index, and read
the bracket that must follow the last.  Where the list has no more items the
options are passed over. -/
def readItems : Nat → List Field → Draft → Text →
    Except ReadError (Draft × Text)
  | _, [], draft, cs =>
      match Json.skipBlank cs with
      | [] => .error (.text .ended)
      | c :: rest =>
          if c = ']' then .ok (draft, rest) else .error (.text .malformed)
  | index, field :: fields, draft, cs =>
      match nextItem? (index == 0) cs with
      | .error error => .error error
      | .ok none =>
          if field = .options then readItems (index + 1) fields draft cs
          else .error (.data (.tooShort index))
      | .ok (some item) =>
          match draft.read item field with
          | .error error => .error error
          | .ok (draft, rest) => readItems (index + 1) fields draft rest

/-- Read the value of a member: a field is filled in, anything else is
skipped. -/
def readValue (draft : Draft) (field? : Option Field) (cs : Text) :
    Except ReadError (Draft × Text) :=
  match field? with
  | some field => draft.read cs field
  | none => Json.lift ((Json.skipValue cs).map fun rest => (draft, rest))

theorem readValue_length {draft next : Draft} {field? : Option Field}
    {cs rest : Text} (read : draft.readValue field? cs = .ok (next, rest)) :
    rest.length < cs.length := by
  cases field? with
  | some field => exact read_length read
  | none =>
      obtain ⟨after, taken, same⟩ :=
        Json.rest_of_map (Json.ok_of_lift read)
      cases same
      exact Json.skipValue_length taken

/-- Read the member whose key begins behind its quote.  A field that is known
already is refused as soon as its key is read. -/
def readMember (draft : Draft) (cs : Text) : Except ReadError (Draft × Text) :=
  match Json.readString cs with
  | .error fault => .error (.text fault)
  | .ok (key, rest) =>
      match (Field.ofKey? key).filter draft.has with
      | some field => .error (.data (.duplicate field))
      | none =>
          match Json.readColon rest with
          | .error fault => .error (.text fault)
          | .ok rest => draft.readValue (Field.ofKey? key) rest

theorem readMember_length {draft next : Draft} {cs rest : Text}
    (read : draft.readMember cs = .ok (next, rest)) :
    rest.length < cs.length := by
  unfold readMember at read
  split at read
  case h_1 => cases read
  case h_2 key =>
    have after_key := Json.readString_length key
    split at read
    · cases read
    split at read
    case h_1 => cases read
    case h_2 colon =>
      have after_colon := Json.readColon_length colon
      have after_value := readValue_length read
      omega

/-- Read the members of an object up to its brace, from a quote that must come
next. -/
def readMembers (draft : Draft) (cs : Text) : Except ReadError (Draft × Text) :=
  match _opened : Json.skipBlank cs with
  | [] => .error (.text .ended)
  | c :: member =>
      if c = '"' then
        match _taken : draft.readMember member with
        | .error error => .error error
        | .ok (draft, rest) =>
            match _found : Json.skipBlank rest with
            | [] => .error (.text .ended)
            | d :: rest =>
                if d = '}' then .ok (draft, rest)
                else if d = ',' then draft.readMembers rest
                else .error (.text .malformed)
      else .error (.text .malformed)
termination_by cs.length
decreasing_by
  have after_quote := Json.length_lt_of_skipBlank _opened
  have after_member := readMember_length _taken
  have after_comma := Json.length_lt_of_skipBlank _found
  omega

def readObject (cs : Text) : Except ReadError (Draft × Text) :=
  match Json.skipBlank cs with
  | '}' :: rest => .ok ({}, rest)
  | _ => readMembers {} cs

/-- The tag of a draft that was read to the end of its list or object. -/
def completed :
    Except ReadError (Draft × Text) → Except ReadError (Tag × Text)
  | .error error => .error error
  | .ok (draft, rest) =>
      match draft.complete with
      | .error error => .error (.data error)
      | .ok tag => .ok (tag, rest)

end Draft

def Tag.read (cs : Text) : Except ReadError (Tag × Text) :=
  match Json.skipBlank cs with
  | [] => .error (.text .ended)
  | c :: rest =>
      if c = '[' then Draft.completed (Draft.readItems 0 Field.inOrder {} rest)
      else if c = '{' then Draft.completed (Draft.readObject rest)
      else .error (Json.unexpected .tag (c :: rest))

def Tag.ofJsonText (cs : Text) : Except ReadError Tag :=
  match Tag.read cs with
  | .error error => .error error
  | .ok (tag, rest) =>
      if Json.skipBlank rest = [] then .ok tag else .error (.text .malformed)

end UsageLine

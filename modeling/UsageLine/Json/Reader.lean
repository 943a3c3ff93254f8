import UsageLine.Json.Numeral.Value

/-!
# Reading JSON texts

One pass over a JSON text serves every purpose: a reader says how strings and
numbers are taken from the text and what is made of each value.  The lists and
objects that are still open are kept on a stack, so the pass needs no nesting
of its own.  Two readers are given: one builds the value, one only finds where
it ends.
-/

namespace UsageLine.Json

/-- A way to read JSON texts: keys and strings become `κ`, values become `α`. -/
structure Reader (κ α : Type) where
  /-- Take a string from the text after its opening quote. -/
  string : Text → Except Fault (κ × Text)
  /-- Take a number from the text. -/
  number : Text → Except Fault (α × Text)
  /-- What becomes of the word for no value. -/
  null : α
  /-- What becomes of a truth value. -/
  bool : Bool → α
  /-- What becomes of a string that is a value. -/
  text : κ → α
  /-- What becomes of a list. -/
  list : List α → α
  /-- What becomes of an object. -/
  object : List (κ × α) → α
  /-- A string is behind what is left. -/
  string_length : ∀ {cs rest : Text} {key : κ},
    string cs = .ok (key, rest) → rest.length < cs.length
  /-- A number is behind what is left. -/
  number_length : ∀ {cs rest : Text} {value : α},
    number cs = .ok (value, rest) → rest.length < cs.length

/-- A list or an object that is still open, with what it holds so far; an
object also has the key of the value that comes next. -/
inductive Frame (κ α : Type)
  | list (done : List α)
  | object (done : List (κ × α)) (key : κ)

namespace Reader

variable {κ α : Type} (r : Reader κ α)

/-- Take a value that is neither a list nor an object. -/
def readScalar : Text → Except Fault (α × Text)
  | [] => .error .ended
  | c :: cs =>
      if c = '"' then (r.string cs).map fun (key, rest) => (r.text key, rest)
      else if c = 'n' then
        (readWord ['u', 'l', 'l'] cs).map fun rest => (r.null, rest)
      else if c = 't' then
        (readWord ['r', 'u', 'e'] cs).map fun rest => (r.bool true, rest)
      else if c = 'f' then
        (readWord ['a', 'l', 's', 'e'] cs).map fun rest => (r.bool false, rest)
      else if c = '-' || isDigit c then r.number (c :: cs)
      else .error .malformed

def readKey (cs : Text) : Except Fault (κ × Text) :=
  match skipBlank cs with
  | [] => .error .ended
  | c :: cs =>
      if c = '"' then
        match r.string cs with
        | .error fault => .error fault
        | .ok (key, rest) =>
            match readColon rest with
            | .error fault => .error fault
            | .ok rest => .ok (key, rest)
      else .error .malformed

variable {r}

theorem readScalar_length {cs rest : Text} {value : α}
    (read : r.readScalar cs = .ok (value, rest)) : rest.length < cs.length := by
  cases cs with
  | nil => cases read
  | cons c cs =>
      simp only [readScalar] at read
      split at read
      · obtain ⟨⟨key, after⟩, taken, same⟩ := rest_of_map read
        cases same
        exact Nat.lt_succ_of_lt (r.string_length taken)
      split at read
      · exact Nat.lt_succ_of_le (length_le_of_word read)
      split at read
      · exact Nat.lt_succ_of_le (length_le_of_word read)
      split at read
      · exact Nat.lt_succ_of_le (length_le_of_word read)
      split at read
      · exact r.number_length read
      · cases read

theorem readKey_length {cs rest : Text} {key : κ}
    (read : r.readKey cs = .ok (key, rest)) : rest.length < cs.length := by
  cases found : skipBlank cs with
  | nil => simp [readKey, found] at read
  | cons c quoted =>
      have shorter := length_lt_of_skipBlank found
      simp only [readKey, found] at read
      split at read
      · cases taken : r.string quoted with
        | error fault => simp [taken] at read
        | ok pair =>
            have after_key := r.string_length taken
            simp only [taken] at read
            cases colon : readColon pair.2 with
            | error fault => simp [colon] at read
            | ok after =>
                have after_colon := readColon_length colon
                simp only [colon, Except.ok.injEq, Prod.mk.injEq] at read
                rw [← read.2]
                omega
      · cases read

variable (r)

mutual

/-- Read a value inside what is open, and go on until all is closed. -/
def readIn (outer : List (Frame κ α)) (cs : Text) : Except Fault (α × Text) :=
  match _found : skipBlank cs with
  | [] => .error .ended
  | c :: rest =>
      if c = '[' then readItems outer rest
      else if c = '{' then readMembers outer rest
      else
        match _taken : r.readScalar (c :: rest) with
        | .error fault => .error fault
        | .ok (value, rest) => readOn outer value rest
termination_by (cs.length, 0)
decreasing_by
  · exact Prod.Lex.left _ _ (length_lt_of_skipBlank _found)
  · exact Prod.Lex.left _ _ (length_lt_of_skipBlank _found)
  · have kept := length_le_of_skipBlank _found
    have after_scalar := readScalar_length _taken
    exact Prod.Lex.left _ _ (by omega)

/-- Read a list from behind its bracket. -/
def readItems (outer : List (Frame κ α)) (cs : Text) :
    Except Fault (α × Text) :=
  match _found : skipBlank cs with
  | [] => .error .ended
  | c :: rest =>
      if c = ']' then readOn outer (r.list []) rest
      else readIn (.list [] :: outer) cs
termination_by (cs.length, 1)
decreasing_by
  · exact Prod.Lex.left _ _ (length_lt_of_skipBlank _found)
  · exact Prod.Lex.right _ (by omega)

/-- Read an object from behind its brace. -/
def readMembers (outer : List (Frame κ α)) (cs : Text) :
    Except Fault (α × Text) :=
  match _found : skipBlank cs with
  | [] => .error .ended
  | c :: rest =>
      if c = '}' then readOn outer (r.object []) rest
      else
        match _key : r.readKey cs with
        | .error fault => .error fault
        | .ok (key, rest) => readIn (.object [] key :: outer) rest
termination_by (cs.length, 1)
decreasing_by
  · exact Prod.Lex.left _ _ (length_lt_of_skipBlank _found)
  · exact Prod.Lex.left _ _ (readKey_length _key)

/-- Put a value where it belongs and go on behind it. -/
def readOn (outer : List (Frame κ α)) (value : α) (cs : Text) :
    Except Fault (α × Text) :=
  match outer with
  | [] => .ok (value, cs)
  | .list done :: outer =>
      match _found : skipBlank cs with
      | [] => .error .ended
      | c :: rest =>
          if c = ']' then readOn outer (r.list (done ++ [value])) rest
          else if c = ',' then readIn (.list (done ++ [value]) :: outer) rest
          else .error .malformed
  | .object done key :: outer =>
      match _found : skipBlank cs with
      | [] => .error .ended
      | c :: rest =>
          if c = '}' then
            readOn outer (r.object (done ++ [(key, value)])) rest
          else if c = ',' then
            match _key : r.readKey rest with
            | .error fault => .error fault
            | .ok (next, rest) =>
                readIn (.object (done ++ [(key, value)]) next :: outer) rest
          else .error .malformed
termination_by (cs.length, 0)
decreasing_by
  · exact Prod.Lex.left _ _ (length_lt_of_skipBlank _found)
  · exact Prod.Lex.left _ _ (length_lt_of_skipBlank _found)
  · exact Prod.Lex.left _ _ (length_lt_of_skipBlank _found)
  · have shorter := length_lt_of_skipBlank _found
    have after_key := readKey_length _key
    exact Prod.Lex.left _ _ (by omega)

end

variable {r}

mutual

theorem readIn_length {outer : List (Frame κ α)} {cs rest : Text} {value : α}
    (read : r.readIn outer cs = .ok (value, rest)) :
    rest.length < cs.length := by
  rw [readIn] at read
  split at read
  case h_1 => cases read
  case h_2 c after found =>
    have shorter := length_lt_of_skipBlank found
    split at read
    · exact Nat.lt_trans (readItems_length read) shorter
    split at read
    · exact Nat.lt_trans (readMembers_length read) shorter
    split at read
    case h_1 => cases read
    case h_2 taken =>
      have kept := length_le_of_skipBlank found
      have after_scalar := readScalar_length taken
      have later := readOn_length_le read
      omega
termination_by (cs.length, 0)

theorem readItems_length {outer : List (Frame κ α)} {cs rest : Text} {value : α}
    (read : r.readItems outer cs = .ok (value, rest)) :
    rest.length < cs.length := by
  rw [readItems] at read
  split at read
  case h_1 => cases read
  case h_2 c after found =>
    have shorter := length_lt_of_skipBlank found
    split at read
    · exact Nat.lt_of_le_of_lt (readOn_length_le read) shorter
    · exact readIn_length read
termination_by (cs.length, 1)

theorem readMembers_length {outer : List (Frame κ α)} {cs rest : Text}
    {value : α} (read : r.readMembers outer cs = .ok (value, rest)) :
    rest.length < cs.length := by
  rw [readMembers] at read
  split at read
  case h_1 => cases read
  case h_2 c after found =>
    have shorter := length_lt_of_skipBlank found
    split at read
    · exact Nat.lt_of_le_of_lt (readOn_length_le read) shorter
    split at read
    case h_1 => cases read
    case h_2 key =>
      have after_key := readKey_length key
      exact Nat.lt_trans (readIn_length read) after_key
termination_by (cs.length, 1)

theorem readOn_length_le {outer : List (Frame κ α)} {cs rest : Text}
    {value result : α} (read : r.readOn outer value cs = .ok (result, rest)) :
    rest.length ≤ cs.length := by
  unfold readOn at read
  cases outer with
  | nil =>
      cases read
      exact Nat.le_refl _
  | cons frame outer =>
      cases frame with
      | list done =>
          dsimp only at read
          split at read
          case h_1 => cases read
          case h_2 c after found =>
            have shorter := length_lt_of_skipBlank found
            split at read
            · have later := readOn_length_le read
              omega
            split at read
            · have later := readIn_length read
              omega
            · cases read
      | object done key =>
          dsimp only at read
          split at read
          case h_1 => cases read
          case h_2 c after found =>
            have shorter := length_lt_of_skipBlank found
            split at read
            · have later := readOn_length_le read
              omega
            split at read
            · split at read
              case h_1 => cases read
              case h_2 next =>
                have after_key := readKey_length next
                have later := readIn_length read
                omega
            · cases read
termination_by (cs.length, 0)

end

variable (r)

def read (cs : Text) : Except Fault (α × Text) := r.readIn [] cs

end Reader

/-- The reader that builds the value. -/
def building : Reader Text Json where
  string := readString
  number := fun cs =>
    (readNumber cs).map fun (value, rest) => (.number value, rest)
  null := .null
  bool := .bool
  text := .text
  list := .list
  object := .object
  string_length := readString_length
  number_length := fun taken => by
    obtain ⟨⟨value, after⟩, inner, same⟩ := rest_of_map taken
    cases same
    exact readNumber_length inner

/-- The reader that only finds where a value ends. -/
def skipping : Reader Unit Unit where
  string := fun cs => (skipString cs).map fun rest => ((), rest)
  number := fun cs => (skipNumeral cs).map fun rest => ((), rest)
  null := ()
  bool := fun _ => ()
  text := fun _ => ()
  list := fun _ => ()
  object := fun _ => ()
  string_length := fun taken => by
    obtain ⟨after, inner, same⟩ := rest_of_map taken
    cases same
    exact skipString_length inner
  number_length := fun taken => by
    obtain ⟨after, inner, same⟩ := rest_of_map taken
    cases same
    exact skipNumeral_length inner

def skipValue (cs : Text) : Except Fault Text :=
  (skipping.read cs).map Prod.snd

theorem skipValue_length {cs rest : Text} (skipped : skipValue cs = .ok rest) :
    rest.length < cs.length := by
  unfold skipValue at skipped
  cases read : skipping.read cs with
  | error fault => simp [read, Except.map] at skipped
  | ok pair =>
      simp only [read, Except.map, Except.ok.injEq] at skipped
      subst skipped
      exact Reader.readIn_length read

def ofText (cs : Text) : Except Fault Json :=
  match building.read cs with
  | .error fault => .error fault
  | .ok (value, rest) =>
      if skipBlank rest = [] then .ok value else .error .malformed

end UsageLine.Json

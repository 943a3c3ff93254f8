import UsageLine.Text

/-!
# The pieces of a JSON text

Blanks, the words, and the strings of a JSON text.  Each reader returns what
it read and the text after it.  A text that ended too early is told apart from
one that went wrong.  A checked string must spell characters; a skipped one
may hold halves of a surrogate pair, since nothing is made of them.  A law goes
with each reader that bounds what it leaves, for this is what the readers built
from it end by.
-/

namespace UsageLine.Json

inductive Fault
  /-- The text ended where more was to come. -/
  | ended
  /-- Something stands where it must not stand. -/
  | malformed
  deriving DecidableEq, Repr

theorem rest_of_map {ε β γ : Type} {result : Except ε β} {f : β → γ × Text}
    {value : γ} {rest : Text} (mapped : result.map f = .ok (value, rest)) :
    ∃ inner, result = .ok inner ∧ f inner = (value, rest) := by
  cases result with
  | error fault => cases mapped
  | ok inner => exact ⟨inner, rfl, Except.ok.inj mapped⟩

def isBlank (c : Char) : Bool :=
  c == ' ' || c == '\n' || c == '\t' || c == '\r'

/-- The text from its first character that is no blank. -/
def skipBlank (cs : Text) : Text := cs.dropWhile isBlank

theorem length_le_of_skipBlank {cs rest : Text} (found : skipBlank cs = rest) :
    rest.length ≤ cs.length :=
  found ▸ (List.dropWhile_suffix isBlank).length_le

theorem length_lt_of_skipBlank {cs rest : Text} {c : Char}
    (found : skipBlank cs = c :: rest) : rest.length < cs.length :=
  length_le_of_skipBlank found

def readColon (cs : Text) : Except Fault Text :=
  match skipBlank cs with
  | [] => .error .ended
  | c :: rest => if c = ':' then .ok rest else .error .malformed

theorem readColon_length {cs rest : Text} (read : readColon cs = .ok rest) :
    rest.length < cs.length := by
  cases found : skipBlank cs with
  | nil => simp [readColon, found] at read
  | cons c after =>
      have shorter := length_lt_of_skipBlank found
      simp only [readColon, found] at read
      split at read
      · cases read
        exact shorter
      · cases read

def readWord : Text → Text → Except Fault Text
  | [], cs => .ok cs
  | _ :: _, [] => .error .ended
  | w :: word, c :: cs => if c = w then readWord word cs else .error .malformed

theorem readWord_length_le {word cs rest : Text}
    (read : readWord word cs = .ok rest) : rest.length ≤ cs.length := by
  induction word generalizing cs with
  | nil => simp_all [readWord]
  | cons w word ih =>
      cases cs with
      | nil => simp [readWord] at read
      | cons c cs =>
          simp only [readWord] at read
          split at read
          · exact Nat.le_succ_of_le (ih read)
          · cases read

theorem length_le_of_word {γ : Type} {word cs rest : Text} {meant value : γ}
    (read : (readWord word cs).map (fun rest => (meant, rest)) =
      .ok (value, rest)) : rest.length ≤ cs.length := by
  obtain ⟨after, taken, same⟩ := rest_of_map read
  cases same
  exact readWord_length_le taken

def hexValue? (c : Char) : Option Nat :=
  if '0' ≤ c ∧ c ≤ '9' then some (c.toNat - 48)
  else if 'a' ≤ c ∧ c ≤ 'f' then some (c.toNat - 87)
  else if 'A' ≤ c ∧ c ≤ 'F' then some (c.toNat - 55)
  else none

def hexUnit? (a b c d : Char) : Option Nat := do
  let a ← hexValue? a
  let b ← hexValue? b
  let c ← hexValue? c
  let d ← hexValue? d
  return ((a * 16 + b) * 16 + c) * 16 + d

/-- The number of bytes that a text takes in UTF-8. -/
def byteCount : Text → Nat
  | [] => 0
  | c :: cs => c.utf8Size + byteCount cs

/-- Read the four digits of a numbered escape.  They are looked for in the next
four bytes, so the text ended early only if it has fewer. -/
def readUnit : Text → Except Fault (Nat × Text)
  | a :: b :: c :: d :: rest =>
      match hexUnit? a b c d with
      | some unit => .ok (unit, rest)
      | none => .error .malformed
  | cs => .error (if byteCount cs < 4 then .ended else .malformed)

theorem readUnit_length {cs rest : Text} {unit : Nat}
    (read : readUnit cs = .ok (unit, rest)) : rest.length < cs.length := by
  unfold readUnit at read
  split at read
  · split at read
    · cases read
      simp only [List.length_cons]
      omega
    · cases read
  · cases read

/-- The character that a letter after a backslash stands for. -/
def unescape? : Char → Option Char
  | '"' => some '"'
  | '\\' => some '\\'
  | '/' => some '/'
  | 'b' => some '\x08'
  | 'f' => some '\x0c'
  | 'n' => some '\n'
  | 'r' => some '\r'
  | 't' => some '\t'
  | _ => none

/-- The first half of a surrogate pair. -/
def isLeading (unit : Nat) : Bool := 0xD800 ≤ unit && unit ≤ 0xDBFF

/-- The second half of a surrogate pair. -/
def isTrailing (unit : Nat) : Bool := 0xDC00 ≤ unit && unit ≤ 0xDFFF

/-- The character that two halves spell. -/
def paired (first second : Nat) : Char :=
  Char.ofNat ((first - 0xD800) * 0x400 + (second - 0xDC00) + 0x10000)

/-- Read the second half of a surrogate pair, itself a numbered escape. -/
def readTrailing : Text → Except Fault (Nat × Text)
  | [] => .error .ended
  | ['\\'] => .error .ended
  | '\\' :: 'u' :: cs =>
      match readUnit cs with
      | .error fault => .error fault
      | .ok (unit, rest) =>
          if isTrailing unit then .ok (unit, rest) else .error .malformed
  | _ => .error .malformed

def readEscape : Text → Except Fault (Char × Text)
  | [] => .error .ended
  | 'u' :: cs =>
      match readUnit cs with
      | .error fault => .error fault
      | .ok (unit, rest) =>
          if isTrailing unit then .error .malformed
          else if isLeading unit then
            match readTrailing rest with
            | .error fault => .error fault
            | .ok (second, rest) => .ok (paired unit second, rest)
          else .ok (Char.ofNat unit, rest)
  | letter :: rest =>
      match unescape? letter with
      | some c => .ok (c, rest)
      | none => .error .malformed

theorem readTrailing_length {cs rest : Text} {unit : Nat}
    (read : readTrailing cs = .ok (unit, rest)) : rest.length < cs.length := by
  unfold readTrailing at read
  split at read
  case h_1 => cases read
  case h_2 => cases read
  case h_3 digits =>
    cases taken : readUnit digits with
    | error fault => simp [taken] at read
    | ok pair =>
        have shorter := readUnit_length taken
        simp only [taken] at read
        split at read
        · cases read
          simp only [List.length_cons]
          omega
        · cases read
  case h_4 => cases read

theorem readEscape_length {cs rest : Text} {c : Char}
    (read : readEscape cs = .ok (c, rest)) : rest.length < cs.length := by
  unfold readEscape at read
  split at read
  case h_1 => cases read
  case h_2 digits =>
    cases taken : readUnit digits with
    | error fault => simp [taken] at read
    | ok pair =>
        have shorter := readUnit_length taken
        simp only [taken] at read
        split at read
        · cases read
        split at read
        · cases follows : readTrailing pair.2 with
          | error fault => simp [follows] at read
          | ok second =>
              have shorter' := readTrailing_length follows
              simp only [follows, Except.ok.injEq, Prod.mk.injEq] at read
              rw [← read.2, List.length_cons]
              omega
        · simp only [Except.ok.injEq, Prod.mk.injEq] at read
          rw [← read.2, List.length_cons]
          omega
  case h_3 letter after _ =>
    split at read
    · cases read
      exact Nat.lt_succ_self _
    · cases read

def prepend (c : Char) :
    Except Fault (Text × Text) → Except Fault (Text × Text)
  | .ok (taken, rest) => .ok (c :: taken, rest)
  | .error fault => .error fault

def readString : Text → Except Fault (Text × Text)
  | [] => .error .ended
  | c :: cs =>
      if c = '"' then .ok ([], cs)
      else if c = '\\' then
        match _found : readEscape cs with
        | .error fault => .error fault
        | .ok (escaped, rest) => prepend escaped (readString rest)
      else if c.toNat < 0x20 then .error .malformed
      else prepend c (readString cs)
termination_by cs => cs.length
decreasing_by
  · have shorter := readEscape_length _found
    simp only [List.length_cons]
    omega
  · simp

theorem readString_length {cs rest taken : Text}
    (read : readString cs = .ok (taken, rest)) : rest.length < cs.length := by
  fun_induction readString cs generalizing taken with
  | case1 => cases read
  | case2 cs => cases read; simp
  | case3 cs fault found => cases read
  | case4 cs escaped after found _ ih =>
      cases inner : readString after with
      | error fault => simp [inner, prepend] at read
      | ok pair =>
          simp only [inner, prepend, Except.ok.injEq, Prod.mk.injEq] at read
          have escape := readEscape_length found
          have later := ih (inner.trans (by rw [← read.2]))
          simp only [List.length_cons]
          omega
  | case5 c cs => cases read
  | case6 c cs noQuote noEscape noControl ih =>
      cases inner : readString cs with
      | error fault => simp [inner, prepend] at read
      | ok pair =>
          simp only [inner, prepend, Except.ok.injEq, Prod.mk.injEq] at read
          have later := ih (inner.trans (by rw [← read.2]))
          exact Nat.lt_succ_of_lt later

def skipEscape : Text → Except Fault Text
  | [] => .error .ended
  | 'u' :: cs => (readUnit cs).map Prod.snd
  | letter :: rest =>
      if (unescape? letter).isSome then .ok rest else .error .malformed

theorem skipEscape_length {cs rest : Text}
    (skipped : skipEscape cs = .ok rest) : rest.length < cs.length := by
  unfold skipEscape at skipped
  split at skipped
  case h_1 => cases skipped
  case h_2 digits =>
    cases taken : readUnit digits with
    | error fault => simp [taken, Except.map] at skipped
    | ok pair =>
        have shorter := readUnit_length taken
        simp only [taken, Except.map, Except.ok.injEq] at skipped
        rw [← skipped]
        exact Nat.lt_succ_of_lt shorter
  case h_3 letter after _ =>
    split at skipped
    · cases skipped
      exact Nat.lt_succ_self _
    · cases skipped

def skipString : Text → Except Fault Text
  | [] => .error .ended
  | c :: cs =>
      if c = '"' then .ok cs
      else if c = '\\' then
        match _found : skipEscape cs with
        | .error fault => .error fault
        | .ok rest => skipString rest
      else if c.toNat < 0x20 then .error .malformed
      else skipString cs
termination_by cs => cs.length
decreasing_by
  · have shorter := skipEscape_length _found
    simp only [List.length_cons]
    omega
  · simp

theorem skipString_length {cs rest : Text}
    (skipped : skipString cs = .ok rest) : rest.length < cs.length := by
  fun_induction skipString cs with
  | case1 => cases skipped
  | case2 cs => cases skipped; simp
  | case3 cs fault found => cases skipped
  | case4 cs after found _ ih =>
      have escape := skipEscape_length found
      have later := ih skipped
      simp only [List.length_cons]
      omega
  | case5 c cs => cases skipped
  | case6 c cs noQuote noEscape noControl ih =>
      exact Nat.lt_succ_of_lt (ih skipped)

end UsageLine.Json

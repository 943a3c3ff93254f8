import UsageLine.Json.Lexeme

/-!
# Numerals

A numeral is a number as a JSON text spells it: a sign, whole digits, and
maybe a fraction and an exponent.  What it names does not matter here.
-/

namespace UsageLine.Json

/-- A number as it is spelled. -/
structure Numeral where
  negative : Bool
  whole : Text
  fraction : Option Text
  exponent : Option Int
  deriving DecidableEq, Repr

def isDigit (c : Char) : Bool := '0' ≤ c && c ≤ '9'

def digitValue (c : Char) : Nat := c.toNat - 48

def digitsValue (ds : Text) : Nat :=
  ds.foldl (fun value d => 10 * value + digitValue d) 0

def readDigits : Text → Except Fault (Text × Text)
  | [] => .error .ended
  | c :: cs =>
      if isDigit c then
        .ok (c :: cs.takeWhile isDigit, cs.dropWhile isDigit)
      else .error .malformed

theorem readDigits_length {cs ds rest : Text}
    (read : readDigits cs = .ok (ds, rest)) : rest.length < cs.length := by
  cases cs with
  | nil => cases read
  | cons c cs =>
      simp only [readDigits] at read
      split at read
      · simp only [Except.ok.injEq, Prod.mk.injEq] at read
        rw [← read.2]
        exact Nat.lt_succ_of_le (List.dropWhile_suffix isDigit).length_le
      · cases read

/-- Read the whole digits, which begin with a zero only if it stands alone. -/
def readWhole (cs : Text) : Except Fault (Text × Text) :=
  match readDigits cs with
  | .ok ('0' :: _ :: _, _) => .error .malformed
  | result => result

theorem readWhole_length {cs ds rest : Text}
    (read : readWhole cs = .ok (ds, rest)) : rest.length < cs.length := by
  unfold readWhole at read
  split at read
  · cases read
  · exact readDigits_length read

def readFraction : Text → Except Fault (Option Text × Text)
  | '.' :: cs =>
      match readDigits cs with
      | .error fault => .error fault
      | .ok (ds, rest) => .ok (some ds, rest)
  | cs => .ok (none, cs)

theorem readFraction_length_le {cs rest : Text} {fraction : Option Text}
    (read : readFraction cs = .ok (fraction, rest)) :
    rest.length ≤ cs.length := by
  unfold readFraction at read
  split at read
  case h_1 digits =>
    cases taken : readDigits digits with
    | error fault => simp [taken] at read
    | ok pair =>
        have shorter := readDigits_length taken
        simp only [taken, Except.ok.injEq, Prod.mk.injEq] at read
        rw [← read.2]
        exact Nat.le_of_lt (Nat.lt_succ_of_lt shorter)
  case h_2 =>
    cases read
    exact Nat.le_refl _

def readSigned (sign : Int) (cs : Text) : Except Fault (Int × Text) :=
  match readDigits cs with
  | .error fault => .error fault
  | .ok (ds, rest) => .ok (sign * digitsValue ds, rest)

theorem readSigned_length {sign power : Int} {cs rest : Text}
    (read : readSigned sign cs = .ok (power, rest)) :
    rest.length < cs.length := by
  cases taken : readDigits cs with
  | error fault => simp [readSigned, taken] at read
  | ok pair =>
      have shorter := readDigits_length taken
      simp only [readSigned, taken, Except.ok.injEq, Prod.mk.injEq] at read
      rwa [← read.2]

def readPower : Text → Except Fault (Int × Text)
  | '-' :: cs => readSigned (-1) cs
  | '+' :: cs => readSigned 1 cs
  | cs => readSigned 1 cs

theorem readPower_length {cs rest : Text} {power : Int}
    (read : readPower cs = .ok (power, rest)) : rest.length < cs.length := by
  unfold readPower at read
  split at read
  · exact Nat.lt_succ_of_lt (readSigned_length read)
  · exact Nat.lt_succ_of_lt (readSigned_length read)
  · exact readSigned_length read

def readExponent : Text → Except Fault (Option Int × Text)
  | [] => .ok (none, [])
  | c :: cs =>
      if c = 'e' ∨ c = 'E' then
        match readPower cs with
        | .error fault => .error fault
        | .ok (power, rest) => .ok (some power, rest)
      else .ok (none, c :: cs)

theorem readExponent_length_le {cs rest : Text} {exponent : Option Int}
    (read : readExponent cs = .ok (exponent, rest)) :
    rest.length ≤ cs.length := by
  cases cs with
  | nil =>
      cases read
      exact Nat.le_refl _
  | cons c cs =>
      simp only [readExponent] at read
      split at read
      · cases taken : readPower cs with
        | error fault => simp [taken] at read
        | ok pair =>
            have shorter := readPower_length taken
            simp only [taken, Except.ok.injEq, Prod.mk.injEq] at read
            rw [← read.2]
            exact Nat.le_of_lt (Nat.lt_succ_of_lt shorter)
      · cases read
        exact Nat.le_refl _

def readUnsigned (negative : Bool) (cs : Text) :
    Except Fault (Numeral × Text) :=
  match readWhole cs with
  | .error fault => .error fault
  | .ok (whole, cs) =>
      match readFraction cs with
      | .error fault => .error fault
      | .ok (fraction, cs) =>
          match readExponent cs with
          | .error fault => .error fault
          | .ok (exponent, cs) => .ok (⟨negative, whole, fraction, exponent⟩, cs)

theorem readUnsigned_length {negative : Bool} {cs rest : Text}
    {numeral : Numeral} (read : readUnsigned negative cs = .ok (numeral, rest)) :
    rest.length < cs.length := by
  unfold readUnsigned at read
  split at read
  case h_1 => cases read
  case h_2 whole =>
    have shorter := readWhole_length whole
    split at read
    case h_1 => cases read
    case h_2 fraction =>
      have after_fraction := readFraction_length_le fraction
      split at read
      case h_1 => cases read
      case h_2 exponent =>
        have after_exponent := readExponent_length_le exponent
        cases read
        omega

def readNumeral : Text → Except Fault (Numeral × Text)
  | '-' :: cs => readUnsigned true cs
  | cs => readUnsigned false cs

theorem readNumeral_length {cs rest : Text} {numeral : Numeral}
    (read : readNumeral cs = .ok (numeral, rest)) :
    rest.length < cs.length := by
  unfold readNumeral at read
  split at read
  · exact Nat.lt_succ_of_lt (readUnsigned_length read)
  · exact readUnsigned_length read

/-- Skip a numeral.  One that is cut short counts as malformed. -/
def skipNumeral (cs : Text) : Except Fault Text :=
  match readNumeral cs with
  | .ok (_, rest) => .ok rest
  | .error _ => .error .malformed

theorem skipNumeral_length {cs rest : Text}
    (skipped : skipNumeral cs = .ok rest) : rest.length < cs.length := by
  cases read : readNumeral cs with
  | error fault => simp [skipNumeral, read] at skipped
  | ok pair =>
      have shorter := readNumeral_length read
      simp only [skipNumeral, read, Except.ok.injEq] at skipped
      rwa [← skipped]

end UsageLine.Json

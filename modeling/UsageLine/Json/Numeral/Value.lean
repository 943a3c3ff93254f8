import UsageLine.Decimal.Shortest
import UsageLine.Json
import UsageLine.Json.Numeral

/-!
# The number a numeral names

Whole numerals that fit 64 bits name whole numbers.  Any other numeral is held
in double precision: digits are taken as long as they make a number of 64
bits, and one power of ten brings that number to its size.
-/

namespace UsageLine.Json

/-- The greatest number of 64 bits. -/
def wordLimit : Nat := 0xFFFFFFFFFFFFFFFF

/-- How far below zero a number of 64 bits reaches. -/
def signedLimit : Nat := 0x8000000000000000

/-- Take digits into a number while it stays within 64 bits; the digits that
are left over come second. -/
def absorb (value : Nat) : Text → Nat × Text
  | [] => (value, [])
  | d :: ds =>
      if 10 * value + digitValue d ≤ wordLimit then
        absorb (10 * value + digitValue d) ds
      else (value, d :: ds)

def tenTo (n : Nat) : Float := Float.ofScientific 1 false n

/-- A number in double precision, so many powers of ten up or down; none where
it grows out of range.  A step down of more than 308 powers is made in parts. -/
def scaled (value : Float) (exponent : Int) : Option Float :=
  if exponent.natAbs ≤ 308 then
    if 0 ≤ exponent then
      let result := value * tenTo exponent.toNat
      if result.isInf then none else some result
    else some (value / tenTo exponent.natAbs)
  else if value == 0 then some value
  else if 0 ≤ exponent then none
  else scaled (value / tenTo 308) (exponent + 308)
termination_by exponent.natAbs

namespace Numeral

def isWhole (n : Numeral) : Bool := n.fraction.isNone && n.exponent.isNone

/-- The whole number, where the numeral names one that fits 64 bits. -/
def integer? (n : Numeral) : Option Int :=
  let value := digitsValue n.whole
  if !n.isWhole then none
  else if n.negative then
    if 0 < value && value ≤ signedLimit then some (-(value : Int)) else none
  else if value ≤ wordLimit then some value
  else none

/-- The numeral in double precision; none where it is out of range. -/
def float? (n : Numeral) : Option Float :=
  let fraction := n.fraction.getD []
  let (value, dropped) := absorb 0 n.whole
  let (value, ignored) := absorb value fraction
  let places : Int := fraction.length - ignored.length
  let exponent := n.exponent.getD 0 + dropped.length - places
  let magnitude := scaled (Float.ofNat value) exponent
  if n.negative then magnitude.map (- ·) else magnitude

def number? (n : Numeral) : Option Number :=
  match n.integer? with
  | some value => some (.integer value)
  | none => n.float?.map fun x => .decimal (Decimal.ofFloat x)

end Numeral

def readNumber (cs : Text) : Except Fault (Number × Text) :=
  match readNumeral cs with
  | .error fault => .error fault
  | .ok (numeral, rest) =>
      match numeral.number? with
      | some value => .ok (value, rest)
      | none => .error .malformed

theorem readNumber_length {cs rest : Text} {value : Number}
    (read : readNumber cs = .ok (value, rest)) : rest.length < cs.length := by
  unfold readNumber at read
  split at read
  · cases read
  · rename_i inner
    split at read
    · cases read
      exact readNumeral_length inner
    · cases read

end UsageLine.Json

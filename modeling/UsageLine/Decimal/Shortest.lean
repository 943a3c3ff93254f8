import UsageLine.Decimal

/-!
# Shortest decimals

A double-precision number is `m * 2 ^ q`.  The reals that round to it form an
interval, with its ends where `m` is even.  Of the decimals in that interval
those with the fewest digits are taken, and of these the nearest; of two at
one distance the one with an even last digit.  Everything is compared in whole
numbers, with the value held as a fraction.
-/

namespace UsageLine.Decimal

/-- A fraction with the ends of the interval around it, all over one positive
denominator. -/
structure Span where
  low : Nat
  value : Nat
  high : Nat
  denominator : Nat
  /-- The ends belong to the interval. -/
  closed : Bool

/-- The reals that round to `m * 2 ^ q`.  Below a power of two the gap is half
as wide, unless the numbers are already as close as they get. -/
def Span.around (m : Nat) (q : Int) (narrowBelow : Bool) : Span :=
  let scale := Nat.pow 2 q.toNat
  { low := (4 * m - if narrowBelow then 1 else 2) * scale
    value := 4 * m * scale
    high := (4 * m + 2) * scale
    denominator := 4 * Nat.pow 2 (-q).toNat
    closed := m % 2 == 0 }

def Span.contains (s : Span) (significand : Nat) (exponent : Int) : Bool :=
  let point := significand * Nat.pow 10 exponent.toNat * s.denominator
  let unit := Nat.pow 10 (-exponent).toNat
  if s.closed then s.low * unit ≤ point && point ≤ s.high * unit
  else s.low * unit < point && point < s.high * unit

/-- The whole number of powers of ten in the value. -/
def Span.floor (s : Span) (exponent : Int) : Nat :=
  s.value * Nat.pow 10 (-exponent).toNat /
    (s.denominator * Nat.pow 10 exponent.toNat)

/-- The exponent of the first digit of the value. -/
def Span.leading (s : Span) : Int :=
  if s.denominator ≤ s.value then
    (digits (s.value / s.denominator)).length - 1
  else
    -(digits ((s.denominator - 1) / s.value)).length

/-- Of the two decimals next to the value, the one to take if any. -/
def Span.choose (s : Span) (exponent : Int) : Option Nat :=
  let below := s.floor exponent
  let above := below + 1
  match s.contains below exponent, s.contains above exponent with
  | true, false => some below
  | false, true => some above
  | false, false => none
  | true, true =>
      let twice :=
        2 * s.value * Nat.pow 10 (-exponent).toNat
      let middle :=
        (below + above) * Nat.pow 10 exponent.toNat * s.denominator
      if twice < middle then some below
      else if middle < twice then some above
      else if below % 2 = 0 then some below
      else some above

/-- Look for a decimal with ever more digits; seventeen always suffice. -/
def Span.search (s : Span) (exponent : Int) : Nat → Nat × Int
  | 0 => (s.floor exponent, exponent)
  | more + 1 =>
      match s.choose exponent with
      | some significand => (significand, exponent)
      | none => s.search (exponent - 1) more

/-- The shortest decimal that names `m * 2 ^ q`. -/
def shortest (m : Nat) (q : Int) (narrowBelow : Bool) : Nat × Int :=
  let s := Span.around m q narrowBelow
  let found := s.search s.leading 17
  trim found.1 found.2

/-- One more than the greatest fraction field of a double-precision number. -/
def fractionLimit : Nat := 0x10000000000000

/-- One more than the greatest exponent field of a double-precision number. -/
def powerLimit : Nat := 0x800

def ofFloat (x : Float) : Decimal :=
  let bits := x.toBits.toNat
  let fraction := bits % fractionLimit
  let power := bits / fractionLimit % powerLimit
  let found :=
    if power = 0 then
      if fraction = 0 then (0, 0) else shortest fraction (-1074) false
    else
      shortest (fraction + fractionLimit) ((power : Int) - 1075)
        (fraction == 0 && 1 < power)
  ⟨bits / fractionLimit / powerLimit == 1, found.1, found.2⟩

end UsageLine.Decimal

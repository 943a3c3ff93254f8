import UsageLine.Text

/-!
# Decimals

A decimal is a sign, the number its digits make, and the power of ten that the
last digit counts.  Moderate decimals are written with a point, others with
one digit before the point and an exponent.
-/

namespace UsageLine

/-- A signed number of powers of ten. -/
structure Decimal where
  negative : Bool
  significand : Nat
  exponent : Int
  deriving DecidableEq, Repr

namespace Decimal

def digits (n : Nat) : Text := Nat.toDigits 10 n

structure Layout where
  /-- The least exponent of the first digit that is written with a point. -/
  least : Int
  /-- The greatest exponent of the first digit that is written with a point. -/
  greatest : Int
  /-- What stands before an exponent that is not negative. -/
  positiveMark : Text

/-- From a hundred-thousandth up to sixteen digits before the point a decimal
is written out; a larger exponent is written with its sign. -/
def layout : Layout := ⟨-5, 15, ['+']⟩

/-- Digits with a point after the first so many of them, and a zero on either
side of the point that has no digit. -/
def pointed (ds : Text) (exponent : Int) : Text :=
  let whole := exponent + ds.length
  if 0 ≤ exponent then
    ds ++ List.replicate exponent.toNat '0' ++ ['.', '0']
  else if 0 < whole then
    ds.take whole.toNat ++ '.' :: ds.drop whole.toNat
  else
    '0' :: '.' :: (List.replicate (-whole).toNat '0' ++ ds)

/-- Digits with a point after the first, if there are others, and the exponent
of the first. -/
def scientific (mark : Text) (ds : Text) (exponent : Int) : Text :=
  let first := exponent + ds.length - 1
  let power :=
    if first < 0 then '-' :: digits (-first).toNat
    else mark ++ digits first.toNat
  match ds with
  | d :: e :: rest => d :: '.' :: e :: rest ++ 'e' :: power
  | _ => ds ++ 'e' :: power

/-- The decimal without its sign, in a layout. -/
def magnitude (shape : Layout) (significand : Nat) (exponent : Int) : Text :=
  if significand = 0 then ['0', '.', '0']
  else
    let ds := digits significand
    let first := exponent + ds.length - 1
    if shape.least ≤ first ∧ first ≤ shape.greatest then pointed ds exponent
    else scientific shape.positiveMark ds exponent

def text (d : Decimal) : Text :=
  (if d.negative then ['-'] else []) ++
    magnitude layout d.significand d.exponent

/-- A decimal of one value whose last digit is not zero. -/
def trim (significand : Nat) (exponent : Int) : Nat × Int :=
  if significand = 0 then (0, 0)
  else if significand % 10 = 0 then trim (significand / 10) (exponent + 1)
  else (significand, exponent)
termination_by significand

end Decimal

end UsageLine

import UsageLine.Decimal

/-!
# JSON values

The values that a JSON text can spell.  An object keeps its members in the
order of the text; where a key is repeated its last member counts.
-/

namespace UsageLine

namespace Json

/-- A number that fits 64 bits stays whole; any other is the shortest decimal
that names its double-precision value. -/
inductive Number
  | integer (n : Int)
  | decimal (d : Decimal)
  deriving DecidableEq, Repr

def integerText : Int → Text
  | .ofNat n => Decimal.digits n
  | .negSucc n => '-' :: Decimal.digits (n + 1)

def Number.text : Number → Text
  | .integer n => integerText n
  | .decimal d => d.text

end Json

inductive Json
  | null
  | bool (value : Bool)
  | number (value : Json.Number)
  | text (value : Text)
  | list (items : List Json)
  | object (members : List (Text × Json))
  deriving Inhabited

namespace Json

/-- The value of a key, the last one where the key is repeated. -/
def member? (key : Text) : List (Text × Json) → Option Json
  | [] => none
  | (found, value) :: rest =>
      (member? key rest).or (if found = key then some value else none)

/-- What kind of value stands at the top of a JSON value. -/
inductive Shape
  | null
  | bool (value : Bool)
  | number (value : Number)
  | text (value : Text)
  | list
  | object
  deriving DecidableEq, Repr

def shape : Json → Shape
  | .null => .null
  | .bool value => .bool value
  | .number value => .number value
  | .text value => .text value
  | .list _ => .list
  | .object _ => .object

end Json

end UsageLine

import UsageLine.Json
import UsageLine.Tag.Field
import UsageLine.Text.Quoted

/-!
# Why a stored tag is not decoded

A value of the wrong shape is named by its shape and by what should have been
there.  Objects fail by a field that is missing or repeated, lists by their
length.
-/

namespace UsageLine

inductive Expected
  | text
  | bool
  | list
  | tag
  deriving DecidableEq, Repr

/-- Why a stored tag is not decoded. -/
inductive DecodeError
  /-- A value has the wrong shape. -/
  | wrongType (found : Json.Shape) (expected : Expected)
  /-- An object lacks a field. -/
  | missing (field : Field)
  /-- An object has a field twice. -/
  | duplicate (field : Field)
  /-- A list has only so many items. -/
  | tooShort (count : Nat)
  /-- A list has so many items, which are too many. -/
  | tooLong (count : Nat)
  deriving DecidableEq, Repr

def Json.Shape.description : Json.Shape → Text
  | .null => "null".toList
  | .bool true => "boolean `true`".toList
  | .bool false => "boolean `false`".toList
  | .number (.integer n) =>
      "integer `".toList ++ Json.integerText n ++ ['\x60']
  | .number (.decimal d) => "floating point `".toList ++ d.text ++ ['\x60']
  | .text value => "string ".toList ++ Text.quoted value
  | .list => "sequence".toList
  | .object => "map".toList

def Expected.description : Expected → Text
  | .text => "a string".toList
  | .bool => "a boolean".toList
  | .list => "a sequence".toList
  | .tag => "struct Tag".toList

def DecodeError.message : DecodeError → Text
  | .wrongType found expected =>
      "invalid type: ".toList ++ found.description ++ ", expected ".toList ++
        expected.description
  | .missing field => "missing field `".toList ++ field.key ++ ['\x60']
  | .duplicate field => "duplicate field `".toList ++ field.key ++ ['\x60']
  | .tooShort count =>
      "invalid length ".toList ++ Decimal.digits count ++
        ", expected struct Tag with 6 elements".toList
  | .tooLong count =>
      "invalid length ".toList ++ Decimal.digits count ++
        ", expected fewer elements in array".toList

end UsageLine

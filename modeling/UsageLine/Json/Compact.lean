import UsageLine.Json
import UsageLine.Json.Quote

/-!
# Compact JSON

A value is written without blanks, the members of an object in their order.
-/

namespace UsageLine.Json

mutual

def compact : Json → Text
  | .null => ['n', 'u', 'l', 'l']
  | .bool true => ['t', 'r', 'u', 'e']
  | .bool false => ['f', 'a', 'l', 's', 'e']
  | .number value => value.text
  | .text value => quote value
  | .list items => '[' :: compactItems items
  | .object members => '{' :: compactMembers members

/-- The items of a list, each after a comma but the first, and the bracket
that ends them. -/
def compactItems : List Json → Text
  | [] => [']']
  | [item] => compact item ++ [']']
  | item :: next :: rest => compact item ++ ',' :: compactItems (next :: rest)

/-- The members of an object, each after a comma but the first, and the brace
that ends them. -/
def compactMembers : List (Text × Json) → Text
  | [] => ['}']
  | [(key, value)] => quote key ++ ':' :: (compact value ++ ['}'])
  | (key, value) :: next :: rest =>
      quote key ++ ':' :: (compact value ++ ',' :: compactMembers (next :: rest))

end

end UsageLine.Json

import UsageLine.Tag
import UsageLine.Text.Quoted

/-!
# Tags spelled out

A tag is spelled out with every field and its value, so that nothing of it is
hidden by the way it is shown.
-/

namespace UsageLine

def Text.quotedList (texts : List Text) : Text :=
  '[' :: (List.intercalate [',', ' '] (texts.map Text.quoted) ++ [']'])

def Text.ofBool : Bool → Text
  | true => "true".toList
  | false => "false".toList

namespace Tag

def spelledOptions : Option (List Text) → Text
  | none => "None".toList
  | some options => "Some(".toList ++ Text.quotedList options ++ [')']

def spelled (tag : Tag) : Text :=
  "Tag \x7b name: ".toList ++ Text.quoted tag.name ++
    ", kind: ".toList ++ Text.quoted tag.kind ++
    ", required: ".toList ++ Text.ofBool tag.required ++
    ", rest: ".toList ++ Text.ofBool tag.rest ++
    ", options: ".toList ++ spelledOptions tag.options ++
    ", literal: ".toList ++ Text.ofBool tag.literal ++ " \x7d".toList

end Tag

end UsageLine

import UsageLine.Text.Seen

/-!
# Quoted texts

A text is quoted so that a reader of a message sees exactly which characters
it has.  Quotes and backslashes get a backslash, the common controls a letter,
and every other character that is not seen is written as its number.
-/

namespace UsageLine.Text

def hexDigits (n : Nat) : Text := Nat.toDigits 16 n

/-- A character as it stands in a quoted text. -/
def shown : Char → Text
  | '"' => ['\\', '"']
  | '\\' => ['\\', '\\']
  | '\n' => ['\\', 'n']
  | '\r' => ['\\', 'r']
  | '\t' => ['\\', 't']
  | '\x00' => ['\\', '0']
  | c =>
      if isSeen c then [c]
      else '\\' :: 'u' :: '{' :: (hexDigits c.toNat ++ ['}'])

def quoted (text : Text) : Text :=
  '"' :: (text.flatMap shown ++ ['"'])

end UsageLine.Text

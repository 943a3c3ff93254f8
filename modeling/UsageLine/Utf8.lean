import UsageLine.Text

/-!
# UTF-8

Bytes are read as characters one byte at a time.  A character that has begun
remembers its bits so far, how many bytes it still wants, and the bounds
between which the next of them must lie: the bounds alone exclude overlong
forms, surrogates and values past the last character.  What is not UTF-8 is
refused at the start of the first character that does not come about.
-/

namespace UsageLine.Utf8

/-- Where bytes stop being UTF-8. -/
structure Fault where
  /-- How many bytes were read into whole characters. -/
  validUpTo : Nat
  /-- How many bytes the failed character has; none where the bytes ended
  inside a character that could still have come about. -/
  errorLen : Option Nat
  deriving DecidableEq, Repr

def Fault.message (fault : Fault) : String :=
  match fault.errorLen with
  | some count =>
      "invalid utf-8 sequence of " ++ toString count ++ " bytes from index " ++
        toString fault.validUpTo
  | none =>
      "incomplete utf-8 byte sequence from index " ++ toString fault.validUpTo

/-- A character that has begun: its bits so far, the bytes it has, the bytes
it wants, and the bounds of the next one. -/
structure Partial where
  bits : Nat
  taken : Nat
  wanted : Nat
  low : Nat
  high : Nat
  deriving DecidableEq, Repr

/-- What the first byte of a character of several bytes promises. -/
def lead? (byte : Nat) : Option Partial :=
  if byte < 0xC2 then none
  else if byte < 0xE0 then some ⟨byte - 0xC0, 1, 1, 0x80, 0xBF⟩
  else if byte = 0xE0 then some ⟨0, 1, 2, 0xA0, 0xBF⟩
  else if byte = 0xED then some ⟨0x0D, 1, 2, 0x80, 0x9F⟩
  else if byte < 0xF0 then some ⟨byte - 0xE0, 1, 2, 0x80, 0xBF⟩
  else if byte = 0xF0 then some ⟨0, 1, 3, 0x90, 0xBF⟩
  else if byte < 0xF4 then some ⟨byte - 0xF0, 1, 3, 0x80, 0xBF⟩
  else if byte = 0xF4 then some ⟨4, 1, 3, 0x80, 0x8F⟩
  else none

/-- The character after one byte more; none where that byte does not fit. -/
def Partial.extend? (p : Partial) (byte : Nat) : Option Partial :=
  if p.low ≤ byte ∧ byte ≤ p.high then
    some ⟨p.bits * 0x40 + (byte - 0x80), p.taken + 1, p.wanted - 1, 0x80, 0xBF⟩
  else none

def prepend (c : Char) : Except Fault Text → Except Fault Text :=
  Except.map (c :: ·)

/-- Read bytes from a place, with the character that has begun there if one
has.  The place is the number of bytes in the whole characters before it. -/
def decodeFrom (place : Nat) : Option Partial → List UInt8 → Except Fault Text
  | none, [] => .ok []
  | some _, [] => .error ⟨place, none⟩
  | none, byte :: rest =>
      if byte.toNat < 0x80 then
        prepend (Char.ofNat byte.toNat) (decodeFrom (place + 1) none rest)
      else
        match lead? byte.toNat with
        | none => .error ⟨place, some 1⟩
        | some begun => decodeFrom place (some begun) rest
  | some begun, byte :: rest =>
      match begun.extend? byte.toNat with
      | none => .error ⟨place, some begun.taken⟩
      | some next =>
          if next.wanted = 0 then
            prepend (Char.ofNat next.bits)
              (decodeFrom (place + next.taken) none rest)
          else decodeFrom place (some next) rest

def decode (bytes : List UInt8) : Except Fault Text :=
  decodeFrom 0 none bytes

end UsageLine.Utf8

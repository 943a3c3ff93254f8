import UsageLine.Json.Lexeme

/-!
# Strings of a JSON text

In a string only the quote, the backslash and the control characters below the
space are escaped: five of them by a letter, the others by their number.  What
is written so is read back.
-/

namespace UsageLine.Json

def hexDigit (n : Nat) : Char := Nat.digitChar n

/-- The letter that escapes a character after a backslash. -/
def escapeLetter? : Char → Option Char
  | '"' => some '"'
  | '\\' => some '\\'
  | '\x08' => some 'b'
  | '\x0c' => some 'f'
  | '\n' => some 'n'
  | '\r' => some 'r'
  | '\t' => some 't'
  | _ => none

def escape (c : Char) : Text :=
  match escapeLetter? c with
  | some letter => ['\\', letter]
  | none =>
      if c.toNat < 0x20 then
        ['\\', 'u', '0', '0', hexDigit (c.toNat / 16), hexDigit (c.toNat % 16)]
      else [c]

def quote (t : Text) : Text :=
  '"' :: (t.flatMap escape ++ ['"'])

theorem hexValue?_hexDigit :
    ∀ n, n < 16 → hexValue? (hexDigit n) = some n := by
  decide

theorem unescape?_of_escapeLetter? {c letter : Char}
    (escaped : escapeLetter? c = some letter) :
    unescape? letter = some c ∧ letter ≠ 'u' := by
  unfold escapeLetter? at escaped
  split at escaped
  case h_8 => cases escaped
  all_goals
    cases escaped
    decide

/-- A character without such a letter is neither a quote nor a backslash. -/
theorem plain_of_escapeLetter? {c : Char} (plain : escapeLetter? c = none) :
    c ≠ '"' ∧ c ≠ '\\' := by
  constructor
  · rintro rfl
    simp [escapeLetter?] at plain
  · rintro rfl
    simp [escapeLetter?] at plain

/-- An escape that is read gives its character to the string. -/
theorem readString_of_readEscape {cs rest : Text} {c : Char}
    (read : readEscape cs = .ok (c, rest)) :
    readString ('\\' :: cs) = prepend c (readString rest) := by
  rw [readString]
  simp only [show ¬ ('\\' = '"') by decide, if_false, if_true]
  split <;> simp_all

theorem readEscape_of_control {c : Char} (control : c.toNat < 0x20)
    (rest : Text) :
    readEscape ('u' :: '0' :: '0' :: hexDigit (c.toNat / 16) ::
      hexDigit (c.toNat % 16) :: rest) = .ok (c, rest) := by
  have high := hexValue?_hexDigit (c.toNat / 16) (by omega)
  have low := hexValue?_hexDigit (c.toNat % 16) (by omega)
  have zero : hexValue? '0' = some 0 := by decide
  have whole : c.toNat / 16 * 16 + c.toNat % 16 = c.toNat := by omega
  simp only [readEscape, readUnit, hexUnit?, high, low, zero, isTrailing,
    isLeading, Option.bind_eq_bind, Option.bind_some, Option.pure_def,
    Nat.zero_mul, Nat.zero_add, whole, Bool.and_eq_true, decide_eq_true_eq]
  rw [if_neg (by omega), if_neg (by omega), Char.ofNat_toNat]

/-- A character is read back from the way it is written. -/
theorem readString_escape (c : Char) (rest : Text) :
    readString (escape c ++ rest) = prepend c (readString rest) := by
  unfold escape
  split
  · rename_i letter escaped
    obtain ⟨stands, notNumber⟩ := unescape?_of_escapeLetter? escaped
    apply readString_of_readEscape
    unfold readEscape
    split <;> simp_all
  · rename_i plain
    obtain ⟨notQuote, notEscape⟩ := plain_of_escapeLetter? plain
    split
    · rename_i control
      exact readString_of_readEscape (readEscape_of_control control rest)
    · rename_i visible
      change readString (c :: rest) = _
      rw [readString]
      simp [notQuote, notEscape, visible]

/-- A text is read back from its quotes, and what follows them is left. -/
theorem readString_quote (t rest : Text) :
    readString (t.flatMap escape ++ '"' :: rest) = .ok (t, rest) := by
  induction t with
  | nil => simp [readString]
  | cons c t ih =>
      rw [List.flatMap_cons, List.append_assoc, readString_escape, ih]
      rfl

end UsageLine.Json

import UsageLine.Proofs.Json.ReadBack
import UsageLine.Proofs.Json.WrittenNumbers

/-!
# Compact texts are skipped

The reader that only finds where a value ends takes every string as it is
quoted and every number as it is written.  So it takes the compact text of every
value, and leaves what follows.
-/

namespace UsageLine.Json

/-- An escape that is skipped is no part of what is left. -/
theorem skipString_of_skipEscape {cs rest : Text}
    (skipped : skipEscape cs = .ok rest) :
    skipString ('\\' :: cs) = skipString rest := by
  rw [skipString]
  simp only [show ¬ ('\\' = '"') by decide, if_false, if_true]
  split <;> simp_all

theorem skipEscape_of_control {c : Char} (control : c.toNat < 0x20)
    (rest : Text) :
    skipEscape ('u' :: '0' :: '0' :: hexDigit (c.toNat / 16) ::
      hexDigit (c.toNat % 16) :: rest) = .ok rest := by
  have high := hexValue?_hexDigit (c.toNat / 16) (by omega)
  have low := hexValue?_hexDigit (c.toNat % 16) (by omega)
  have zero : hexValue? '0' = some 0 := by decide
  simp only [skipEscape, readUnit, hexUnit?, high, low, zero,
    Option.bind_eq_bind, Option.bind_some, Option.pure_def]
  rfl

theorem skipString_escape (c : Char) (rest : Text) :
    skipString (escape c ++ rest) = skipString rest := by
  unfold escape
  split
  · rename_i letter escaped
    obtain ⟨stands, notNumber⟩ := unescape?_of_escapeLetter? escaped
    apply skipString_of_skipEscape
    unfold skipEscape
    split <;> simp_all
  · rename_i plain
    obtain ⟨notQuote, notEscape⟩ := plain_of_escapeLetter? plain
    split
    · rename_i control
      exact skipString_of_skipEscape (skipEscape_of_control control rest)
    · rename_i visible
      change skipString (c :: rest) = _
      rw [skipString]
      simp [notQuote, notEscape, visible]

theorem skipString_quote (t rest : Text) :
    skipString (t.flatMap escape ++ '"' :: rest) = .ok rest := by
  induction t with
  | nil => simp [skipString]
  | cons c t ih =>
      rw [List.flatMap_cons, List.append_assoc, skipString_escape, ih]

theorem ne_of_begins {c other : Char} (begins : c = '-' ∨ isDigit c = true)
    (differs : other ≠ '-' ∧ isDigit other = false) : c ≠ other := by
  rintro rfl
  rcases begins with sign | digit
  · exact differs.1 sign
  · exact absurd digit (by simp [differs.2])

theorem isBlank_of_begins {c : Char} (begins : c = '-' ∨ isDigit c = true) :
    isBlank c = false := by
  have differs (other : Char) := @ne_of_begins c other begins
  simp only [isBlank, beq_eq_false_iff_ne.mpr (differs ' ' (by decide)),
    beq_eq_false_iff_ne.mpr (differs '\n' (by decide)),
    beq_eq_false_iff_ne.mpr (differs '\t' (by decide)),
    beq_eq_false_iff_ne.mpr (differs '\r' (by decide)), Bool.or_self]

/-- A reader leaves to its numbers what begins as they do. -/
theorem Reader.readScalar_of_begins {κ α : Type} {r : Reader κ α} {c : Char}
    (begins : c = '-' ∨ isDigit c = true) (cs : Text) :
    r.readScalar (c :: cs) = r.number (c :: cs) := by
  have differs (other : Char) := @ne_of_begins c other begins
  rw [readScalar, if_neg (differs '"' (by decide)),
    if_neg (differs 'n' (by decide)), if_neg (differs 't' (by decide)),
    if_neg (differs 'f' (by decide)),
    if_pos (by rcases begins with sign | digit <;> simp_all)]

theorem skipping_takes_number (n : Number) : skipping.Takes n.text () := by
  have signed := n.signed_text
  obtain ⟨c, cs, written, begins⟩ := signed.begins
  rw [written] at signed ⊢
  have simple : c ∉ ['[', '{', ']'] := by
    simp only [List.mem_cons, List.not_mem_nil, or_false, not_or]
    exact ⟨ne_of_begins begins (by decide), ne_of_begins begins (by decide),
      ne_of_begins begins (by decide)⟩
  refine Reader.takes_of_readScalar (isBlank_of_begins begins) simple
    fun rest ends => ?_
  have skipped := skipNumeral_append signed ends
  rw [List.cons_append] at skipped ⊢
  rw [Reader.readScalar_of_begins begins]
  simp only [skipping, skipped]
  rfl

/-- The compact text of a value is skipped, and what follows it is left. -/
theorem skipValue_compact (value : Json) {rest : Text} (ends : Ends rest) :
    skipValue (value.compact ++ rest) = .ok rest := by
  have taken : skipping.Takes value.compact
      (skipping.make (fun _ => ()) (fun _ => ()) value) :=
    Reader.takes_compact (fun t rest => by
      simp only [skipping, skipString_quote]
      rfl) value fun n _ => skipping_takes_number n
  have step := taken.reads [] rest ends
  rw [skipValue, Reader.read, step, Reader.readOn]
  rfl

end UsageLine.Json

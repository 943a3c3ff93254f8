import UsageLine.Utf8
import Mathlib.Data.List.Infix

/-!
# How characters are spelled

A character is spelled by one to four bytes: the first tells how many there
are and holds the highest bits of its number, each of the others holds six
bits more.  No spelling begins another, so a text is spelled in one way only,
and what follows a character can be told from it.
-/

namespace UsageLine.Utf8

/-- The bytes that spell a text. -/
def encode (text : Text) : List UInt8 := text.flatMap String.utf8EncodeChar

def IsText (bytes : List UInt8) : Prop := ∃ text, encode text = bytes

/-- The bytes begin a character, but some of it is still to come. -/
def Begins (run : List UInt8) : Prop :=
  ∃ c, run <+: String.utf8EncodeChar c ∧ run ≠ String.utf8EncodeChar c

/-- The last so many bytes of the character of a number. -/
def trail : Nat → Nat → List UInt8
  | 0, _ => []
  | count + 1, v => UInt8.ofNat (0x80 + v / Nat.pow 64 count % 64) :: trail count v

/-- The bytes that spell the character of a number. -/
inductive Spelling (v : Nat) : List UInt8 → Prop
  | one (most : v < 0x80) : Spelling v [UInt8.ofNat v]
  | two (least : 0x80 ≤ v) (most : v < 0x800) :
      Spelling v (UInt8.ofNat (0xC0 + v / 64) :: trail 1 v)
  /-- The numbers of surrogates are left out. -/
  | three (least : 0x800 ≤ v) (most : v < 0x10000)
      (whole : v < 0xD800 ∨ 0xDFFF < v) :
      Spelling v (UInt8.ofNat (0xE0 + v / 4096) :: trail 2 v)
  | four (least : 0x10000 ≤ v) (most : v < 0x110000) :
      Spelling v (UInt8.ofNat (0xF0 + v / 262144) :: trail 3 v)

theorem length_trail (count v : Nat) : (trail count v).length = count := by
  induction count with
  | zero => rfl
  | succ count ih => rw [trail, List.length_cons, ih]

theorem toNat_of_eq_ofNat {byte : UInt8} {n : Nat} (same : byte = UInt8.ofNat n)
    (small : n < 256) : byte.toNat = n := by
  rw [same, UInt8.toNat_ofNat', Nat.mod_eq_of_lt small]

/-! ## Characters and their spellings -/

theorem spelling (c : Char) : Spelling c.toNat (String.utf8EncodeChar c) := by
  have valid : c.toNat < 0xD800 ∨ 0xDFFF < c.toNat ∧ c.toNat < 0x110000 := c.valid
  unfold String.utf8EncodeChar
  rw [Char.toNat_val]
  generalize c.toNat = v at valid ⊢
  dsimp only
  split
  · exact .one (by omega)
  split
  · rw [show v / 64 % 32 + 192 = 0xC0 + v / 64 by omega]
    simpa [trail, Nat.add_comm] using
      Spelling.two (v := v) (by omega) (by omega)
  split
  · rw [show v / 4096 % 16 + 224 = 0xE0 + v / 4096 by omega]
    simpa [trail, Nat.add_comm] using
      Spelling.three (v := v) (by omega) (by omega) (by omega)
  · rw [show v / 262144 % 8 + 240 = 0xF0 + v / 262144 by omega]
    simpa [trail, Nat.add_comm] using
      Spelling.four (v := v) (by omega) (by omega)

theorem Spelling.unique {v : Nat} {first second : List UInt8}
    (spells : Spelling v first) (spells' : Spelling v second) : first = second := by
  cases spells <;> cases spells' <;> first | rfl | omega

theorem Spelling.exists_char {v : Nat} {bytes : List UInt8}
    (spells : Spelling v bytes) :
    ∃ c : Char, c.toNat = v ∧ String.utf8EncodeChar c = bytes := by
  have valid : v.isValidChar := by
    cases spells with
    | one | two => exact .inl (by omega)
    | three _ _ whole =>
        rcases whole with low | high
        · exact .inl low
        · exact .inr ⟨high, by omega⟩
    | four => exact .inr ⟨by omega, by omega⟩
  exact ⟨Char.ofNatAux v valid, rfl, (spelling (Char.ofNatAux v valid)).unique spells⟩

/-! ## No spelling begins another -/

/-- The character at the beginning of bytes can be told from them. -/
theorem char_of_append {c d : Char} {rest rest' : List UInt8}
    (same : String.utf8EncodeChar c ++ rest = String.utf8EncodeChar d ++ rest') :
    c = d := by
  have first := ByteArray.utf8DecodeChar?_utf8EncodeChar_append
    (b := rest.toByteArray) (c := c)
  have second := ByteArray.utf8DecodeChar?_utf8EncodeChar_append
    (b := rest'.toByteArray) (c := d)
  rw [← List.toByteArray_append] at first second
  rw [same, second] at first
  exact (Option.some.inj first).symm

theorem char_of_start {c d : Char}
    (start : String.utf8EncodeChar c <+: String.utf8EncodeChar d) : c = d := by
  obtain ⟨rest, whole⟩ := start
  exact char_of_append (whole.trans (List.append_nil _).symm)

/-- A character is no beginning of one. -/
theorem not_begins_of_whole {c : Char} {run : List UInt8}
    (whole : String.utf8EncodeChar c <+: run) : ¬ Begins run := by
  rintro ⟨d, start, unfinished⟩
  obtain rfl := char_of_start (whole.trans start)
  exact unfinished (start.eq_of_length_le whole.length_le)

theorem begins_nil : Begins [] :=
  ⟨'a', List.nil_prefix, String.utf8EncodeChar_ne_nil.symm⟩

theorem Begins.length_le {run : List UInt8} (begins : Begins run) :
    run.length ≤ 3 := by
  obtain ⟨c, start, unfinished⟩ := begins
  have shorter : run.length < (String.utf8EncodeChar c).length :=
    lt_of_le_of_ne start.length_le fun same => unfinished (start.eq_of_length same)
  have most := c.utf8Size_le_four
  rw [String.length_utf8EncodeChar] at shorter
  omega

/-! ## Texts -/

theorem encode_cons (c : Char) (text : Text) :
    encode (c :: text) = String.utf8EncodeChar c ++ encode text :=
  List.flatMap_cons

theorem encode_append (first second : Text) :
    encode (first ++ second) = encode first ++ encode second :=
  List.flatMap_append

theorem encode_injective : Function.Injective encode := by
  intro text other same
  induction text generalizing other with
  | nil =>
      cases other with
      | nil => rfl
      | cons d other =>
          rw [encode_cons] at same
          exact absurd (List.append_eq_nil_iff.mp same.symm).1
            String.utf8EncodeChar_ne_nil
  | cons c text ih =>
      cases other with
      | nil =>
          rw [encode_cons] at same
          exact absurd (List.append_eq_nil_iff.mp same).1
            String.utf8EncodeChar_ne_nil
      | cons d other =>
          rw [encode_cons, encode_cons] at same
          obtain rfl := char_of_append same
          rw [ih (List.append_cancel_left same)]

/-- Behind a text that is spelled the bytes spell a text if and only if they do
so as a whole. -/
theorem isText_append_iff (text : Text) (rest : List UInt8) :
    IsText (encode text ++ rest) ↔ IsText rest := by
  constructor
  · rintro ⟨whole, spelled⟩
    induction text generalizing whole with
    | nil => exact ⟨whole, spelled⟩
    | cons c text ih =>
        rw [encode_cons, List.append_assoc] at spelled
        cases whole with
        | nil =>
            exact absurd (List.append_eq_nil_iff.mp spelled.symm).1
              String.utf8EncodeChar_ne_nil
        | cons d whole =>
            rw [encode_cons] at spelled
            obtain rfl := char_of_append spelled
            exact ih whole (List.append_cancel_left spelled)
  · rintro ⟨more, rfl⟩
    exact ⟨text ++ more, encode_append text more⟩

end UsageLine.Utf8

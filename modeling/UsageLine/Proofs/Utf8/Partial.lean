import UsageLine.Proofs.Utf8.Spelling

/-!
# Characters that have begun

The bytes of a character that has begun leave only some characters possible:
the bits so far are the highest of the number, and the next byte lies between
bounds.  The bounds leave exactly the numbers of characters, so one more byte is
taken if and only if some character goes on with it.
-/

namespace UsageLine.Utf8

theorem div_pow_succ (v count : Nat) :
    v / Nat.pow 64 (count + 1) = v / Nat.pow 64 count / 64 :=
  (Nat.div_div_eq_div_mul v (Nat.pow 64 count) 64).symm

namespace Partial

/-- A byte within the bounds, and what it makes of a character that has
begun. -/
structure Goes (p : Partial) (byte : Nat) (next : Partial) : Prop where
  low : p.low ≤ byte
  high : byte ≤ p.high
  bits : next.bits = p.bits * 0x40 + (byte - 0x80)
  taken : next.taken = p.taken + 1
  wanted : next.wanted = p.wanted - 1
  nextLow : next.low = 0x80
  nextHigh : next.high = 0xBF

theorem goes_of_extend? {p next : Partial} {byte : Nat}
    (fits : p.extend? byte = some next) : p.Goes byte next := by
  rw [extend?] at fits
  split at fits
  · rename_i bounds
    obtain rfl := Option.some.inj fits
    exact ⟨bounds.1, bounds.2, rfl, rfl, rfl, rfl, rfl⟩
  · cases fits

theorem extend?_eq_none {p : Partial} {byte : Nat}
    (barred : p.extend? byte = none) : ¬ (p.low ≤ byte ∧ byte ≤ p.high) := by
  intro fits
  rw [extend?, if_pos fits] at barred
  cases barred

/-- The numbers of the characters that can still come about. -/
structure Covers (p : Partial) (v : Nat) : Prop where
  bits : v / Nat.pow 64 p.wanted = p.bits
  low : p.low ≤ 0x80 + v / Nat.pow 64 (p.wanted - 1) % 64
  high : 0x80 + v / Nat.pow 64 (p.wanted - 1) % 64 ≤ p.high

/-- The bytes have begun a character, and those that can still come about are
the ones that begin so. -/
structure Holds (p : Partial) (run : List UInt8) : Prop where
  taken : run.length = p.taken
  begun : 1 ≤ p.taken
  wanted : 1 ≤ p.wanted
  low : 0x80 ≤ p.low
  high : p.high ≤ 0xBF
  possible : ∃ v, p.Covers v
  covers : ∀ c : Char, run <+: String.utf8EncodeChar c → p.Covers c.toNat
  encodes : ∀ v, p.Covers v → ∃ c : Char, c.toNat = v ∧
    String.utf8EncodeChar c = run ++ trail p.wanted v

namespace Holds

variable {p next : Partial} {run : List UInt8} {byte : UInt8}

theorem begins (holds : p.Holds run) : Begins run := by
  obtain ⟨v, covers⟩ := holds.possible
  obtain ⟨c, -, spelled⟩ := holds.encodes v covers
  refine ⟨c, ⟨_, spelled.symm⟩, fun whole => ?_⟩
  have nothing : trail p.wanted v = [] :=
    List.self_eq_append_right.mp (whole.trans spelled)
  have wanted := length_trail p.wanted v
  rw [nothing, List.length_nil] at wanted
  exact absurd wanted.symm (Nat.ne_of_gt holds.wanted)

/-! ## One byte more -/

/-- What the next byte is, if a character goes on with it. -/
theorem next_byte (holds : p.Holds run) {c : Char}
    (start : run ++ [byte] <+: String.utf8EncodeChar c) :
    p.Covers c.toNat ∧
      byte.toNat = 0x80 + c.toNat / Nat.pow 64 (p.wanted - 1) % 64 := by
  have covers := holds.covers c ((List.prefix_append run [byte]).trans start)
  refine ⟨covers, ?_⟩
  obtain ⟨d, same, spelled⟩ := holds.encodes c.toNat covers
  obtain rfl := Char.toNat_inj.mp same
  rw [spelled, List.prefix_append_right_inj, ← Nat.sub_add_cancel holds.wanted,
    trail, List.cons_prefix_cons] at start
  exact toNat_of_eq_ofNat start.1 (by omega)

theorem of_extend?_none (holds : p.Holds run)
    (barred : p.extend? byte.toNat = none) (c : Char) :
    ¬ run ++ [byte] <+: String.utf8EncodeChar c := by
  intro start
  obtain ⟨covers, same⟩ := holds.next_byte start
  apply extend?_eq_none barred
  rw [same]
  exact ⟨covers.low, covers.high⟩

/-- With a byte that fits, the numbers left are those that have its six bits
behind the bits so far. -/
theorem bits_iff (holds : p.Holds run) (goes : p.Goes byte.toNat next) (v : Nat) :
    v / Nat.pow 64 next.wanted = next.bits ↔
      p.Covers v ∧ byte.toNat = 0x80 + v / Nat.pow 64 (p.wanted - 1) % 64 := by
  have low := holds.low
  have high := holds.high
  have low' := goes.low
  have high' := goes.high
  have split := div_pow_succ v (p.wanted - 1)
  rw [Nat.sub_add_cancel holds.wanted] at split
  rw [goes.bits, goes.wanted]
  constructor
  · intro bits
    exact ⟨⟨by omega, by omega, by omega⟩, by omega⟩
  · rintro ⟨⟨bits, -, -⟩, same⟩
    omega

theorem encodes_next (holds : p.Holds run) (goes : p.Goes byte.toNat next)
    {v : Nat} (bits : v / Nat.pow 64 next.wanted = next.bits) :
    ∃ c : Char, c.toNat = v ∧
      String.utf8EncodeChar c = run ++ [byte] ++ trail next.wanted v := by
  obtain ⟨covers, same⟩ := (holds.bits_iff goes v).mp bits
  obtain ⟨c, number, spelled⟩ := holds.encodes v covers
  refine ⟨c, number, ?_⟩
  rw [spelled, ← Nat.sub_add_cancel holds.wanted, trail, ← same,
    UInt8.ofNat_toNat, goes.wanted, List.append_assoc, List.singleton_append]

/-- The last byte makes the character whole. -/
theorem complete (holds : p.Holds run) (goes : p.Goes byte.toNat next)
    (whole : next.wanted = 0) :
    String.utf8EncodeChar (Char.ofNat next.bits) = run ++ [byte] := by
  have bits : next.bits / Nat.pow 64 next.wanted = next.bits := by
    rw [whole]
    exact Nat.div_one next.bits
  obtain ⟨c, number, spelled⟩ := holds.encodes_next goes bits
  rw [← number, Char.ofNat_toNat, spelled, whole, trail, List.append_nil]

/-- Any other byte that fits leaves a character that has begun. -/
theorem extend (holds : p.Holds run) (goes : p.Goes byte.toNat next)
    (unfinished : next.wanted ≠ 0) : next.Holds (run ++ [byte]) := by
  have low := goes.nextLow
  have high := goes.nextHigh
  -- The bounds are as wide as six bits are, so they exclude nothing more.
  have covers_iff (v : Nat) : next.Covers v ↔
      v / Nat.pow 64 next.wanted = next.bits :=
    ⟨Covers.bits, fun bits => ⟨bits, by omega, by omega⟩⟩
  exact
    { taken := by rw [List.length_append, holds.taken, goes.taken]; rfl
      begun := by rw [goes.taken]; exact Nat.le_add_left 1 p.taken
      wanted := Nat.one_le_iff_ne_zero.mpr unfinished
      low := Nat.le_of_eq low.symm
      high := Nat.le_of_eq high
      possible := ⟨next.bits * Nat.pow 64 next.wanted, (covers_iff _).mpr
        (Nat.mul_div_cancel _ (Nat.pow_pos (by decide)))⟩
      covers := fun c start => (covers_iff _).mpr <|
        (holds.bits_iff goes _).mpr (holds.next_byte start)
      encodes := fun v covers => holds.encodes_next goes covers.bits }

end Holds

end Partial

/-! ## The first byte -/

/-- The first bytes of characters of two to four bytes, with the bits that they
hold and the bounds that they set. -/
inductive Leads : Nat → Partial → Prop
  | two {bits : Nat} (least : 2 ≤ bits) (most : bits < 0x20) :
      Leads (0xC0 + bits) ⟨bits, 1, 1, 0x80, 0xBF⟩
  | three {bits low high : Nat} (most : bits < 0x10)
      (isLow : bits = 0 ∧ low = 0xA0 ∨ bits ≠ 0 ∧ low = 0x80)
      (isHigh : bits = 0x0D ∧ high = 0x9F ∨ bits ≠ 0x0D ∧ high = 0xBF) :
      Leads (0xE0 + bits) ⟨bits, 1, 2, low, high⟩
  | four {bits low high : Nat} (most : bits ≤ 4)
      (isLow : bits = 0 ∧ low = 0x90 ∨ bits ≠ 0 ∧ low = 0x80)
      (isHigh : bits = 4 ∧ high = 0x8F ∨ bits ≠ 4 ∧ high = 0xBF) :
      Leads (0xF0 + bits) ⟨bits, 1, 3, low, high⟩

theorem leads_of_lead? {byte : Nat} {p : Partial} (led : lead? byte = some p) :
    Leads byte p := by
  unfold lead? at led
  split at led
  · cases led
  split at led
  · obtain rfl := Option.some.inj led
    obtain ⟨bits, rfl⟩ := Nat.exists_eq_add_of_le (show 0xC0 ≤ byte by omega)
    rw [Nat.add_sub_cancel_left]
    exact .two (by omega) (by omega)
  split at led
  · obtain rfl := Option.some.inj led
    subst byte
    exact @Leads.three 0 0xA0 0xBF (by omega) (by omega) (by omega)
  split at led
  · obtain rfl := Option.some.inj led
    subst byte
    exact @Leads.three 0x0D 0x80 0x9F (by omega) (by omega) (by omega)
  split at led
  · obtain rfl := Option.some.inj led
    obtain ⟨bits, rfl⟩ := Nat.exists_eq_add_of_le (show 0xE0 ≤ byte by omega)
    rw [Nat.add_sub_cancel_left]
    exact .three (by omega) (by omega) (by omega)
  split at led
  · obtain rfl := Option.some.inj led
    subst byte
    exact @Leads.four 0 0x90 0xBF (by omega) (by omega) (by omega)
  split at led
  · obtain rfl := Option.some.inj led
    obtain ⟨bits, rfl⟩ := Nat.exists_eq_add_of_le (show 0xF0 ≤ byte by omega)
    rw [Nat.add_sub_cancel_left]
    exact .four (by omega) (by omega) (by omega)
  split at led
  · obtain rfl := Option.some.inj led
    subst byte
    exact @Leads.four 4 0x80 0x8F (by omega) (by omega) (by omega)
  · cases led

theorem of_lead?_none {byte : Nat} (barred : lead? byte = none) :
    byte < 0xC2 ∨ 0xF4 < byte := by
  unfold lead? at barred
  split at barred
  · exact .inl ‹_›
  · right
    split at barred
    · cases barred
    split at barred
    · cases barred
    split at barred
    · cases barred
    split at barred
    · cases barred
    split at barred
    · cases barred
    split at barred
    · cases barred
    split at barred
    · cases barred
    · omega

/-- The first byte of a character, by how many there are. -/
theorem first_byte {c : Char} {byte : UInt8}
    (start : [byte] <+: String.utf8EncodeChar c) :
    c.toNat < 0x80 ∧ byte.toNat = c.toNat ∨
    (0x80 ≤ c.toNat ∧ c.toNat < 0x800) ∧ byte.toNat = 0xC0 + c.toNat / 64 ∨
    (0x800 ≤ c.toNat ∧ c.toNat < 0x10000 ∧
      (c.toNat < 0xD800 ∨ 0xDFFF < c.toNat)) ∧
        byte.toNat = 0xE0 + c.toNat / 4096 ∨
    (0x10000 ≤ c.toNat ∧ c.toNat < 0x110000) ∧
      byte.toNat = 0xF0 + c.toNat / 262144 := by
  have spells := spelling c
  generalize String.utf8EncodeChar c = bytes at start spells
  cases spells with
  | one most =>
      have same := toNat_of_eq_ofNat (List.cons_prefix_cons.mp start).1 (by omega)
      exact .inl ⟨most, same⟩
  | two least most =>
      rw [List.cons_prefix_cons] at start
      exact .inr (.inl ⟨⟨least, most⟩, toNat_of_eq_ofNat start.1 (by omega)⟩)
  | three least most whole =>
      rw [List.cons_prefix_cons] at start
      exact .inr (.inr (.inl
        ⟨⟨least, most, whole⟩, toNat_of_eq_ofNat start.1 (by omega)⟩))
  | four least most =>
      rw [List.cons_prefix_cons] at start
      exact .inr (.inr (.inr ⟨⟨least, most⟩, toNat_of_eq_ofNat start.1 (by omega)⟩))

/-- A byte that leads a character begins the characters within its bounds. -/
theorem Leads.holds {byte : UInt8} {p : Partial} (leads : Leads byte.toNat p) :
    p.Holds [byte] := by
  generalize number : byte.toNat = n at leads
  have byte_eq : byte = UInt8.ofNat n := by rw [← number, UInt8.ofNat_toNat]
  cases leads with
  | @two bits least most =>
      refine ⟨rfl, Nat.le_refl 1, Nat.le_refl 1, Nat.le_refl _, Nat.le_refl _, ?_,
        fun c start => ?_, fun v covers => ?_⟩
      · exact ⟨bits * 64, by simp, by simp, by simp⟩
      · have first := first_byte start
        exact ⟨by simp; omega, by simp, by simp; omega⟩
      · obtain ⟨held, low, high⟩ := covers
        change v / 64 = bits at held
        have spells := Spelling.two (v := v) (by omega) (by omega)
        rw [held, ← byte_eq] at spells
        exact spells.exists_char
  | @three bits low high most isLow isHigh =>
      refine ⟨rfl, Nat.le_refl 1, Nat.le_succ 1, by simp; omega, by simp; omega, ?_,
        fun c start => ?_, fun v covers => ?_⟩
      · exact ⟨(bits * 64 + (low - 0x80)) * 64, by simp; omega, by simp; omega,
          by simp; omega⟩
      · have first := first_byte start
        exact ⟨by simp; omega, by simp; omega, by simp; omega⟩
      · obtain ⟨held, least, greatest⟩ := covers
        change v / 4096 = bits at held
        change low ≤ 0x80 + v / 64 % 64 at least
        change 0x80 + v / 64 % 64 ≤ high at greatest
        have spells := Spelling.three (v := v) (by omega) (by omega) (by omega)
        rw [held, ← byte_eq] at spells
        exact spells.exists_char
  | @four bits low high most isLow isHigh =>
      refine ⟨rfl, Nat.le_refl 1, Nat.succ_le_succ (Nat.zero_le 2), by simp; omega,
        by simp; omega, ?_, fun c start => ?_, fun v covers => ?_⟩
      · exact ⟨(bits * 64 + (low - 0x80)) * 4096, by simp; omega, by simp; omega,
          by simp; omega⟩
      · have first := first_byte start
        exact ⟨by simp; omega, by simp; omega, by simp; omega⟩
      · obtain ⟨held, least, greatest⟩ := covers
        change v / 262144 = bits at held
        change low ≤ 0x80 + v / 4096 % 64 at least
        change 0x80 + v / 4096 % 64 ≤ high at greatest
        have spells := Spelling.four (v := v) (by omega) (by omega)
        rw [held, ← byte_eq] at spells
        exact spells.exists_char

end UsageLine.Utf8

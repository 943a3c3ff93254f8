import UsageLine.Parse
import UsageLine.Proofs.Utf8.Partial

/-!
# Lines given as bytes

Bytes are read as a line if they spell a text, whatever marks are misused in
it.  Where they spell none, everything in front of the fault is a text, and
nothing longer is.  The fault says whether more bytes could have helped; if not,
it counts the bytes that had begun a character there, or the one that can begin
none.
-/

namespace UsageLine

namespace Utf8

/-! ## What decoding gives -/

/-- Why bytes do not begin with a character, and how many of them a fault
counts. -/
inductive Broken : List UInt8 → Option Nat → Prop
  /-- The bytes end inside of a character. -/
  | ended {run : List UInt8} (begun : run ≠ []) (begins : Begins run) :
      Broken run none
  /-- A byte stands where no character goes on with it. -/
  | refused {run : List UInt8} {byte : UInt8} (begins : Begins run)
      (barred : ∀ c, ¬ run ++ [byte] <+: String.utf8EncodeChar c)
      (rest : List UInt8) :
      Broken (run ++ byte :: rest) (some (max 1 run.length))

/-- The text that bytes spell, or a fault behind a text where they are
broken. -/
def Reads (place : Nat) (bytes : List UInt8) : Except Fault Text → Prop
  | .ok text => encode text = bytes
  | .error fault => ∃ text rest, bytes = encode text ++ rest ∧
      fault.validUpTo = place + (encode text).length ∧
      Broken rest fault.errorLen

theorem Reads.prepend {place : Nat} {bytes : List UInt8} {c : Char}
    {result : Except Fault Text}
    (reads : Reads (place + (String.utf8EncodeChar c).length) bytes result) :
    Reads place (String.utf8EncodeChar c ++ bytes) (Utf8.prepend c result) := by
  cases result with
  | ok text => exact (encode_cons c text).trans (congrArg _ reads)
  | error fault =>
      obtain ⟨text, rest, rfl, place_eq, broken⟩ := reads
      refine ⟨c :: text, rest, ?_, ?_, broken⟩
      · rw [encode_cons, List.append_assoc]
      · rw [place_eq, encode_cons, List.length_append, Nat.add_assoc]

theorem encodeChar_of_small {byte : UInt8} (small : byte.toNat < 0x80) :
    String.utf8EncodeChar (Char.ofNat byte.toNat) = [byte] := by
  obtain ⟨c, number, spelled⟩ := (Spelling.one small).exists_char
  rw [← number, Char.ofNat_toNat, spelled, UInt8.ofNat_toNat]

/-- Decoding reads bytes, whether a character has begun in front of them or
not. -/
theorem decodeFrom_reads (bytes : List UInt8) (place : Nat) :
    Reads place bytes (decodeFrom place none bytes) ∧
      ∀ p run, Partial.Holds p run →
        Reads place (run ++ bytes) (decodeFrom place (some p) bytes) := by
  induction bytes generalizing place with
  | nil =>
      refine ⟨rfl, fun p run holds => ?_⟩
      have begun : run ≠ [] := by
        rintro rfl
        exact absurd holds.taken (Nat.ne_of_lt holds.begun)
      rw [List.append_nil]
      exact ⟨[], run, rfl, rfl, .ended begun holds.begins⟩
  | cons byte rest ih =>
      constructor
      · rw [decodeFrom]
        split
        · rename_i small
          have spelled := encodeChar_of_small small
          have later := (ih (place + 1)).1
          rw [← List.singleton_append, ← spelled]
          exact Reads.prepend (by rwa [spelled])
        · rename_i large
          cases led : lead? byte.toNat with
          | none =>
              refine ⟨[], byte :: rest, rfl, rfl,
                @Broken.refused [] byte begins_nil (fun c start => ?_) rest⟩
              have first := first_byte start
              have outside := of_lead?_none led
              omega
          | some p =>
              exact (ih place).2 p [byte] (leads_of_lead? led).holds
      · intro p run holds
        rw [decodeFrom]
        cases fits : p.extend? byte.toNat with
        | none =>
            have counted : p.taken = max 1 run.length := by
              rw [holds.taken, Nat.max_eq_right holds.begun]
            refine ⟨[], run ++ byte :: rest, rfl, rfl, ?_⟩
            simp only [counted]
            exact .refused holds.begins (holds.of_extend?_none fits) rest
        | some next =>
            have goes := Partial.goes_of_extend? fits
            have whole : run ++ byte :: rest = run ++ [byte] ++ rest := by simp
            simp only
            split
            · rename_i finished
              have spelled := holds.complete goes finished
              have later := (ih (place + next.taken)).1
              rw [whole, ← spelled]
              refine Reads.prepend ?_
              rwa [spelled, List.length_append, holds.taken, List.length_singleton,
                ← goes.taken]
            · rename_i unfinished
              rw [whole]
              exact (ih place).2 next _ (holds.extend goes unfinished)

/-! ## Where a fault lies -/

/-- So many bytes are what had begun a character, or the one byte that begins
none. -/
structure MaximalSubpart (rest : List UInt8) (count : Nat) : Prop where
  least : 1 ≤ count
  most : count ≤ 3
  within : count ≤ rest.length
  begins : count = 1 ∨ Begins (rest.take count)
  longest : ∀ longer ≤ rest.length, Begins (rest.take longer) → longer ≤ count

/-- A fault says where bytes stop being a text, and why. -/
structure Fault.Locates (fault : Fault) (bytes : List UInt8) : Prop where
  within : fault.validUpTo ≤ bytes.length
  valid : IsText (bytes.take fault.validUpTo)
  longest : ∀ count ≤ bytes.length, IsText (bytes.take count) →
    count ≤ fault.validUpTo
  /-- Only if no number of bytes is given, more bytes can make up a text. -/
  open_ : fault.errorLen = none ↔ ∃ more, IsText (bytes ++ more)
  subpart : ∀ count, fault.errorLen = some count →
    MaximalSubpart (bytes.drop fault.validUpTo) count

theorem IsText.exists_char {bytes : List UInt8} (isText : IsText bytes)
    (some_bytes : bytes ≠ []) : ∃ c, String.utf8EncodeChar c <+: bytes := by
  obtain ⟨text, rfl⟩ := isText
  cases text with
  | nil => exact absurd rfl some_bytes
  | cons c text => exact ⟨c, encode text, (encode_cons c text).symm⟩

namespace Broken

variable {rest : List UInt8} {errorLen : Option Nat}

theorem ne_nil (broken : Broken rest errorLen) : rest ≠ [] := by
  cases broken with
  | ended begun => exact begun
  | refused => simp

theorem no_char (broken : Broken rest errorLen) (c : Char) :
    ¬ String.utf8EncodeChar c <+: rest := by
  intro start
  cases broken with
  | ended _ begins => exact not_begins_of_whole start begins
  | @refused run byte begins barred rest =>
      have front : run ++ [byte] <+: run ++ byte :: rest := ⟨rest, by simp⟩
      rcases List.prefix_or_prefix_of_prefix start front with short | long
      · rcases List.prefix_concat_iff.mp short with whole | shorter
        · exact barred c (whole ▸ List.prefix_refl _)
        · exact not_begins_of_whole shorter begins
      · exact barred c long

theorem not_isText_take (broken : Broken rest errorLen) {count : Nat}
    (some_bytes : 0 < count) : ¬ IsText (rest.take count) := by
  intro isText
  have taken : rest.take count ≠ [] := by
    simp only [ne_eq, List.take_eq_nil_iff, broken.ne_nil, or_false]
    exact Nat.ne_of_gt some_bytes
  obtain ⟨c, start⟩ := isText.exists_char taken
  exact broken.no_char c (start.trans (List.take_prefix count rest))

theorem errorLen_eq_none_iff (broken : Broken rest errorLen) :
    errorLen = none ↔ ∃ more, IsText (rest ++ more) := by
  cases broken with
  | ended _ begins =>
      obtain ⟨c, ⟨more, whole⟩, _⟩ := begins
      refine iff_of_true rfl ⟨more, [c], ?_⟩
      rw [whole, encode, List.flatMap_singleton]
  | @refused run byte begins barred rest =>
      refine iff_of_false nofun ?_
      rintro ⟨more, isText⟩
      rw [List.append_assoc, List.cons_append] at isText
      obtain ⟨c, start⟩ := isText.exists_char (by simp)
      exact (Broken.refused begins barred (rest ++ more)).no_char c start

/-- The bytes that are counted are the longest run that begins a character. -/
theorem maximalSubpart {count : Nat} (broken : Broken rest (some count)) :
    MaximalSubpart rest count := by
  generalize counted : some count = errorLen at broken
  cases broken with
  | ended => cases counted
  | @refused run byte begins barred rest =>
      obtain rfl := Option.some.inj counted
      have few := begins.length_le
      refine ⟨Nat.le_max_left 1 _, Nat.max_le.mpr ⟨by decide, few⟩, ?_, ?_,
        fun longer within begins' => ?_⟩
      · simp only [List.length_append, List.length_cons]
        omega
      · cases run with
        | nil => exact .inl rfl
        | cons first more =>
            right
            rwa [Nat.max_eq_right (by simp), List.take_left]
      · by_contra more
        obtain ⟨c, start, _⟩ := begins'
        have front : run ++ [byte] <+: (run ++ byte :: rest).take longer := by
          rw [List.prefix_take_iff]
          exact ⟨⟨rest, by simp⟩, by simp; omega⟩
        exact barred c (front.trans start)

end Broken

/-- A fault lies behind the longest beginning that is a text. -/
theorem locates_of_broken {text : Text} {rest : List UInt8} {fault : Fault}
    (behind : fault.validUpTo = (encode text).length)
    (broken : Broken rest fault.errorLen) : fault.Locates (encode text ++ rest) := by
  have valid : IsText (encode text) := ⟨text, rfl⟩
  refine ⟨?_, ?_, fun count within isText => ?_, ?_, fun count counted => ?_⟩
  · rw [behind, List.length_append]
    exact Nat.le_add_right _ _
  · rwa [behind, List.take_left]
  · by_contra more
    rw [List.take_append, List.take_of_length_le (by omega), isText_append_iff]
      at isText
    exact broken.not_isText_take (by omega) isText
  · simp only [broken.errorLen_eq_none_iff, List.append_assoc, isText_append_iff]
  · rw [behind, List.drop_left]
    exact (counted ▸ broken).maximalSubpart

theorem decode_eq_ok_iff {bytes : List UInt8} {text : Text} :
    decode bytes = .ok text ↔ encode text = bytes := by
  have reads : Reads 0 bytes (decode bytes) := (decodeFrom_reads bytes 0).1
  constructor
  · intro decoded
    rwa [decoded] at reads
  · intro spelled
    cases decoded : decode bytes with
    | ok other =>
        rw [decoded] at reads
        exact congrArg _ (encode_injective (reads.trans spelled.symm))
    | error fault =>
        rw [decoded] at reads
        obtain ⟨front, rest, rfl, -, broken⟩ := reads
        have isText := (isText_append_iff front rest).mp ⟨text, spelled⟩
        obtain ⟨c, start⟩ := isText.exists_char broken.ne_nil
        exact absurd start (broken.no_char c)

theorem locates_of_decode {bytes : List UInt8} {fault : Fault}
    (refused : decode bytes = .error fault) : fault.Locates bytes := by
  have reads : Reads 0 bytes (decode bytes) := (decodeFrom_reads bytes 0).1
  rw [refused] at reads
  obtain ⟨text, rest, rfl, behind, broken⟩ := reads
  exact locates_of_broken (behind.trans (Nat.zero_add _)) broken

end Utf8

theorem parse_ne_notText (line : Text) (fault : Utf8.Fault) :
    parse line ≠ .error (.notText fault) := by
  rw [parse, Scanned.tags]
  cases (scan line).stop with
  | some stop => simp [Except.bind]
  | none =>
      rw [show Except.bind (.ok _) resolve = resolve _ from rfl, resolve_eq]
      split <;> simp

theorem parseBytes_eq_notText_iff {bytes : List UInt8} {fault : Utf8.Fault} :
    parseBytes bytes = .error (.notText fault) ↔ Utf8.decode bytes = .error fault := by
  rw [parseBytes]
  cases Utf8.decode bytes with
  | error other => simp
  | ok line => simp [parse_ne_notText]

/-- Bytes are refused as such exactly if they spell no text; otherwise they are
read as the one text that they spell.  The fault lies behind the longest
beginning that is a text; it gives no number exactly if more bytes can make the
whole a text, and otherwise counts the longest run there that begins a
character, or one byte if none does. -/
theorem bytes_read (bytes : List UInt8) :
    ((∃ fault, parseBytes bytes = .error (.notText fault)) ↔
      ¬ Utf8.IsText bytes) ∧
    (∀ text, Utf8.encode text = bytes →
      parseBytes bytes = parse text ∧
      ∀ other, Utf8.encode other = bytes → other = text) ∧
    ∀ fault, parseBytes bytes = .error (.notText fault) →
      fault.Locates bytes := by
  refine ⟨?_, fun text spelled => ⟨?_, fun other spelled' => ?_⟩,
    fun fault refused => ?_⟩
  · simp only [parseBytes_eq_notText_iff, Utf8.IsText, ← Utf8.decode_eq_ok_iff]
    cases Utf8.decode bytes <;> simp
  · rw [parseBytes, Utf8.decode_eq_ok_iff.mpr spelled]
  · exact Utf8.encode_injective (spelled'.trans spelled.symm)
  · exact Utf8.locates_of_decode (parseBytes_eq_notText_iff.mp refused)

/-- Two of three bytes in front of a bracket are counted together, and the bar
in front of them is not looked at; with the third byte the bar is refused. -/
theorem bytes_read_of_broken_sign :
    Utf8.Fault.Locates ⟨2, some 2⟩ [0x3C, 0x7C, 0xE2, 0x82, 0x3E] ∧
    parseBytes [0x3C, 0x7C, 0xE2, 0x82, 0xAC, 0x3E] =
      .error (.misused .barOutsideKind 1) := by
  constructor
  · exact (bytes_read [0x3C, 0x7C, 0xE2, 0x82, 0x3E]).2.2 _ rfl
  · exact ((bytes_read [0x3C, 0x7C, 0xE2, 0x82, 0xAC, 0x3E]).2.1
      ['<', '|', '€', '>'] rfl).1

end UsageLine

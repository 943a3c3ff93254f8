import UsageLine.Json.Numeral.Value
import UsageLine.Proofs.Json.ReadBack

/-!
# Numbers in writing are numerals

A number is written with a sign, whole digits that begin with a zero only if it
stands alone, and maybe a fraction and an exponent.  Whatever the number, a
reader of numerals takes what is written and stops behind it.
-/

namespace UsageLine

/-! ## The parts of a numeral -/

namespace Json

structure Digits (ds : Text) : Prop where
  some_digits : ds ≠ []
  each : ∀ d ∈ ds, isDigit d = true

/-- Digits that begin with a zero only if it stands alone. -/
structure WholeDigits (ds : Text) : Prop extends Digits ds where
  leading : ds.head? = some '0' → ds = ['0']

inductive FractionText : Text → Prop
  | none : FractionText []
  | point {ds : Text} (digits : Digits ds) : FractionText ('.' :: ds)

inductive PowerText : Text → Prop
  | none : PowerText []
  | exponent {sign ds : Text} (signs : sign ∈ [[], ['-'], ['+']])
      (digits : Digits ds) : PowerText ('e' :: (sign ++ ds))

/-- A number in writing without its sign. -/
inductive UnsignedText : Text → Prop
  | parts {whole fraction power : Text} (digits : WholeDigits whole)
      (isFraction : FractionText fraction) (isPower : PowerText power) :
      UnsignedText (whole ++ (fraction ++ power))

/-- A number in writing. -/
inductive SignedText : Text → Prop
  | plain {t : Text} (unsigned : UnsignedText t) : SignedText t
  | negative {t : Text} (unsigned : UnsignedText t) : SignedText ('-' :: t)

variable {ds rest fraction power t : Text}

theorem Digits.append_left {more : Text} (digits : Digits ds)
    (others : ∀ d ∈ more, isDigit d = true) : Digits (ds ++ more) := by
  refine ⟨List.append_ne_nil_of_left_ne_nil digits.some_digits more, ?_⟩
  intro d mem
  rcases List.mem_append.mp mem with early | late
  · exact digits.each d early
  · exact others d late

theorem Digits.head?_append (digits : Digits ds) (more : Text) :
    (ds ++ more).head? = ds.head? := by
  obtain ⟨d, others, rfl⟩ := List.exists_cons_of_ne_nil digits.some_digits
  rfl

theorem UnsignedText.begins (unsigned : UnsignedText t) :
    ∃ d cs, t = d :: cs ∧ isDigit d = true := by
  cases unsigned with
  | parts digits =>
      obtain ⟨d, more, rfl⟩ := List.exists_cons_of_ne_nil digits.some_digits
      exact ⟨d, _, rfl, digits.each d List.mem_cons_self⟩

theorem SignedText.begins (signed : SignedText t) :
    ∃ c cs, t = c :: cs ∧ (c = '-' ∨ isDigit c = true) := by
  cases signed with
  | negative => exact ⟨'-', _, rfl, .inl rfl⟩
  | plain unsigned =>
      obtain ⟨d, cs, rfl, digit⟩ := unsigned.begins
      exact ⟨d, cs, rfl, .inr digit⟩

/-! ## The parts are read -/

theorem readDigits_append (digits : Digits ds)
    (stops : ∀ c ∈ rest.head?, isDigit c = false) :
    readDigits (ds ++ rest) = .ok (ds, rest) := by
  obtain ⟨some_digits, each⟩ := digits
  cases ds with
  | nil => exact absurd rfl some_digits
  | cons d more =>
      have others : ∀ e ∈ more, isDigit e = true :=
        fun e mem => each e (List.mem_cons_of_mem d mem)
      have front : rest.takeWhile isDigit = [] ∧ rest.dropWhile isDigit = rest := by
        cases rest with
        | nil => exact ⟨rfl, rfl⟩
        | cons c cs =>
            have stop := stops c rfl
            simp [stop]
      rw [List.cons_append, readDigits, if_pos (each d List.mem_cons_self),
        List.takeWhile_append_of_pos others, List.dropWhile_append_of_pos others,
        front.1, front.2, List.append_nil]

theorem readWhole_append (digits : WholeDigits ds)
    (stops : ∀ c ∈ rest.head?, isDigit c = false) :
    readWhole (ds ++ rest) = .ok (ds, rest) := by
  rw [readWhole, readDigits_append digits.toDigits stops]
  split
  · rename_i taken
    cases taken
    cases digits.leading rfl
  · rfl

theorem readFraction_append (isFraction : FractionText fraction)
    (stops : ∀ c ∈ rest.head?, isDigit c = false ∧ c ≠ '.') :
    ∃ digits?, readFraction (fraction ++ rest) = .ok (digits?, rest) := by
  cases isFraction with
  | none =>
      refine ⟨none, ?_⟩
      rw [List.nil_append]
      unfold readFraction
      split
      · exact absurd rfl (stops '.' rfl).2
      · rfl
  | @point ds digits =>
      refine ⟨some ds, ?_⟩
      rw [List.cons_append, readFraction,
        readDigits_append digits fun c mem => (stops c mem).1]

theorem readPower_of_digit {d : Char} (digit : isDigit d = true) (cs : Text) :
    readPower (d :: cs) = readSigned 1 (d :: cs) := by
  unfold readPower
  split
  · rename_i found
    cases found
    exact absurd digit (by decide)
  · rename_i found
    cases found
    exact absurd digit (by decide)
  · rfl

theorem readExponent_append (isPower : PowerText power) (ends : Ends rest) :
    ∃ power?, readExponent (power ++ rest) = .ok (power?, rest) := by
  have stops : ∀ c ∈ rest.head?, isDigit c = false ∧ ¬ (c = 'e' ∨ c = 'E') := by
    intro c mem
    rcases ends c mem with rfl | rfl | rfl <;> decide
  cases isPower with
  | none =>
      refine ⟨none, ?_⟩
      rw [List.nil_append]
      cases rest with
      | nil => rfl
      | cons c cs => exact if_neg (stops c rfl).2
  | @exponent sign ds signs digits =>
      have signed (sign : Int) :
          readSigned sign (ds ++ rest) = .ok (sign * digitsValue ds, rest) := by
        rw [readSigned, readDigits_append digits fun c mem => (stops c mem).1]
      have read : ∃ value, readPower (sign ++ ds ++ rest) = .ok (value, rest) := by
        simp only [List.mem_cons, List.not_mem_nil, or_false] at signs
        rcases signs with rfl | rfl | rfl
        · obtain ⟨d, more, rfl⟩ := List.exists_cons_of_ne_nil digits.some_digits
          exact ⟨1 * digitsValue (d :: more),
            (readPower_of_digit (digits.each d List.mem_cons_self) _).trans
              (signed 1)⟩
        · exact ⟨-1 * digitsValue ds, signed (-1)⟩
        · exact ⟨1 * digitsValue ds, signed 1⟩
      obtain ⟨value, read⟩ := read
      refine ⟨some value, ?_⟩
      rw [List.cons_append, readExponent, if_pos (.inl rfl), read]

/-- A fraction and an exponent do not go on with the digits before them. -/
theorem head?_of_parts (isFraction : FractionText fraction)
    (isPower : PowerText power) (ends : Ends rest) :
    ∀ c ∈ (fraction ++ (power ++ rest)).head?, isDigit c = false := by
  cases isFraction with
  | point => rintro c ⟨⟩; rfl
  | none =>
      cases isPower with
      | exponent => rintro c ⟨⟩; rfl
      | none =>
          intro c mem
          rcases ends c mem with rfl | rfl | rfl <;> rfl

theorem head?_of_power (isPower : PowerText power) (ends : Ends rest) :
    ∀ c ∈ (power ++ rest).head?, isDigit c = false ∧ c ≠ '.' := by
  cases isPower with
  | exponent => rintro c ⟨⟩; decide
  | none =>
      intro c mem
      rcases ends c mem with rfl | rfl | rfl <;> decide

theorem readUnsigned_append (negative : Bool) (unsigned : UnsignedText t)
    (ends : Ends rest) :
    ∃ numeral, readUnsigned negative (t ++ rest) = .ok (numeral, rest) := by
  cases unsigned with
  | @parts whole fraction power digits isFraction isPower =>
      have first := readWhole_append digits (head?_of_parts isFraction isPower ends)
      obtain ⟨digits?, second⟩ :=
        readFraction_append isFraction (head?_of_power isPower ends)
      obtain ⟨power?, third⟩ := readExponent_append isPower ends
      refine ⟨⟨negative, whole, digits?, power?⟩, ?_⟩
      simp only [List.append_assoc, readUnsigned, first, second, third]

theorem readNumeral_of_digit {d : Char} (digit : isDigit d = true) (cs : Text) :
    readNumeral (d :: cs) = readUnsigned false (d :: cs) := by
  unfold readNumeral
  split
  · rename_i found
    cases found
    exact absurd digit (by decide)
  · rfl

/-- A number in writing is skipped as a numeral, and what follows it is left. -/
theorem skipNumeral_append (signed : SignedText t) (ends : Ends rest) :
    skipNumeral (t ++ rest) = .ok rest := by
  have read : ∃ numeral, readNumeral (t ++ rest) = .ok (numeral, rest) := by
    cases signed with
    | negative unsigned => exact readUnsigned_append true unsigned ends
    | plain unsigned =>
        obtain ⟨numeral, read⟩ := readUnsigned_append false unsigned ends
        obtain ⟨d, cs, rfl, digit⟩ := unsigned.begins
        exact ⟨numeral, (readNumeral_of_digit digit _).trans read⟩
  obtain ⟨numeral, read⟩ := read
  rw [skipNumeral, read]

/-! ## Numbers in writing -/

theorem digits_digits (n : Nat) : Digits (Decimal.digits n) :=
  ⟨Nat.toDigits_ne_nil, fun _ mem =>
    Nat.isDigit_of_mem_toDigits (by decide) (by decide) mem⟩

theorem head?_digits {n : Nat} (positive : n ≠ 0) :
    (Decimal.digits n).head? ≠ some '0' := by
  induction n using Nat.strongRecOn with
  | ind n ih =>
      by_cases small : n < 10
      · have digit : ∀ n < 10, n ≠ 0 → Nat.digitChar n ≠ '0' := by decide
        rw [Decimal.digits, Nat.toDigits_of_lt_base small]
        exact fun same => digit n small positive (Option.some.inj same)
      · have earlier := ih (n / 10) (by omega) (by omega)
        rw [Decimal.digits, Nat.toDigits_of_base_le (by decide) (by omega)]
        rwa [← (digits_digits (n / 10)).head?_append] at earlier

theorem wholeDigits_digits (n : Nat) : WholeDigits (Decimal.digits n) := by
  refine ⟨digits_digits n, fun leading => ?_⟩
  by_cases zero : n = 0
  · subst zero
    rfl
  · exact absurd leading (head?_digits zero)

theorem unsigned_of_whole (digits : WholeDigits ds) : UnsignedText ds := by
  have parts := UnsignedText.parts digits .none .none
  rwa [List.append_nil, List.append_nil] at parts

theorem signed_integerText (n : Int) : SignedText (integerText n) := by
  cases n with
  | ofNat n => exact .plain (unsigned_of_whole (wholeDigits_digits n))
  | negSucc n => exact .negative (unsigned_of_whole (wholeDigits_digits (n + 1)))

theorem unsigned_of_point {more : Text} (whole : WholeDigits ds)
    (digits : Digits more) : UnsignedText (ds ++ '.' :: more) := by
  have parts := UnsignedText.parts whole (.point digits) .none
  rwa [List.append_nil] at parts

theorem isDigit_of_mem_replicate {n : Nat} :
    ∀ d ∈ List.replicate n '0', isDigit d = true := by
  intro d mem
  rw [List.eq_of_mem_replicate mem]
  rfl

/-- Digits with a point among them or beside them are a numeral. -/
theorem unsigned_pointed (digits : Digits ds) (head : ds.head? ≠ some '0')
    (exponent : Int) : UnsignedText (Decimal.pointed ds exponent) := by
  rw [Decimal.pointed]
  split
  · have whole : WholeDigits (ds ++ List.replicate exponent.toNat '0') :=
      ⟨digits.append_left isDigit_of_mem_replicate,
        fun leading => absurd (digits.head?_append _ ▸ leading) head⟩
    exact unsigned_of_point whole (digits_digits 0)
  split
  · rename_i below some_whole
    -- The point stands behind some of the digits, and others are behind it.
    generalize count : (exponent + ds.length).toNat = n
    have some_digits : ds.take n ≠ [] := by
      rw [Ne, List.take_eq_nil_iff, not_or]
      exact ⟨by omega, digits.some_digits⟩
    have others : ds.drop n ≠ [] := by
      rw [Ne, List.drop_eq_nil_iff]
      omega
    have taken : Digits (ds.take n) :=
      ⟨some_digits, fun d mem => digits.each d (List.mem_of_mem_take mem)⟩
    have whole : WholeDigits (ds.take n) := by
      refine ⟨taken, fun leading => absurd ?_ head⟩
      rwa [← taken.head?_append (ds.drop n), List.take_append_drop] at leading
    exact unsigned_of_point whole
      ⟨others, fun d mem => digits.each d (List.mem_of_mem_drop mem)⟩
  · have zero : WholeDigits ['0'] := wholeDigits_digits 0
    refine unsigned_of_point zero
      ⟨List.append_ne_nil_of_right_ne_nil _ digits.some_digits, ?_⟩
    intro d mem
    rcases List.mem_append.mp mem with zero | digit
    · exact isDigit_of_mem_replicate d zero
    · exact digits.each d digit

/-- Digits with an exponent are a numeral, with a point behind the first if there
are others. -/
theorem unsigned_scientific (digits : Digits ds) (head : ds.head? ≠ some '0')
    (exponent : Int) : UnsignedText (Decimal.scientific ['+'] ds exponent) := by
  have isPower (first : Int) :
      PowerText ('e' :: if first < 0 then '-' :: Decimal.digits (-first).toNat
        else ['+'] ++ Decimal.digits first.toNat) := by
    split
    · exact @PowerText.exponent ['-'] _ (by decide) (digits_digits _)
    · exact @PowerText.exponent ['+'] _ (by decide) (digits_digits _)
  have whole {d : Char} (digit : isDigit d = true) (notZero : d ≠ '0') :
      WholeDigits [d] :=
    ⟨⟨List.cons_ne_nil d [], by simpa using digit⟩,
      fun leading => absurd (Option.some.inj leading) notZero⟩
  obtain ⟨some_digits, each⟩ := digits
  match ds with
  | [] => exact absurd rfl some_digits
  | [d] =>
      exact .parts (whole (each d List.mem_cons_self) fun same => head (same ▸ rfl))
        .none (isPower _)
  | d :: e :: more =>
      exact .parts (whole (each d List.mem_cons_self) fun same => head (same ▸ rfl))
        (.point ⟨List.cons_ne_nil e more,
          fun f mem => each f (List.mem_cons_of_mem d mem)⟩) (isPower _)

theorem unsigned_magnitude (significand : Nat) (exponent : Int) :
    UnsignedText (Decimal.magnitude Decimal.layout significand exponent) := by
  rw [Decimal.magnitude]
  split
  · have zero : WholeDigits ['0'] := wholeDigits_digits 0
    exact unsigned_of_point zero zero.toDigits
  · rename_i positive
    have head := head?_digits positive
    simp only
    split
    · exact unsigned_pointed (digits_digits significand) head exponent
    · exact unsigned_scientific (digits_digits significand) head exponent

/-- Every number is written as a numeral. -/
theorem Number.signed_text (n : Number) : SignedText n.text := by
  cases n with
  | integer n => exact signed_integerText n
  | decimal d =>
      have unsigned := unsigned_magnitude d.significand d.exponent
      rw [Number.text, Decimal.text]
      split
      · exact .negative unsigned
      · exact .plain unsigned

end Json

end UsageLine

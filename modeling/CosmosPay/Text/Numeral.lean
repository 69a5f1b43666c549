import Mathlib.Data.Nat.Log
import Mathlib.Tactic.IntervalCases

/-!
# Decimal numerals as strings

A numeral is a nonempty string of ASCII digits.  Several numerals denote the
same number; exactly one of them, the canonical one, is what printing the number
gives back.

Decimals with a fraction are read as double-precision numbers: the exact
rational, rounded to a 53-bit significand with ties to even, in integer
arithmetic.
-/

namespace Text

/-- `/^\d+$/` -/
def IsNumeral (text : String) : Prop :=
  text.toList ≠ [] ∧ ∀ char ∈ text.toList, char.isDigit = true

instance (text : String) : Decidable (IsNumeral text) :=
  @instDecidableAnd _ _ inferInstance (List.decidableBAll _ text.toList)

/-- The number that a numeral denotes. -/
def numeralValue (text : String) : Nat :=
  Nat.ofDigitChars 10 text.toList 0

/-- No leading zero, except for zero itself. -/
def Canonical (text : String) : Prop :=
  IsNumeral text ∧ (text.toList.head? = some '0' → text.toList = ['0'])

instance (text : String) : Decidable (Canonical text) :=
  inferInstanceAs (Decidable (_ ∧ _))

@[simp]
theorem numeralValue_repr (number : Nat) : numeralValue number.repr = number := by
  simp [numeralValue]

theorem isNumeral_repr (number : Nat) : IsNumeral number.repr := by
  refine ⟨by simp [Nat.toDigits_ne_nil], fun char member => ?_⟩
  rw [Nat.toList_repr] at member
  exact Nat.isDigit_of_mem_toDigits (by decide) (by decide) member

private theorem toNat_sub_lt_ten {char : Char} (digit : char.isDigit = true) :
    char.toNat - '0'.toNat < 10 := by
  have bounds : '0'.toNat ≤ char.toNat ∧ char.toNat ≤ '9'.toNat := by
    simpa [Char.isDigit, Char.le_def, UInt32.le_iff_toNat_le] using digit
  have nine : '9'.toNat = '0'.toNat + 9 := by decide
  omega

private theorem digitChar_of_isDigit {char : Char} (digit : char.isDigit = true) :
    Nat.digitChar (char.toNat - '0'.toNat) = char := by
  have bounds : '0'.toNat ≤ char.toNat ∧ char.toNat ≤ '9'.toNat := by
    simpa [Char.isDigit, Char.le_def, UInt32.le_iff_toNat_le] using digit
  have zero : '0'.toNat = 48 := by decide
  have nine : '9'.toNat = 57 := by decide
  have back : Char.ofNat char.toNat = char := Char.ofNat_toNat char
  rw [zero, nine] at bounds
  obtain ⟨lower, upper⟩ := bounds
  rw [← back, zero]
  generalize char.toNat = code at lower upper
  interval_cases code <;> decide

/-- Printing the value of digits without a leading zero gives the digits back. -/
private theorem toDigits_ofDigitChars (digits : List Char) (leading : Nat)
    (positive : 0 < leading) (isDigits : ∀ char ∈ digits, char.isDigit = true) :
    Nat.toDigits 10 (Nat.ofDigitChars 10 digits leading) =
      Nat.toDigits 10 leading ++ digits := by
  induction digits generalizing leading with
  | nil => simp
  | cons char digits ih =>
      have digit := isDigits char (by simp)
      have small := toNat_sub_lt_ten digit
      rw [Nat.ofDigitChars_cons, ih _ (by omega) fun other member =>
        isDigits other (List.mem_cons_of_mem char member),
        ← Nat.toDigits_append_toDigits (by decide) positive small,
        Nat.toDigits_of_lt_base small, digitChar_of_isDigit digit]
      simp

/-- A printed number has no leading zero, unless it is zero. -/
private theorem head?_toDigits_ne_zero (number : Nat) (positive : 0 < number) :
    (Nat.toDigits 10 number).head? ≠ some '0' := by
  induction number using Nat.strongRecOn with
  | ind number ih =>
      by_cases single : number < 10
      · rw [Nat.toDigits_of_lt_base single]
        interval_cases number <;> decide
      · rw [Nat.toDigits_of_base_le (by decide) (by omega)]
        have shorter := ih (number / 10) (by omega) (by omega)
        cases printed : Nat.toDigits 10 (number / 10) with
        | nil => exact absurd printed Nat.toDigits_ne_nil
        | cons first others =>
            rw [printed] at shorter
            simpa using shorter

/-- A leading zero is printed back only when it is the only digit. -/
private theorem toDigits_zero_cons (digits : List Char) :
    Nat.toDigits 10 (Nat.ofDigitChars 10 ('0' :: digits) 0) = '0' :: digits ↔ digits = [] := by
  constructor
  · intro printed
    by_contra more
    have value : Nat.ofDigitChars 10 ('0' :: digits) 0 ≠ 0 := by
      intro vanishes
      rw [vanishes, Nat.toDigits_zero] at printed
      exact more (List.cons.inj printed).2.symm
    exact head?_toDigits_ne_zero _ (Nat.pos_of_ne_zero value) (by rw [printed]; rfl)
  · rintro rfl
    decide

/-- A numeral is what its value prints as exactly when it is canonical. -/
theorem repr_numeralValue_iff {text : String} (numeral : IsNumeral text) :
    (numeralValue text).repr = text ↔ Canonical text := by
  have reduce : Canonical text ↔ (text.toList.head? = some '0' → text.toList = ['0']) :=
    and_iff_right numeral
  rw [← String.toList_inj, Nat.toList_repr, reduce, numeralValue]
  obtain ⟨nonempty, isDigits⟩ := numeral
  generalize text.toList = digits at nonempty isDigits
  cases digits with
  | nil => exact absurd rfl nonempty
  | cons char digits =>
      have digit := isDigits char (by simp)
      have rest : ∀ other ∈ digits, other.isDigit = true := fun other member =>
        isDigits other (List.mem_cons_of_mem char member)
      have small := toNat_sub_lt_ten digit
      by_cases isZero : char = '0'
      · subst isZero
        rw [toDigits_zero_cons]
        simp
      · have positive : 0 < char.toNat - '0'.toNat := by
          have printed := digitChar_of_isDigit digit
          by_contra zero
          have vanishes : char.toNat - '0'.toNat = 0 := by omega
          rw [vanishes] at printed
          exact isZero printed.symm
        rw [Nat.ofDigitChars_cons, Nat.mul_zero, Nat.zero_add,
          toDigits_ofDigitChars digits _ positive rest, Nat.toDigits_of_lt_base small,
          digitChar_of_isDigit digit]
        simp [isZero]

theorem canonical_repr (number : Nat) : Canonical number.repr :=
  (repr_numeralValue_iff (isNumeral_repr number)).mp (by rw [numeralValue_repr])

/-- Canonical numerals of the same value are equal. -/
theorem Canonical.eq_of_value_eq {first second : String} (firstCanonical : Canonical first)
    (secondCanonical : Canonical second)
    (same : numeralValue first = numeralValue second) : first = second := by
  rw [← (repr_numeralValue_iff firstCanonical.1).mpr firstCanonical, same]
  exact (repr_numeralValue_iff secondCanonical.1).mpr secondCanonical

/-! ## Doubles -/

/-- A double: `significand * 2 ^ exponent`, with a 53-bit significand, or zero. -/
structure Double where
  significand : Nat
  exponent : Int
  deriving DecidableEq, Repr

/-- The integer nearest to a quotient, the even one of two equally near. -/
def roundHalfEven (numerator denominator : Nat) : Nat :=
  let quotient := numerator / denominator
  let twice := 2 * (numerator % denominator)
  if twice < denominator then quotient
  else if denominator < twice then quotient + 1
  else quotient + quotient % 2

/-- The binary exponent of a positive quotient. -/
def binaryExponent (numerator denominator : Nat) : Int :=
  let guess : Int := (Nat.log2 numerator : Int) - Nat.log2 denominator
  if denominator * 2 ^ guess.toNat ≤ numerator * 2 ^ (-guess).toNat then guess else guess - 1

/-- The double nearest to a quotient. -/
def Double.ofQuotient (numerator denominator : Nat) : Double :=
  if numerator = 0 then ⟨0, 0⟩
  else
    let exponent := binaryExponent numerator denominator - 52
    let significand := roundHalfEven (numerator * 2 ^ (-exponent).toNat)
      (denominator * 2 ^ exponent.toNat)
    if significand = 2 ^ 53 then ⟨2 ^ 52, exponent + 1⟩ else ⟨significand, exponent⟩

/-- The digits of a decimal and the number of them after the point, for
`/^\d+(\.\d+)?$/`. -/
def decimalDigits (text : String) : Option (List Char × Nat) :=
  let whole := text.toList.takeWhile Char.isDigit
  match whole, text.toList.dropWhile Char.isDigit with
  | [], _ => none
  | _, [] => some (whole, 0)
  | _, '.' :: fraction =>
      if fraction ≠ [] ∧ fraction.all Char.isDigit then some (whole ++ fraction, fraction.length)
      else none
  | _, _ => none

/-- JavaScript's `Number(text)` on decimals; `none` stands for `NaN`. -/
def number (text : String) : Option Double :=
  (decimalDigits text).map fun (digits, places) =>
    .ofQuotient (Nat.ofDigitChars 10 digits 0) (10 ^ places)

/-- `===` on numbers: `NaN` equals nothing. -/
def sameNumber : Option Double → Option Double → Bool
  | some first, some second => first = second
  | _, _ => false

example : sameNumber (number "25.5") (number "25.5000000") = true := by decide
example : sameNumber (number "25.5") (number "25.5000001") = false := by decide

end Text

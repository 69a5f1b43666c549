import CosmosPay.Text.Rounding

/-!
# Decimals as counts of units

A decimal with at most `places` digits after the point is a whole number of units of
`10 ^ -places`, and a count of units is printed with exactly that many.  Decimals of one
count are one double.
-/

namespace Text

/-- The number of units that a decimal denotes, if it is a whole number. -/
def units (places : Nat) (text : String) : Option Nat :=
  (decimalDigits text).bind fun (digits, given) =>
    if given ≤ places then some (Nat.ofDigitChars 10 digits 0 * 10 ^ (places - given)) else none

/-- The last digits of a number, with leading zeros. -/
def lastDigits : Nat → Nat → List Char
  | 0, _ => []
  | places + 1, number => lastDigits places (number / 10) ++ [Nat.digitChar (number % 10)]

/-- A count of units, printed with all its places. -/
def fixed (places count : Nat) : String :=
  (count / 10 ^ places).repr ++ "." ++ String.ofList (lastDigits places count)

section Printing

variable {places count : Nat}

@[simp]
theorem length_lastDigits : (lastDigits places count).length = places := by
  induction places generalizing count with
  | zero => rfl
  | succ places ih => simp [lastDigits, ih]

theorem isDigit_of_mem_lastDigits {char : Char} (member : char ∈ lastDigits places count) :
    char.isDigit = true := by
  induction places generalizing count with
  | zero => simp [lastDigits] at member
  | succ places ih =>
      rcases List.mem_append.mp member with earlier | last
      · exact ih earlier
      · obtain rfl := List.mem_singleton.mp last
        refine Nat.isDigit_of_mem_toDigits (b := 10) (n := count % 10) (by decide) (by decide) ?_
        rw [Nat.toDigits_of_lt_base (Nat.mod_lt _ (by decide))]
        exact List.mem_singleton_self _

theorem ofDigitChars_lastDigits (leading : Nat) :
    Nat.ofDigitChars 10 (lastDigits places count) leading =
      leading * 10 ^ places + count % 10 ^ places := by
  induction places generalizing count with
  | zero => simp [lastDigits, Nat.mod_one]
  | succ places ih =>
      rw [lastDigits, Nat.ofDigitChars_append, ih,
        Nat.ofDigitChars_cons_digitChar_of_lt_ten (Nat.mod_lt _ (by decide)), Nat.ofDigitChars_nil,
        pow_succ', Nat.mod_mul]
      ring

theorem decimalDigits_fixed (positive : 0 < places) :
    decimalDigits (fixed places count) =
      some (Nat.toDigits 10 (count / 10 ^ places) ++ lastDigits places count, places) := by
  have whole : ∀ char ∈ Nat.toDigits 10 (count / 10 ^ places), char.isDigit = true :=
    fun char member => Nat.isDigit_of_mem_toDigits (by decide) (by decide) member
  have printed : (fixed places count).toList =
      Nat.toDigits 10 (count / 10 ^ places) ++ '.' :: lastDigits places count := by
    simp [fixed]
  have nonempty : lastDigits places count ≠ [] := by
    intro empty
    have none : (lastDigits places count).length = places := length_lastDigits
    rw [empty] at none
    exact positive.ne none
  have point : ('.' :: lastDigits places count).takeWhile Char.isDigit = [] := rfl
  have rest : ('.' :: lastDigits places count).dropWhile Char.isDigit =
      '.' :: lastDigits places count := rfl
  have fraction : (lastDigits places count).all Char.isDigit = true :=
    List.all_eq_true.mpr fun char member => isDigit_of_mem_lastDigits member
  unfold decimalDigits
  rw [printed, List.takeWhile_append_of_pos whole, List.dropWhile_append_of_pos whole, point, rest,
    List.append_nil]
  cases digits : Nat.toDigits 10 (count / 10 ^ places) with
  | nil => exact absurd digits Nat.toDigits_ne_nil
  | cons first others => simp [nonempty, fraction]

/-- A printed count is read back. -/
theorem units_fixed (positive : 0 < places) : units places (fixed places count) = some count := by
  have digits := Nat.div_add_mod' count (10 ^ places)
  rw [units, decimalDigits_fixed positive, Option.bind_some]
  simp only [le_refl, if_true, Nat.sub_self, pow_zero, Nat.mul_one, Nat.ofDigitChars_append,
    Nat.ofDigitChars_ten_toDigits, ofDigitChars_lastDigits, digits]

end Printing

/-- The double of a decimal depends on its count of units only. -/
theorem number_of_units {places count : Nat} {text : String}
    (counted : units places text = some count) :
    number text = some (.ofQuotient count (10 ^ places)) := by
  unfold units at counted
  obtain ⟨⟨digits, given⟩, isDecimal, counts⟩ := Option.bind_eq_some_iff.mp counted
  simp only at counts
  split at counts
  · rename_i fits
    obtain rfl := Option.some.inj counts
    have exponents : 10 ^ places = 10 ^ given * 10 ^ (places - given) := by
      rw [← pow_add, Nat.add_sub_cancel' fits]
    rw [number, isDecimal, exponents,
      Double.ofQuotient_mul_right (by positivity) (by positivity)]
    rfl
  · cases counts

theorem sameNumber_iff {places firstCount secondCount : Nat} {first second : String}
    (isFirst : units places first = some firstCount)
    (isSecond : units places second = some secondCount) :
    sameNumber (number first) (number second) = true ↔
      Double.ofQuotient firstCount (10 ^ places) = Double.ofQuotient secondCount (10 ^ places) := by
  rw [number_of_units isFirst, number_of_units isSecond, sameNumber, decide_eq_true_iff]

end Text

import CosmosPay.Text.Decimal
import CosmosPay.Text.Numbers

/-!
# Printed numbers

A number that is printed is read back.  It is a plain decimal unless it is so small or so
large that it is printed with an exponent.
-/

namespace Text

section Digits

variable {digits : List Char} {point : Int}

/-- The digits of a decimal, read off its text. -/
theorem decimalDigits_point {whole fraction : List Char} (nonempty : whole ≠ [])
    (isWhole : ∀ char ∈ whole, char.isDigit = true) (more : fraction ≠ [])
    (isFraction : ∀ char ∈ fraction, char.isDigit = true) :
    decimalDigits (.ofList (whole ++ '.' :: fraction)) =
      some (whole ++ fraction, fraction.length) := by
  have point : ('.' :: fraction).takeWhile Char.isDigit = [] := rfl
  have rest : ('.' :: fraction).dropWhile Char.isDigit = '.' :: fraction := rfl
  have all : fraction.all Char.isDigit = true := List.all_eq_true.mpr isFraction
  unfold decimalDigits
  rw [String.toList_ofList, List.takeWhile_append_of_pos isWhole,
    List.dropWhile_append_of_pos isWhole, point, rest, List.append_nil]
  cases whole with
  | nil => exact absurd rfl nonempty
  | cons first others => simp [more, all]

theorem decimalDigits_whole {whole : List Char} (nonempty : whole ≠ [])
    (isWhole : ∀ char ∈ whole, char.isDigit = true) :
    decimalDigits (.ofList whole) = some (whole, 0) := by
  have all : whole.takeWhile Char.isDigit = whole := List.takeWhile_eq_self_iff.mpr isWhole
  have none : whole.dropWhile Char.isDigit = [] := List.dropWhile_eq_nil_iff.mpr isWhole
  unfold decimalDigits
  rw [String.toList_ofList, all, none]
  cases whole with
  | nil => exact absurd rfl nonempty
  | cons first others => rfl

/-- Without an exponent: the digits stand for what they should. -/
theorem decimalDigits_decimalNotation (nonempty : digits ≠ [])
    (isDigits : ∀ char ∈ digits, char.isDigit = true) (plain : -6 < point ∧ point ≤ 21) :
    ∃ shown, decimalDigits (.ofList (decimalNotation digits point)) =
        some (shown, (digits.length - point).toNat) ∧
      Nat.ofDigitChars 10 shown 0 =
        Nat.ofDigitChars 10 digits 0 * 10 ^ (point - digits.length).toNat := by
  have zeros : ∀ count, ∀ char ∈ List.replicate count '0', char.isDigit = true := by
    intro count char member
    rw [List.eq_of_mem_replicate member]
    rfl
  have positive := List.length_pos_iff.mpr nonempty
  unfold decimalNotation
  split_ifs with long middle short
  · refine ⟨digits ++ List.replicate (point - digits.length).toNat '0', ?_, ?_⟩
    · rw [show (digits.length - point).toNat = 0 by omega]
      refine decimalDigits_whole (by simp [nonempty]) fun char member => ?_
      rcases List.mem_append.mp member with digit | zero
      · exact isDigits char digit
      · exact zeros _ char zero
    · rw [Nat.ofDigitChars_append, Nat.ofDigitChars_replicate_zero, Nat.mul_comm]
  · have inside : point.toNat < digits.length := by omega
    refine ⟨digits, ?_, ?_⟩
    · have few : (digits.drop point.toNat).length = (digits.length - point).toNat := by
        rw [List.length_drop]
        omega
      have isWhole : digits.take point.toNat ≠ [] := by
        simp only [Ne, List.take_eq_nil_iff, nonempty, or_false]
        omega
      have isFraction : digits.drop point.toNat ≠ [] := by
        rw [Ne, List.drop_eq_nil_iff]
        omega
      have shown := decimalDigits_point isWhole
        (fun char member => isDigits char (List.mem_of_mem_take member)) isFraction
        fun char member => isDigits char (List.mem_of_mem_drop member)
      rwa [List.take_append_drop, few] at shown
    · rw [show (point - digits.length).toNat = 0 by omega, pow_zero, Nat.mul_one]
  · refine ⟨'0' :: (List.replicate (-point).toNat '0' ++ digits), ?_, ?_⟩
    · have few : (List.replicate (-point).toNat '0' ++ digits).length =
          (digits.length - point).toNat := by
        rw [List.length_append, List.length_replicate]
        omega
      have isFraction : ∀ char ∈ List.replicate (-point).toNat '0' ++ digits,
          char.isDigit = true := by
        intro char member
        rcases List.mem_append.mp member with zero | digit
        · exact zeros _ char zero
        · exact isDigits char digit
      have zero : ∀ char ∈ ['0'], char.isDigit = true := by
        simp
      have shown := decimalDigits_point (by simp) zero (by simp [nonempty]) isFraction
      rwa [few] at shown
    · rw [show (point - digits.length).toNat = 0 by omega, pow_zero, Nat.mul_one,
        Nat.ofDigitChars_cons, Nat.ofDigitChars_append, Nat.ofDigitChars_replicate_zero]
      simp
  · omega

/-- With an exponent: what stands before it, and the exponent. -/
theorem scientific_eq (nonempty : digits ≠ []) (isDigits : ∀ char ∈ digits, char.isDigit = true)
    (exponent : Int) :
    ∃ mantissa, scientific digits exponent =
        mantissa ++ 'e' :: (if exponent < 0 then '-' else '+') :: Nat.toDigits 10 exponent.natAbs ∧
      (∀ char ∈ mantissa, char ≠ 'e') ∧
      decimalDigits (.ofList mantissa) = some (digits, digits.length - 1) := by
  have noLetter : ∀ char ∈ digits, char ≠ 'e' := by
    rintro char member rfl
    have digit := isDigits 'e' member
    revert digit
    decide
  obtain ⟨first, others, rfl⟩ := List.exists_cons_of_ne_nil nonempty
  cases others with
  | nil => exact ⟨[first], rfl, noLetter, decimalDigits_whole nonempty isDigits⟩
  | cons second others =>
      refine ⟨[first] ++ '.' :: second :: others, by simp [scientific], fun char member => ?_, ?_⟩
      · rcases List.mem_append.mp member with isFirst | rest
        · exact noLetter char (List.mem_cons.mpr (.inl (List.mem_singleton.mp isFirst)))
        · rcases List.mem_cons.mp rest with rfl | other
          · decide
          · exact noLetter char (List.mem_cons_of_mem _ other)
      · have isWhole : ∀ char ∈ [first], char.isDigit = true :=
          fun char member => isDigits char (by simp [List.mem_singleton.mp member])
        exact decimalDigits_point (by simp) isWhole (by simp)
          fun char member => isDigits char (List.mem_cons_of_mem _ member)

/-- A decimal has no exponent. -/
theorem decimalDigits_scientific (nonempty : digits ≠ [])
    (isDigits : ∀ char ∈ digits, char.isDigit = true) (exponent : Int) :
    decimalDigits (.ofList (scientific digits exponent)) = none := by
  obtain ⟨first, others, rfl⟩ := List.exists_cons_of_ne_nil nonempty
  have isFirst : first.isDigit = true := isDigits first List.mem_cons_self
  cases others with
  | nil =>
      unfold decimalDigits scientific
      rw [String.toList_ofList]
      simp [isFirst]
  | cons second others =>
      unfold decimalDigits scientific
      rw [String.toList_ofList]
      simp [isFirst]

end Digits

/-! ## Counts of units -/

section Counts

variable {places count : Nat}

/-- A printed count is its significant digits and zeros. -/
theorem toDigits_significant (count : Nat) :
    Nat.toDigits 10 count = significant count ++
      List.replicate ((Nat.toDigits 10 count).length - (significant count).length) '0' := by
  have split : significant count ++ (Nat.toDigits 10 count).rtakeWhile (· = '0') =
      Nat.toDigits 10 count := List.rdropWhile_append_rtakeWhile ..
  have zeros : (Nat.toDigits 10 count).rtakeWhile (· = '0') = List.replicate
      ((Nat.toDigits 10 count).length - (significant count).length) '0' := by
    refine List.eq_replicate_iff.mpr ⟨?_, fun char member => ?_⟩
    · have lengths := congrArg List.length split
      rw [List.length_append] at lengths
      omega
    · have isZero := List.mem_rtakeWhile_imp (p := fun char : Char => decide (char = '0')) member
      exact of_decide_eq_true isZero
  rw [← zeros]
  exact split.symm

theorem significant_begins (count : Nat) : significant count <+: Nat.toDigits 10 count :=
  List.rdropWhile_prefix _ _

theorem isDigit_of_mem_significant {char : Char} (member : char ∈ significant count) :
    char.isDigit = true :=
  Nat.isDigit_of_mem_toDigits (b := 10) (n := count) (by decide) (by decide)
    ((significant_begins count).subset member)

theorem ofDigitChars_significant (count : Nat) :
    Nat.ofDigitChars 10 (significant count) 0 *
      10 ^ ((Nat.toDigits 10 count).length - (significant count).length) = count := by
  have whole := Nat.ofDigitChars_ten_toDigits (n := count)
  rw [toDigits_significant, Nat.ofDigitChars_append, Nat.ofDigitChars_replicate_zero,
    Nat.mul_comm] at whole
  exact whole

theorem significant_ne_nil (positive : count ≠ 0) : significant count ≠ [] := by
  intro none
  have value := ofDigitChars_significant count
  rw [none, Nat.ofDigitChars_nil, Nat.zero_mul] at value
  exact positive value.symm

/-- Where the point of a printed count leaves room for a plain decimal. -/
theorem point_iff (count : Nat) :
    (-6 < ((Nat.toDigits 10 count).length - (7 : Nat) : Int) ∧
      ((Nat.toDigits 10 count).length - (7 : Nat) : Int) ≤ 21) ↔ 10 ≤ count ∧ count < 10 ^ 28 := by
  have small := Nat.length_toDigits_le_iff (b := 10) (n := count) (k := 1) (by decide) (by decide)
  have large := Nat.length_toDigits_le_iff (b := 10) (n := count) (k := 28) (by decide) (by decide)
  rw [← large]
  omega

theorem units_numberText_of_plain (plain : count = 0 ∨ 10 ≤ count ∧ count < 10 ^ 28) :
    units 7 (numberText 7 count) = some count := by
  by_cases zero : count = 0
  · subst zero
    rfl
  have value := ofDigitChars_significant count
  have short := (significant_begins count).length_le
  obtain ⟨shown, isDecimal, isValue⟩ := decimalDigits_decimalNotation (significant_ne_nil zero)
    (fun char member => isDigit_of_mem_significant member)
    ((point_iff count).mpr (plain.resolve_left zero))
  rw [numberText, if_neg zero, units, isDecimal, Option.bind_some]
  simp only [isValue]
  rw [if_pos (by omega), Nat.mul_assoc, ← pow_add]
  refine congrArg some (Eq.trans ?_ value)
  congr 2
  omega

theorem scientific_of_not_plain (zero : count ≠ 0) (small : ¬ (10 ≤ count ∧ count < 10 ^ 28)) :
    decimalNotation (significant count) ((Nat.toDigits 10 count).length - (7 : Nat)) =
      scientific (significant count) ((Nat.toDigits 10 count).length - (7 : Nat) - 1) := by
  have outside := (point_iff count).not.mpr small
  have nonempty := List.length_pos_iff.mpr (significant_ne_nil zero)
  unfold decimalNotation
  rw [if_neg (by omega), if_neg (by omega), if_neg (by omega)]

/-- A count of stroops is printed as a plain decimal if it is zero, or at least ten and not
too large. -/
theorem units_numberText_eq_some_iff (count : Nat) :
    units 7 (numberText 7 count) = some count ↔ count = 0 ∨ 10 ≤ count ∧ count < 10 ^ 28 := by
  refine ⟨fun counted => ?_, units_numberText_of_plain⟩
  by_contra exponent
  obtain ⟨zero, outside⟩ := not_or.mp exponent
  rw [numberText, if_neg zero, scientific_of_not_plain zero outside, units,
    decimalDigits_scientific (significant_ne_nil zero)
      fun char member => isDigit_of_mem_significant member] at counted
  cases counted

/-- No digit and no point is an `e`. -/
theorem ne_letter_of_decimalDigits {text : String} {digits : List Char} {given : Nat}
    (isDecimal : decimalDigits text = some (digits, given)) : ∀ char ∈ text.toList, char ≠ 'e' := by
  have noDigit : ∀ chars : List Char, (∀ char ∈ chars, char.isDigit = true) →
      ∀ char ∈ chars, char ≠ 'e' := by
    rintro chars isDigits char member rfl
    have digit := isDigits 'e' member
    revert digit
    decide
  have isWhole : ∀ char ∈ text.toList.takeWhile Char.isDigit, char.isDigit = true :=
    fun char member => List.mem_takeWhile_imp member
  intro char member
  rw [← List.takeWhile_append_dropWhile (p := Char.isDigit) (l := text.toList)] at member
  rcases List.mem_append.mp member with digit | rest
  · exact noDigit _ isWhole char digit
  unfold decimalDigits at isDecimal
  simp only at isDecimal
  split at isDecimal
  · cases isDecimal
  · rename_i isEmpty _
    rw [isEmpty] at rest
    cases rest
  · rename_i fraction isPoint _
    split at isDecimal
    · rename_i isFraction
      rw [isPoint] at rest
      rcases List.mem_cons.mp rest with rfl | digit
      · decide
      · exact noDigit fraction (List.all_eq_true.mp isFraction.2) char digit
    · cases isDecimal
  · cases isDecimal

/-- What a decimal without an exponent denotes. -/
theorem decimalValue_of_decimalDigits {text : String} {digits : List Char} {given : Nat}
    (isDecimal : decimalDigits text = some (digits, given)) :
    decimalValue text = some (Nat.ofDigitChars 10 digits 0 / 10 ^ given : Rat) := by
  have letters := ne_letter_of_decimalDigits isDecimal
  have all : text.toList.takeWhile (· ≠ 'e') = text.toList :=
    List.takeWhile_eq_self_iff.mpr fun char member => decide_eq_true (letters char member)
  have none : text.toList.dropWhile (· ≠ 'e') = [] :=
    List.dropWhile_eq_nil_iff.mpr fun char member => decide_eq_true (letters char member)
  rw [decimalValue, all, none, String.ofList_toList, isDecimal]
  simp [exponent?]

theorem decimalValue_of_units {text : String} (counted : units places text = some count) :
    decimalValue text = some (count / 10 ^ places : Rat) := by
  obtain ⟨⟨digits, given⟩, isDecimal, counts⟩ := Option.bind_eq_some_iff.mp counted
  simp only at counts
  split at counts
  · rename_i fits
    obtain rfl := Option.some.inj counts
    rw [decimalValue_of_decimalDigits isDecimal]
    refine congrArg some ?_
    have exponents : (10 : Rat) ^ places = 10 ^ given * 10 ^ (places - given) := by
      rw [← pow_add, Nat.add_sub_cancel' fits]
    rw [exponents, Nat.cast_mul, Nat.cast_pow, Nat.cast_ofNat]
    field_simp
  · cases counts

theorem decimalValue_scientific {digits : List Char} (nonempty : digits ≠ [])
    (isDigits : ∀ char ∈ digits, char.isDigit = true) (exponent : Int) :
    decimalValue (.ofList (scientific digits exponent)) =
      some ((Nat.ofDigitChars 10 digits 0 * 10 ^ exponent.toNat : Rat) /
        10 ^ (digits.length - 1 + (-exponent).toNat)) := by
  obtain ⟨mantissa, isScientific, letters, isDecimal⟩ :=
    scientific_eq nonempty isDigits exponent
  have before : ∀ char ∈ mantissa, decide (char ≠ 'e') = true :=
    fun char member => decide_eq_true (letters char member)
  have numeral : IsNumeral (.ofList (Nat.toDigits 10 exponent.natAbs)) := by
    have isRepr := isNumeral_repr exponent.natAbs
    rwa [Nat.repr_eq_ofList_toDigits] at isRepr
  have stop : ∀ rest : List Char, ('e' :: rest).takeWhile (· ≠ 'e') = [] := fun rest => rfl
  have go : ∀ rest : List Char, ('e' :: rest).dropWhile (· ≠ 'e') = 'e' :: rest := fun rest => rfl
  rw [decimalValue, isScientific, String.toList_ofList, List.takeWhile_append_of_pos before,
    List.dropWhile_append_of_pos before, stop, go, List.append_nil, isDecimal, Option.bind_some]
  by_cases negative : exponent < 0
  · have given : exponent? ('e' :: '-' :: Nat.toDigits 10 exponent.natAbs) = some exponent := by
      rw [exponent?, if_pos numeral, Nat.ofDigitChars_ten_toDigits]
      exact congrArg some (by omega)
    rw [if_pos negative, given]
    simp
  · have given : exponent? ('e' :: '+' :: Nat.toDigits 10 exponent.natAbs) = some exponent := by
      rw [exponent?, if_pos numeral, Nat.ofDigitChars_ten_toDigits]
      exact congrArg some (by omega)
    rw [if_neg negative, given]
    simp

/-- A printed count of stroops is read back, whichever way it is printed. -/
theorem decimalValue_numberText (count : Nat) :
    decimalValue (numberText 7 count) = some (count / 10 ^ 7 : Rat) := by
  by_cases plain : count = 0 ∨ 10 ≤ count ∧ count < 10 ^ 28
  · exact decimalValue_of_units (units_numberText_of_plain plain)
  obtain ⟨zero, outside⟩ := not_or.mp plain
  have value := ofDigitChars_significant count
  have short := (significant_begins count).length_le
  have nonempty := List.length_pos_iff.mpr (significant_ne_nil zero)
  rw [numberText, if_neg zero, scientific_of_not_plain zero outside, decimalValue_scientific
    (significant_ne_nil zero) fun char member => isDigit_of_mem_significant member]
  refine congrArg some ?_
  rw [div_eq_div_iff (by positivity) (by positivity)]
  nth_rewrite 3 [← value]
  push_cast
  rw [mul_assoc, mul_assoc, ← pow_add, ← pow_add]
  congr 2
  omega

end Counts

end Text

import CosmosPay.Text.Numeral
import Mathlib.Data.Int.Log
import Mathlib.Data.Rat.Floor
import Mathlib.Tactic.FieldSimp
import Mathlib.Tactic.Linarith
import Mathlib.Tactic.Positivity
import Mathlib.Tactic.Ring

/-!
# Rounding of decimals

`Double.ofQuotient` is the nearest double of a quotient: it is off by half a unit in the
last place at most, it keeps the order, and so the quotients of one double lie next to each
other.
-/

namespace Text

/-! ## Rounding to an integer -/

section Integers

variable {numerator denominator first second bound : Nat}

theorem roundHalfEven_mono (denominator : Nat) (ordered : first ≤ second) :
    roundHalfEven first denominator ≤ roundHalfEven second denominator := by
  have quotients : first / denominator ≤ second / denominator := Nat.div_le_div_right ordered
  unfold roundHalfEven
  simp only
  by_cases same : first / denominator = second / denominator
  · have remainders : first % denominator ≤ second % denominator := by
      have whole := Nat.div_add_mod first denominator
      have other := Nat.div_add_mod second denominator
      rw [same] at whole
      omega
    rw [same]
    split_ifs <;> omega
  · split_ifs <;> omega

/-- Rounding is off by a half at most. -/
theorem roundHalfEven_mul_le :
    2 * (roundHalfEven numerator denominator * denominator) ≤ 2 * numerator + denominator := by
  have whole := Nat.div_add_mod' numerator denominator
  unfold roundHalfEven
  simp only
  split_ifs with below above
  · omega
  · rw [Nat.add_mul]
    omega
  · rcases Nat.mod_two_eq_zero_or_one (numerator / denominator) with even | odd
    · rw [even, Nat.add_zero]
      omega
    · rw [odd, Nat.add_mul]
      omega

theorem le_roundHalfEven_mul (positive : 0 < denominator) :
    2 * numerator ≤ 2 * (roundHalfEven numerator denominator * denominator) + denominator := by
  have whole := Nat.div_add_mod' numerator denominator
  have small := Nat.mod_lt numerator positive
  unfold roundHalfEven
  simp only
  split_ifs with below above
  · omega
  · rw [Nat.add_mul]
    omega
  · rw [Nat.add_mul]
    omega

theorem abs_roundHalfEven_sub_le (numerator : Nat) (positive : 0 < denominator) :
    |(roundHalfEven numerator denominator : ℚ) - numerator / denominator| ≤ 1 / 2 := by
  have isPositive : (0 : ℚ) < denominator := by exact_mod_cast positive
  have above : (2 : ℚ) * (roundHalfEven numerator denominator * denominator) ≤
      2 * numerator + denominator := by
    exact_mod_cast roundHalfEven_mul_le
  have below : (2 : ℚ) * numerator ≤
      2 * (roundHalfEven numerator denominator * denominator) + denominator := by
    exact_mod_cast le_roundHalfEven_mul positive
  rw [abs_le, neg_le_sub_iff_le_add, sub_le_iff_le_add, div_le_iff₀ isPositive,
    ← sub_le_iff_le_add', le_div_iff₀ isPositive]
  constructor <;> linarith

theorem roundHalfEven_mul (positive : 0 < denominator) :
    roundHalfEven (bound * denominator) denominator = bound := by
  unfold roundHalfEven
  simp [Nat.mul_div_cancel _ positive, positive]

theorem le_roundHalfEven (positive : 0 < denominator) (reached : bound * denominator ≤ numerator) :
    bound ≤ roundHalfEven numerator denominator := by
  calc bound = roundHalfEven (bound * denominator) denominator := (roundHalfEven_mul positive).symm
    _ ≤ roundHalfEven numerator denominator := roundHalfEven_mono _ reached

theorem roundHalfEven_le (positive : 0 < denominator) (within : numerator ≤ bound * denominator) :
    roundHalfEven numerator denominator ≤ bound := by
  calc roundHalfEven numerator denominator
      ≤ roundHalfEven (bound * denominator) denominator := roundHalfEven_mono _ within
    _ = bound := roundHalfEven_mul positive

/-- Rounding depends on the quotient only. -/
theorem roundHalfEven_mul_right {scale : Nat} (positive : 0 < scale) :
    roundHalfEven (numerator * scale) (denominator * scale) =
      roundHalfEven numerator denominator := by
  unfold roundHalfEven
  simp only [Nat.mul_div_mul_right _ _ positive, Nat.mul_mod_mul_right, ← Nat.mul_assoc,
    Nat.mul_lt_mul_right positive]

end Integers

/-! ## The exponent -/

section Exponents

variable {numerator denominator : Nat} {exponent : Int}

/-- Powers with a negative exponent are moved to the other side. -/
theorem zpow_le_div_iff (positive : 0 < denominator) :
    denominator * 2 ^ exponent.toNat ≤ numerator * 2 ^ (-exponent).toNat ↔
      (2 : ℚ) ^ exponent ≤ numerator / denominator := by
  have isPositive : (0 : ℚ) < denominator := by exact_mod_cast positive
  rw [le_div_iff₀ isPositive]
  cases exponent with
  | ofNat power =>
      simp only [Int.ofNat_eq_natCast, Int.toNat_natCast, Int.toNat_neg_natCast, pow_zero, mul_one,
        zpow_natCast]
      rw [mul_comm]
      exact_mod_cast Iff.rfl
  | negSucc power =>
      have scaled : (2 : ℚ) ^ Int.negSucc power * denominator ≤ numerator ↔
          (denominator : ℚ) ≤ numerator * 2 ^ (power + 1) := by
        rw [zpow_negSucc, inv_mul_le_iff₀ (by positivity), mul_comm]
      rw [scaled]
      simp only [Int.toNat_negSucc, Int.neg_negSucc, pow_zero, mul_one]
      exact_mod_cast Iff.rfl

/-- The quotient lies within a factor of two of the quotient of the leading bits. -/
theorem log2_sub_log2_bounds (numerates : 0 < numerator) (denominates : 0 < denominator) :
    (2 : ℚ) ^ ((numerator.log2 : Int) - denominator.log2 - 1) ≤ numerator / denominator ∧
      (numerator : ℚ) / denominator < 2 ^ ((numerator.log2 : Int) - denominator.log2 + 1) := by
  have isDenominator : (0 : ℚ) < denominator := by exact_mod_cast denominates
  have lower : (2 : ℚ) ^ (numerator.log2 : Int) ≤ numerator := by
    exact_mod_cast Nat.log2_self_le numerates.ne'
  have upper : (numerator : ℚ) < 2 ^ (numerator.log2 + 1 : Int) := by
    exact_mod_cast Nat.lt_log2_self
  have lower' : (2 : ℚ) ^ (denominator.log2 : Int) ≤ denominator := by
    exact_mod_cast Nat.log2_self_le denominates.ne'
  have upper' : (denominator : ℚ) < 2 ^ (denominator.log2 + 1 : Int) := by
    exact_mod_cast Nat.lt_log2_self
  constructor
  · calc (2 : ℚ) ^ ((numerator.log2 : Int) - denominator.log2 - 1)
        = 2 ^ (numerator.log2 : Int) / 2 ^ (denominator.log2 + 1 : Int) := by
          rw [← zpow_sub₀ two_ne_zero]
          congr 1
          omega
      _ ≤ numerator / denominator := by
          exact div_le_div₀ (by positivity) lower isDenominator upper'.le
  · calc (numerator : ℚ) / denominator
        < 2 ^ (numerator.log2 + 1 : Int) / 2 ^ (denominator.log2 : Int) := by
          exact div_lt_div₀ upper lower' (zpow_nonneg zero_le_two _) (zpow_pos zero_lt_two _)
      _ = 2 ^ ((numerator.log2 : Int) - denominator.log2 + 1) := by
          rw [← zpow_sub₀ two_ne_zero]
          congr 1
          omega

theorem binaryExponent_eq_log (numerates : 0 < numerator) (denominates : 0 < denominator) :
    binaryExponent numerator denominator = Int.log 2 ((numerator : ℚ) / denominator) := by
  have isQuotient : (0 : ℚ) < numerator / denominator := by positivity
  obtain ⟨below, above⟩ := log2_sub_log2_bounds numerates denominates
  unfold binaryExponent
  simp only [zpow_le_div_iff denominates]
  split
  · rename_i reached
    refine le_antisymm ((Int.zpow_le_iff_le_log (by decide) isQuotient).mp reached) ?_
    exact Int.lt_add_one_iff.mp ((Int.lt_zpow_iff_log_lt (by decide) isQuotient).mp above)
  · rename_i missed
    refine le_antisymm ((Int.zpow_le_iff_le_log (by decide) isQuotient).mp below) ?_
    exact Int.le_sub_one_iff.mpr
      ((Int.lt_zpow_iff_log_lt (by decide) isQuotient).mp (not_le.mp missed))

end Exponents

/-! ## The nearest double -/

namespace Double

/-- The number that a double stands for. -/
def value (double : Double) : ℚ :=
  double.significand * 2 ^ double.exponent

/-- The significand uses all of its 53 bits. -/
structure IsNormal (double : Double) : Prop where
  lower : 2 ^ 52 ≤ double.significand
  upper : double.significand < 2 ^ 53

/-- A normal double is determined by its value. -/
theorem IsNormal.eq_of_value_eq {first second : Double} (firstNormal : first.IsNormal)
    (secondNormal : second.IsNormal) (same : first.value = second.value) : first = second := by
  have exponent_eq : ∀ {double : Double}, double.IsNormal →
      double.exponent = Int.log 2 double.value - 52 := by
    intro double normal
    have least : ((2 : ℚ) ^ 52) ≤ double.significand := by exact_mod_cast normal.lower
    have most : (double.significand : ℚ) < 2 ^ 53 := by exact_mod_cast normal.upper
    have lower : ((2 : ℕ) : ℚ) ^ (double.exponent + 52) ≤ double.value := by
      rw [Nat.cast_ofNat, add_comm, zpow_add₀ two_ne_zero]
      exact mul_le_mul_of_nonneg_right least (zpow_nonneg zero_le_two _)
    have upper : double.value < ((2 : ℕ) : ℚ) ^ (double.exponent + 53) := by
      rw [Nat.cast_ofNat, add_comm, zpow_add₀ two_ne_zero]
      exact mul_lt_mul_of_pos_right most (zpow_pos zero_lt_two _)
    have positive : 0 < double.value := (zpow_pos (by norm_num) _).trans_le lower
    have reached := (Int.zpow_le_iff_le_log (by decide) positive).mp lower
    have missed := (Int.lt_zpow_iff_log_lt (by decide) positive).mp upper
    omega
  have exponents : first.exponent = second.exponent := by
    rw [exponent_eq firstNormal, exponent_eq secondNormal, same]
  have significands : first.significand = second.significand := by
    have scaled := same
    rw [value, value, exponents] at scaled
    have unit : (2 : ℚ) ^ second.exponent ≠ 0 := zpow_ne_zero _ two_ne_zero
    exact_mod_cast mul_right_cancel₀ unit scaled
  cases first
  cases second
  simp only at exponents significands
  rw [exponents, significands]

section Nearest

variable {numerator denominator first second : Nat}

/-- The exponent of the last place of the nearest double. -/
def lastPlace (numerator denominator : Nat) : Int :=
  Int.log 2 ((numerator : ℚ) / denominator) - 52

/-- The quotient in units of the last place, rounded. -/
def places (numerator denominator : Nat) : Nat :=
  roundHalfEven (numerator * 2 ^ (-lastPlace numerator denominator).toNat)
    (denominator * 2 ^ (lastPlace numerator denominator).toNat)

theorem ofQuotient_eq (numerates : 0 < numerator) (denominates : 0 < denominator) :
    ofQuotient numerator denominator =
      if places numerator denominator = 2 ^ 53 then
        ⟨2 ^ 52, lastPlace numerator denominator + 1⟩
      else ⟨places numerator denominator, lastPlace numerator denominator⟩ := by
  unfold ofQuotient
  rw [if_neg numerates.ne', binaryExponent_eq_log numerates denominates]
  rfl

/-- Scaling both sides by powers of two divides the quotient by the unit of the last
place. -/
theorem scaled_div (numerator : Nat) (denominates : 0 < denominator) (exponent : Int) :
    ((numerator * 2 ^ (-exponent).toNat : ℕ) : ℚ) / (denominator * 2 ^ exponent.toNat : ℕ) =
      numerator / denominator / 2 ^ exponent := by
  have isDenominator : (denominator : ℚ) ≠ 0 := by exact_mod_cast denominates.ne'
  cases exponent with
  | ofNat power => simp [div_div]
  | negSucc power =>
      have negated : (-Int.negSucc power).toNat = power + 1 := rfl
      simp only [negated, Int.toNat_negSucc, pow_zero, mul_one, zpow_negSucc]
      push_cast
      field_simp

/-- The quotient, between two powers of two. -/
theorem lastPlace_bounds (numerates : 0 < numerator) (denominates : 0 < denominator) :
    (2 : ℚ) ^ 52 * 2 ^ lastPlace numerator denominator ≤ numerator / denominator ∧
      (numerator : ℚ) / denominator < 2 ^ 53 * 2 ^ lastPlace numerator denominator := by
  have isQuotient : (0 : ℚ) < numerator / denominator := by positivity
  have lower := Int.zpow_log_le_self (b := 2) (by decide) isQuotient
  have upper := Int.lt_zpow_succ_log_self (b := 2) (by decide) ((numerator : ℚ) / denominator)
  constructor
  · rw [← zpow_natCast, ← zpow_add₀ two_ne_zero, lastPlace]
    simpa using lower
  · rw [← zpow_natCast, ← zpow_add₀ two_ne_zero, lastPlace]
    have exponents : ((53 : ℕ) : Int) + (Int.log 2 ((numerator : ℚ) / denominator) - 52) =
        Int.log 2 ((numerator : ℚ) / denominator) + 1 := by
      omega
    rw [exponents]
    simpa using upper

theorem places_bounds (numerates : 0 < numerator) (denominates : 0 < denominator) :
    2 ^ 52 ≤ places numerator denominator ∧ places numerator denominator ≤ 2 ^ 53 := by
  obtain ⟨lower, upper⟩ := lastPlace_bounds numerates denominates
  have scaled := scaled_div numerator denominates (lastPlace numerator denominator)
  have unit : (0 : ℚ) < 2 ^ lastPlace numerator denominator := zpow_pos zero_lt_two _
  have positive : 0 < denominator * 2 ^ (lastPlace numerator denominator).toNat := by positivity
  rw [← le_div_iff₀ unit, ← scaled, le_div_iff₀ (by exact_mod_cast positive)] at lower
  rw [← div_lt_iff₀ unit, ← scaled, div_lt_iff₀ (by exact_mod_cast positive)] at upper
  constructor
  · exact le_roundHalfEven positive (by exact_mod_cast lower)
  · exact roundHalfEven_le positive (by exact_mod_cast upper.le)

theorem isNormal_ofQuotient (numerates : 0 < numerator) (denominates : 0 < denominator) :
    (ofQuotient numerator denominator).IsNormal := by
  obtain ⟨lower, upper⟩ := places_bounds numerates denominates
  rw [ofQuotient_eq numerates denominates]
  split
  · exact ⟨le_rfl, by norm_num⟩
  · rename_i small
    exact ⟨lower, lt_of_le_of_ne upper small⟩

theorem value_ofQuotient (numerates : 0 < numerator) (denominates : 0 < denominator) :
    (ofQuotient numerator denominator).value =
      places numerator denominator * 2 ^ lastPlace numerator denominator := by
  rw [ofQuotient_eq numerates denominates]
  split
  · rename_i carried
    rw [value, carried, zpow_add₀ two_ne_zero]
    norm_num
    ring
  · rfl

/-- A double is off by half a unit in the last place at most. -/
theorem abs_value_sub_le (numerates : 0 < numerator) (denominates : 0 < denominator) :
    |(ofQuotient numerator denominator).value - numerator / denominator| ≤
      1 / 2 * 2 ^ lastPlace numerator denominator := by
  have unit : (0 : ℚ) < 2 ^ lastPlace numerator denominator := zpow_pos zero_lt_two _
  have positive : 0 < denominator * 2 ^ (lastPlace numerator denominator).toNat := by positivity
  have rounded := abs_roundHalfEven_sub_le
    (numerator * 2 ^ (-lastPlace numerator denominator).toNat) positive
  rw [scaled_div numerator denominates, ← mul_le_mul_iff_left₀ unit, ← abs_of_pos unit, ← abs_mul,
    sub_mul, abs_of_pos unit, div_mul_cancel₀ _ unit.ne'] at rounded
  rw [value_ofQuotient numerates denominates]
  exact rounded

theorem value_bounds (numerates : 0 < numerator) (denominates : 0 < denominator) :
    2 ^ 52 * 2 ^ lastPlace numerator denominator ≤ (ofQuotient numerator denominator).value ∧
      (ofQuotient numerator denominator).value ≤ 2 ^ 53 * 2 ^ lastPlace numerator denominator := by
  obtain ⟨lower, upper⟩ := places_bounds numerates denominates
  have unit : (0 : ℚ) ≤ 2 ^ lastPlace numerator denominator := zpow_nonneg zero_le_two _
  rw [value_ofQuotient numerates denominates]
  constructor
  · exact mul_le_mul_of_nonneg_right (by exact_mod_cast lower) unit
  · exact mul_le_mul_of_nonneg_right (by exact_mod_cast upper) unit

theorem lastPlace_mono (numerates : 0 < first) (denominates : 0 < denominator)
    (ordered : first ≤ second) : lastPlace first denominator ≤ lastPlace second denominator := by
  have isQuotient : (0 : ℚ) < first / denominator := by positivity
  have quotients : (first : ℚ) / denominator ≤ second / denominator := by gcongr
  exact Int.sub_le_sub_right (Int.log_mono_right isQuotient quotients) 52

/-- Rounding keeps the order. -/
theorem value_mono (numerates : 0 < first) (denominates : 0 < denominator)
    (ordered : first ≤ second) :
    (ofQuotient first denominator).value ≤ (ofQuotient second denominator).value := by
  have numerates' : 0 < second := numerates.trans_le ordered
  rcases (lastPlace_mono numerates denominates ordered).eq_or_lt with same | smaller
  · rw [value_ofQuotient numerates denominates, value_ofQuotient numerates' denominates,
      places, places, same]
    have integers := roundHalfEven_mono
      (denominator * 2 ^ (lastPlace second denominator).toNat)
      (Nat.mul_le_mul_right (2 ^ (-lastPlace second denominator).toNat) ordered)
    exact mul_le_mul_of_nonneg_right (by exact_mod_cast integers) (zpow_nonneg zero_le_two _)
  · calc (ofQuotient first denominator).value
        ≤ 2 ^ 53 * 2 ^ lastPlace first denominator := (value_bounds numerates denominates).2
      _ = 2 ^ 52 * 2 ^ (lastPlace first denominator + 1) := by
          rw [zpow_add₀ two_ne_zero]
          ring
      _ ≤ 2 ^ 52 * 2 ^ lastPlace second denominator := by
          have units := zpow_le_zpow_right₀ (one_le_two (α := ℚ)) (Int.add_one_le_of_lt smaller)
          exact mul_le_mul_of_nonneg_left units (by norm_num)
      _ ≤ (ofQuotient second denominator).value := (value_bounds numerates' denominates).1

/-- The quotients of one double lie next to each other. -/
theorem ofQuotient_eq_of_between {between : Nat} (numerates : 0 < first)
    (denominates : 0 < denominator) (above : first ≤ between) (below : between ≤ second)
    (same : ofQuotient first denominator = ofQuotient second denominator) :
    ofQuotient first denominator = ofQuotient between denominator := by
  have numerates' : 0 < between := numerates.trans_le above
  refine (isNormal_ofQuotient numerates denominates).eq_of_value_eq
    (isNormal_ofQuotient numerates' denominates) (le_antisymm ?_ ?_)
  · exact value_mono numerates denominates above
  · rw [same]
    exact value_mono numerates' denominates below

/-- Quotients that are further apart than the unit of the last place have different
doubles. -/
theorem ofQuotient_ne_of_lt (numerates : 0 < first) (denominates : 0 < denominator)
    (ordered : first ≤ second)
    (apart : 2 ^ lastPlace second denominator < ((second : ℚ) - first) / denominator) :
    ofQuotient first denominator ≠ ofQuotient second denominator := by
  intro same
  have numerates' : 0 < second := numerates.trans_le ordered
  have lower := abs_le.mp (abs_value_sub_le numerates denominates)
  have upper := abs_le.mp (abs_value_sub_le numerates' denominates)
  have units := zpow_le_zpow_right₀ (one_le_two (α := ℚ))
    (lastPlace_mono numerates denominates ordered)
  rw [same] at lower
  rw [sub_div] at apart
  linarith [lower.1, lower.2, upper.1, upper.2]

/-- A double depends on the quotient only. -/
theorem ofQuotient_mul_right {scale : Nat} (denominates : 0 < denominator)
    (positive : 0 < scale) :
    ofQuotient (numerator * scale) (denominator * scale) = ofQuotient numerator denominator := by
  rcases Nat.eq_zero_or_pos numerator with rfl | numerates
  · rw [Nat.zero_mul]
    rfl
  have isScale : (scale : ℚ) ≠ 0 := by exact_mod_cast positive.ne'
  have sameLast : lastPlace (numerator * scale) (denominator * scale) =
      lastPlace numerator denominator := by
    simp only [lastPlace, Nat.cast_mul, mul_div_mul_right _ _ isScale]
  have samePlaces : places (numerator * scale) (denominator * scale) =
      places numerator denominator := by
    rw [places, sameLast, Nat.mul_right_comm, Nat.mul_right_comm denominator,
      roundHalfEven_mul_right positive]
    rfl
  rw [ofQuotient_eq (Nat.mul_pos numerates positive) (Nat.mul_pos denominates positive),
    ofQuotient_eq numerates denominates, sameLast, samePlaces]

/-- Zero is the double of no positive quotient. -/
theorem ofQuotient_ne_zero (numerates : 0 < numerator) (denominates : 0 < denominator) :
    ofQuotient numerator denominator ≠ ofQuotient 0 denominator := by
  intro same
  have lower := (isNormal_ofQuotient numerates denominates).lower
  have vanishes : (ofQuotient 0 denominator).significand = 0 := rfl
  rw [same, vanishes] at lower
  norm_num at lower

end Nearest

end Double

end Text

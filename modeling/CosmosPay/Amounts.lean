import CosmosPay.Text.Decimal
import CosmosPay.Verdicts

/-!
# The amount check

Amounts are compared as doubles.  Below `2 ^ 29` units of an asset neighbouring amounts
have different doubles; from there on some amounts share theirs with a neighbour, and the
check takes these for one another.
-/

namespace CosmosPay

open StellarVerifier

/-- The smallest amount is `10 ^ -7` of a unit. -/
def stroops (text : String) : Option Nat :=
  Text.units 7 text

/-- How Horizon renders an amount. -/
def amountOf (count : Nat) : String :=
  Text.fixed 7 count

/-- The largest amount on the chain. -/
def maxStroops : Nat := 2 ^ 63 - 1

@[simp]
theorem stroops_amountOf (count : Nat) : stroops (amountOf count) = some count :=
  Text.units_fixed (by decide)

theorem isAmount_iff {text : String} : IsAmount text ↔ (stroops text).isSome = true := by
  constructor
  · rintro ⟨digits, places, isDecimal, few⟩
    simp [stroops, Text.units, isDecimal, few]
  · intro counted
    obtain ⟨count, isCount⟩ := Option.isSome_iff_exists.mp counted
    obtain ⟨⟨digits, places⟩, isDecimal, counts⟩ := Option.bind_eq_some_iff.mp isCount
    refine ⟨digits, places, isDecimal, ?_⟩
    by_contra many
    simp only [many, if_false] at counts
    cases counts

/-- The double that a number of stroops is compared as. -/
def nearest (count : Nat) : Text.Double :=
  .ofQuotient count (10 ^ 7)

/-- No neighbour that is an amount on the chain has the double of this count of stroops: not
the next count on either side, and for counts beyond the largest amount, not that one. -/
def Distinguishable (count : Nat) : Prop :=
  ∀ other ∈ [count - 1, count + 1, maxStroops], 1 ≤ other → other ≤ maxStroops → other ≠ count →
    nearest other ≠ nearest count

instance (count : Nat) : Decidable (Distinguishable count) :=
  List.decidableBAll _ _

section Neighbours

variable {count other : Nat}

theorem nearest_eq_of_between {lower upper : Nat} (positive : 1 ≤ lower)
    (above : lower ≤ count) (below : count ≤ upper) (same : nearest lower = nearest upper) :
    nearest lower = nearest count :=
  Text.Double.ofQuotient_eq_of_between positive (by decide) above below same

/-- Where the neighbours differ, all amounts differ. -/
theorem Distinguishable.eq_of_nearest_eq (distinguishable : Distinguishable count)
    (positive : 1 ≤ other) (within : other ≤ maxStroops) (same : nearest other = nearest count) :
    other = count := by
  by_contra different
  rcases Nat.lt_or_gt_of_ne different with below | above
  · by_cases huge : maxStroops < count
    · exact distinguishable maxStroops (by simp) (by decide) le_rfl huge.ne
        ((nearest_eq_of_between positive within huge.le same).symm.trans same)
    · exact distinguishable (count - 1) (by simp) (by omega) (by omega) (by omega)
        ((nearest_eq_of_between positive (by omega) (by omega) same).symm.trans same)
  · rcases Nat.eq_zero_or_pos count with rfl | counted
    · exact Text.Double.ofQuotient_ne_zero positive (by decide) same
    · exact distinguishable (count + 1) (by simp) (by omega) (by omega) (by omega)
        (nearest_eq_of_between counted (by omega) above same.symm).symm

/-- Below `2 ^ 29` units the doubles are closer together than stroops. -/
theorem nearest_ne_succ (positive : 1 ≤ count) (small : count + 1 < 2 ^ 29 * 10 ^ 7) :
    nearest count ≠ nearest (count + 1) := by
  refine Text.Double.ofQuotient_ne_of_lt positive (by decide) (Nat.le_succ count) ?_
  have quotient : ((count + 1 : ℕ) : ℚ) / (10 ^ 7 : ℕ) < ((2 : ℕ) : ℚ) ^ (29 : Int) := by
    rw [div_lt_iff₀ (by norm_num)]
    exact_mod_cast small
  have exponent := (Int.lt_zpow_iff_log_lt (by decide) (by positivity)).mp quotient
  calc (2 : ℚ) ^ Text.Double.lastPlace (count + 1) (10 ^ 7)
      ≤ 2 ^ (-24 : Int) := by
        refine zpow_le_zpow_right₀ one_le_two ?_
        rw [Text.Double.lastPlace]
        omega
    _ < (((count + 1 : ℕ) : ℚ) - count) / (10 ^ 7 : ℕ) := by
        push_cast
        norm_num

theorem distinguishable_of_small (small : count + 1 < 2 ^ 29 * 10 ^ 7) :
    Distinguishable count := by
  have upper : 1 ≤ count → nearest (count + 1) ≠ nearest count := fun positive =>
    (nearest_ne_succ positive small).symm
  intro other member positive within different same
  rcases Nat.eq_zero_or_pos count with rfl | counted
  · exact Text.Double.ofQuotient_ne_zero positive (by decide) same
  · rcases Nat.lt_or_gt_of_ne different with below | above
    · have next : nearest (count - 1) ≠ nearest count := by
        have successor : nearest (count - 1) ≠ nearest (count - 1 + 1) :=
          nearest_ne_succ (by omega) (by omega)
        rwa [Nat.sub_add_cancel counted] at successor
      exact next
        ((nearest_eq_of_between positive (by omega) (by omega) same).symm.trans same)
    · exact upper counted (nearest_eq_of_between counted (by omega) above same.symm).symm

end Neighbours

example : Distinguishable 255000000 := by decide +kernel
example : ¬ Distinguishable 50000000000000000 := by decide +kernel

/-- A payment of the sample intent. -/
def Sample.record : OperationRecord :=
  ⟨"payment", hash '1', payer, destination, "native", none, none, "25.5000000"⟩

section Check

variable {intent : PaymentIntent} {op : OperationRecord} {amount : String} {count : Nat}

/-- Only the last check looks at the amounts. -/
theorem paymentMatches_amount (fixed : intent.amount = some amount) (shown : String)
    (otherwise : paymentMatches { intent with amount := none } op = true) :
    paymentMatches intent { op with amount := shown } = true ↔
      Text.sameNumber (Text.number shown) (Text.number amount) = true := by
  obtain ⟨isPayment, destination, asset, -⟩ := paymentMatches_iff.mp otherwise
  rw [paymentMatches_iff]
  constructor
  · rintro ⟨-, -, -, amounts⟩
    exact amounts amount fixed
  · intro same
    refine ⟨isPayment, destination, asset, fun other isAmount => ?_⟩
    obtain rfl := Option.some.inj (fixed.symm.trans isAmount)
    exact same

/-- For a payment that matches otherwise, the check tells the amount of the intent from all
other amounts exactly when it tells it from its neighbours. -/
theorem amount_exact (fixed : intent.amount = some amount) (counted : stroops amount = some count)
    (otherwise : paymentMatches { intent with amount := none } op = true) :
    (∀ shown, 1 ≤ shown → shown ≤ maxStroops →
      (paymentMatches intent { op with amount := amountOf shown } = true ↔
        stroops (amountOf shown) = stroops amount)) ↔
      Distinguishable count := by
  have accepts : ∀ shown, paymentMatches intent { op with amount := amountOf shown } = true ↔
      nearest shown = nearest count := by
    intro shown
    rw [paymentMatches_amount fixed (amountOf shown) otherwise]
    exact Text.sameNumber_iff (stroops_amountOf shown) counted
  have denotes : ∀ shown, stroops (amountOf shown) = stroops amount ↔ shown = count := by
    intro shown
    rw [stroops_amountOf, counted, Option.some_inj]
  constructor
  · intro exactly other member positive within different same
    exact different ((denotes other).mp ((exactly other positive within).mp
      ((accepts other).mpr same)))
  · intro distinguishable shown positive within
    rw [accepts, denotes]
    constructor
    · exact distinguishable.eq_of_nearest_eq positive within
    · rintro rfl
      rfl

theorem amount_exact_of_small :
    (∀ shown, 1 ≤ shown → shown ≤ maxStroops →
      (paymentMatches Sample.intent { Sample.record with amount := amountOf shown } = true ↔
        stroops (amountOf shown) = stroops "25.5")) ↔
      Distinguishable 255000000 :=
  amount_exact rfl (by decide +kernel) (by decide +kernel)

/-- In general the check takes an amount for a neighbour of it: here a payment falls short of
the amount by one stroop. -/
theorem not_amount_exact :
    ¬ ∀ (intent : PaymentIntent) (op : OperationRecord) (amount : String) (shown : Nat),
      intent.amount = some amount → IsAmount amount →
      paymentMatches { intent with amount := none } op = true →
      1 ≤ shown → shown ≤ maxStroops →
      (paymentMatches intent { op with amount := amountOf shown } = true ↔
        stroops (amountOf shown) = stroops amount) := by
  intro exactly
  have accepted := exactly { Sample.intent with amount := some "5000000000" } Sample.record
    "5000000000" 49999999999999999 rfl (isAmount_iff.mpr (by decide +kernel)) (by decide +kernel)
    (by decide) (by decide)
  revert accepted
  decide +kernel

end Check

end CosmosPay

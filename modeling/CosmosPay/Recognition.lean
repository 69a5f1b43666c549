import CosmosPay.Amounts
import CosmosPay.Memos

/-!
# Ways of paying

The wallet may deliver what an intent asks for by a direct payment or by a path payment,
from whatever asset it holds.  The verifier recognises direct payments only.
-/

namespace CosmosPay

open Awaiting Tables StellarVerifier

/-- The operation delivers what the intent asks for to its destination. -/
structure Operation.Delivers (operation : Operation) (intent : PaymentIntent) : Prop where
  isPayment : operation.type ∈
    ["payment", "path_payment_strict_send", "path_payment_strict_receive"]
  destination : operation.toAccount = intent.destination
  asset : (intent.asset = "native" ∧ operation.assetType = "native") ∨
    (intent.asset ≠ "native" ∧ operation.assetCode = some intent.asset ∧
      operation.assetIssuer ≠ none ∧ operation.assetIssuer = intent.assetIssuer)
  amount : ∀ amount, intent.amount = some amount →
    ∃ count, stroops operation.amount = some count ∧ stroops amount = some count

/-- The transaction pays a PAY intent, in one of the ways that a wallet may choose. -/
structure WalletPayment (world : World) (intent : PaymentIntent) (hash : String)
    (tx : Transaction) : Prop where
  kind : intent.kind = .pay
  memo : Text.Canonical intent.memo
  bounded : Text.numeralValue intent.memo ≤ PaymentIntents.maxMemoId
  landed : world.ledger.find? (intent.network, hash) = some tx
  successful : tx.successful = true
  few : tx.operations.length ≤ 10
  carried : tx.memo = chainMemo intent.memo
  delivered : ∃ operation ∈ tx.operations, operation.Delivers intent

section Recognition

variable {world : World} {intent : PaymentIntent} {hash : String} {tx : Transaction}

/-- A direct payment that delivers what the intent asks for passes the verifier. -/
theorem Operation.Delivers.pays {operation : Operation} (delivers : operation.Delivers intent)
    (direct : operation.type = "payment") : operation.Pays intent := by
  refine ⟨direct, delivers.destination, delivers.asset, fun amount isAmount => ?_⟩
  obtain ⟨count, shown, asked⟩ := delivers.amount amount isAmount
  exact (Text.sameNumber_iff shown asked).mpr rfl

/-- A transaction with the memo of the intent passes `memoMatches`. -/
theorem accepted_of_memo (memo : Text.Canonical intent.memo)
    (bounded : Text.numeralValue intent.memo ≤ PaymentIntents.maxMemoId)
    (successful : tx.successful = true) (carried : tx.memo = chainMemo intent.memo) :
    tx.Accepted intent := by
  refine ⟨successful, ?_⟩
  rw [carried, render_chainMemo ⟨memo.1, bounded⟩,
    (Text.repr_numeralValue_iff memo.1).mpr memo]
  simp [memoMatches, chainMemo, Memo.type]

theorem length_payments_le : tx.payments.length ≤ tx.operations.length := by
  rw [Transaction.payments, List.length_map]
  exact List.length_filter_le _ _

/-- Of an accepted transaction of at most ten operations, `verifyByHash` sees every payment. -/
theorem judge_valid_iff (accepted : tx.Accepted intent) (few : tx.operations.length ≤ 10) :
    (judge intent tx).valid = true ↔ ∃ operation ∈ tx.operations, operation.Pays intent := by
  have whole : tx.payments.take 10 = tx.payments :=
    List.take_of_length_le (length_payments_le.trans few)
  constructor
  · intro valid
    cases first : (tx.payments.take 10).find? (paymentMatches intent) with
    | none =>
        rw [judge_of_none accepted first] at valid
        cases valid
    | some payment =>
        exact pays_of_paymentMatches (List.mem_of_mem_take (List.mem_of_find?_eq_some first))
          (List.find?_some first)
  · rintro ⟨operation, member, pays⟩
    obtain ⟨op, listed, matching⟩ := paymentMatches_of_pays member pays
    cases first : (tx.payments.take 10).find? (paymentMatches intent) with
    | none =>
        rw [whole, List.find?_eq_none] at first
        exact absurd matching (first op listed)
    | some payment => rw [judge_of_some accepted first]

/-- A wallet's payment is recognised exactly when one of its operations is a direct payment of
the intent. -/
theorem recognised_iff_direct (payment : WalletPayment world intent hash tx) :
    (∃ result, world.verdict (verifyByHash intent hash) = .ok result ∧ result.valid = true) ↔
      ∃ operation ∈ tx.operations, operation.Pays intent := by
  have accepted := accepted_of_memo payment.memo payment.bounded payment.successful payment.carried
  rw [← judge_valid_iff accepted payment.few, verdict_of_landed payment.landed]
  constructor
  · rintro ⟨result, isResult, valid⟩
    obtain rfl := Except.ok.inj isResult
    exact valid
  · exact fun valid => ⟨_, rfl, valid⟩

theorem Sample.delivers {type : String}
    (isPayment : type ∈ ["payment", "path_payment_strict_send", "path_payment_strict_receive"]) :
    Operation.Delivers ⟨type, payer, destination, "native", none, none, "25.5000000"⟩
      Sample.intent := by
  have shown : stroops "25.5000000" = some 255000000 := by decide +kernel
  refine ⟨isPayment, rfl, .inl ⟨rfl, rfl⟩, fun amount isAmount => ?_⟩
  obtain rfl := Option.some.inj isAmount
  exact ⟨255000000, shown, by decide +kernel⟩

theorem recognised_iff_direct_of_payment :
    (∃ result, Sample.world.verdict (verifyByHash Sample.intent (Sample.hash '1')) = .ok result ∧
        result.valid = true) ↔
      ∃ operation ∈ (Sample.payment '1' true 7).operations, operation.Pays Sample.intent :=
  recognised_iff_direct {
    kind := rfl
    memo := by decide
    bounded := by decide
    landed := by decide +kernel
    successful := rfl
    few := by decide
    carried := rfl
    delivered := ⟨_, List.mem_singleton_self _, Sample.delivers (by decide)⟩ }

/-- The wallet pays from another asset than the one it delivers. -/
def pathPayment : Transaction :=
  { Sample.payment '4' true 7 with
    operations := [⟨"path_payment_strict_receive", Sample.payer, Sample.destination, "native", none,
      none, "25.5000000"⟩] }

def pathWorld : World :=
  { Sample.world with ledger := ⟨[pathPayment], by decide⟩ }

/-- A path payment that delivers the exact amount is not recognised. -/
theorem not_recognised :
    ¬ ∀ (world : World) (intent : PaymentIntent) (hash : String) (tx : Transaction),
      WalletPayment world intent hash tx →
      ∃ result, world.verdict (verifyByHash intent hash) = .ok result ∧ result.valid = true := by
  intro recognised
  obtain ⟨result, isResult, valid⟩ :=
    recognised pathWorld Sample.intent (Sample.hash '4') pathPayment {
      kind := rfl
      memo := by decide
      bounded := by decide
      landed := by decide +kernel
      successful := rfl
      few := by decide
      carried := rfl
      delivered := ⟨_, List.mem_singleton_self _, Sample.delivers (by decide)⟩ }
  have missed : pathWorld.verdict (verifyByHash Sample.intent (Sample.hash '4')) =
      .ok { valid := false,
            reason := "No native payment in this transaction matches the destination/amount" } := by
    rw [verdict_verifyByHash]
    decide +kernel
  obtain rfl := Except.ok.inj (isResult.symm.trans missed)
  cases valid

end Recognition

end CosmosPay

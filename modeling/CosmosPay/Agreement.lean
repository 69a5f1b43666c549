import CosmosPay.Verdicts
import Mathlib.Data.List.Find

/-!
# Manual and automatic verification

`findMatchingPayment` reports the last matching payment of the newest fulfilling
transaction, `verifyByHash` the first one on the first page of a transaction.  They agree
exactly where both payments are made by one account and the page reaches far enough.
-/

namespace CosmosPay

open Awaiting Tables StellarVerifier

section Agreement

variable {world : World} {intent : PaymentIntent} {hash : String}

theorem paymentMatches_of_fulfils {op : OperationRecord}
    (accepted : fulfils world intent op = true) : paymentMatches intent op = true := by
  simp only [fulfils, Bool.and_eq_true] at accepted
  exact accepted.1

/-- The scan finds the last matching payment of an accepted transaction. -/
theorem exists_tx_of_detected {limit : Nat} {op : OperationRecord}
    (detected : ((world.recordsOf intent.network intent.destination).reverse.take limit).find?
      (fulfils world intent) = some op) :
    ∃ tx, world.ledger.find? (intent.network, op.transactionHash) = some tx ∧
      tx.Accepted intent ∧ tx.payments.reverse.find? (paymentMatches intent) = some op := by
  have inAll := (List.take_prefix limit _).find?_eq_some detected
  -- the records of other accounts do not match anyway
  have inNetwork : (world.paymentsOn intent.network).reverse.find? (fulfils world intent) =
      some op := by
    rw [← inAll, World.recordsOf, ← List.filter_reverse, List.find?_filter]
    refine List.find?_congr fun other _ => ?_
    cases accepted : fulfils world intent other with
    | false => simp
    | true =>
        have toDestination := (paymentMatches_iff.mp (paymentMatches_of_fulfils accepted)).2.1
        simp [toDestination]
  rw [World.paymentsOn, List.reverse_flatMap, List.find?_flatMap] at inNetwork
  obtain ⟨tx, isRow, inTx⟩ := List.exists_of_findSome?_eq_some inNetwork
  obtain ⟨present, kept⟩ := List.mem_filter.mp (List.mem_reverse.mp isRow)
  obtain ⟨isNetwork, -⟩ := of_decide_eq_true kept
  have found : world.ledger.find? (intent.network, tx.hash) = some tx := by
    rw [← isNetwork]
    exact Table.find?_key present
  have listed : op ∈ tx.payments := List.mem_reverse.mp (List.mem_of_find?_eq_some inTx)
  have accepted : tx.Accepted intent := by
    have holds := List.find?_some inTx
    rw [fulfils, Transaction.transactionHash_of_mem listed, found] at holds
    simpa using (Bool.and_eq_true_iff.mp holds).2
  refine ⟨tx, by rw [Transaction.transactionHash_of_mem listed, found], accepted, ?_⟩
  rw [← inTx]
  refine List.find?_congr fun other member => ?_
  have isHash := Transaction.transactionHash_of_mem (List.mem_reverse.mp member)
  simp [fulfils, isHash, found, accepted]

/-- The first ten payment operations of the transaction contain a payment of the intent, and
the first one comes from the same account as the last one of the transaction. -/
def Transaction.PaidByOne (tx : Transaction) (intent : PaymentIntent) : Prop :=
  ∃ first last, (tx.payments.take 10).find? (paymentMatches intent) = some first ∧
    tx.payments.reverse.find? (paymentMatches intent) = some last ∧
    first.fromAccount = last.fromAccount

/-- Whatever payment the scan reports, `verifyByHash` confirms its hash with the same payer
exactly when one account has made the first and the last payment of the intent in that
transaction, the first one among its first ten payment operations. -/
theorem verifications_agree {result : VerificationResult}
    (found : world.verdict (findMatchingPayment intent) = .ok result)
    (valid : result.valid = true) (hashed : result.txHash = some hash) :
    (∃ manual, world.verdict (verifyByHash intent hash) = .ok manual ∧ manual.valid = true ∧
        manual.txHash = some hash ∧ manual.payer = result.payer) ↔
      ∃ tx, world.ledger.find? (intent.network, hash) = some tx ∧ tx.PaidByOne intent := by
  obtain ⟨-, op, detected, rfl⟩ := exists_record_of_detected found valid
  obtain rfl : op.transactionHash = hash := Option.some.inj hashed
  obtain ⟨tx, isTx, accepted, last⟩ := exists_tx_of_detected detected
  have isHash : tx.hash = op.transactionHash := congrArg Prod.snd (Table.key_of_find? isTx)
  rw [verdict_of_landed isTx]
  constructor
  · rintro ⟨manual, isManual, isValid, -, samePayer⟩
    obtain rfl := Except.ok.inj isManual
    cases first : (tx.payments.take 10).find? (paymentMatches intent) with
    | none =>
        rw [judge_of_none accepted first] at isValid
        cases isValid
    | some payment =>
        rw [judge_of_some accepted first] at samePayer
        exact ⟨tx, isTx, payment, op, first, last, Option.some.inj samePayer⟩
  · rintro ⟨other, isOther, payment, final, first, isFinal, samePayer⟩
    obtain rfl := Option.some.inj (isTx.symm.trans isOther)
    obtain rfl := Option.some.inj (last.symm.trans isFinal)
    refine ⟨_, rfl, ?_⟩
    rw [judge_of_some accepted first]
    exact ⟨rfl, by rw [isHash], by rw [samePayer, detection]⟩

theorem verifications_agree_of_payment :
    (∃ manual, Sample.world.verdict (verifyByHash Sample.intent (Sample.hash '1')) = .ok manual ∧
        manual.valid = true ∧ manual.txHash = some (Sample.hash '1') ∧
        manual.payer = some Sample.payer) ↔
      ∃ tx, Sample.world.ledger.find? (.testnet, Sample.hash '1') = some tx ∧
        tx.PaidByOne Sample.intent := by
  have found : Sample.world.verdict (findMatchingPayment Sample.intent) =
      .ok { valid := true, txHash := Sample.hash '1', payer := Sample.payer } := by
    rw [verdict_findMatchingPayment]
    decide +kernel
  exact verifications_agree found rfl rfl

/-- Two accounts pay the intent in one transaction. -/
def sharedPayment : Transaction :=
  { Sample.payment '3' true 7 with
    operations :=
      [⟨"payment", Sample.payer, Sample.destination, "native", none, none, "25.5000000"⟩,
        ⟨"payment", "GB", Sample.destination, "native", none, none, "25.5000000"⟩] }

def sharedWorld : World :=
  { Sample.world with ledger := ⟨[sharedPayment], by decide⟩ }

/-- In general `verifyByHash` names another payer than the scan. -/
theorem not_verifications_agree :
    ¬ ∀ (world : World) (intent : PaymentIntent) (result : VerificationResult) (hash : String),
      world.verdict (findMatchingPayment intent) = .ok result → result.valid = true →
      result.txHash = some hash →
      ∃ manual, world.verdict (verifyByHash intent hash) = .ok manual ∧ manual.valid = true ∧
        manual.txHash = some hash ∧ manual.payer = result.payer := by
  intro agree
  have found : sharedWorld.verdict (findMatchingPayment Sample.intent) =
      .ok { valid := true, txHash := Sample.hash '3', payer := "GB" } := by
    rw [verdict_findMatchingPayment]
    decide +kernel
  have confirmed : sharedWorld.verdict (verifyByHash Sample.intent (Sample.hash '3')) =
      .ok { valid := true, txHash := Sample.hash '3', payer := Sample.payer } := by
    rw [verdict_verifyByHash]
    decide +kernel
  obtain ⟨manual, isManual, -, -, samePayer⟩ :=
    agree sharedWorld Sample.intent _ (Sample.hash '3') found rfl rfl
  obtain rfl := Except.ok.inj (isManual.symm.trans confirmed)
  revert samePayer
  decide

end Agreement

end CosmosPay

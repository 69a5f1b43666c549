import CosmosPay.Unrelated
import CosmosPay.Verdicts
import Mathlib.Data.List.Find

/-!
# Detection under traffic

The scan looks at the newest fifty payment records of the destination.  Records of other
payments that arrive later do not mislead it, but each of them pushes the payment that it
has detected one place further down the page.
-/

namespace CosmosPay

open Awaiting Tables StellarVerifier

/-- In a prefix of a list one finds what comes first in the list, if it lies in the prefix. -/
theorem find?_take {α : Type} (keep : α → Bool) (items : List α) (limit : Nat) :
    (items.take limit).find? keep =
      if items.findIdx keep < limit then items.find? keep else none := by
  induction items generalizing limit with
  | nil => simp only [List.take_nil, List.find?_nil, ite_self]
  | cons item items ih =>
      cases limit with
      | zero => simp
      | succ limit =>
          rw [List.take_succ_cons, List.findIdx_cons]
          cases kept : keep item with
          | true => simp [kept]
          | false => simp [kept, ih]

/-- The payment operations of the transactions that an account takes part in. -/
def recordsAmong (txs : List Transaction) (network : StellarNetwork) (id : String) :
    List OperationRecord :=
  ((txs.filter fun tx => tx.network = network ∧ tx.successful).flatMap
    Transaction.payments).filter fun payment => payment.fromAccount = id ∨ payment.toAccount = id

section Detection

variable {world later : World} {intent : PaymentIntent}

/-- How many payment records of the destination are newer than the one that is detected. -/
def World.buried (world : World) (intent : PaymentIntent) : Nat :=
  (world.recordsOf intent.network intent.destination).reverse.findIdx (fulfils world intent)

/-- The later chain has the transactions on top, and has closed no account. -/
structure World.Continues (world later : World) (txs : List Transaction) : Prop where
  ledger : later.ledger.rows = world.ledger.rows ++ txs
  accounts : ∀ network id, (world.account? network id).isSome = true →
    (later.account? network id).isSome = true

variable {txs : List Transaction}

theorem recordsOf_of_continues (continues : world.Continues later txs) (network : StellarNetwork)
    (id : String) :
    later.recordsOf network id = world.recordsOf network id ++ recordsAmong txs network id := by
  simp only [World.recordsOf, World.paymentsOn, continues.ledger, recordsAmong,
    List.filter_append, List.flatMap_append]

theorem landed_of_continues (continues : world.Continues later txs)
    {key : StellarNetwork × String} {tx : Transaction}
    (found : world.ledger.find? key = some tx) : later.ledger.find? key = some tx := by
  obtain ⟨member, isKey⟩ := Table.find?_eq_some_iff.mp found
  refine Table.find?_eq_some_iff.mpr ⟨?_, isKey⟩
  rw [continues.ledger]
  exact List.mem_append_left txs member

/-- What was fulfilling still is, and what was not is not. -/
theorem fulfils_of_continues (continues : world.Continues later txs) {op : OperationRecord}
    (listed : op ∈ world.recordsOf intent.network intent.destination) :
    fulfils later intent op = fulfils world intent op := by
  obtain ⟨tx, found, -⟩ := exists_tx_of_paymentsOn (List.mem_of_mem_filter listed)
  rw [fulfils, fulfils, found, landed_of_continues continues found]

/-- A payment under another memo does not fulfil the intent. -/
theorem fulfils_of_unrelated (continues : world.Continues later txs)
    (unrelated : ∀ tx ∈ txs, tx.network = intent.network →
      recordsAmong [tx] intent.network intent.destination ≠ [] → tx.Unrelated intent)
    {op : OperationRecord}
    (listed : op ∈ recordsAmong txs intent.network intent.destination) :
    fulfils later intent op = false := by
  obtain ⟨inTxs, concerns⟩ := List.mem_filter.mp listed
  obtain ⟨tx, kept, inTx⟩ := List.mem_flatMap.mp inTxs
  obtain ⟨member, isOn⟩ := List.mem_filter.mp kept
  obtain ⟨isNetwork, successful⟩ := of_decide_eq_true isOn
  have own : op ∈ recordsAmong [tx] intent.network intent.destination := by
    refine List.mem_filter.mpr ⟨List.mem_flatMap.mpr ⟨tx, ?_, inTx⟩, concerns⟩
    exact List.mem_filter.mpr ⟨List.mem_singleton.mpr rfl, isOn⟩
  have other := unrelated tx member isNetwork (List.ne_nil_of_mem own)
  have landed : later.ledger.find? (intent.network, op.transactionHash) = some tx := by
    rw [Transaction.transactionHash_of_mem inTx, ← isNetwork]
    refine Table.find?_key ?_
    rw [continues.ledger]
    exact List.mem_append_right world.ledger.rows member
  rw [Bool.eq_false_iff]
  intro accepted
  rw [fulfils, landed, Bool.and_eq_true] at accepted
  obtain ⟨isId, rendered⟩ := memo_of_memoMatches (of_decide_eq_true accepted.2).2
  exact other.elim (absurd isId) (absurd rendered)

/-- A payment that was detected is still detected, as the same payment of the same payer,
after any number of payments with other memos, exactly as long as it stands among the fifty
newest records of the destination. -/
theorem detection_stable (continues : world.Continues later txs)
    (unrelated : ∀ tx ∈ txs, tx.network = intent.network →
      recordsAmong [tx] intent.network intent.destination ≠ [] → tx.Unrelated intent)
    {result : VerificationResult}
    (found : world.verdict (findMatchingPayment intent) = .ok result)
    (valid : result.valid = true) :
    later.verdict (findMatchingPayment intent) = .ok result ↔
      world.buried intent +
        (recordsAmong txs intent.network intent.destination).length < 50 := by
  obtain ⟨exists_account, op, detected, rfl⟩ := exists_record_of_detected found valid
  obtain ⟨account, isAccount⟩ :=
    Option.isSome_iff_exists.mp (continues.accounts _ _ exists_account)
  rw [find?_take] at detected
  split at detected
  · -- the scan of the later chain passes the new records and goes on with the old ones
    have scanned : ((later.recordsOf intent.network intent.destination).reverse.take 50).find?
        (fulfils later intent) =
          if world.buried intent +
            (recordsAmong txs intent.network intent.destination).length < 50
          then some op else none := by
      have fresh : ((recordsAmong txs intent.network intent.destination).reverse.take 50).find?
          (fulfils later intent) = none := by
        refine List.find?_eq_none.mpr fun record member => ?_
        have listed := List.mem_reverse.mp (List.mem_of_mem_take member)
        simp [fulfils_of_unrelated continues unrelated listed]
      have old : ∀ limit, ((world.recordsOf intent.network intent.destination).reverse.take
          limit).find? (fulfils later intent) =
            ((world.recordsOf intent.network intent.destination).reverse.take limit).find?
              (fulfils world intent) := by
        intro limit
        refine List.find?_congr fun record member => ?_
        exact fulfils_of_continues continues (List.mem_reverse.mp (List.mem_of_mem_take member))
      rw [recordsOf_of_continues continues, List.reverse_append, List.take_append,
        List.find?_append, fresh, Option.none_or, old, find?_take, detected, List.length_reverse]
      by_cases stands : world.buried intent +
          (recordsAmong txs intent.network intent.destination).length < 50
      · rw [if_pos stands]
        exact if_pos (Nat.lt_sub_iff_add_lt.mpr stands)
      · rw [if_neg stands]
        exact if_neg (mt Nat.lt_sub_iff_add_lt.mp stands)
    rw [verdict_findMatchingPayment, isAccount]
    simp only [scanned]
    split
    · rename_i stands
      simp [stands]
    · rename_i fallen
      refine iff_of_false (fun same => ?_) fallen
      have invalid := congrArg VerificationResult.valid (Except.ok.inj same)
      simp [detection] at invalid
  · cases detected

/-- A transaction with this many payments to the destination, under another memo. -/
def traffic (payments : Nat) : Transaction :=
  { Sample.payment '3' true 8 with
    operations := List.replicate payments
      ⟨"payment", Sample.payer, Sample.destination, "native", none, none, "1.0000000"⟩ }

theorem distinct_traffic (payments : Nat) :
    (Sample.world.ledger.rows ++ [traffic payments]).Pairwise
      fun first second => ledgerIndexes.clash first second = false := by
  refine List.pairwise_append.mpr ⟨Sample.world.ledger.distinct, List.pairwise_singleton _ _, ?_⟩
  intro first member second isTraffic
  rw [List.mem_singleton.mp isTraffic]
  -- the payments of the sample have other hashes, however many operations follow
  have apart : ∀ tx ∈ Sample.world.ledger.rows,
      ledgerIndexes.clash tx (Sample.payment '3' true 8) = false := by
    decide
  exact apart first member

def busyWorld (payments : Nat) : World :=
  { Sample.world with
    ledger := ⟨Sample.world.ledger.rows ++ [traffic payments], distinct_traffic payments⟩ }

theorem continues_busyWorld (payments : Nat) :
    Sample.world.Continues (busyWorld payments) [traffic payments] :=
  ⟨rfl, fun _ _ isOpen => isOpen⟩

theorem unrelated_traffic (payments : Nat) : (traffic payments).Unrelated Sample.intent := by
  refine .inr ?_
  change (Memo.id 8).render ≠ some "7"
  decide

theorem detected_payment :
    Sample.world.verdict (findMatchingPayment Sample.intent) =
      .ok { valid := true, txHash := Sample.hash '1', payer := Sample.payer } := by
  rw [verdict_findMatchingPayment]
  decide +kernel

theorem detection_stable_of_traffic :
    (busyWorld 20).verdict (findMatchingPayment Sample.intent) =
        .ok { valid := true, txHash := Sample.hash '1', payer := Sample.payer } ↔
      Sample.world.buried Sample.intent +
        (recordsAmong [traffic 20] .testnet Sample.destination).length < 50 :=
  detection_stable (continues_busyWorld 20)
    (fun tx member _ _ => by
      rw [List.mem_singleton.mp member]
      exact unrelated_traffic 20)
    detected_payment rfl

/-- In general fifty later payments hide the payment. -/
theorem not_detection_stable :
    ¬ ∀ (world later : World) (intent : PaymentIntent) (txs : List Transaction)
      (result : VerificationResult), world.Continues later txs →
      (∀ tx ∈ txs, tx.Unrelated intent) →
      world.verdict (findMatchingPayment intent) = .ok result → result.valid = true →
      later.verdict (findMatchingPayment intent) = .ok result := by
  intro stable
  have still := stable Sample.world (busyWorld 50) Sample.intent [traffic 50] _
    (continues_busyWorld 50)
    (fun tx member => by
      rw [List.mem_singleton.mp member]
      exact unrelated_traffic 50)
    detected_payment rfl
  have hidden : (busyWorld 50).verdict (findMatchingPayment Sample.intent) =
      .ok { valid := false, reason := "No matching payment found yet" } := by
    rw [verdict_findMatchingPayment]
    decide +kernel
  rw [hidden] at still
  cases still

end Detection

end CosmosPay

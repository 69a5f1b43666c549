import CosmosPay.Chain
import CosmosPay.Contracts.Kinds
import CosmosPay.Scanning

/-!
# The verdict on a given chain

Horizon answers every lookup from one chain, so the verifier has one verdict on an intent:
`verifyByHash` judges the first page of a transaction's payments, `findMatchingPayment`
the newest payments of the destination.
-/

namespace CosmosPay

open Awaiting Tables

namespace World

/-- Horizon answers from the chain. -/
def told (world : World) : (call : Call) → signature.Result call
  | .horizon lookup => lookup.answer world
  | _ => .error disconnected

def verdict (world : World) (verifies : Promise VerificationResult) :
    Except ServiceError VerificationResult :=
  verifies.evaluate world.told

/-- The payment operations that an account takes part in, oldest first. -/
def recordsOf (world : World) (network : StellarNetwork) (id : String) : List OperationRecord :=
  (world.paymentsOn network).filter fun payment => payment.fromAccount = id ∨ payment.toAccount = id

end World

namespace Transaction

/-- The verifier accepts success and memo of the transaction. -/
def Accepted (tx : Transaction) (intent : PaymentIntent) : Prop :=
  tx.successful = true ∧ StellarVerifier.memoMatches intent tx.memo.type tx.memo.render = none

instance (tx : Transaction) (intent : PaymentIntent) : Decidable (tx.Accepted intent) :=
  inferInstanceAs (Decidable (_ ∧ _))

theorem transactionHash_of_mem {tx : Transaction} {op : OperationRecord}
    (listed : op ∈ tx.payments) : op.transactionHash = tx.hash := by
  obtain ⟨operation, -, rfl⟩ := List.mem_map.mp listed
  rfl

end Transaction

section Verdicts

open StellarVerifier

variable {world : World} {intent : PaymentIntent} {hash : String}

theorem evaluate_horizon (lookup : HorizonCall) :
    (Promise.horizon lookup).evaluate world.told = lookup.answer world :=
  rfl

/-- What `verifyByHash` makes of a transaction. -/
def judge (intent : PaymentIntent) (tx : Transaction) : VerificationResult :=
  if !tx.successful then { valid := false, reason := "Transaction failed on-chain" }
  else
    match memoMatches intent tx.memo.type tx.memo.render with
    | some reason => { valid := false, reason }
    | none =>
        match (tx.payments.take 10).find? (paymentMatches intent) with
        | none =>
            { valid := false,
              reason := "No native payment in this transaction matches the " ++
                "destination/amount" }
        | some payment => { valid := true, txHash := tx.hash, payer := payment.fromAccount }

theorem judge_of_none {tx : Transaction} (accepted : tx.Accepted intent)
    (unpaid : (tx.payments.take 10).find? (paymentMatches intent) = none) :
    (judge intent tx).valid = false := by
  simp only [judge, accepted.1, accepted.2, unpaid, Bool.not_true, Bool.false_eq_true, if_false]

theorem judge_of_some {tx : Transaction} (accepted : tx.Accepted intent)
    {payment : OperationRecord}
    (paid : (tx.payments.take 10).find? (paymentMatches intent) = some payment) :
    judge intent tx = { valid := true, txHash := tx.hash, payer := payment.fromAccount } := by
  simp only [judge, accepted.1, accepted.2, paid, Bool.not_true, Bool.false_eq_true, if_false]

theorem Transaction.Accepted.fulfils {tx : Transaction} {op : OperationRecord}
    (accepted : tx.Accepted intent) (listed : op ∈ tx.payments)
    (matching : paymentMatches intent op = true) : tx.Fulfils intent := by
  obtain ⟨memoType, memo⟩ := memo_of_memoMatches accepted.2
  exact ⟨accepted.1, memoType, memo, pays_of_paymentMatches listed matching⟩

/-- A valid result names an accepted transaction that fulfils the intent. -/
theorem fulfils_of_judge {tx : Transaction} (valid : (judge intent tx).valid = true) :
    (judge intent tx).txHash = some tx.hash ∧ tx.Fulfils intent := by
  by_cases accepted : tx.Accepted intent
  · cases paid : (tx.payments.take 10).find? (paymentMatches intent) with
    | none =>
        rw [judge_of_none accepted paid] at valid
        cases valid
    | some payment =>
        rw [judge_of_some accepted paid]
        exact ⟨rfl, accepted.fulfils (List.mem_of_mem_take (List.mem_of_find?_eq_some paid))
          (List.find?_some paid)⟩
  · exfalso
    cases successful : tx.successful with
    | false => simp [judge, successful] at valid
    | true =>
        cases memo : memoMatches intent tx.memo.type tx.memo.render with
        | none => exact accepted ⟨successful, memo⟩
        | some reason => simp [judge, successful, memo] at valid

theorem evaluate_orNotFound (lookup : HorizonCall) :
    (orNotFound lookup).evaluate world.told =
      match lookup.answer world with
      | .ok answer => .ok (some answer)
      | .error (.horizon (some 404)) => .ok none
      | .error err => .error err := by
  unfold orNotFound
  rw [Program.evaluate_tryCatch, Program.evaluate_map, evaluate_horizon]
  cases lookup.answer world with
  | ok answer => rfl
  | error err =>
      by_cases absent : err = .horizon (some 404)
      · subst absent
        rfl
      · simp only [Except.map]
        rfl

theorem verdict_verifyByHash :
    world.verdict (verifyByHash intent hash) =
      .ok (match world.ledger.find? (intent.network, hash) with
        | none => { valid := false, reason := "Transaction not found on-chain" }
        | some tx => judge intent tx) := by
  unfold World.verdict verifyByHash
  rw [Program.evaluate_bind, evaluate_orNotFound]
  cases found : world.ledger.find? (intent.network, hash) with
  | none =>
      simp only [HorizonCall.answer, found]
      rfl
  | some tx =>
      have isHash : tx.hash = hash := congrArg Prod.snd (Table.key_of_find? found)
      have asked : (Promise.horizon (.paymentsForTransaction intent.network hash)).evaluate
          world.told = .ok ((if tx.successful then tx.payments else []).take 10) := by
        refine (evaluate_horizon _).trans ?_
        simp only [HorizonCall.answer, found]
      simp only [HorizonCall.answer, found, Except.bind, Transaction.record, judge, isHash]
      cases successful : tx.successful with
      | false => rfl
      | true =>
          simp only [Bool.not_true, Bool.false_eq_true, if_false]
          cases memoMatches intent tx.memo.type tx.memo.render with
          | some reason => rfl
          | none =>
              simp only [Program.evaluate_bind, asked, successful, if_true, Except.bind]
              cases (tx.payments.take 10).find? (paymentMatches intent) <;> rfl

theorem verdict_of_landed {tx : Transaction}
    (landed : world.ledger.find? (intent.network, hash) = some tx) :
    world.verdict (verifyByHash intent hash) = .ok (judge intent tx) := by
  rw [verdict_verifyByHash, landed]

/-- The record passes `paymentMatches` and belongs to an accepted transaction. -/
def fulfils (world : World) (intent : PaymentIntent) (op : OperationRecord) : Bool :=
  paymentMatches intent op &&
    (world.ledger.find? (intent.network, op.transactionHash)).any fun tx =>
      decide (tx.Accepted intent)

theorem told_lookupOf (op : OperationRecord) : world.told (lookupOf intent op) =
    HorizonCall.answer (.transaction intent.network op.transactionHash) world :=
  rfl

theorem fulfils_iff {op : OperationRecord} :
    fulfils world intent op = true ↔ Fulfilling world.told intent op := by
  rw [fulfils, Bool.and_eq_true, Fulfilling, told_lookupOf, HorizonCall.answer]
  refine and_congr_right fun _ => ?_
  cases found : world.ledger.find? (intent.network, op.transactionHash) with
  | none => simp
  | some tx =>
      simp only [Option.any_some, decide_eq_true_eq]
      constructor
      · exact fun accepted => ⟨tx.record, rfl, accepted⟩
      · rintro ⟨record, isRecord, passes⟩
        obtain rfl := Except.ok.inj isRecord
        exact passes

/-- On a chain that has the transactions of the matching records, a scan finds the first record
that fulfils the intent. -/
theorem evaluate_scan {page : List OperationRecord}
    (known : ∀ op ∈ page, paymentMatches intent op = true →
      (world.ledger.find? (intent.network, op.transactionHash)).isSome = true) :
    (scan intent page).evaluate world.told =
      .ok (((page.find? (fulfils world intent)).map detection).getD
        { valid := false, reason := "No matching payment found yet" }) := by
  have answered : ∀ call ∈ (scan intent page).asked world.told,
      ∃ answer, world.told call = .ok answer := by
    intro call member
    obtain ⟨examined, begins, isAsked⟩ := asked_scan world.told intent page
    rw [isAsked] at member
    obtain ⟨op, isExamined, rfl⟩ := List.mem_map.mp member
    obtain ⟨listed, matching⟩ := List.mem_filter.mp (begins.subset isExamined)
    obtain ⟨tx, found⟩ := Option.isSome_iff_exists.mp (known op listed matching)
    refine ⟨tx.record, ?_⟩
    rw [told_lookupOf]
    simp only [HorizonCall.answer, found]
  obtain ⟨result, evaluated, scanned⟩ := exists_scanned answered
  rw [evaluated]
  cases scanned with
  | nothing unfulfilling =>
      have none : page.find? (fulfils world intent) = none :=
        List.find?_eq_none.mpr fun op member => mt fulfils_iff.mp (unfulfilling op member)
      rw [none]
      rfl
  | first newer op older split unfulfilling fulfilling =>
      have first : page.find? (fulfils world intent) = some op := by
        refine List.find?_eq_some_iff_append.mpr ⟨fulfils_iff.mpr fulfilling, newer, older, split,
          fun other member => ?_⟩
        have unfulfilled := mt fulfils_iff.mp (unfulfilling other member)
        simpa using unfulfilled
      rw [first]
      rfl

/-- Every payment operation on the chain belongs to a successful transaction. -/
theorem exists_tx_of_paymentsOn {network : StellarNetwork} {op : OperationRecord}
    (listed : op ∈ world.paymentsOn network) :
    ∃ tx, world.ledger.find? (network, op.transactionHash) = some tx ∧ tx.successful = true ∧
      op ∈ tx.payments := by
  obtain ⟨tx, isRow, inTx⟩ := List.mem_flatMap.mp listed
  obtain ⟨present, kept⟩ := List.mem_filter.mp isRow
  obtain ⟨isNetwork, successful⟩ := of_decide_eq_true kept
  refine ⟨tx, ?_, successful, inTx⟩
  rw [Transaction.transactionHash_of_mem inTx, ← isNetwork]
  exact Table.find?_key present

/-- `findMatchingPayment` reports the newest fulfilling record among the newest `limit`
records of the destination. -/
theorem verdict_findMatchingPayment {limit : Nat} :
    world.verdict (findMatchingPayment intent limit) =
      .ok (match world.account? intent.network intent.destination with
        | none => { valid := false, reason := "Destination account not found" }
        | some _ =>
            ((((world.recordsOf intent.network intent.destination).reverse.take limit).find?
              (fulfils world intent)).map detection).getD
                { valid := false, reason := "No matching payment found yet" }) := by
  unfold World.verdict findMatchingPayment
  rw [Program.evaluate_bind, evaluate_orNotFound]
  cases account : world.account? intent.network intent.destination with
  | none =>
      simp only [HorizonCall.answer, account]
      rfl
  | some found =>
      simp only [HorizonCall.answer, account, Except.bind]
      refine evaluate_scan fun op member _ => ?_
      have listed := List.mem_of_mem_filter (List.mem_reverse.mp (List.mem_of_mem_take member))
      obtain ⟨tx, isTx, -⟩ := exists_tx_of_paymentsOn listed
      exact Option.isSome_iff_exists.mpr ⟨tx, isTx⟩

/-- A valid result of the scan reports a fulfilling record of the page. -/
theorem exists_record_of_detected {limit : Nat} {result : VerificationResult}
    (found : world.verdict (findMatchingPayment intent limit) = .ok result)
    (valid : result.valid = true) :
    (world.account? intent.network intent.destination).isSome = true ∧
      ∃ op, ((world.recordsOf intent.network intent.destination).reverse.take limit).find?
        (fulfils world intent) = some op ∧ result = detection op := by
  rw [verdict_findMatchingPayment] at found
  split at found
  · obtain rfl := Except.ok.inj found
    cases valid
  · rename_i account isAccount
    refine ⟨by rw [isAccount]; rfl, ?_⟩
    have isResult := Except.ok.inj found
    generalize ((world.recordsOf intent.network intent.destination).reverse.take limit).find?
      (fulfils world intent) = detected at isResult
    cases detected with
    | none =>
        subst isResult
        cases valid
    | some op => exact ⟨op, rfl, isResult.symm⟩

/-- A verification whose lookups are all served ends with the verdict, and has changed
nothing. -/
theorem execute_verdict {deployment : Deployment} {verifies : Promise VerificationResult}
    (calls : verifies.Calls Call.IsHorizon) {choices : List Choice}
    (served : ∀ choice ∈ choices, choice = .serve)
    {execution : Execution (service deployment) VerificationResult}
    (executed : verifies.execute (service deployment) choices world = some execution) :
    execution.outcome = world.verdict verifies ∧ execution.state = world := by
  refine calls.execute_eq (fun {call choice answer} isHorizon member performed => ?_) executed
  obtain rfl := served choice member
  cases call with
  | horizon lookup =>
      obtain rfl := Option.some.inj performed
      exact ⟨rfl, rfl⟩
  | _ => exact isHorizon.elim

end Verdicts

end CosmosPay

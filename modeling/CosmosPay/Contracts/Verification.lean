import CosmosPay.Answers
import CosmosPay.Contracts.Kinds

/-!
# What a verdict rests on

A positive verdict of the verifier is backed by the answers of Horizon in the
history: a successful transaction with the intent's memo, and a payment of it that
matches the intent.
-/

namespace CosmosPay

open Awaiting Program

/-- The history shows this operation among the payments of the transaction. -/
def ShowsPayment (past : History signature) (network : StellarNetwork) (hash : String)
    (op : OperationRecord) : Prop :=
  (∃ ops, ⟨.horizon (.paymentsForTransaction network hash), .ok ops⟩ ∈ past ∧ op ∈ ops) ∨
    ∃ account limit ops,
      ⟨.horizon (.paymentsForAccount network account limit), .ok ops⟩ ∈ past ∧ op ∈ ops ∧
        op.transactionHash = hash

theorem ShowsPayment.mono {past later : History signature} {network : StellarNetwork}
    {hash : String} {op : OperationRecord} (shown : ShowsPayment past network hash op)
    (grows : past ⊆ later) : ShowsPayment later network hash op := by
  rcases shown with ⟨ops, listed, member⟩ | ⟨account, limit, ops, listed, member, isHash⟩
  · exact .inl ⟨ops, grows listed, member⟩
  · exact .inr ⟨account, limit, ops, grows listed, member, isHash⟩

/-- The history shows the transaction, with this outcome. -/
def ShowsTransaction (past : History signature) (network : StellarNetwork)
    (record : TransactionRecord) : Prop :=
  ⟨.horizon (.transaction network record.hash), .ok record⟩ ∈ past

structure Evidence (past : History signature) (intent : PaymentIntent) (hash : String)
    (payer : Option String) : Prop where
  transaction : ∃ record, ShowsTransaction past intent.network record ∧ record.hash = hash ∧
    record.successful = true ∧
    StellarVerifier.memoMatches intent record.memoType record.memo = none
  payment : ∃ op, ShowsPayment past intent.network hash op ∧
    StellarVerifier.paymentMatches intent op = true ∧ payer = some op.fromAccount

theorem Evidence.mono {past later : History signature} {intent : PaymentIntent} {hash : String}
    {payer : Option String} (evidence : Evidence past intent hash payer)
    (grows : past ⊆ later) : Evidence later intent hash payer := by
  obtain ⟨⟨record, shown, isHash, successful, memo⟩, op, opShown, matching, isPayer⟩ := evidence
  exact ⟨⟨record, grows shown, isHash, successful, memo⟩, op, opShown.mono grows, matching,
    isPayer⟩

def failedOnChain : String := "Transaction failed on-chain"

/-- What a result says about the history it was obtained in. -/
structure Verdict (past : History signature) (intent : PaymentIntent)
    (result : VerificationResult) : Prop where
  valid : result.valid = true →
    ∃ hash, result.txHash = some hash ∧ Evidence past intent hash result.payer
  failed : result.reason = some failedOnChain → result.valid = false ∧
    ∃ record, ShowsTransaction past intent.network record ∧ record.successful = false

theorem Verdict.invalid {past : History signature} {intent : PaymentIntent} {reason : String}
    (differs : reason ≠ failedOnChain) :
    Verdict past intent { valid := false, reason } :=
  ⟨by rintro ⟨⟩, fun same => absurd (Option.some.inj same) differs⟩

/-- The postcondition of both verification paths. -/
def ensuresVerdict (intent : PaymentIntent) (past : History signature)
    (outcome : Except ServiceError VerificationResult) : Prop :=
  ∀ result, outcome = .ok result → Verdict past intent result

theorem ensuresVerdict_ok {intent : PaymentIntent} {past : History signature}
    {result : VerificationResult} (verdict : Verdict past intent result) :
    ensuresVerdict intent past (.ok result) := by
  rintro _ ⟨⟩
  exact verdict

theorem ensuresVerdict_error {intent : PaymentIntent} {past : History signature}
    {err : ServiceError} : ensuresVerdict intent past (.error err) := by
  rintro _ ⟨⟩

theorem memoMismatch_ne_failed {intent : PaymentIntent} {memoType reason : String}
    {memo : Option String}
    (mismatch : StellarVerifier.memoMatches intent memoType memo = some reason) :
    reason ≠ failedOnChain := by
  unfold StellarVerifier.memoMatches at mismatch
  split at mismatch
  · obtain rfl := Option.some.inj mismatch
    intro same
    have heads := congrArg (fun text => text.toList.head?) same
    simp [failedOnChain] at heads
  · cases mismatch

/-- The rule for a lookup that may miss. -/
theorem conforms_orNotFound {lookup : HorizonCall} {relies : Performed signature → Prop}
    {permits : History signature → Call → Prop} {past : History signature}
    {ensures : History signature → Except ServiceError (Option lookup.Answer) → Prop}
    (permitted : permits past (.horizon lookup))
    (found : ∀ value, relies ⟨.horizon lookup, .ok value⟩ →
      ensures (⟨.horizon lookup, .ok value⟩ :: past) (.ok (some value)))
    (missing : ∀ err, ensures (⟨.horizon lookup, .error err⟩ :: past) (.ok none))
    (failed : ∀ err, ensures (⟨.horizon lookup, .error err⟩ :: past) (.error err)) :
    (StellarVerifier.orNotFound lookup).Conforms relies permits ensures past := by
  refine conforms_call_tryCatch.mpr ⟨permitted, fun err _ => ?_, found⟩
  split
  · exact missing _
  · exact failed _

theorem conforms_verifyByHash (intent : PaymentIntent) (txHash : String)
    (past : History signature) :
    (StellarVerifier.verifyByHash intent txHash).Conforms Believable
      (fun _ call => call.IsHorizon) (ensuresVerdict intent) past := by
  unfold StellarVerifier.verifyByHash
  rw [conforms_bind]
  refine conforms_orNotFound trivial (fun tx relied => ?_)
    (fun err => ensuresVerdict_ok (.invalid (by decide))) fun err => ensuresVerdict_error
  have isHash : tx.hash = txHash := relied tx rfl
  have shown : ShowsTransaction (⟨.horizon (.transaction intent.network txHash), .ok tx⟩ :: past)
      intent.network tx := by
    rw [ShowsTransaction, isHash]
    exact List.mem_cons_self
  refine (andThen_ok _ _).mpr ?_
  simp only
  split
  · rename_i unsuccessful
    refine ensuresVerdict_ok ⟨by rintro ⟨⟩, fun _ => ⟨rfl, tx, shown, ?_⟩⟩
    simpa using unsuccessful
  · rename_i successful
    split
    · rename_i reason mismatch
      exact ensuresVerdict_ok (.invalid (memoMismatch_ne_failed mismatch))
    · rename_i memoOk
      refine conforms_call_bind.mpr ⟨trivial, fun err _ => ensuresVerdict_error,
        fun payments _ => ?_⟩
      split
      · exact ensuresVerdict_ok (.invalid (by decide))
      · rename_i payment found
        refine ensuresVerdict_ok ⟨fun _ => ⟨txHash, rfl, ?_, ?_⟩, by rintro ⟨⟩⟩
        · exact ⟨tx, List.mem_cons_of_mem _ shown, isHash, by simpa using successful, memoOk⟩
        · exact ⟨payment, .inl ⟨payments, List.mem_cons_self, List.mem_of_find?_eq_some found⟩,
            List.find?_some found, rfl⟩

theorem conforms_scan (intent : PaymentIntent) (page : List OperationRecord)
    {past : History signature}
    (shown : ∀ op ∈ page, ShowsPayment past intent.network op.transactionHash op) :
    (StellarVerifier.scan intent page).Conforms Believable
      (fun _ call => call.IsHorizon) (ensuresVerdict intent) past := by
  induction page generalizing past with
  | nil => exact ensuresVerdict_ok (.invalid (by decide))
  | cons op page ih =>
      have opShown := shown op List.mem_cons_self
      have pageShown := fun other member => shown other (List.mem_cons_of_mem op member)
      unfold StellarVerifier.scan
      split
      · exact ih pageShown
      · rename_i matching
        refine conforms_call_bind.mpr ⟨trivial, fun err _ => ensuresVerdict_error,
          fun tx relied => ?_⟩
        have isHash : tx.hash = op.transactionHash := relied tx rfl
        have rest := ih fun other member => (pageShown other member).mono
          (List.subset_cons_self
            ⟨.horizon (.transaction intent.network op.transactionHash), .ok tx⟩ past)
        split
        · exact rest
        · rename_i successful
          split
          · exact rest
          · rename_i memoOk
            refine ensuresVerdict_ok ⟨fun _ => ⟨op.transactionHash, rfl, ?_, ?_⟩, by rintro ⟨⟩⟩
            · refine ⟨tx, ?_, isHash, by simpa using successful, memoOk⟩
              rw [ShowsTransaction, isHash]
              exact List.mem_cons_self
            · exact ⟨op, opShown.mono (List.subset_cons_self _ _), by simpa using matching, rfl⟩

theorem conforms_findMatchingPayment (intent : PaymentIntent) (limit : Nat)
    (past : History signature) :
    (StellarVerifier.findMatchingPayment intent limit).Conforms Believable
      (fun _ call => call.IsHorizon) (ensuresVerdict intent) past := by
  unfold StellarVerifier.findMatchingPayment
  rw [conforms_bind]
  refine conforms_orNotFound trivial (fun records _ => ?_)
    (fun err => ensuresVerdict_ok (.invalid (by decide))) fun err => ensuresVerdict_error
  refine conforms_scan intent records fun op member => .inr ?_
  exact ⟨intent.destination, limit, records, List.mem_cons_self, member, rfl⟩

theorem conforms_verify (intent : PaymentIntent) (past : History signature) :
    (StellarObserver.verify intent).Conforms Believable
      (fun _ call => call.IsHorizon) (ensuresVerdict intent) past := by
  unfold StellarObserver.verify
  split
  · exact conforms_verifyByHash intent _ past
  · exact conforms_findMatchingPayment intent 50 past

end CosmosPay

import CosmosPay.Contracts.Verification

/-!
# What the chain says

The ledger only grows, so whatever Horizon has once shown is borne out by every later
ledger.  In particular the evidence behind a positive verdict is a transaction on the
ledger that fulfils the intent.
-/

namespace CosmosPay

open Awaiting Tables

/-! ## Paid intents -/

/-- The operation pays the intent: its destination, in its asset, and its amount if it
names one. -/
structure Operation.Pays (operation : Operation) (intent : PaymentIntent) : Prop where
  isPayment : operation.type = "payment"
  destination : operation.toAccount = intent.destination
  asset : (intent.asset = "native" ∧ operation.assetType = "native") ∨
    (intent.asset ≠ "native" ∧ operation.assetCode = some intent.asset ∧
      operation.assetIssuer ≠ none ∧ operation.assetIssuer = intent.assetIssuer)
  amount : ∀ amount, intent.amount = some amount →
    Text.sameNumber (Text.number operation.amount) (Text.number amount) = true

/-- The transaction succeeded, carries the memo of the intent and contains a payment of
it. -/
structure Transaction.Fulfils (tx : Transaction) (intent : PaymentIntent) : Prop where
  successful : tx.successful = true
  memoType : tx.memo.type = "id"
  memo : tx.memo.render = some intent.memo
  payment : ∃ operation ∈ tx.operations, operation.Pays intent

instance (operation : Operation) (intent : PaymentIntent) : Decidable (operation.Pays intent) :=
  decidable_of_iff
    (operation.type = "payment" ∧ operation.toAccount = intent.destination ∧
      ((intent.asset = "native" ∧ operation.assetType = "native") ∨
        (intent.asset ≠ "native" ∧ operation.assetCode = some intent.asset ∧
          operation.assetIssuer ≠ none ∧ operation.assetIssuer = intent.assetIssuer)) ∧
      ∀ amount ∈ intent.amount,
        Text.sameNumber (Text.number operation.amount) (Text.number amount) = true)
    ⟨fun ⟨isPayment, destination, asset, amount⟩ => ⟨isPayment, destination, asset, amount⟩,
      fun pays => ⟨pays.isPayment, pays.destination, pays.asset, pays.amount⟩⟩

instance (tx : Transaction) (intent : PaymentIntent) : Decidable (tx.Fulfils intent) :=
  decidable_of_iff
    (tx.successful = true ∧ tx.memo.type = "id" ∧ tx.memo.render = some intent.memo ∧
      ∃ operation ∈ tx.operations, operation.Pays intent)
    ⟨fun ⟨successful, memoType, memo, payment⟩ => ⟨successful, memoType, memo, payment⟩,
      fun fulfils => ⟨fulfils.successful, fulfils.memoType, fulfils.memo, fulfils.payment⟩⟩

/-- The ledger has a transaction of that hash on the intent's network that fulfils the
intent. -/
def PaidBy (ledger : Table ledgerIndexes) (intent : PaymentIntent) (hash : String) : Prop :=
  ∃ tx, ledger.find? (intent.network, hash) = some tx ∧ tx.Fulfils intent

/-- The columns of an intent that no statement changes. -/
def PaymentIntent.terms (intent : PaymentIntent) : PaymentIntent :=
  { intent with status := .pending, txHash := none, reference := none, source := none }

theorem terms_apply (patch : PaymentIntentPatch) (row : PaymentIntent) :
    PaymentIntent.terms (Model.apply .paymentIntent patch row) = row.terms :=
  rfl

/-- What fulfils an intent depends on its terms only. -/
theorem Transaction.fulfils_terms {tx : Transaction} {intent : PaymentIntent} :
    tx.Fulfils intent.terms ↔ tx.Fulfils intent := by
  constructor
  · rintro ⟨successful, memoType, memo, operation, member, pays⟩
    exact ⟨successful, memoType, memo, operation, member, pays.isPayment, pays.destination,
      pays.asset, pays.amount⟩
  · rintro ⟨successful, memoType, memo, operation, member, pays⟩
    exact ⟨successful, memoType, memo, operation, member, pays.isPayment, pays.destination,
      pays.asset, pays.amount⟩

theorem Transaction.Fulfils.of_terms_eq {tx : Transaction} {first second : PaymentIntent}
    (fulfils : tx.Fulfils first) (same : first.terms = second.terms) : tx.Fulfils second := by
  rw [← fulfils_terms, ← same, fulfils_terms]
  exact fulfils

theorem network_of_terms_eq {first second : PaymentIntent} (same : first.terms = second.terms) :
    first.network = second.network := by
  have networks : first.terms.network = second.terms.network := by rw [same]
  exact networks

theorem key_of_terms_eq {first second : PaymentIntent} (same : first.terms = second.terms) :
    first.consumerId = second.consumerId ∧ first.memo = second.memo := by
  have owners : first.terms.consumerId = second.terms.consumerId := by rw [same]
  have memos : first.terms.memo = second.terms.memo := by rw [same]
  exact ⟨owners, memos⟩

theorem PaidBy.of_terms_eq {ledger : Table ledgerIndexes} {first second : PaymentIntent}
    {hash : String} (paid : PaidBy ledger first hash) (same : first.terms = second.terms) :
    PaidBy ledger second hash := by
  obtain ⟨tx, found, fulfils⟩ := paid
  rw [network_of_terms_eq same] at found
  exact ⟨tx, found, fulfils.of_terms_eq same⟩

theorem PaidBy.mono {ledger later : Table ledgerIndexes} {intent : PaymentIntent} {hash : String}
    (paid : PaidBy ledger intent hash)
    (grows : ∀ key tx, ledger.find? key = some tx → later.find? key = some tx) :
    PaidBy later intent hash := by
  obtain ⟨tx, found, fulfils⟩ := paid
  exact ⟨tx, grows _ _ found, fulfils⟩

/-! ## The verifier's checks -/

theorem paymentMatches_iff {intent : PaymentIntent} {op : OperationRecord} :
    StellarVerifier.paymentMatches intent op = true ↔
      op.type = "payment" ∧ op.toAccount = intent.destination ∧
        ((intent.asset = "native" ∧ op.assetType = "native") ∨
          (intent.asset ≠ "native" ∧ op.assetCode = some intent.asset ∧
            op.assetIssuer ≠ none ∧ op.assetIssuer = intent.assetIssuer)) ∧
        ∀ amount, intent.amount = some amount →
          Text.sameNumber (Text.number op.amount) (Text.number amount) = true := by
  unfold StellarVerifier.paymentMatches
  cases intent.amount with
  | none | some amount =>
      by_cases isPayment : op.type = "payment" <;> by_cases native : intent.asset = "native" <;>
        simp [isPayment, native, and_assoc]

/-- `paymentMatches` accepts the payments of the intent among the operations of a
transaction. -/
theorem pays_of_paymentMatches {tx : Transaction} {intent : PaymentIntent}
    {op : OperationRecord} (listed : op ∈ tx.payments)
    (matching : StellarVerifier.paymentMatches intent op = true) :
    ∃ operation ∈ tx.operations, operation.Pays intent := by
  obtain ⟨operation, kept, rfl⟩ := List.mem_map.mp listed
  obtain ⟨isPayment, destination, asset, amount⟩ := paymentMatches_iff.mp matching
  exact ⟨operation, List.mem_of_mem_filter kept, isPayment, destination, asset, amount⟩

theorem paymentMatches_of_pays {tx : Transaction} {intent : PaymentIntent}
    {operation : Operation} (member : operation ∈ tx.operations)
    (pays : operation.Pays intent) :
    ∃ op ∈ tx.payments, StellarVerifier.paymentMatches intent op = true := by
  have listed : operation.type ∈ Transaction.paymentTypes := by
    rw [pays.isPayment]
    decide
  refine ⟨_, List.mem_map_of_mem (List.mem_filter.mpr ⟨member, decide_eq_true listed⟩), ?_⟩
  exact paymentMatches_iff.mpr ⟨pays.isPayment, pays.destination, pays.asset, pays.amount⟩

/-- `memoMatches` accepts an id memo that is rendered as the stored memo. -/
theorem memo_of_memoMatches {memo : Memo} {intent : PaymentIntent}
    (matching : StellarVerifier.memoMatches intent memo.type memo.render = none) :
    memo.type = "id" ∧ memo.render = some intent.memo := by
  unfold StellarVerifier.memoMatches at matching
  split at matching
  · cases matching
  · rename_i accepted
    simp only [Bool.or_eq_true, decide_eq_true_eq, not_or, not_not] at accepted
    obtain ⟨isId, rendered⟩ := accepted
    cases memo with
    | id value => exact ⟨isId, by simpa [Memo.render] using rendered⟩
    | none => simp [Memo.type] at isId
    | text value => simp [Memo.type] at isId
    | hash value => simp [Memo.type] at isId
    | returnHash value => simp [Memo.type] at isId

/-! ## Horizon's answers -/

/-- The ledger bears out the answer. -/
def HorizonCall.BorneOut (ledger : Table ledgerIndexes) :
    (lookup : HorizonCall) → lookup.Answer → Prop
  | .loadAccount _ _, _ => True
  | .transaction network hash, record =>
      ∃ tx, ledger.find? (network, hash) = some tx ∧ record = tx.record
  | .paymentsForTransaction network hash, ops =>
      ∃ tx, ledger.find? (network, hash) = some tx ∧ ∀ op ∈ ops, op ∈ tx.payments
  | .paymentsForAccount network _ _, ops =>
      ∀ op ∈ ops, ∃ tx, ledger.find? (network, op.transactionHash) = some tx ∧ op ∈ tx.payments

theorem HorizonCall.BorneOut.mono {ledger later : Table ledgerIndexes} {lookup : HorizonCall}
    {answer : lookup.Answer} (borne : lookup.BorneOut ledger answer)
    (grows : ∀ key tx, ledger.find? key = some tx → later.find? key = some tx) :
    lookup.BorneOut later answer := by
  cases lookup with
  | loadAccount network source => trivial
  | transaction network hash =>
      obtain ⟨tx, found, isRecord⟩ := borne
      exact ⟨tx, grows _ _ found, isRecord⟩
  | paymentsForTransaction network hash =>
      obtain ⟨tx, found, listed⟩ := borne
      exact ⟨tx, grows _ _ found, listed⟩
  | paymentsForAccount network account limit =>
      intro op member
      obtain ⟨tx, found, listed⟩ := borne op member
      exact ⟨tx, grows _ _ found, listed⟩

theorem HorizonCall.answer_borneOut {lookup : HorizonCall} {world : World}
    {answer : lookup.Answer} (answered : lookup.answer world = .ok answer) :
    lookup.BorneOut world.ledger answer := by
  cases lookup with
  | loadAccount network source => trivial
  | transaction network hash =>
      simp only [HorizonCall.answer] at answered
      split at answered
      · rename_i tx found
        exact ⟨tx, found, (Except.ok.inj answered).symm⟩
      · cases answered
  | paymentsForTransaction network hash =>
      simp only [HorizonCall.answer] at answered
      split at answered
      · rename_i tx found
        obtain rfl := Except.ok.inj answered
        refine ⟨tx, found, fun op member => ?_⟩
        have listed := List.mem_of_mem_take member
        split at listed
        · exact listed
        · cases listed
      · cases answered
  | paymentsForAccount network account limit =>
      simp only [HorizonCall.answer] at answered
      split at answered
      · obtain rfl := Except.ok.inj answered
        intro op member
        have kept := List.mem_of_mem_filter (List.mem_reverse.mp (List.mem_of_mem_take member))
        obtain ⟨tx, isRow, listed⟩ := List.mem_flatMap.mp kept
        obtain ⟨present, isNetwork⟩ := List.mem_filter.mp isRow
        simp only [decide_eq_true_eq] at isNetwork
        have isHash : op.transactionHash = tx.hash := by
          obtain ⟨operation, -, rfl⟩ := List.mem_map.mp listed
          rfl
        refine ⟨tx, ?_, listed⟩
        rw [isHash, ← isNetwork.1]
        exact Table.find?_key present
      · cases answered

section Runs

variable {deployment : Deployment}
variable {allows : Config (service deployment) → Label (service deployment) → Prop}
variable {config config' : Config (service deployment)} {state : World}

theorem borneOut_stable (lookup : HorizonCall) (answer : lookup.Answer) :
    Stable fun world => lookup.BorneOut world.ledger answer where
  performs performs borne := by rwa [performs.surroundings.1]
  drifts drifts borne := borne.mono drifts.ledger

/-- Every answer of Horizon in the trace is borne out by the ledger of today. -/
theorem borneOut_of_mem (run : Run allows (Config.initial state) config) {thread : Nat}
    {lookup : HorizonCall} {answer : lookup.Answer}
    (answered : ⟨thread, .horizon lookup, .ok answer⟩ ∈ config.trace) :
    lookup.BorneOut config.state.ledger answer := by
  obtain ⟨before, after, choice, request, -, resumes, later, -⟩ :=
    exists_resumes_of_mem run answered
  refine (borneOut_stable lookup answer).run later ?_
  obtain ⟨same, given⟩ := resumes.performs.of_horizon
  rw [same]
  exact HorizonCall.answer_borneOut given

/-- The evidence in a thread's past is a transaction on the ledger, and a payment in it. -/
theorem tx_of_evidence (run : Run allows (Config.initial state) config) {thread : Nat}
    {intent : PaymentIntent} {hash : String} {payer : Option String}
    (evidence : Evidence (config.past thread) intent hash payer) :
    ∃ tx, config.state.ledger.find? (intent.network, hash) = some tx ∧ tx.successful = true ∧
      StellarVerifier.memoMatches intent tx.memo.type tx.memo.render = none ∧
      ∃ op ∈ tx.payments, StellarVerifier.paymentMatches intent op = true ∧
        payer = some op.fromAccount := by
  obtain ⟨⟨record, shown, rfl, successful, memoOk⟩, op, opShown, matching, isPayer⟩ := evidence
  obtain ⟨tx, found, rfl⟩ := borneOut_of_mem run (mem_pastOf.mp shown)
  refine ⟨tx, found, successful, memoOk, op, ?_, matching, isPayer⟩
  rcases opShown with ⟨ops, asked, member⟩ | ⟨account, limit, ops, asked, member, isHash⟩
  · obtain ⟨other, otherFound, otherListed⟩ := borneOut_of_mem run (mem_pastOf.mp asked)
    obtain rfl := Option.some.inj (otherFound.symm.trans found)
    exact otherListed op member
  · obtain ⟨other, otherFound, otherListed⟩ :=
      borneOut_of_mem run (mem_pastOf.mp asked) op member
    rw [isHash] at otherFound
    obtain rfl := Option.some.inj (otherFound.symm.trans found)
    exact otherListed

/-- The evidence in a thread's past is a payment on the ledger. -/
theorem paidBy_of_evidence (run : Run allows (Config.initial state) config) {thread : Nat}
    {intent : PaymentIntent} {hash : String} {payer : Option String}
    (evidence : Evidence (config.past thread) intent hash payer) :
    PaidBy config.state.ledger intent hash := by
  obtain ⟨tx, found, successful, memoOk, op, listed, matching, -⟩ := tx_of_evidence run evidence
  obtain ⟨memoType, memo⟩ := memo_of_memoMatches memoOk
  exact ⟨tx, found, successful, memoType, memo, pays_of_paymentMatches listed matching⟩

end Runs

end CosmosPay

import CosmosPay.Unrelated
import CosmosPay.Verdicts

/-!
# Reconciling an intent

With a reported hash the observer asks for that transaction only, otherwise it scans the
payments of the destination.  Either way the intent succeeds with the transaction that the
chosen path accepts; a hash that is not accepted keeps the observer from scanning.
-/

namespace CosmosPay

open Awaiting Tables Program PaymentIntents StellarVerifier

section Reconciliation

variable {deployment : Deployment} {world : World} {intent : PaymentIntent} {owner : String}
variable {choices : List Choice}

/-- A call that `reconcile` makes. -/
def Call.Reconciles : Call → Prop
  | .horizon _ => True
  | .query (.intentSource _) => True
  | .write (.update .paymentIntent _ _) => True
  | .emit _ => True
  | .start _ => True
  | _ => False

theorem reconcile_reconciles (row : PaymentIntent × String) :
    (StellarObserver.reconcile row).Calls Call.Reconciles := by
  obtain ⟨intent, owner⟩ := row
  refine Calls.bind ((calls_verify intent).mono fun call isHorizon => ?_) fun result => ?_
  · cases call with
    | horizon lookup => trivial
    | _ => exact isHorizon.elim
  · split
    · refine Calls.bind ?_ fun _ => calls_pure _
      refine Calls.call_bind (by trivial) fun current => ?_
      refine Calls.call_bind (by trivial) fun updated => ?_
      exact Calls.call_bind (by trivial) fun _ => Calls.call_bind (by trivial) fun _ => calls_pure _
    · exact calls_pure _

/-- Every call of `reconcile` can be served. -/
theorem Call.Reconciles.served {call : Call} (reconciles : call.Reconciles) (world : World) :
    ∃ choice served, choice = .serve ∧ world.perform call choice = some served := by
  refine ⟨.serve, ?_⟩
  cases call with
  | query asked =>
      cases asked with
      | intentSource id => exact ⟨_, rfl, rfl⟩
      | _ => exact reconciles.elim
  | write statement =>
      cases statement with
      | update model id patch => exact ⟨_, rfl, rfl⟩
      | _ => exact reconciles.elim
  | horizon lookup | emit payload | start task => exact ⟨_, rfl, rfl⟩
  | _ => exact reconciles.elim

/-- What `markSucceeded` leaves when the database performs its calls. -/
theorem execute_markSucceeded {id username txHash : String} {payer : Option String}
    {row : PaymentIntent} {store : Store} (served : ∀ choice ∈ choices, choice = .serve)
    (updated : world.store.update .paymentIntent id (succeededPatch txHash payer
      ((world.store.intents.find? id).map PaymentIntent.source)) = .ok (row, store))
    {execution : Execution (service deployment) PaymentIntent}
    (executed : (markSucceeded id username txHash payer).execute (service deployment) choices
      world = some execution) :
    execution.outcome = .ok row ∧ execution.state = { world with store } := by
  have committed : (service deployment).perform (.write (.update .paymentIntent id
      (succeededPatch txHash payer ((world.store.intents.find? id).map PaymentIntent.source))))
        Choice.serve world = some ⟨.ok row, { world with store }, []⟩ :=
    perform_write_ok rfl updated
  obtain ⟨choices, afterQuery, served, asked, rfl⟩ :=
    execute_call_served served (perform_query_ok rfl) executed
  obtain ⟨choices, afterWrite, served, written, rfl⟩ := execute_call_served served committed asked
  obtain ⟨choices, afterEmit, served, emitted, rfl⟩ :=
    execute_call_served served (perform_emit _) written
  obtain ⟨choices, afterStart, served, started, rfl⟩ := execute_call_served served rfl emitted
  obtain rfl := Option.some.inj started
  exact ⟨rfl, rfl⟩

/-- A transaction that `verifyByHash` confirms fulfils the intent. -/
theorem paidBy_of_confirmed {hash : String} {result : VerificationResult}
    (confirmed : world.verdict (verifyByHash intent hash) = .ok result)
    (valid : result.valid = true) :
    result.txHash = some hash ∧ PaidBy world.ledger intent hash := by
  cases landed : world.ledger.find? (intent.network, hash) with
  | none =>
      rw [verdict_verifyByHash, landed] at confirmed
      obtain rfl := Except.ok.inj confirmed
      cases valid
  | some tx =>
      rw [verdict_of_landed landed] at confirmed
      obtain rfl := Except.ok.inj confirmed
      have isHash : tx.hash = hash := congrArg Prod.snd (Table.key_of_find? landed)
      obtain ⟨hashed, fulfils⟩ := fulfils_of_judge valid
      exact ⟨by rw [hashed, isHash], tx, landed, fulfils⟩

/-- So does the transaction of the payment that the scan finds. -/
theorem paidBy_of_detected {limit : Nat} {result : VerificationResult}
    (detected : world.verdict (findMatchingPayment intent limit) = .ok result)
    (valid : result.valid = true) :
    ∃ tx, result.txHash = some tx.hash ∧ world.ledger.find? (intent.network, tx.hash) = some tx ∧
      tx.Fulfils intent := by
  obtain ⟨-, op, found, rfl⟩ := exists_record_of_detected detected valid
  have accepted := List.find?_some found
  rw [fulfils, Bool.and_eq_true] at accepted
  obtain ⟨matching, isAccepted⟩ := accepted
  have listed := List.mem_of_mem_filter
    (List.mem_reverse.mp (List.mem_of_mem_take (List.mem_of_find?_eq_some found)))
  obtain ⟨tx, isTx, -, inTx⟩ := exists_tx_of_paymentsOn listed
  have isHash : tx.hash = op.transactionHash := congrArg Prod.snd (Table.key_of_find? isTx)
  rw [isTx, Option.any_some, decide_eq_true_eq] at isAccepted
  exact ⟨tx, by rw [isHash, detection], by rw [isHash, isTx], isAccepted.fulfils inTx matching⟩

section Execution

variable {result : VerificationResult} {execution : Execution (service deployment) Unit}

theorem execute_reconcile_of_valid {hash : String} {row : PaymentIntent} {store : Store}
    (served : ∀ choice ∈ choices, choice = .serve)
    (verdict : world.verdict (StellarObserver.verify intent) = .ok result)
    (valid : result.valid = true) (hashed : truthy result.txHash = some hash)
    (updated : world.store.update .paymentIntent intent.id (succeededPatch hash result.payer
      ((world.store.intents.find? intent.id).map PaymentIntent.source)) = .ok (row, store))
    (executed : (StellarObserver.reconcile (intent, owner)).execute (service deployment) choices
      world = some execution) : execution.state = { world with store } := by
  obtain ⟨first, verified, ended⟩ := execute_bind executed
  obtain ⟨isOutcome, isState⟩ := execute_verdict (calls_verify intent) served verified
  obtain ⟨used, rfl, -⟩ := execute_uses verified
  obtain ⟨outcome, state, past, spawned, left⟩ := first
  obtain rfl : outcome = .ok result := isOutcome.trans verdict
  obtain rfl : state = world := isState
  obtain ⟨second, continued, rfl⟩ := ended
  simp only [valid, hashed] at continued
  obtain ⟨marking, marked, ended⟩ := execute_bind continued
  have rest := fun choice member => served choice (List.mem_append_right used member)
  obtain ⟨isRow, isState⟩ := execute_markSucceeded rest updated marked
  obtain ⟨outcome, state, past, spawned, left⟩ := marking
  obtain rfl : outcome = .ok row := isRow
  obtain ⟨final, returned, rfl⟩ := ended
  obtain rfl := Option.some.inj returned
  exact isState

theorem execute_reconcile_of_invalid (served : ∀ choice ∈ choices, choice = .serve)
    (verdict : world.verdict (StellarObserver.verify intent) = .ok result)
    (invalid : result.valid = false)
    (executed : (StellarObserver.reconcile (intent, owner)).execute (service deployment) choices
      world = some execution) : execution.state = world := by
  obtain ⟨first, verified, ended⟩ := execute_bind executed
  obtain ⟨isOutcome, isState⟩ := execute_verdict (calls_verify intent) served verified
  obtain ⟨outcome, state, past, spawned, left⟩ := first
  obtain rfl : outcome = .ok result := isOutcome.trans verdict
  obtain ⟨second, continued, rfl⟩ := ended
  simp only [invalid] at continued
  obtain rfl := Option.some.inj continued
  exact isState

end Execution

theorem txHash_succeededPatch {hash : String} {payer : Option String}
    {current : Option (Option String)} {row : PaymentIntent} :
    PaymentIntent.txHash (Model.apply .paymentIntent (succeededPatch hash payer current) row) =
      some hash := by
  simp [Model.apply, succeededPatch, Field.set]

theorem status_succeededPatch {hash : String} {payer : Option String}
    {current : Option (Option String)} {row : PaymentIntent} :
    PaymentIntent.status (Model.apply .paymentIntent (succeededPatch hash payer current) row) =
      .succeeded :=
  rfl

/-- The intent has succeeded with a transaction that fulfils it. -/
def World.Settled (world : World) (intent : PaymentIntent) : Prop :=
  ∃ row tx, world.store.intents.find? intent.id = some row ∧ row.status = .succeeded ∧
    row.txHash = some tx.hash ∧ world.ledger.find? (intent.network, tx.hash) = some tx ∧
    tx.Fulfils intent

/-- The hash that was reported, if any, is the hash of a transaction that `verifyByHash`
accepts. -/
def World.Confirms (world : World) (intent : PaymentIntent) : Prop :=
  ∀ hash, truthy intent.txHash = some hash →
    ∃ result, world.verdict (verifyByHash intent hash) = .ok result ∧ result.valid = true

/-- The verdict that `reconcile` acts on. -/
theorem verdict_verify {detected : VerificationResult}
    (named : ∀ tx ∈ world.ledger.rows, tx.hash ≠ "")
    (found : world.verdict (findMatchingPayment intent) = .ok detected)
    (valid : detected.valid = true) :
    ∃ result, world.verdict (StellarObserver.verify intent) = .ok result ∧
      (result.valid = true ↔ world.Confirms intent) ∧
      (result.valid = true → ∃ tx, truthy result.txHash = some tx.hash ∧
        world.ledger.find? (intent.network, tx.hash) = some tx ∧ tx.Fulfils intent) := by
  unfold StellarObserver.verify World.Confirms
  cases reported : truthy intent.txHash with
  | none =>
      obtain ⟨tx, hashed, landed, fulfils⟩ := paidBy_of_detected found valid
      refine ⟨detected, found, ⟨fun _ hash => by simp, fun _ => valid⟩, fun _ => ⟨tx, ?_⟩⟩
      exact ⟨truthy_eq_some.mpr ⟨hashed, named tx (Table.mem_of_find? landed)⟩, landed, fulfils⟩
  | some hash =>
      obtain ⟨result, isVerdict⟩ : ∃ result,
          world.verdict (verifyByHash intent hash) = .ok result := ⟨_, verdict_verifyByHash⟩
      refine ⟨result, isVerdict, ?_, fun confirmed => ?_⟩
      · constructor
        · intro confirmed other isHash
          obtain rfl := Option.some.inj isHash
          exact ⟨result, isVerdict, confirmed⟩
        · intro confirms
          obtain ⟨other, isOther, confirmed⟩ := confirms hash rfl
          obtain rfl := Except.ok.inj (isVerdict.symm.trans isOther)
          exact confirmed
      · obtain ⟨hashed, tx, landed, fulfils⟩ := paidBy_of_confirmed isVerdict confirmed
        have isHash : tx.hash = hash := congrArg Prod.snd (Table.key_of_find? landed)
        rw [← isHash] at landed hashed
        exact ⟨tx, truthy_eq_some.mpr ⟨hashed, named tx (Table.mem_of_find? landed)⟩, landed,
          fulfils⟩

/-- Where the scan finds a payment, the observer settles the intent exactly when no hash is
reported or the reported one is confirmed. -/
theorem reconcile_settles_iff {detected : VerificationResult}
    (stored : world.store.intents.find? intent.id = some intent)
    (pending : intent.status = .pending) (named : ∀ tx ∈ world.ledger.rows, tx.hash ≠ "")
    (found : world.verdict (findMatchingPayment intent) = .ok detected)
    (valid : detected.valid = true)
    (unclaimed : ∀ result hash, world.verdict (StellarObserver.verify intent) = .ok result →
      result.txHash = some hash →
      ∀ other ∈ world.store.intents.rows, other.id ≠ intent.id → other.txHash ≠ some hash) :
    (∃ choices execution, (∀ choice ∈ choices, choice = .serve) ∧
      (StellarObserver.reconcile (intent, owner)).execute (service deployment) choices world =
        some execution) ∧
    ∀ choices (execution : Execution (service deployment) Unit),
      (∀ choice ∈ choices, choice = .serve) →
      (StellarObserver.reconcile (intent, owner)).execute (service deployment) choices world =
        some execution →
      (World.Settled execution.state intent ↔ world.Confirms intent) := by
  constructor
  · exact (reconcile_reconciles (intent, owner)).exists_execute (service deployment)
      (fun call state reconciles => reconciles.served state) world
  intro choices execution served executed
  obtain ⟨result, verdict, confirms, reports⟩ := verdict_verify named found valid
  rw [← confirms]
  cases isValid : result.valid with
  | false =>
      have unchanged := execute_reconcile_of_invalid served verdict isValid executed
      refine ⟨?_, by simp⟩
      rintro ⟨row, tx, isRow, succeeded, -⟩
      rw [unchanged] at isRow
      obtain rfl := Option.some.inj (stored.symm.trans isRow)
      rw [pending] at succeeded
      cases succeeded
  | true =>
      obtain ⟨tx, hashed, landed, fulfils⟩ := reports isValid
      obtain ⟨row, store, updated⟩ : ∃ row store, world.store.update .paymentIntent intent.id
          (succeededPatch tx.hash result.payer
            ((world.store.intents.find? intent.id).map PaymentIntent.source)) =
              .ok (row, store) := by
        refine exists_update_intent stored (by simp [succeededPatch]) (.inr ?_)
        intro other member differ _ same
        rw [txHash_succeededPatch] at same
        exact unclaimed result tx.hash verdict (truthy_eq_some.mp hashed).1 other member differ same
      have settled := execute_reconcile_of_valid served verdict isValid hashed updated executed
      refine ⟨fun _ => rfl, fun _ => ?_⟩
      obtain ⟨old, rfl, change⟩ := Store.update_eq_ok updated
      rw [settled]
      refine ⟨_, tx, (change.lookup intent.id).trans (if_pos rfl), ?_, ?_, landed, fulfils⟩
      · exact status_succeededPatch
      · exact txHash_succeededPatch

/-- The sample world with one intent. -/
def Sample.holding (row : PaymentIntent) : World :=
  { Sample.world with
    store := Store.empty.put .paymentIntent ⟨[row], List.pairwise_singleton _ _⟩ [row.id]
      (by simp [Store.empty]) (by simp [Model.indexes, intentIndexes]) }

theorem Sample.rows_holding {row : PaymentIntent} :
    (Sample.holding row).store.intents.rows = [row] := by
  simp [Sample.holding, Store.intents, Store.put]

theorem Sample.found_holding {row : PaymentIntent} :
    (Sample.holding row).store.intents.find? row.id = some row := by
  refine Table.find?_eq_some_iff.mpr ⟨?_, rfl⟩
  rw [Sample.rows_holding]
  exact List.mem_singleton_self row

theorem Sample.unclaimed_holding {row other : PaymentIntent} {hash : String}
    (member : other ∈ (Sample.holding row).store.intents.rows) (differ : other.id ≠ row.id) :
    other.txHash ≠ some hash := by
  rw [Sample.rows_holding, List.mem_singleton] at member
  exact absurd (congrArg PaymentIntent.id member) differ

theorem reconcile_settles_iff_of_payment :
    (∃ choices execution, (∀ choice ∈ choices, choice = .serve) ∧
      (StellarObserver.reconcile (Sample.intent, "alice")).execute (service Sample.deployment)
        choices (Sample.holding Sample.intent) = some execution) ∧
    ∀ choices (execution : Execution (service Sample.deployment) Unit),
      (∀ choice ∈ choices, choice = .serve) →
      (StellarObserver.reconcile (Sample.intent, "alice")).execute (service Sample.deployment)
        choices (Sample.holding Sample.intent) = some execution →
      (World.Settled execution.state Sample.intent ↔
        (Sample.holding Sample.intent).Confirms Sample.intent) := by
  have found : (Sample.holding Sample.intent).verdict (findMatchingPayment Sample.intent) =
      .ok { valid := true, txHash := Sample.hash '1', payer := Sample.payer } := by
    rw [verdict_findMatchingPayment]
    decide +kernel
  exact reconcile_settles_iff Sample.found_holding rfl (by decide) found rfl
    fun _ _ _ _ _ member differ => Sample.unclaimed_holding member differ

/-- The sample intent, with a hash that Horizon does not know. -/
def misreported : PaymentIntent :=
  { Sample.intent with txHash := some "unknown" }

/-- A reported hash that Horizon does not know hides the payment that the scan would find. -/
theorem not_reconcile_settles :
    ¬ ∀ (deployment : Deployment) (world : World) (intent : PaymentIntent) (owner : String)
      (detected : VerificationResult),
      world.store.intents.find? intent.id = some intent → intent.status = .pending →
      (∀ expiresAt, intent.expiresAt = some expiresAt → world.clock ≤ expiresAt) →
      (∀ tx ∈ world.ledger.rows, tx.hash ≠ "") →
      world.verdict (findMatchingPayment intent) = .ok detected → detected.valid = true →
      (∀ other ∈ world.store.intents.rows, other.id ≠ intent.id →
        ∀ hash, other.txHash ≠ some hash) →
      ∀ choices (execution : Execution (service deployment) Unit),
        (∀ choice ∈ choices, choice = .serve) →
        (StellarObserver.reconcile (intent, owner)).execute (service deployment) choices world =
          some execution →
        World.Settled execution.state intent := by
  intro settles
  have found : (Sample.holding misreported).verdict (findMatchingPayment misreported) =
      .ok { valid := true, txHash := Sample.hash '1', payer := Sample.payer } := by
    rw [verdict_findMatchingPayment]
    decide +kernel
  have missed : (Sample.holding misreported).verdict (StellarObserver.verify misreported) =
      .ok { valid := false, reason := "Transaction not found on-chain" } := by
    have asked : StellarObserver.verify misreported = verifyByHash misreported "unknown" := rfl
    rw [asked, verdict_verifyByHash]
    decide +kernel
  obtain ⟨choices, execution, served, executed⟩ :=
    (reconcile_reconciles (misreported, "alice")).exists_execute (service Sample.deployment)
      (fun call state reconciles => reconciles.served state) (Sample.holding misreported)
  obtain ⟨row, tx, isRow, succeeded, -⟩ := settles Sample.deployment (Sample.holding misreported)
    misreported "alice" _ Sample.found_holding rfl (by decide) (by decide) found rfl
    (fun _ member differ _ => Sample.unclaimed_holding member differ) choices execution served
    executed
  rw [execute_reconcile_of_invalid served missed rfl executed, Sample.found_holding] at isRow
  obtain rfl := Option.some.inj isRow
  cases succeeded

end Reconciliation

end CosmosPay

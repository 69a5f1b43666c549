import CosmosPay.Reconciliation
import CosmosPay.Reports
import CosmosPay.Tables.Turns
import CosmosPay.Ticks

/-!
# What a tick achieves

When nothing fails, an undisturbed tick works its two batches off as two functions of the stored
intents: one expires, the other settles what the chain shows to be paid.  Whatever a run has left
behind, even one that broke off, the next tick catches up with the chain.
-/

namespace CosmosPay

open Awaiting Tables Program PaymentIntents

/-! ## The tick as a function -/

/-- A patch of an intent, unless the database refuses it. -/
def Store.patched (store : Store) (id : String) (patch : PaymentIntentPatch) : Store :=
  match store.update .paymentIntent id patch with
  | .ok (_, patched) => patched
  | .error _ => store

def Store.expired (store : Store) (row : PaymentIntent × String) : Store :=
  store.patched row.1.id expiredPatch

/-- The transaction that the observer accepts for an intent, and who has paid. -/
def World.recognized (world : World) (intent : PaymentIntent) : Option (String × Option String) :=
  match world.verdict (StellarObserver.verify intent) with
  | .ok result =>
      if result.valid then (truthy result.txHash).map fun hash => (hash, result.payer) else none
  | .error _ => none

def Store.reconciled (world : World) (store : Store) (row : PaymentIntent × String) : Store :=
  match world.recognized row.1 with
  | some (hash, payer) => store.patched row.1.id
      (succeededPatch hash payer ((store.intents.find? row.1.id).map PaymentIntent.source))
  | none => store

/-- Horizon answers from the chain only. -/
theorem reconciled_eq {world : World} {other : Store} {running : List Nat} :
    Store.reconciled { world with store := other, running } = Store.reconciled world := by
  have same : World.told { world with store := other, running } = world.told := by
    funext call
    cases call with
    | horizon lookup => cases lookup <;> rfl
    | _ => rfl
  funext store row
  simp only [Store.reconciled, World.recognized, World.verdict, same]

/-- Neither the database nor Horizon rejects anything. -/
def Faultless (choices : List Choice) : Prop :=
  ∀ choice ∈ choices, choice ≠ .reject

section Execution

variable {deployment : Deployment} {world : World} {choices : List Choice} {α : Type}

theorem execute_query_faultless {asked : Query} {next : asked.Answer → Promise α}
    {execution : Execution (service deployment) α} (faultless : Faultless choices)
    (executed : (Promise.query asked >>= next).execute (service deployment) choices world =
      some execution) :
    ∃ order answer rest second, asked.answer order world.store = some answer ∧ Faultless rest ∧
      (next answer).execute (service deployment) rest world = some second ∧
      execution = second.after [⟨.query asked, .ok answer⟩] [] := by
  obtain ⟨choice, rest, served, rfl, performed, ended⟩ := execute_call_bind executed
  obtain ⟨notRejected, faultless⟩ := List.forall_mem_cons.mp faultless
  have answered : (service deployment).perform (.query asked) choice world =
      (asked.answer choice.order world.store).map fun answer => world.reply (.ok answer) := by
    cases choice <;> first | rfl | exact absurd rfl notRejected
  rw [answered] at performed
  obtain ⟨answer, found, rfl⟩ := Option.map_eq_some_iff.mp performed
  obtain ⟨second, continued, rfl⟩ := ended
  exact ⟨choice.order, answer, rest, second, found, faultless, continued, rfl⟩

/-- A patch that is only followed by announcements. -/
theorem state_update {id : String} {patch : PaymentIntentPatch}
    {next : PaymentIntent → Promise α} {execution : Execution (service deployment) α}
    (announces : ∀ row world choices (execution : Execution (service deployment) α),
      (next row).execute (service deployment) choices world = some execution →
        execution.state = world)
    (faultless : Faultless choices)
    (executed : (Promise.write (.update .paymentIntent id patch) >>= next).execute
      (service deployment) choices world = some execution) :
    execution.state = { world with store := world.store.patched id patch } := by
  obtain ⟨choice, rest, ⟨answer, after, spawned⟩, rfl, performed, ended⟩ :=
    execute_call_bind executed
  have written : World.perform (.write (.update .paymentIntent id patch)) choice world =
      some ⟨answer, after, spawned⟩ := performed
  have isCommitted : (⟨answer, after, spawned⟩ : Served signature _ World Request) =
      world.commit (.update .paymentIntent id patch)
        (world.store.update .paymentIntent id patch) := by
    cases choice with
    | reject => exact absurd rfl (faultless _ List.mem_cons_self)
    | serve => exact (Option.some.inj written).symm
    | draw drawn => simp [World.perform, Write.draws] at written
    | _ => cases written
  unfold Store.patched
  cases updated : world.store.update .paymentIntent id patch with
  | error err =>
      rw [updated] at isCommitted
      obtain ⟨rfl, rfl, rfl⟩ := Served.mk.inj isCommitted
      rw [ended]
      rfl
  | ok result =>
      rw [updated] at isCommitted
      obtain ⟨rfl, rfl, rfl⟩ := Served.mk.inj isCommitted
      obtain ⟨second, continued, rfl⟩ := ended
      have same := announces result.1 { world with store := result.2 } _ second continued
      exact same

theorem state_markExpired {id username : String}
    {execution : Execution (service deployment) PaymentIntent} (faultless : Faultless choices)
    (executed : (markExpired id username).execute (service deployment) choices world =
      some execution) :
    execution.state = { world with store := world.store.patched id expiredPatch } := by
  refine state_update (fun row world choices execution continued => ?_) faultless executed
  obtain ⟨rest, second, returned, rfl⟩ := execute_emit_bind continued
  obtain rfl := Option.some.inj returned
  rfl

theorem state_markSucceeded {id username hash : String} {payer : Option String}
    {execution : Execution (service deployment) PaymentIntent} (faultless : Faultless choices)
    (executed : (markSucceeded id username hash payer).execute (service deployment) choices world =
      some execution) :
    execution.state = { world with store := world.store.patched id (succeededPatch hash payer
      ((world.store.intents.find? id).map PaymentIntent.source)) } := by
  obtain ⟨order, source, rest, second, answered, faultless, written, rfl⟩ :=
    execute_query_faultless faultless executed
  obtain rfl := Option.some.inj answered
  change second.state = _
  refine state_update (fun row world choices execution continued => ?_) faultless written
  obtain ⟨rest, emitted, started, rfl⟩ := execute_emit_bind continued
  obtain ⟨rest, last, returned, rfl⟩ := execute_start_bind started
  obtain rfl := Option.some.inj returned
  rfl

/-- The row that is returned does not matter. -/
theorem exists_execute_void {program : Promise α} {execution : Execution (service deployment) Unit}
    (executed : (program >>= fun _ => pure ()).execute (service deployment) choices world =
      some execution) :
    ∃ first, program.execute (service deployment) choices world = some first ∧
      execution.state = first.state := by
  obtain ⟨⟨outcome, after, past, spawned, left⟩, isFirst, ended⟩ := execute_bind executed
  refine ⟨_, isFirst, ?_⟩
  cases outcome with
  | error err => rw [ended]
  | ok value =>
      obtain ⟨second, returned, rfl⟩ := ended
      obtain rfl := Option.some.inj returned
      rfl

theorem state_expireBody {row : PaymentIntent × String}
    {execution : Execution (service deployment) Unit} (faultless : Faultless choices)
    (executed : (expireBody row).execute (service deployment) choices world = some execution) :
    execution.state = { world with store := world.store.expired row } := by
  obtain ⟨first, marked, same⟩ := exists_execute_void executed
  exact same.trans (state_markExpired faultless marked)

/-- Where Horizon rejects nothing, a verification ends with the verdict. -/
theorem execute_verdict_faultless {verifies : Promise VerificationResult}
    (calls : verifies.Calls Call.IsHorizon) (faultless : Faultless choices)
    {execution : Execution (service deployment) VerificationResult}
    (executed : verifies.execute (service deployment) choices world = some execution) :
    execution.outcome = world.verdict verifies ∧ execution.state = world := by
  refine calls.execute_eq (fun {call choice answer} isHorizon member performed => ?_) executed
  cases call with
  | horizon lookup =>
      cases choice with
      | reject => exact absurd rfl (faultless _ member)
      | serve =>
          obtain rfl := Option.some.inj performed
          exact ⟨rfl, rfl⟩
      | _ => cases performed
  | _ => exact isHorizon.elim

theorem state_reconcile {row : PaymentIntent × String}
    {execution : Execution (service deployment) Unit} (faultless : Faultless choices)
    (executed : (StellarObserver.reconcile row).execute (service deployment) choices world =
      some execution) :
    execution.state = { world with store := world.store.reconciled world row } := by
  obtain ⟨intent, owner⟩ := row
  obtain ⟨first, verified, ended⟩ := execute_bind executed
  obtain ⟨isOutcome, isState⟩ :=
    execute_verdict_faultless (calls_verify intent) faultless verified
  obtain ⟨used, rfl, -⟩ := execute_uses verified
  have rest : Faultless first.choices := fun choice member =>
    faultless choice (List.mem_append_right used member)
  obtain ⟨outcome, state, past, spawned, left⟩ := first
  obtain rfl : state = world := isState
  have verdict : World.verdict state (StellarObserver.verify intent) = outcome := isOutcome.symm
  unfold Store.reconciled
  cases outcome with
  | error err =>
      have unrecognized : World.recognized state intent = none := by
        simp [World.recognized, verdict]
      rw [ended, unrecognized]
      rfl
  | ok result =>
      obtain ⟨second, continued, rfl⟩ := ended
      cases valid : result.valid with
      | false =>
          have unrecognized : World.recognized state intent = none := by
            simp [World.recognized, verdict, valid]
          simp only [valid] at continued
          obtain rfl := Option.some.inj continued
          rw [unrecognized]
          rfl
      | true =>
          have recognizes : World.recognized state intent =
              (truthy result.txHash).map fun hash => (hash, result.payer) := by
            simp [World.recognized, verdict, valid]
          rw [recognizes]
          cases hashed : truthy result.txHash with
          | none =>
              simp only [valid, hashed] at continued
              obtain rfl := Option.some.inj continued
              rfl
          | some hash =>
              simp only [valid, hashed] at continued
              obtain ⟨marking, marked, same⟩ := exists_execute_void continued
              exact same.trans (state_markSucceeded rest marked)

theorem reconciles {store : Store} {row : PaymentIntent × String}
    {execution : Execution (service deployment) Unit} (faultless : Faultless choices)
    (executed : (StellarObserver.reconcile row).execute (service deployment) choices
      { world with store } = some execution) :
    execution.state = { world with store := store.reconciled world row } := by
  have same : Store.reconciled { world with store } = Store.reconciled world := reconciled_eq
  have worked := state_reconcile faultless executed
  rwa [same] at worked

theorem Faultless.left {program : Promise α} {execution : Execution (service deployment) α}
    (faultless : Faultless choices)
    (executed : program.execute (service deployment) choices world = some execution) :
    Faultless execution.choices := by
  obtain ⟨used, rfl, -⟩ := execute_uses executed
  exact fun choice member => faultless choice (List.mem_append_right used member)

/-- A pass over the rows that its query lists. -/
theorem state_pass {asked : Query} {listing : asked.Answer → List (PaymentIntent × String)}
    {body : PaymentIntent × String → Promise Unit} {before : Store}
    (effect : Store → PaymentIntent × String → Store)
    (works : ∀ row store choices (execution : Execution (service deployment) Unit),
      Faultless choices →
      (body row).execute (service deployment) choices { world with store } = some execution →
        execution.state = { world with store := effect store row })
    {execution : Execution (service deployment) Unit} (faultless : Faultless choices)
    (executed : (Promise.query asked >>= fun listed =>
      (listing listed).forM fun row => caught (body row)).execute (service deployment) choices
        { world with store := before } = some execution) :
    ∃ order listed, asked.answer order before = some listed ∧ execution.outcome = .ok () ∧
      execution.state = { world with store := (listing listed).foldl effect before } := by
  obtain ⟨order, listed, rest, second, answered, faultless, looped, rfl⟩ :=
    execute_query_faultless faultless executed
  obtain ⟨attempts, batch, rfl, outcome, -⟩ := Awaiting.Batch.of_execute looped
  refine ⟨order, listed, answered, outcome, ?_⟩
  refine batch.simulates (fun store => { world with store }) effect
    (fun attempt member store before => ?_) rfl
  have worked := batch.executed member
  rw [before] at worked
  refine works attempt.item store attempt.choices attempt.execution (fun choice chosen => ?_) worked
  exact faultless choice (List.mem_append_left _ (List.mem_flatMap.mpr ⟨attempt, member, chosen⟩))

theorem execute_passes_faultless {execution : Execution (service deployment) Unit}
    (faultless : Faultless choices)
    (executed : (StellarObserver.expiryPass deployment >>= fun _ =>
      StellarObserver.reconcilePass deployment).execute (service deployment) choices world =
        some execution) :
    ∃ order expired order' pending,
      (Query.expiredIntents world.clock deployment.config.batchSize).answer order world.store =
        some expired ∧
      (Query.pendingIntents deployment.config.batchSize).answer order'
        (expired.foldl Store.expired world.store) = some pending ∧
      execution.state = { world with
        store := pending.foldl (Store.reconciled world) (expired.foldl Store.expired world.store) }
    := by
  obtain ⟨⟨outcome, after, past, spawned, left⟩, isExpiry, ended⟩ := execute_bind executed
  have rest : Faultless left := faultless.left isExpiry
  obtain ⟨choice, others, served, rfl, performed, asked⟩ := execute_call_bind isExpiry
  have told : World.perform .now choice world = some served := performed
  obtain rfl := World.perform_now told
  obtain ⟨second, passed, isSecond⟩ := asked
  rw [expire_eq_caught] at passed
  obtain ⟨order, expired, answered, isOutcome, isState⟩ :=
    state_pass Store.expired (fun row store choices execution => state_expireBody)
      (List.forall_mem_cons.mp faultless).2 passed
  obtain rfl : outcome = .ok () := (congrArg Execution.outcome isSecond).trans isOutcome
  obtain rfl : after = { world with store := expired.foldl Store.expired world.store } :=
    (congrArg Execution.state isSecond).trans isState
  obtain ⟨last, reconciled, rfl⟩ := ended
  obtain ⟨order', pending, listed, -, settles⟩ :=
    state_pass (Store.reconciled world) (fun row store choices execution => reconciles) rest
      reconciled
  exact ⟨order, expired, order', pending, answered, listed, settles⟩

/-- An undisturbed tick in which nothing fails. -/
theorem execute_tick_faultless {node : Nat} {execution : Execution (service deployment) Unit}
    (free : node ∉ world.running) (faultless : Faultless choices)
    (executed : (StellarObserver.tick deployment node).execute (service deployment) choices world =
      some execution) :
    ∃ order expired order' pending running,
      (Query.expiredIntents world.clock deployment.config.batchSize).answer order world.store =
        some expired ∧
      (Query.pendingIntents deployment.config.batchSize).answer order'
        (expired.foldl Store.expired world.store) = some pending ∧
      execution.state = { world with
        store := pending.foldl (Store.reconciled world) (expired.foldl Store.expired world.store)
        running } := by
  obtain ⟨choice, rest, served, rfl, performed, ended⟩ := execute_call_bind executed
  have rest' : Faultless rest := (List.forall_mem_cons.mp faultless).2
  cases choice with
  | serve =>
      have entered : World.perform (.enterTick node) .serve world = some served := performed
      simp only [World.perform, if_neg free] at entered
      obtain rfl := Option.some.inj entered
      obtain ⟨second, guarded, rfl⟩ := ended
      obtain ⟨first, isFirst, ended⟩ := execute_bind guarded
      obtain ⟨cycle, isCycle, rfl⟩ := execute_caught isFirst
      obtain ⟨order, expired, order', pending, answered, listed, passed⟩ :=
        execute_passes_faultless rest' isCycle
      obtain ⟨last, left, rfl⟩ := ended
      obtain ⟨choice, rest, served, later, isRest, released, returned, rfl⟩ := execute_await left
      cases choice with
      | serve =>
          obtain rfl := Option.some.inj released
          obtain rfl := Option.some.inj returned
          refine ⟨order, expired, order', pending,
            (World.running cycle.state).filter (· ≠ node), answered, listed, ?_⟩
          change { cycle.state with running := (World.running cycle.state).filter (· ≠ node) } = _
          rw [passed, reconciled_eq]
      | _ => cases released
  | _ => cases performed

end Execution

/-! ## Patches, one after the other -/

/-- The stored intent. -/
abbrev Store.intent? (store : Store) (id : String) : Option PaymentIntent :=
  store.find? .paymentIntent id

def rowId (row : PaymentIntent × String) : String :=
  row.1.id

/-- Rows are listed as they are stored, each once. -/
abbrev Store.Enumerates (store : Store) (batch : List (PaymentIntent × String)) : Prop :=
  Shown Store.intent? rowId (fun row => some row.1) store batch

section Patches

theorem patched_cases (store : Store) (id : String) (patch : PaymentIntentPatch) :
    store.patched id patch = store ∨
      ∃ old, Store.Updated store (store.patched id patch) .paymentIntent id patch old := by
  unfold Store.patched
  cases updated : store.update .paymentIntent id patch with
  | error err => exact .inl rfl
  | ok result =>
      obtain ⟨old, -, change⟩ := Store.update_eq_ok updated
      exact .inr ⟨old, change⟩

variable {store : Store} {id other : String} {patch : PaymentIntentPatch}

theorem intent?_patched_of_ne (differ : id ≠ other) :
    (store.patched id patch).intent? other = store.intent? other := by
  rcases patched_cases store id patch with same | ⟨old, change⟩
  · rw [same]
  · exact (change.lookup other).trans (if_neg differ)

theorem consumers_patched : (store.patched id patch).consumers = store.consumers := by
  rcases patched_cases store id patch with same | ⟨old, change⟩
  · rw [same]
  · exact change.consumers

theorem intent?_patched {intent : PaymentIntent} (stored : store.intent? id = some intent)
    (given : patch.status ≠ .null)
    (free : PaymentIntent.txHash (Model.apply .paymentIntent patch intent) = intent.txHash ∨
      ∀ other ∈ store.intents.rows, other.id ≠ id → other.txHash ≠ none →
        other.txHash ≠ PaymentIntent.txHash (Model.apply .paymentIntent patch intent)) :
    (store.patched id patch).intent? id = some (Model.apply .paymentIntent patch intent) := by
  obtain ⟨row, patched, updated⟩ := exists_update_intent stored given free
  obtain ⟨old, -, change⟩ := Store.update_eq_ok updated
  obtain rfl : old = intent := Option.some.inj (change.found.symm.trans stored)
  simp only [Store.patched, updated]
  exact (change.lookup id).trans (if_pos rfl)

theorem local_expired : Local Store.intent? rowId Store.expired :=
  fun _ _ _ differ => intent?_patched_of_ne differ

theorem local_reconciled (world : World) :
    Local Store.intent? rowId (Store.reconciled world) := by
  intro store row id differ
  unfold Store.reconciled
  split
  · exact intent?_patched_of_ne differ
  · rfl

end Patches

/-! ## The expiry pass -/

section ExpiryPass

variable {store : Store} {batch : List (PaymentIntent × String)}

theorem consumers_expired : (batch.foldl Store.expired store).consumers = store.consumers := by
  induction batch generalizing store with
  | nil => rfl
  | cons row batch ih => exact ih.trans consumers_patched

/-- All intents of the batch expire. -/
theorem intent?_expired (lists : store.Enumerates batch) {row : PaymentIntent × String}
    (member : row ∈ batch) : (batch.foldl Store.expired store).intent? row.1.id =
      some { row.1 with status := .expired } := by
  obtain ⟨before, found, isLeft⟩ := lists.exists_left local_expired member
  exact isLeft.trans (intent?_patched found (by simp [expiredPatch]) (.inl rfl))

/-- What is pending after the pass was so before. -/
theorem intent?_of_expired (lists : store.Enumerates batch) {id : String} {intent : PaymentIntent}
    (found : (batch.foldl Store.expired store).intent? id = some intent)
    (unexpired : intent.status ≠ .expired) : store.intent? id = some intent := by
  by_cases listed : id ∈ batch.map rowId
  · obtain ⟨row, member, rfl⟩ := List.mem_map.mp listed
    obtain rfl := Option.some.inj (found.symm.trans (intent?_expired lists member))
    exact absurd rfl unexpired
  · rwa [local_expired.foldl_of_not_mem listed] at found

end ExpiryPass

/-! ## The reconciling pass -/

section ReconcilingPass

variable {world : World} {store : Store} {batch : List (PaymentIntent × String)}
variable {intent : PaymentIntent} {owner hash : String} {payer : Option String}

theorem exists_verdict_of_recognized (recognizes : world.recognized intent = some (hash, payer)) :
    ∃ result, world.verdict (StellarObserver.verify intent) = .ok result ∧ result.valid = true ∧
      result.txHash = some hash ∧ hash ≠ "" := by
  unfold World.recognized at recognizes
  split at recognizes
  · rename_i result verdict
    obtain ⟨valid, named⟩ := Option.ite_none_right_eq_some.mp recognizes
    obtain ⟨other, isTruthy, same⟩ := Option.map_eq_some_iff.mp named
    obtain ⟨rfl, -⟩ := Prod.mk.inj same
    exact ⟨result, verdict, valid, truthy_eq_some.mp isTruthy⟩
  · cases recognizes

/-- What is recognized is on the chain and fulfils the intent. -/
theorem exists_tx_of_recognized (recognizes : world.recognized intent = some (hash, payer)) :
    ∃ tx, tx.hash = hash ∧ world.ledger.find? (intent.network, tx.hash) = some tx ∧
      tx.Fulfils intent := by
  obtain ⟨result, verdict, valid, isHash, -⟩ := exists_verdict_of_recognized recognizes
  unfold StellarObserver.verify at verdict
  split at verdict
  · obtain ⟨hashed, tx, landed, fulfils⟩ := paidBy_of_confirmed verdict valid
    obtain rfl := Option.some.inj (hashed.symm.trans isHash)
    have same : tx.hash = _ := congrArg Prod.snd (Table.key_of_find? landed)
    exact ⟨tx, same, same ▸ landed, fulfils⟩
  · obtain ⟨tx, hashed, landed, fulfils⟩ := paidBy_of_detected verdict valid
    exact ⟨tx, Option.some.inj (hashed.symm.trans isHash), landed, fulfils⟩

/-- An intent that reports a hash is recognized by no other. -/
theorem hash_of_reported {reported : String} (isReported : intent.txHash = some reported)
    (given : reported ≠ "") (recognizes : world.recognized intent = some (hash, payer)) :
    hash = reported := by
  have isTruthy : truthy intent.txHash = some reported := truthy_eq_some.mpr ⟨isReported, given⟩
  have byHash : StellarObserver.verify intent = StellarVerifier.verifyByHash intent reported := by
    unfold StellarObserver.verify
    rw [isTruthy]
  obtain ⟨result, verdict, valid, isHash, -⟩ := exists_verdict_of_recognized recognizes
  rw [byHash] at verdict
  obtain ⟨hashed, -⟩ := paidBy_of_confirmed verdict valid
  exact Option.some.inj (isHash.symm.trans hashed)

/-- Another intent holds the hash. -/
def Store.HeldByOther (store : Store) (id hash : String) : Prop :=
  ∃ other : PaymentIntent, other.id ≠ id ∧ store.intent? other.id = some other ∧
    other.txHash = some hash

/-- A hash that an intent has reported stays with it. -/
theorem heldByOther_reconciled {id : String} {row : PaymentIntent × String} (given : hash ≠ "")
    (stored : store.intent? row.1.id = some row.1) (held : store.HeldByOther id hash) :
    (store.reconciled world row).HeldByOther id hash := by
  obtain ⟨other, differ, found, isHash⟩ := held
  by_cases same : row.1.id = other.id
  · obtain rfl : other = row.1 := by
      rw [same, found] at stored
      exact Option.some.inj stored
    unfold Store.reconciled
    split
    · rename_i named payer recognizes
      obtain rfl := hash_of_reported isHash given recognizes
      rcases patched_cases store row.1.id (succeededPatch named payer
        ((store.intents.find? row.1.id).map PaymentIntent.source)) with unchanged | ⟨old, change⟩
      · rw [unchanged]
        exact ⟨row.1, differ, found, isHash⟩
      · have isId : old.id = row.1.id := Table.key_of_find? change.found
        refine ⟨Model.apply .paymentIntent _ old, ?_, (change.lookup _).trans (if_pos ?_),
          txHash_succeededPatch⟩
        · exact fun isSame => differ (isId.symm.trans isSame)
        · exact isId.symm
    · exact ⟨row.1, differ, found, isHash⟩
  · exact ⟨other, differ, (local_reconciled world store row other.id same).trans found, isHash⟩

/-- On its turn an intent that is recognized settles, unless another holds its hash. -/
theorem reconciled_of_recognized (stored : store.intent? intent.id = some intent)
    (recognizes : world.recognized intent = some (hash, payer)) :
    (∃ row, (store.reconciled world (intent, owner)).intent? intent.id = some row ∧
      row.status = .succeeded ∧ row.txHash = some hash) ∨
    (store.reconciled world (intent, owner)).HeldByOther intent.id hash := by
  have isPatch : store.reconciled world (intent, owner) = store.patched intent.id (succeededPatch
      hash payer ((store.intents.find? intent.id).map PaymentIntent.source)) := by
    simp only [Store.reconciled, recognizes]
  rw [isPatch]
  by_cases held : store.HeldByOther intent.id hash
  · obtain ⟨other, differ, found, isHash⟩ := held
    exact .inr ⟨other, differ, (intent?_patched_of_ne (Ne.symm differ)).trans found, isHash⟩
  · refine .inl ⟨_, intent?_patched stored (by simp [succeededPatch]) (.inr ?_),
      status_succeededPatch, txHash_succeededPatch⟩
    intro other member differ _ same
    rw [txHash_succeededPatch] at same
    exact held ⟨other, differ, Table.find?_key member, same⟩

/-- After the pass a recognized intent has settled, or another holds its hash. -/
theorem foldl_reconciled_of_recognized (lists : store.Enumerates batch)
    (member : (intent, owner) ∈ batch)
    (recognizes : world.recognized intent = some (hash, payer)) :
    (∃ row, (batch.foldl (Store.reconciled world) store).intent? intent.id = some row ∧
      row.status = .succeeded ∧ row.txHash = some hash) ∨
    (batch.foldl (Store.reconciled world) store).HeldByOther intent.id hash := by
  obtain ⟨before, later, isFold, turn⟩ := lists.exists_turn (local_reconciled world) member
  have stored : before.intent? intent.id = some intent := turn.shown _ List.mem_cons_self
  have absent : intent.id ∉ later.map rowId := (List.nodup_cons.mp turn.distinct).1
  rw [isFold]
  rcases reconciled_of_recognized stored recognizes with ⟨row, found, settled⟩ | held
  · exact .inl ⟨row, ((local_reconciled world).foldl_of_not_mem absent).trans found, settled⟩
  · obtain ⟨_, _, _, _, given⟩ := exists_verdict_of_recognized recognizes
    exact .inr ((turn.tail (local_reconciled world)).invariant (local_reconciled world)
      (fun store row found held => heldByOther_reconciled given found held) held)

/-- An intent that is not recognized stays as it is. -/
theorem foldl_reconciled_of_unrecognized (world : World) (lists : store.Enumerates batch)
    (stored : store.intent? intent.id = some intent)
    (unrecognized : ∀ owner, (intent, owner) ∈ batch → world.recognized intent = none) :
    (batch.foldl (Store.reconciled world) store).intent? intent.id = some intent := by
  by_cases listed : intent.id ∈ batch.map rowId
  · obtain ⟨⟨row, owner⟩, member, isId⟩ := List.mem_map.mp listed
    have isRow : store.intent? row.id = some row := lists.shown _ member
    obtain rfl : row = intent := by
      rw [show row.id = intent.id from isId, stored] at isRow
      exact (Option.some.inj isRow).symm
    obtain ⟨before, found, isLeft⟩ := lists.exists_left (local_reconciled world) member
    have same : before.reconciled world (row, owner) = before := by
      simp only [Store.reconciled, unrecognized owner member]
    rw [same] at isLeft
    exact isLeft.trans found
  · exact ((local_reconciled world).foldl_of_not_mem listed).trans stored

end ReconcilingPass

/-! ## The batches -/

/-- The intent is unpaid and past its lifetime. -/
def PaymentIntent.Overdue (now : Nat) (intent : PaymentIntent) : Prop :=
  (intent.status = .pending ∨ intent.status = .submitted) ∧
    intent.expiresAt.any (fun expiresAt => expiresAt < now) = true

instance (now : Nat) (intent : PaymentIntent) : Decidable (intent.Overdue now) :=
  inferInstanceAs (Decidable (_ ∧ _))

/-- At most `take` intents are pending for at least as long, the intent itself among them. -/
def Store.AmongOldest (store : Store) (take : Nat) (intent : PaymentIntent) : Prop :=
  store.intents.rows.countP (fun other =>
    other.status = .pending ∧ other.createdAt ≤ intent.createdAt) ≤ take

instance (store : Store) (take : Nat) (intent : PaymentIntent) :
    Decidable (store.AmongOldest take intent) :=
  inferInstanceAs (Decidable (_ ≤ _))

section Batches

variable {store : Store} {now take : Nat} {order : List String}
variable {batch : List (PaymentIntent × String)} {intent : PaymentIntent}

theorem exists_mem_withConsumer {rows : List PaymentIntent} (member : intent ∈ rows)
    (owned : (store.consumers.find? intent.consumerId).isSome = true) :
    ∃ owner, (intent, owner) ∈ store.withConsumer rows := by
  obtain ⟨owner, found⟩ := Option.isSome_iff_exists.mp owned
  exact ⟨owner.apisixUsername, List.mem_filterMap.mpr ⟨intent, member, by rw [found]; rfl⟩⟩

theorem nodup_filter_ids (keep : PaymentIntent → Bool) :
    ((store.intents.rows.filter keep).map PaymentIntent.id).Nodup :=
  store.intents.nodup_keys.sublist (List.filter_sublist.map _)

/-- The expiry batch lists overdue intents as they are stored. -/
theorem lists_of_expired
    (answered : (Query.expiredIntents now take).answer order store = some batch) :
    store.Enumerates batch ∧ ∀ row ∈ batch, row.1.Overdue now := by
  obtain ⟨arranged, isArranged, rfl⟩ := Option.map_eq_some_iff.mp answered
  obtain ⟨distinct, kept⟩ := batch_of_arranged take isArranged
  exact ⟨⟨fun row member => Table.find?_key (kept row member).1, distinct⟩,
    fun row member => of_decide_eq_true (kept row member).2⟩

theorem lists_of_pending
    (answered : (Query.pendingIntents take).answer order store = some batch) :
    store.Enumerates batch ∧ ∀ row ∈ batch, row.1.status = .pending := by
  obtain ⟨arranged, isArranged, rfl⟩ := Option.map_eq_some_iff.mp answered
  obtain ⟨distinct, kept⟩ := batch_of_arranged take (Option.filter_eq_some_iff.mp isArranged).1
  exact ⟨⟨fun row member => Table.find?_key (kept row member).1, distinct⟩,
    fun row member => of_decide_eq_true (kept row member).2⟩

/-- If all overdue intents fit the batch, it lists all of them. -/
theorem exists_mem_expired
    (answered : (Query.expiredIntents now take).answer order store = some batch)
    (fits : store.intents.rows.countP (fun other => other.Overdue now) ≤ take)
    (member : intent ∈ store.intents.rows) (overdue : intent.Overdue now)
    (owned : (store.consumers.find? intent.consumerId).isSome = true) :
    ∃ owner, (intent, owner) ∈ batch := by
  obtain ⟨arranged, isArranged, rfl⟩ := Option.map_eq_some_iff.mp answered
  have perm := (exists_arrange?_iff (nodup_filter_ids _)).mp ⟨order, isArranged⟩
  have shorter : arranged.length ≤ take := by
    rw [perm.length_eq, ← List.countP_eq_length_filter]
    exact fits
  rw [List.take_of_length_le shorter]
  refine exists_mem_withConsumer (perm.mem_iff.mpr ?_) owned
  exact List.mem_filter.mpr ⟨member, decide_eq_true overdue⟩

/-- The batch is cut out of the pending intents, the oldest first. -/
theorem exists_listing_of_pending
    (answered : (Query.pendingIntents take).answer order store = some batch) :
    ∃ arranged, Listing (fun row : PaymentIntent => (row.createdAt : Int))
        (store.intents.rows.filter fun row => row.status = .pending) arranged ∧
      batch = store.withConsumer (arranged.take take) := by
  obtain ⟨arranged, isArranged, rfl⟩ := Option.map_eq_some_iff.mp answered
  obtain ⟨perm, sorted⟩ := (exists_arrangeBy?_iff (nodup_filter_ids _)).mp ⟨order, isArranged⟩
  exact ⟨arranged, ⟨perm, sorted⟩, rfl⟩

/-- The oldest intents are in the batch. -/
theorem exists_mem_pending
    (answered : (Query.pendingIntents take).answer order store = some batch)
    (oldest : store.AmongOldest take intent) (member : intent ∈ store.intents.rows)
    (pending : intent.status = .pending)
    (owned : (store.consumers.find? intent.consumerId).isSome = true) :
    ∃ owner, (intent, owner) ∈ batch := by
  obtain ⟨arranged, listing, rfl⟩ := exists_listing_of_pending answered
  have listed : intent ∈ arranged :=
    listing.perm.mem_iff.mpr (List.mem_filter.mpr ⟨member, decide_eq_true pending⟩)
  obtain ⟨index, isIndex⟩ := List.mem_iff_getElem?.mp listed
  have early := (listing.le_iff isIndex intent.createdAt).mp le_rfl
  have few : index < take := by
    refine early.trans_le ?_
    rw [List.countP_filter]
    refine Nat.le_trans (Nat.le_of_eq (List.countP_congr fun other _ => ?_)) oldest
    simp [and_comm]
  refine exists_mem_withConsumer (List.mem_of_getElem? (i := index) ?_) owned
  rw [List.getElem?_take_of_lt few, isIndex]

end Batches

/-! ## Catching up -/

/-- A transaction that fulfils the intent is recorded: the intent has succeeded with it, or it
is the transaction of another intent. -/
def World.Recorded (world : World) (intent : PaymentIntent) : Prop :=
  ∃ (row : PaymentIntent) (tx : Transaction), world.store.intents.find? row.id = some row ∧
    row.txHash = some tx.hash ∧ world.ledger.find? (intent.network, tx.hash) = some tx ∧
    tx.Fulfils intent ∧ (row.id = intent.id → row.status = .succeeded)

section CatchingUp

variable {world : World} {now take : Nat} {order order' : List String}
variable {expired pending : List (PaymentIntent × String)} {intent : PaymentIntent}

/-- Expiring makes no intent wait longer. -/
theorem amongOldest_expired {store : Store} (lists : store.Enumerates expired)
    (oldest : store.AmongOldest take intent) :
    (expired.foldl Store.expired store).AmongOldest take intent := by
  refine le_trans ?_ oldest
  rw [List.countP_eq_length_filter, List.countP_eq_length_filter]
  refine (List.subperm_of_subset ?_ fun row listed => ?_).length_le
  · exact (nodup_filter_ids _).of_map
  · obtain ⟨member, kept⟩ := List.mem_filter.mp listed
    have isPending : row.status = .pending := (of_decide_eq_true kept).1
    have found := intent?_of_expired lists (Table.find?_key member) (by rw [isPending]; decide)
    exact List.mem_filter.mpr ⟨Table.mem_of_find? found, kept⟩

variable (answered : (Query.expiredIntents now take).answer order world.store = some expired)
variable (listed : (Query.pendingIntents take).answer order'
  (expired.foldl Store.expired world.store) = some pending)
variable (stored : intent ∈ world.store.intents.rows)

include answered stored

theorem waiting_unchanged (waiting : ¬ intent.Overdue now) :
    (expired.foldl Store.expired world.store).intent? intent.id = some intent := by
  have found : world.store.intent? intent.id = some intent := Table.find?_key stored
  obtain ⟨lists, areOverdue⟩ := lists_of_expired answered
  rw [local_expired.foldl_of_not_mem, found]
  intro isListed
  obtain ⟨row, member, isId⟩ := List.mem_map.mp isListed
  have isRow : world.store.intent? row.1.id = some row.1 := lists.shown row member
  rw [show row.1.id = intent.id from isId, found] at isRow
  exact waiting (Option.some.inj isRow ▸ areOverdue row member)

include listed

theorem overdue_expires (overdue : intent.Overdue now)
    (fits : world.store.intents.rows.countP (fun other => other.Overdue now) ≤ take)
    (owned : (world.store.consumers.find? intent.consumerId).isSome = true) :
    (pending.foldl (Store.reconciled world) (expired.foldl Store.expired world.store)).intent?
      intent.id = some { intent with status := .expired } := by
  obtain ⟨owner, member⟩ := exists_mem_expired answered fits stored overdue owned
  obtain ⟨row, isRow, gone⟩ : ∃ row : PaymentIntent, row = { intent with status := .expired } ∧
      (expired.foldl Store.expired world.store).intent? row.id = some row :=
    ⟨_, rfl, intent?_expired (lists_of_expired answered).1 member⟩
  have kept := foldl_reconciled_of_unrecognized world (lists_of_pending listed).1 gone
    fun owner member => by
      have isPending := (lists_of_pending listed).2 _ member
      rw [isRow] at isPending
      cases isPending
  rw [isRow] at kept
  exact kept

theorem unrecognized_unchanged (waiting : ¬ intent.Overdue now)
    (unrecognized : intent.status ≠ .pending ∨ world.recognized intent = none) :
    (pending.foldl (Store.reconciled world) (expired.foldl Store.expired world.store)).intent?
      intent.id = some intent := by
  have found := waiting_unchanged answered stored waiting
  refine foldl_reconciled_of_unrecognized world (lists_of_pending listed).1 found
    fun owner member => ?_
  rcases unrecognized with settled | unrecognized
  · exact absurd ((lists_of_pending listed).2 _ member) settled
  · exact unrecognized

theorem recognized_recorded (waiting : ¬ intent.Overdue now) (isPending : intent.status = .pending)
    (oldest : world.store.AmongOldest take intent)
    (recognized : (world.recognized intent).isSome = true)
    (owned : (world.store.consumers.find? intent.consumerId).isSome = true) {after : World}
    (isStore : after.store =
      pending.foldl (Store.reconciled world) (expired.foldl Store.expired world.store))
    (isLedger : after.ledger = world.ledger) : after.Recorded intent := by
  obtain ⟨⟨hash, payer⟩, recognizes⟩ := Option.isSome_iff_exists.mp recognized
  obtain ⟨tx, rfl, landed, fulfils⟩ := exists_tx_of_recognized recognizes
  have found := waiting_unchanged answered stored waiting
  obtain ⟨owner, member⟩ := exists_mem_pending listed
    (amongOldest_expired (lists_of_expired answered).1 oldest) (Table.mem_of_find? found) isPending
    (by rwa [consumers_expired])
  rw [← isLedger] at landed
  rcases foldl_reconciled_of_recognized (lists_of_pending listed).1 member recognizes with
    ⟨row, isRow, succeeded, isHash⟩ | ⟨other, differ, isOther, isHash⟩
  · rw [← isStore] at isRow
    have isId : row.id = intent.id := Table.key_of_find? isRow
    exact ⟨row, tx, isId ▸ isRow, isHash, landed, fulfils, fun _ => succeeded⟩
  · rw [← isStore] at isOther
    exact ⟨other, tx, isOther, isHash, landed, fulfils, fun same => absurd same differ⟩

end CatchingUp

section Tick

variable {deployment : Deployment} {node : Nat}

/-- Everything that a tick asks for can be served. -/
theorem Call.Observes.served {call : Call} (observes : call.Observes) (world : World) :
    ∃ choice served, choice ≠ .reject ∧ world.perform call choice = some served := by
  cases call with
  | query asked =>
      cases asked with
      | expiredIntents now take =>
          obtain ⟨order, arranged⟩ := (exists_arrange?_iff
            (nodup_filter_ids fun intent => intent.Overdue now)).mpr (List.Perm.refl _)
          exact ⟨.arrange order, _, nofun, Option.map_eq_some_iff.mpr
            ⟨_, Option.map_eq_some_iff.mpr ⟨_, arranged, rfl⟩, rfl⟩⟩
      | pendingIntents take =>
          obtain ⟨rows, isListed⟩ := exists_listedBy
            (fun row : PaymentIntent => (row.createdAt : Int))
            (world.store.intents.rows.filter fun row => row.status = .pending)
          obtain ⟨order, arranged⟩ := (exists_arrangeBy?_iff (nodup_filter_ids _)).mpr isListed
          exact ⟨.arrange order, _, nofun, Option.map_eq_some_iff.mpr
            ⟨_, Option.map_eq_some_iff.mpr ⟨_, arranged, rfl⟩, rfl⟩⟩
      | intentSource id => exact ⟨.serve, _, nofun, rfl⟩
      | _ => exact observes.elim
  | write statement =>
      cases statement with
      | update model id patch => exact ⟨.serve, _, nofun, rfl⟩
      | _ => exact observes.elim
  | enterTick node =>
      by_cases taken : node ∈ world.running
      · exact ⟨.serve, _, nofun, if_pos taken⟩
      · exact ⟨.serve, _, nofun, if_neg taken⟩
  | horizon _ | now | leaveTick _ | emit _ | start _ => exact ⟨.serve, _, nofun, rfl⟩
  | _ => exact observes.elim

/-- Whatever a run has left behind, a tick that nothing disturbs and in which nothing fails
catches up.  Of all stored intents, those past their lifetime expire; those among the oldest
pending ones whose payment the chain shows are settled, or their transaction belongs to another
intent; and those that are neither past their lifetime nor pending and paid stay as they are. -/
theorem tick_catches_up {allows : Config (service deployment) → Label (service deployment) → Prop}
    {config : Config (service deployment)} {state : World} (start : state.store = .empty)
    (run : Run allows (Config.initial state) config) (free : node ∉ World.running config.state) :
    (∃ choices execution, Faultless choices ∧ (StellarObserver.tick deployment node).execute
      (service deployment) choices config.state = some execution) ∧
    ∀ choices (execution : Execution (service deployment) Unit), Faultless choices →
      (StellarObserver.tick deployment node).execute (service deployment) choices config.state =
        some execution →
      ∀ intent ∈ (World.store config.state).intents.rows,
        (intent.Overdue (World.clock config.state) →
          (World.store config.state).intents.rows.countP
            (fun other => other.Overdue (World.clock config.state)) ≤ deployment.config.batchSize →
          (World.store execution.state).intents.find? intent.id =
            some { intent with status := .expired }) ∧
        (¬ intent.Overdue (World.clock config.state) → intent.status = .pending →
          (World.store config.state).AmongOldest deployment.config.batchSize intent →
          (World.recognized config.state intent).isSome = true →
          World.Recorded execution.state intent) ∧
        (¬ intent.Overdue (World.clock config.state) →
          intent.status ≠ .pending ∨ World.recognized config.state intent = none →
          (World.store execution.state).intents.find? intent.id = some intent) := by
  constructor
  · obtain ⟨choices, execution, faultless, executed⟩ := (observes_tick node).exists_execute
      (service deployment) (fun call state observes => observes.served state) config.state
    exact ⟨choices, execution, faultless, executed⟩
  intro choices execution faultless executed intent stored
  obtain ⟨order, expired, order', pending, running, answered, listed, isState⟩ :=
    execute_tick_faultless free faultless executed
  have owned := parented_of_run run start .paymentIntent nofun intent stored
  have isStore := congrArg World.store isState
  refine ⟨fun overdue fits => ?_, fun waiting isPending oldest recognized => ?_,
    fun waiting unrecognized => ?_⟩
  · rw [isStore]
    exact overdue_expires answered listed stored overdue fits owned
  · exact recognized_recorded answered listed stored waiting isPending oldest recognized owned
      isStore (by rw [isState])
  · rw [isStore]
    exact unrecognized_unchanged answered listed stored waiting unrecognized

end Tick

/-- A validation and a tick have found the payment, and were cut off. -/
def abandoned : Config (service Sample.deployment) :=
  after (fun _ _ => true)
    (Sample.create 0 "alice" "7" "c" "pi" ++ Sample.validate "alice" "pi" '1' ::
      Sample.serve 2 3 ++ .issue (.tick 0) :: Sample.serve 3 2)
    Sample.start

theorem tick_catches_up_of_abandoned : ∃ row, ∃ choices execution,
    abandoned.state.store.intents.find? "pi" = some row ∧ row.status = .pending ∧
      (StellarObserver.tick Sample.deployment 1).execute (service Sample.deployment) choices
        abandoned.state = some execution ∧ World.Recorded execution.state row := by
  have shown : (abandoned.state.store.intents.find? "pi").map (fun row =>
      decide (row.status = .pending ∧ ¬ row.Overdue abandoned.state.clock ∧
        abandoned.state.store.AmongOldest Sample.deployment.config.batchSize row ∧
        (World.recognized abandoned.state row).isSome = true)) = some true := by
    decide +kernel
  obtain ⟨row, found, decided⟩ := Option.map_eq_some_iff.mp shown
  obtain ⟨isPending, waiting, oldest, recognized⟩ := of_decide_eq_true decided
  obtain ⟨⟨choices, execution, faultless, executed⟩, catchesUp⟩ := tick_catches_up rfl
    (run_after (fun _ _ checked => checked) _ _ : Run (fun _ _ => true = true) _ abandoned)
    (show 1 ∉ abandoned.state.running by decide +kernel)
  exact ⟨row, choices, execution, found, isPending, executed,
    (catchesUp choices execution faultless executed row (Table.mem_of_find? found)).2.1 waiting
      isPending oldest recognized⟩

end CosmosPay

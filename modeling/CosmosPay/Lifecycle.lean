import CosmosPay.Contracts.Outcomes
import CosmosPay.Expiry
import CosmosPay.Isolation

/-!
# What a status rests on

Whatever is in flight, the status of a stored intent is one that a request has written, and it
rests on the ledger, on the clock, or on the word of the owner of the intent.
-/

namespace CosmosPay

open Awaiting Tables PaymentIntents

/-- The consumer row of the user owns the intent. -/
def Store.Owner (store : Store) (username : String) (row : PaymentIntent) : Prop :=
  store.belongsTo row.consumerId username = true

/-- What a request may write on an intent, at this ledger and this time and for its owner. -/
inductive Supports (ledger : Table ledgerIndexes) (clock : Nat)
    (owner : String → PaymentIntent → Prop) (row : PaymentIntent) :
    Request → PaymentIntentPatch → Prop where
  | reported (consumer : GatewayConsumer) (dto : UpdatePaymentIntentDto)
      (owned : owner consumer.username row) :
      Supports ledger clock owner row (.paymentIntents (.update consumer row.id dto)) (patchOf dto)
  | settled (request : Request) (hash : String) (payer : Option String)
      (current : Option (Option String)) (paid : PaidBy ledger row hash) :
      Supports ledger clock owner row request (succeededPatch hash payer current)
  | failed (consumer : GatewayConsumer) (hash : String) (written : Option String)
      (tx : Transaction) (owned : owner consumer.username row)
      (found : ledger.find? (row.network, hash) = some tx) (unsuccessful : tx.successful = false) :
      Supports ledger clock owner row (.paymentIntents (.validate consumer row.id hash))
        (failedPatch written)
  | expired (node expiresAt : Nat) (isExpiry : row.expiresAt = some expiresAt)
      (ended : expiresAt < clock) :
      Supports ledger clock owner row (.tick node) expiredPatch

section Terms

variable {first second : PaymentIntent} (same : first.terms = second.terms)

include same

theorem expiresAt_of_terms_eq : first.expiresAt = second.expiresAt := by
  have expiries : first.terms.expiresAt = second.terms.expiresAt := by rw [same]
  exact expiries

theorem id_of_terms_eq : first.id = second.id := by
  have ids : first.terms.id = second.terms.id := by rw [same]
  exact ids

/-- What supports a statement depends on the terms of the intent only. -/
theorem Supports.of_terms_eq {ledger : Table ledgerIndexes} {clock : Nat} {store : Store}
    {request : Request} {patch : PaymentIntentPatch}
    (supports : Supports ledger clock store.Owner first request patch) :
    Supports ledger clock store.Owner second request patch := by
  have isId := id_of_terms_eq same
  have sameOwner := (key_of_terms_eq same).1
  cases supports with
  | reported consumer dto owned =>
      rw [Store.Owner, sameOwner] at owned
      rw [isId]
      exact .reported consumer dto owned
  | settled _ hash payer current paid =>
      exact .settled _ hash payer current (paid.of_terms_eq same)
  | failed consumer hash written tx owned found unsuccessful =>
      rw [Store.Owner, sameOwner] at owned
      rw [network_of_terms_eq same] at found
      rw [isId]
      exact .failed consumer hash written tx owned found unsuccessful
  | expired node expiresAt isExpiry ended =>
      rw [expiresAt_of_terms_eq same] at isExpiry
      exact .expired node expiresAt isExpiry ended

end Terms

section Lifecycle

variable {deployment : Deployment}
variable {allows : Config (service deployment) → Label (service deployment) → Prop}
variable {config config' : Config (service deployment)} {state : World}

/-! ## What an update rests on -/

/-- When a tick has listed an intent as expired, its lifetime is over. -/
theorem ended_of_listed (run : Run allows (Config.initial state) config) {thread node : Nat}
    {code : Promise Reply} (isTick : config.threads[thread]? = some ⟨.tick node, code⟩)
    {now take : Nat} {rows : List (PaymentIntent × String)} {row : PaymentIntent × String}
    (listed : ⟨.query (.expiredIntents now take), .ok rows⟩ ∈ config.past thread)
    (member : row ∈ rows) :
    ∃ expiresAt, row.1.expiresAt = some expiresAt ∧ expiresAt < config.state.clock := by
  obtain ⟨before, after, choice, reached, resumes, later⟩ :=
    exists_resumes_of_past run isTick listed
  obtain ⟨resume, paused, -⟩ := resumes.paused
  have shown : ⟨.now, .ok now⟩ ∈ before.past thread :=
    reached.permitted expiryBatches_fulfilled paused node rfl now take rfl
  obtain ⟨start, started, _, _, -, clocked, onwards, -⟩ :=
    exists_resumes_of_mem reached (mem_pastOf.mp shown)
  have past : now ≤ config.state.clock := by
    refine (now_stable now).run (onwards.trans (.head resumes.step later)) ?_
    rw [clocked.performs.of_now, clocked.performs.surroundings.2.2]
  obtain ⟨-, holds⟩ := resumes.performs.believable rows rfl
  obtain ⟨-, expiresAt, isExpiry, ended⟩ := holds row member
  exact ⟨expiresAt, isExpiry, by omega⟩

/-- No other transaction than the reported one has been looked up. -/
theorem checked_of_past (run : Run allows (Config.initial state) config) {thread : Nat}
    {consumer : GatewayConsumer} {id txHash : String} {code : Promise Reply}
    (validates : config.threads[thread]? =
      some ⟨.paymentIntents (.validate consumer id txHash), code⟩)
    {network : StellarNetwork} {hash : String} {answer : Except ServiceError TransactionRecord}
    (asked : ⟨.horizon (.transaction network hash), answer⟩ ∈ config.past thread) :
    hash = txHash := by
  obtain ⟨before, after, choice, reached, resumes, -⟩ := exists_resumes_of_past run validates asked
  obtain ⟨resume, paused, -⟩ := resumes.paused
  exact reached.permitted outcomes_fulfilled paused

/-- Nobody but a tick lists the expired intents. -/
theorem not_listed_of_caller (run : Run allows (Config.initial state) config) {thread : Nat}
    {request : Request} {code : Promise Reply} {username : String}
    (lookup : config.threads[thread]? = some ⟨request, code⟩)
    (isCaller : request.caller? = some username) {now take : Nat}
    {answer : Except ServiceError (List (PaymentIntent × String))} :
    ⟨.query (.expiredIntents now take), answer⟩ ∉ config.past thread := by
  intro asked
  obtain ⟨before, after, choice, reached, resumes, -⟩ := exists_resumes_of_past run lookup asked
  obtain ⟨resume, paused, -⟩ := resumes.paused
  exact reached.permitted tenancy_fulfilled paused username isCaller

/-- The row that a caller's request changes is the caller's. -/
theorem owner_of_owns (run : Run allows (Config.initial state) config) {thread : Nat}
    {request : Request} {code : Promise Reply} {username : String}
    (lookup : config.threads[thread]? = some ⟨request, code⟩)
    (isCaller : request.caller? = some username) {id : String} {row : PaymentIntent}
    (owns : Owns (config.past thread) .paymentIntent id)
    (found : config.state.store.find? .paymentIntent id = some row) :
    config.state.store.Owner username row :=
  ((Run.truthful run lookup isCaller).owned .paymentIntent id owns).2 row found

/-- Every statement that updates a stored intent is supported. -/
theorem supports_of_update (run : Run allows (Config.initial state) config) {thread : Nat}
    {request : Request} {id : String} {patch : PaymentIntentPatch} {row : PaymentIntent}
    {resume : signature.Result (.write (.update .paymentIntent id patch)) → Promise Reply}
    (paused : config.threads[thread]? =
      some ⟨request, .await (.write (.update .paymentIntent id patch)) resume⟩)
    (found : config.state.store.find? .paymentIntent id = some row) :
    Supports config.state.ledger config.state.clock config.state.store.Owner row request patch := by
  obtain rfl : row.id = id := Table.key_of_find? found
  have permitted : permitsTransition request (config.past thread)
      (.write (.update .paymentIntent row.id patch)) := run.permitted transitions_fulfilled paused
  have outcome : permitsOutcome request (.write (.update .paymentIntent row.id patch)) :=
    run.permitted outcomes_fulfilled paused
  have owner : ∀ username, request.caller? = some username →
      config.state.store.Owner username row := fun username isCaller =>
    owner_of_owns run paused isCaller
      (run.permitted tenancy_fulfilled paused username isCaller) found
  simp only [permitsTransition] at permitted
  split at permitted
  · rename_i consumer key dto
    obtain ⟨rfl, rfl, -⟩ := permitted
    exact .reported consumer dto (owner _ rfl)
  · rename_i consumer key txHash
    obtain ⟨rfl, -, marks⟩ := permitted
    cases marks with
    | succeeded intent hash payer current isIntent read evidence =>
        have sameTerms := terms_of_read run read (isIntent ▸ found)
        exact .settled _ hash payer current
          ((paidBy_of_evidence run evidence).of_terms_eq sameTerms.symm)
    | failed intent record written isIntent read shown unsuccessful =>
        have sameTerms := terms_of_read run read (isIntent ▸ found)
        obtain ⟨tx, isLanded, rfl⟩ := borneOut_of_mem run (mem_pastOf.mp shown)
        have isHash : tx.record.hash = txHash := checked_of_past run paused shown
        rw [isHash, ← network_of_terms_eq sameTerms] at isLanded
        exact .failed consumer txHash written tx (owner _ rfl) isLanded unsuccessful
    | expired now take rows listedRow _ listed _ _ =>
        exact (not_listed_of_caller run paused rfl listed).elim
  · rename_i node
    cases permitted.2 with
    | succeeded intent hash payer current isIntent read evidence =>
        have sameTerms := terms_of_read run read (isIntent ▸ found)
        exact .settled _ hash payer current
          ((paidBy_of_evidence run evidence).of_terms_eq sameTerms.symm)
    | failed intent record hash => exact absurd rfl outcome
    | expired now take rows listedRow _ listed member isRow =>
        have read : HasRead (config.past thread) listedRow.1 :=
          ⟨_, listed, List.mem_map_of_mem member⟩
        have sameTerms := terms_of_read run read (isRow ▸ found)
        obtain ⟨expiresAt, isExpiry, ended⟩ := ended_of_listed run paused listed member
        refine .expired node expiresAt ?_ ended
        rw [expiresAt_of_terms_eq sameTerms, isExpiry]
  · exact permitted.elim

theorem step_clock (step : Step allows config config') :
    config.state.clock ≤ config'.state.clock := by
  rcases step_cases step with ⟨-, drifts⟩ | ⟨_, _, _, _, resumes⟩
  · exact drifts.clock
  · rw [resumes.performs.surroundings.2.2]

/-- What supports a statement does not go away. -/
theorem Supports.step {row : PaymentIntent} {request : Request} {patch : PaymentIntentPatch}
    (supports : Supports config.state.ledger config.state.clock config.state.store.Owner row
      request patch) (step : Step allows config config') :
    Supports config'.state.ledger config'.state.clock config'.state.store.Owner row request
      patch := by
  have owns : ∀ username, config.state.store.Owner username row →
      config'.state.store.Owner username row :=
    fun username => (belongsTo_stable row.consumerId username).step step
  cases supports with
  | reported consumer dto owned => exact .reported consumer dto (owns _ owned)
  | settled _ hash payer current paid =>
      exact .settled _ hash payer current (paid.mono fun _ _ => step_ledger step)
  | failed consumer hash written tx owned found unsuccessful =>
      exact .failed consumer hash written tx (owns _ owned) (step_ledger step found) unsuccessful
  | expired node expiresAt isExpiry ended =>
      exact .expired node expiresAt isExpiry (Nat.lt_of_lt_of_le ended (step_clock step))

/-! ## Statuses -/

/-- The thread has written the patch on the intent, and something supports it. -/
structure Patched (config : Config (service deployment)) (row : PaymentIntent) (thread : Nat)
    (request : Request) (patch : PaymentIntentPatch) : Prop where
  serves : ∃ code, config.threads[thread]? = some ⟨request, code⟩
  made : ∃ written, ⟨thread, .write (.update .paymentIntent row.id patch), .ok written⟩ ∈
    config.trace
  supports : Supports config.state.ledger config.state.clock config.state.store.Owner row request
    patch

theorem Patched.of_terms_eq {row other : PaymentIntent} {thread : Nat} {request : Request}
    {patch : PaymentIntentPatch} (patched : Patched config row thread request patch)
    (same : row.terms = other.terms) : Patched config other thread request patch where
  serves := patched.serves
  made := id_of_terms_eq same ▸ patched.made
  supports := patched.supports.of_terms_eq same

theorem Patched.step {row : PaymentIntent} {thread : Nat} {request : Request}
    {patch : PaymentIntentPatch} (patched : Patched config row thread request patch)
    (step : Step allows config config') : Patched config' row thread request patch := by
  obtain ⟨⟨code, lookup⟩, ⟨written, member⟩, supports⟩ := patched
  exact ⟨step.request_stable lookup, ⟨written, step_trace step member⟩, supports.step step⟩

theorem Patched.run {row : PaymentIntent} {thread : Nat} {request : Request}
    {patch : PaymentIntentPatch} (patched : Patched config row thread request patch)
    (run : Run allows config config') : Patched config' row thread request patch :=
  run.keeps (I := fun config : Config (service deployment) =>
    Patched config row thread request patch) patched fun _ _ _ kept step => kept.step step

/-- The intent is as it was opened, or a request has given it its status. -/
def Justified (config : Config (service deployment)) (row : PaymentIntent) : Prop :=
  row.status = .pending ∨ ∃ thread request patch,
    Patched config row thread request patch ∧ patch.status = .value row.status

/-- A patch that gives no status leaves the old one. -/
theorem status_apply (patch : PaymentIntentPatch) (row : PaymentIntent) :
    patch.status = .value (Model.apply .paymentIntent patch row).status ∨
      (Model.apply .paymentIntent patch row).status = row.status := by
  cases isStatus : patch.status with
  | value status => left; simp [Model.apply, isStatus, Field.setRequired, Field.toOption]
  | _ => right; simp [Model.apply, isStatus, Field.setRequired, Field.toOption]

theorem Justified.of_status_eq {row other : PaymentIntent} (justified : Justified config row)
    (isStatus : other.status = row.status) (same : row.terms = other.terms) :
    Justified config other := by
  rcases justified with isPending | ⟨thread, request, patch, patched, gives⟩
  · exact .inl (isStatus.trans isPending)
  · rw [← isStatus] at gives
    exact .inr ⟨thread, request, patch, patched.of_terms_eq same, gives⟩

theorem Justified.step {row : PaymentIntent} (justified : Justified config row)
    (step : Step allows config config') : Justified config' row := by
  rcases justified with isPending | ⟨thread, request, patch, patched, gives⟩
  · exact .inl isPending
  · exact .inr ⟨thread, request, patch, patched.step step, gives⟩

/-- An update that has been performed was supported. -/
theorem patched_of_update (run : Run allows (Config.initial state) config) {thread : Nat}
    {choice : Choice} {request : Request} {id : String} {patch : PaymentIntentPatch}
    {written old : PaymentIntent}
    (resumes : Resumes allows config config' thread choice request
      ⟨.write (.update .paymentIntent id patch), .ok written⟩)
    (found : config.state.store.find? .paymentIntent id = some old) :
    Patched config' old thread request patch := by
  obtain ⟨resume, paused, still⟩ := resumes.paused
  obtain rfl : old.id = id := Table.key_of_find? found
  refine ⟨⟨_, still⟩, ⟨written, ?_⟩, (supports_of_update run paused found).step resumes.step⟩
  rw [resumes.trace]
  exact List.mem_cons_self

theorem justified_of_stored (start : state.store = .empty)
    (run : Run allows (Config.initial state) config) {id : String} {row : PaymentIntent}
    (found : config.state.store.find? .paymentIntent id = some row) : Justified config row := by
  revert row
  refine run.keeps (I := fun config : Config (service deployment) => ∀ {row : PaymentIntent},
    config.state.store.find? .paymentIntent id = some row → Justified config row) ?_ ?_
  · intro row found
    rw [find?_initial start] at found
    cases found
  · intro config config' before ih step row found
    rcases step_cases step with ⟨-, drifts⟩ | ⟨thread, choice, request, performed, resumes⟩
    · rw [drifts.store] at found
      exact (ih found).step step
    cases resumes.performs.rows .paymentIntent with
    | kept same => exact (ih ((same id).symm.trans found)).step step
    | created new drawn createdAt isCreate fresh change =>
        rw [change.lookup] at found
        split at found
        · obtain rfl := Option.some.inj found
          subst isCreate
          obtain ⟨resume, paused, -⟩ := resumes.paused
          exact .inl (pending_of_create before paused)
        · exact (ih found).step step
    | updated key patch old isUpdate change =>
        rw [change.lookup] at found
        split at found
        · rename_i isId
          subst isId
          obtain rfl := Option.some.inj found
          subst isUpdate
          rcases status_apply patch old with gives | kept
          · have patched := (patched_of_update before resumes change.found).of_terms_eq
              (terms_apply patch old).symm
            exact .inr ⟨thread, request, patch, patched, gives⟩
          · exact ((ih change.found).step step).of_status_eq kept (terms_apply patch old).symm
        · exact (ih found).step step
    | deleted key old isDelete change =>
        rw [change.lookup] at found
        split at found
        · cases found
        · exact (ih found).step step
    | cascaded key old isDelivery => cases isDelivery

/-! ## Replies -/

theorem Justified.run {row : PaymentIntent} (justified : Justified config row)
    (run : Run allows config config') : Justified config' row :=
  run.keeps (I := fun config : Config (service deployment) => Justified config row) justified
    fun _ _ _ kept step => kept.step step

/-- As an intent, the row is justified. -/
def Justifiable (config : Config (service deployment)) : RowProperty
  | .paymentIntent, row => Justified config row
  | _, _ => True

/-- What a request has been shown was stored, and then it was justified. -/
theorem justifiable_of_seenBy (start : state.store = .empty) {index : Nat} {username : String}
    {model : Model} {row : model.Row}
    (seen : SeenBy allows state config index username model row) :
    Justifiable config model row := by
  obtain ⟨moment, reached, later, -, found, -⟩ := seen
  cases model with
  | paymentIntent => exact (justified_of_stored start reached found).run later
  | _ => trivial

/-- The status of every stored intent rests on the ledger, on the clock or on the word of its
owner, and so does the status of every intent that a client is shown or that a figure shown to
a client is computed from. -/
theorem statuses_justified (start : state.store = .empty)
    (run : Run allows (Config.initial state) config) :
    (∀ id row, config.state.store.find? .paymentIntent id = some row → Justified config row) ∧
      ∀ (index : Nat) (request : Request) (reply : Reply) (username : String),
        request.caller? = some username →
        config.threads[index]? = some ⟨request, .done (.ok reply)⟩ →
          reply.Tells (Justifiable config) := by
  refine ⟨fun id row found => justified_of_stored start run found, ?_⟩
  intro index request reply username isCaller lookup
  obtain ⟨tells, -⟩ := run.ensured tenancy_fulfilled lookup username isCaller
  exact (tells reply rfl).mono fun model row shows =>
    justifiable_of_seenBy start (seenBy_of_shows start run lookup isCaller shows)

end Lifecycle

/-- Alice names the failed transaction with the memo of her intent. -/
def refusedIntent : Config (service Sample.deployment) :=
  after (fun _ _ => true)
    (Sample.create 0 "alice" "7" "c" "pi" ++ Sample.validate "alice" "pi" '2' :: Sample.serve 2 3)
    Sample.start

theorem statuses_justified_of_refusedIntent : ∃ row,
    refusedIntent.state.store.find? .paymentIntent "pi" = some row ∧ row.status = .failed ∧
      Justified refusedIntent row := by
  have shown : (refusedIntent.state.store.find? .paymentIntent "pi").map PaymentIntent.status =
      some .failed := by
    decide +kernel
  obtain ⟨row, found, isFailed⟩ := Option.map_eq_some_iff.mp shown
  exact ⟨row, found, isFailed,
    (statuses_justified rfl (run_after (fun _ _ checked => checked) _ _)).1 "pi" row found⟩

end CosmosPay

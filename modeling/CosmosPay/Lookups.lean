import CosmosPay.Answers
import CosmosPay.Awaiting.Expenses
import CosmosPay.Contracts.Kinds

/-!
# How often Horizon is asked

A tick asks Horizon a bounded number of times for each intent of its batch, and of the other
requests only validations and TX creations ask at all.  Whatever is in flight, Horizon is asked
at most as often as the requests allow.
-/

namespace CosmosPay

open Awaiting Tables Program PaymentIntents

/-! ## Long answers -/

/-- A listing is no longer than it was asked to be. -/
def Call.Sized : (call : Call) → call.Answer → Prop
  | .query (.pendingIntents take), rows => rows.length ≤ take
  | .horizon (.paymentsForAccount _ _ limit), records => records.length ≤ limit
  | _, _ => True

def Sized (performed : Performed signature) : Prop :=
  ∀ answer, performed.answer = .ok answer → performed.call.Sized answer

theorem Performs.sized {before after : World} {performed : Performed signature}
    (performs : Performs before after performed) : Sized performed := by
  obtain ⟨call, result⟩ := performed
  intro answer isAnswer
  cases result with
  | error err => cases isAnswer
  | ok value =>
      obtain rfl : value = answer := Except.ok.inj isAnswer
      cases call with
      | query asked =>
          obtain ⟨-, order, answered⟩ := performs.of_query
          cases asked with
          | pendingIntents take =>
              obtain ⟨arranged, -, rfl⟩ := Option.map_eq_some_iff.mp answered
              calc (before.store.withConsumer (arranged.take take)).length
                _ ≤ (arranged.take take).length := List.length_filterMap_le _ _
                _ ≤ take := List.length_take_le take arranged
          | _ => trivial
      | horizon lookup =>
          obtain ⟨-, answered⟩ := performs.of_horizon
          cases lookup with
          | paymentsForAccount network id limit =>
              simp only [HorizonCall.answer] at answered
              split at answered
              · obtain rfl := Except.ok.inj answered
                exact List.length_take_le _ _
              · cases answered
          | _ => trivial
      | _ => trivial

/-! ## What a request is charged -/

def Call.asksHorizon : Call → Bool
  | .horizon _ => true
  | _ => false

/-- A lookup for each of the newest payments, and one for the page that lists them. -/
def lookupsPerIntent : Nat := 51

/-- How often a request may ask Horizon. -/
def horizonQuota (deployment : Deployment) : Request → Nat
  | .paymentIntents (.createTx _ _) => 1
  | .paymentIntents (.validate _ _ _) => 2
  | .tick _ => lookupsPerIntent * deployment.config.batchSize
  | _ => 0

section Expenses

variable {deployment : Deployment}

/-- The program makes at most `budget` lookups. -/
abbrev LooksUp {α : Type} (budget : Nat) (program : Promise α) : Prop :=
  program.Affords Sized Call.asksHorizon budget

/-- The program asks Horizon for nothing. -/
abbrev Offline {α : Type} (program : Promise α) : Prop :=
  program.Calls fun call => call.asksHorizon = false

theorem looksUp_orNotFound {α : Type} {lookup : HorizonCall}
    {next : Option lookup.Answer → Promise α} {budget : Nat}
    (found : ∀ value, Sized ⟨.horizon lookup, .ok value⟩ → LooksUp budget (next (some value)))
    (missing : LooksUp budget (next none)) :
    LooksUp (budget + 1) (StellarVerifier.orNotFound lookup >>= next) := by
  refine affords_guarded_bind (fun err => ?_) found
  split
  · exact missing
  · exact affords_throw _ _

theorem looksUp_verifyByHash (intent : PaymentIntent) (txHash : String) :
    LooksUp 2 (StellarVerifier.verifyByHash intent txHash) := by
  refine looksUp_orNotFound (fun tx _ => ?_) (affords_pure _ _)
  simp only
  split
  · exact affords_pure _ _
  · split
    · exact affords_pure _ _
    · refine affords_charged_bind fun payments _ => ?_
      split <;> exact affords_pure _ _

theorem looksUp_scan (intent : PaymentIntent) (page : List OperationRecord) :
    LooksUp page.length (StellarVerifier.scan intent page) := by
  induction page with
  | nil => trivial
  | cons op page ih =>
      unfold StellarVerifier.scan
      split
      · exact ih.mono (Nat.le_succ _)
      · refine affords_charged_bind fun tx _ => ?_
        split
        · exact ih
        · split
          · exact ih
          · exact affords_pure _ _

theorem looksUp_findMatchingPayment (intent : PaymentIntent) (limit : Nat) :
    LooksUp (limit + 1) (StellarVerifier.findMatchingPayment intent limit) := by
  refine looksUp_orNotFound (fun records sized => ?_) (affords_pure _ _)
  exact (looksUp_scan intent records).mono (sized records rfl)

theorem looksUp_verify (intent : PaymentIntent) :
    LooksUp lookupsPerIntent (StellarObserver.verify intent) := by
  unfold StellarObserver.verify
  split
  · exact (looksUp_verifyByHash intent _).mono (by decide)
  · exact looksUp_findMatchingPayment intent 50

theorem offline_markSucceeded (id username hash : String) (payer : Option String) :
    Offline (markSucceeded id username hash payer) :=
  Calls.call_bind rfl fun _ => Calls.call_bind rfl fun _ => Calls.call_bind rfl fun _ =>
    Calls.call_bind rfl fun _ => calls_pure _

theorem offline_markFailed (id username : String) (hash : Option String) :
    Offline (markFailed id username hash) :=
  Calls.call_bind rfl fun _ => Calls.call_bind rfl fun _ => calls_pure _

theorem looksUp_reconcile (row : PaymentIntent × String) :
    LooksUp lookupsPerIntent (StellarObserver.reconcile row) := by
  refine (looksUp_verify row.1).bind_free fun result => ?_
  split
  · exact (Calls.bind (offline_markSucceeded _ _ _ _) fun _ => calls_pure _).affords
  · exact affords_pure _ _

theorem offline_expire (row : PaymentIntent × String) : Offline (StellarObserver.expire row) :=
  Calls.tryCatch (Calls.bind (Calls.call_bind rfl fun _ => Calls.call_bind rfl fun _ =>
    calls_pure _) fun _ => calls_pure _) fun _ => calls_pure _

theorem offline_expiryPass : Offline (StellarObserver.expiryPass deployment) :=
  Calls.call_bind rfl fun _ => Calls.call_bind rfl fun rows => calls_forM offline_expire rows

theorem looksUp_reconcilePass :
    LooksUp (lookupsPerIntent * deployment.config.batchSize)
      (StellarObserver.reconcilePass deployment) := by
  refine affords_free_bind rfl fun rows sized => ?_
  have each : ∀ row, LooksUp lookupsPerIntent
      (StellarObserver.logged (StellarObserver.reconcile row)) :=
    fun row => (looksUp_reconcile row).caught fun _ => affords_pure _ _
  exact (affords_forM each rows).mono (Nat.mul_le_mul_left _ (sized rows rfl))

theorem looksUp_tick (node : Nat) :
    LooksUp (lookupsPerIntent * deployment.config.batchSize)
      (StellarObserver.tick deployment node) := by
  refine affords_free_bind rfl fun entered _ => ?_
  split
  · have passes : LooksUp (lookupsPerIntent * deployment.config.batchSize)
        (do StellarObserver.expiryPass deployment
            StellarObserver.reconcilePass deployment) :=
      offline_expiryPass.affords.free_bind fun _ => looksUp_reconcilePass
    exact (passes.caught fun _ => affords_pure _ _).bind_free fun _ =>
      (calls_call (by exact rfl)).affords
  · exact affords_pure _ _

/-! ## Requests that are charged -/

theorem offline_finishCreate (consumer : GatewayConsumer) (data : NewPaymentIntent) :
    Offline (finishCreate deployment consumer data) := by
  refine Calls.bind (Calls.call_bind rfl fun now => ?_) fun persisted => ?_
  · refine Calls.tryCatch (Calls.map (calls_call (by exact rfl)) _) fun err => ?_
    split
    · exact calls_pure _
    · exact calls_throw _
  · split
    · refine Calls.call_bind rfl fun found => ?_
      split
      · exact calls_withQr _
      · exact calls_throw _
    · exact Calls.call_bind rfl fun _ => calls_withQr _

theorem looksUp_loadAccount (network : StellarNetwork) (source : String) :
    LooksUp 1 (loadAccount network source) := by
  refine affords_charged_call.caught fun err => ?_
  split <;> exact affords_throw _ _

theorem looksUp_createTx (consumer : GatewayConsumer) (dto : CreateTxPaymentIntentDto) :
    LooksUp 1 (createTx deployment consumer dto) := by
  have prepared : LooksUp 0 (Promise.ofExcept (resolveAsset deployment dto.assetCode
      dto.assetIssuer)) := (calls_ofExcept _).affords
  have resolved : LooksUp 0 (resolveMemo dto.memo) := (calls_resolveMemo (by exact rfl) _).affords
  refine affords_free_bind rfl fun owner _ => prepared.free_bind fun asset => ?_
  refine resolved.free_bind fun memo => affords_free_bind rfl fun found _ => ?_
  split
  · exact (calls_withQr _).affords.mono (Nat.zero_le 1)
  · refine (looksUp_loadAccount _ _).bind_free fun account => ?_
    refine affords_free_bind rfl fun now _ => (calls_ofExcept _).affords.free_bind fun xdr => ?_
    exact (offline_finishCreate consumer _).affords

theorem looksUp_validate (consumer : GatewayConsumer) (id txHash : String) :
    LooksUp 2 (validate deployment consumer id txHash) := by
  refine affords_free_bind rfl fun found _ => ?_
  split
  · exact affords_throw _ _
  · split
    · exact ((calls_withQr _).affords.bind_free fun _ => affords_pure _ _).mono (Nat.zero_le 2)
    · refine (looksUp_verifyByHash _ txHash).bind_free fun result => ?_
      unfold settle
      split
      · exact (Calls.bind (offline_markSucceeded _ _ _ _) fun _ =>
          Calls.bind (calls_withQr _) fun _ => calls_pure _).affords
      · split
        · exact (Calls.bind (offline_markFailed _ _ _) fun _ =>
            Calls.bind (calls_withQr _) fun _ => calls_pure _).affords
        · exact affords_pure _ _

/-! ## All requests -/

theorem offline_createPay (consumer : GatewayConsumer) (dto : CreatePayPaymentIntentDto) :
    Offline (createPay deployment consumer dto) := by
  refine Calls.call_bind rfl fun owner => Calls.bind (calls_ofExcept _) fun asset => ?_
  refine Calls.bind (calls_resolveMemo (by exact rfl) _) fun memo => ?_
  refine Calls.call_bind rfl fun found => ?_
  split
  · exact calls_withQr _
  · exact offline_finishCreate consumer _

theorem offline_assertOwned (consumer : GatewayConsumer) (id : String) :
    Offline (assertOwned consumer id) := by
  refine Calls.call_bind rfl fun found => ?_
  split
  · exact calls_throw _
  · exact calls_pure _

theorem looksUp_paymentIntents (request : PaymentIntentsRequest) :
    LooksUp (horizonQuota deployment (.paymentIntents request)) (request.body deployment) := by
  cases request with
  | createTx consumer dto => exact (looksUp_createTx consumer dto).map _
  | createPay consumer dto => exact (offline_createPay consumer dto).affords.map _
  | findAll consumer query => exact (affords_free_bind rfl fun _ _ => affords_pure _ _).map _
  | findOne consumer id =>
      refine (affords_free_bind rfl fun found _ => ?_).map _
      split
      · exact affords_throw _ _
      · exact (calls_withQr _).affords
  | update consumer id dto =>
      refine (offline_assertOwned consumer id).affords.bind_free (fun _ => ?_) |>.map _
      exact affords_free_bind rfl fun updated _ => affords_free_bind rfl fun _ _ =>
        (calls_withQr _).affords
  | remove consumer id =>
      refine (offline_assertOwned consumer id).affords.bind_free (fun _ => ?_) |>.map _
      refine affords_free_bind rfl fun existing _ => ?_
      split
      · exact affords_throw _ _
      · exact affords_free_bind rfl fun deleted _ => affords_free_bind rfl fun _ _ =>
          affords_pure _ _
  | validate consumer id txHash => exact (looksUp_validate consumer id txHash).map _

/-- What only works on its own tables does not ask Horizon. -/
theorem offline_of_kinds {call : Call}
    (isKind : call.Dispatches ∨ call.Manages ∨ call.Catalogs ∨ call.Aggregates) :
    call.asksHorizon = false := by
  cases call with
  | horizon lookup => rcases isKind with isKind | isKind | isKind | isKind <;> exact isKind.elim
  | _ => rfl

theorem looksUp_body (request : Request) :
    LooksUp (horizonQuota deployment request) (request.body deployment) := by
  cases request with
  | paymentIntents request => exact looksUp_paymentIntents request
  | webhooks request =>
      have free : (request.body deployment).Calls fun call =>
          call.Dispatches ∨ call.Manages := by
        cases request with
        | redeliver consumer endpointId deliveryId =>
            exact ((dispatches_redeliver consumer endpointId deliveryId).map _).mono
              fun _ => Or.inl
        | _ => exact (manages_webhooks id).mono fun _ => Or.inr
      exact (free.mono fun _ isKind => offline_of_kinds (isKind.imp_right Or.inl)).affords
  | customers request =>
      exact ((catalogs_customers request).mono fun _ isKind =>
        offline_of_kinds (.inr (.inr (.inl isKind)))).affords
  | products request =>
      exact ((catalogs_products request).mono fun _ isKind =>
        offline_of_kinds (.inr (.inr (.inl isKind)))).affords
  | analytics request =>
      exact ((aggregates_analytics request).mono fun _ isKind =>
        offline_of_kinds (.inr (.inr (.inr isKind)))).affords
  | tick node => exact (looksUp_tick node).map _
  | background task =>
      exact ((calls_task (fun _ _ => rfl) (fun _ => rfl)
        (fun _ isKind => offline_of_kinds (.inl isKind)) task).map _).affords

theorem lookups_fulfilled : (rations (service deployment) Sized Call.asksHorizon
    (horizonQuota deployment)).Fulfilled where
  answers performed := Performs.sized ⟨_, _, performed, rfl, rfl⟩
  bodies request := (looksUp_body request).conforms (Nat.le_of_eq (Nat.zero_add _))

end Expenses

/-! ## All runs -/

section Runs

variable {deployment : Deployment}
variable {allows : Config (service deployment) → Label (service deployment) → Prop}
variable {config : Config (service deployment)} {state : World}

/-- Whatever is in flight and however Horizon answers, no request asks it more often than its
quota: once for a TX creation, twice for a validation, and for a tick 51 times for each intent
that fits its batch.  Altogether it is asked at most as often as the requests allow. -/
theorem lookups_rationed (run : Run allows (Config.initial state) config) :
    (∀ index thread, config.threads[index]? = some thread →
      (config.past index).countP (fun performed => performed.call.asksHorizon) ≤
        horizonQuota deployment thread.request) ∧
    config.trace.countP (fun entry => entry.performed.call.asksHorizon) ≤
      (config.threads.map fun thread => horizonQuota deployment thread.request).sum :=
  ⟨fun _ _ lookup => run.charges_le lookups_fulfilled lookup, run.total_le lookups_fulfilled⟩

end Runs

/-- A validation and a tick that looks for the same payment. -/
def lookedUpTwice : Config (service Sample.deployment) :=
  after (fun _ _ => true)
    (Sample.create 0 "alice" "7" "c" "pi" ++
      [Sample.validate "alice" "pi" '1', .issue (.tick 0)] ++ Sample.serve 2 3 ++
      Sample.serve 3 2 ++ [.resume 3 (.arrange []), .resume 3 (.arrange ["pi"])] ++
      Sample.serve 3 2)
    Sample.start

theorem lookups_rationed_of_lookedUpTwice :
    lookedUpTwice.trace.countP (fun entry => entry.performed.call.asksHorizon) ≤
        (lookedUpTwice.threads.map fun thread =>
          horizonQuota Sample.deployment thread.request).sum ∧
      lookedUpTwice.trace.countP (fun entry => entry.performed.call.asksHorizon) = 4 := by
  have run : Run (fun _ _ => true = true) Sample.start lookedUpTwice :=
    run_after (fun _ _ checked => checked) _ _
  exact ⟨(lookups_rationed run).2, by decide +kernel⟩

end CosmosPay

import CosmosPay.Service

/-!
# Kinds of calls

Which functions only look things up, and which requests never touch an intent.
-/

namespace CosmosPay

open Awaiting Program

def Call.IsHorizon : Call → Prop
  | .horizon _ => True
  | _ => False

/-- A call that writes no intent and emits no event. -/
def Call.Peripheral : Call → Prop
  | .write (.create .paymentIntent _) => False
  | .write (.update .paymentIntent _ _) => False
  | .write (.delete .paymentIntent _) => False
  | .emit _ => False
  | _ => True

theorem Call.IsHorizon.peripheral {call : Call} (isHorizon : call.IsHorizon) :
    call.Peripheral := by
  cases call <;> trivial

variable {kind : Call → Prop}

theorem calls_ofExcept {α : Type} (outcome : Except ServiceError α) :
    (Promise.ofExcept outcome).Calls kind :=
  calls_done _

/-! ## The verifier -/

theorem calls_scan (intent : PaymentIntent) (page : List OperationRecord) :
    (StellarVerifier.scan intent page).Calls Call.IsHorizon := by
  induction page with
  | nil => exact calls_pure _
  | cons op page ih =>
      unfold StellarVerifier.scan
      split
      · exact ih
      · refine Calls.call_bind (by trivial) fun tx => ?_
        split
        · exact ih
        · split
          · exact ih
          · exact calls_pure _

theorem calls_orNotFound (lookup : HorizonCall) :
    (StellarVerifier.orNotFound lookup).Calls Call.IsHorizon := by
  refine Calls.tryCatch (Calls.map (calls_call (by trivial)) _) fun err => ?_
  split
  · exact calls_pure _
  · exact calls_throw _

theorem calls_verifyByHash (intent : PaymentIntent) (txHash : String) :
    (StellarVerifier.verifyByHash intent txHash).Calls Call.IsHorizon := by
  refine Calls.bind (calls_orNotFound _) fun lookup => ?_
  split
  · exact calls_pure _
  · split
    · exact calls_pure _
    · split
      · exact calls_pure _
      · refine Calls.call_bind (by trivial) fun payments => ?_
        split
        · exact calls_pure _
        · exact calls_pure _

theorem calls_findMatchingPayment (intent : PaymentIntent) (limit : Nat) :
    (StellarVerifier.findMatchingPayment intent limit).Calls Call.IsHorizon := by
  refine Calls.bind (calls_orNotFound _) fun page => ?_
  split
  · exact calls_pure _
  · exact calls_scan intent _

theorem calls_verify (intent : PaymentIntent) :
    (StellarObserver.verify intent).Calls Call.IsHorizon := by
  unfold StellarObserver.verify
  split
  · exact calls_verifyByHash intent _
  · exact calls_findMatchingPayment intent 50

/-! ## Peripheral requests -/

variable {deployment : Deployment}

theorem calls_withQr (intent : PaymentIntent) :
    (PaymentIntents.withQr deployment intent).Calls kind :=
  calls_ofExcept _

/-- A call that transmits a delivery. -/
def Call.Transmits : Call → Prop
  | .write (.update .webhookDelivery _ _) => True
  | .now => True
  | .post _ => True
  | .sleep _ => True
  | _ => False

theorem transmits_attemptLoop (endpoint : WebhookEndpoint) (delivery : WebhookDelivery)
    (body : String) (remaining i attempts : Nat) (lastError : Option String)
    (responseStatus : Option Nat) :
    (WebhookDispatcher.attemptLoop deployment endpoint delivery body remaining i attempts
      lastError responseStatus).Calls Call.Transmits := by
  induction remaining generalizing i attempts lastError responseStatus with
  | zero => exact Calls.call_bind (by trivial) fun _ => calls_call (by trivial)
  | succ remaining ih =>
      refine Calls.call_bind (by trivial) fun now => Calls.bind
        (Calls.tryCatch (Calls.map (calls_call (by trivial)) _) fun _ => calls_pure _)
        fun posted => ?_
      have again : ∀ lastError responseStatus,
          (do WebhookDispatcher.backoff deployment remaining i
              WebhookDispatcher.attemptLoop deployment endpoint delivery body remaining (i + 1)
                (attempts + 1) lastError responseStatus).Calls Call.Transmits := by
        intro lastError responseStatus
        refine Calls.bind ?_ fun _ => ih _ _ _ _
        unfold WebhookDispatcher.backoff
        split
        · exact calls_call (by trivial)
        · exact calls_pure _
      split
      · split
        · exact Calls.call_bind (by trivial) fun _ => calls_call (by trivial)
        · exact again _ _
      · exact again _ _

theorem calls_createAndDeliver (creates : ∀ new, kind (.write (.create .webhookDelivery new)))
    (transmits : ∀ call : Call, call.Transmits → kind call) (endpoint : WebhookEndpoint)
    (eventType : WebhookEventType) (eventId : String) (data : PaymentIntent) :
    (WebhookDispatcher.createAndDeliver deployment endpoint eventType eventId data).Calls kind :=
  Calls.call_bind (transmits _ trivial) fun _ => Calls.call_bind (creates _) fun _ =>
    Calls.bind ((transmits_attemptLoop _ _ _ _ _ _ _ _).mono transmits) fun _ => calls_pure _

/-- A call of the work on single deliveries. -/
def Call.Dispatches : Call → Prop
  | .write (.create .webhookDelivery _) => True
  | .write (.update .webhookDelivery _ _) => True
  | .query (.endpointOwned _ _) => True
  | .query (.endpoint _) => True
  | .query (.enabledEndpoints _) => True
  | .query (.deliveryOf _ _) => True
  | .now => True
  | .randomUUID => True
  | .start (.createAndDeliver _ _ _ _) => True
  | .post _ => True
  | .sleep _ => True
  | _ => False

theorem Call.Transmits.dispatches {call : Call} (transmits : call.Transmits) :
    call.Dispatches := by
  unfold Call.Transmits at transmits
  split at transmits <;> first | exact transmits.elim | trivial

theorem Call.Dispatches.peripheral {call : Call} (dispatches : call.Dispatches) :
    call.Peripheral := by
  unfold Call.Peripheral
  split <;> first | exact dispatches | trivial

theorem calls_redeliver (owned : ∀ id username, kind (.query (.endpointOwned id username)))
    (looksUp : ∀ id endpointId, kind (.query (.deliveryOf id endpointId)))
    (receives : ∀ id, kind (.query (.endpoint id)))
    (transmits : ∀ call : Call, call.Transmits → kind call) (consumer : GatewayConsumer)
    (endpointId deliveryId : String) :
    (Webhooks.redeliver deployment consumer endpointId deliveryId).Calls kind := by
  unfold Webhooks.redeliver Webhooks.getOwned
  refine Calls.bind (Calls.call_bind (owned _ _) fun owned => ?_) fun _ =>
    Calls.call_bind (looksUp _ _) fun found => ?_
  · split
    · exact calls_throw _
    · exact calls_pure _
  · split
    · exact calls_throw _
    · refine Calls.call_bind (receives _) fun endpoint => ?_
      split
      · exact calls_throw _
      · exact (transmits_attemptLoop _ _ _ _ _ _ _ _).mono transmits

theorem dispatches_redeliver (consumer : GatewayConsumer) (endpointId deliveryId : String) :
    (Webhooks.redeliver deployment consumer endpointId deliveryId).Calls Call.Dispatches :=
  calls_redeliver (fun _ _ => trivial) (fun _ _ => trivial) (fun _ => trivial)
    (fun _ => Call.Transmits.dispatches) consumer endpointId deliveryId

theorem calls_handleEvent (lists : ∀ username, kind (.query (.enabledEndpoints username)))
    (draws : kind .randomUUID)
    (starts : ∀ endpoint eventType eventId data,
      kind (.start (.createAndDeliver endpoint eventType eventId data)))
    (payload : WebhookEventPayload) : (WebhookDispatcher.handleEvent payload).Calls kind := by
  refine Calls.call_bind (lists _) fun endpoints => ?_
  simp only
  split
  · exact calls_pure _
  · exact Calls.call_bind draws fun _ => calls_forM (fun _ => calls_call (starts _ _ _ _)) _

theorem dispatches_handleEvent (payload : WebhookEventPayload) :
    (WebhookDispatcher.handleEvent payload).Calls Call.Dispatches :=
  calls_handleEvent (fun _ => trivial) trivial (fun _ _ _ _ => trivial) payload

theorem dispatches_createAndDeliver (endpoint : WebhookEndpoint) (eventType : WebhookEventType)
    (eventId : String) (data : PaymentIntent) :
    (WebhookDispatcher.createAndDeliver deployment endpoint eventType eventId data).Calls
      Call.Dispatches :=
  calls_createAndDeliver (fun _ => trivial) (fun _ => Call.Transmits.dispatches) _ _ _ _

/-- A call that manages endpoints or tests one. -/
def Call.Manages : Call → Prop
  | .write (.upsertConsumer _ _) => True
  | .write (.create .webhookEndpoint _) => True
  | .write (.update .webhookEndpoint _ _) => True
  | .write (.delete .webhookEndpoint _) => True
  | .query (.endpointOwned _ _) => True
  | .query (.endpointsNamed _) => True
  | .query (.deliveryPage _ _ _ _) => True
  | .randomBytes _ => True
  | .randomUUID => True
  | .now => True
  | .post request => request.delivery = none
  | _ => False

theorem Call.Manages.peripheral {call : Call} (manages : call.Manages) : call.Peripheral := by
  unfold Call.Peripheral
  split <;> first | exact manages | trivial

def WebhooksRequest.Redelivers : WebhooksRequest → Prop
  | .redeliver _ _ _ => True
  | _ => False

theorem manages_getOwned (consumer : GatewayConsumer) (id : String) :
    (Webhooks.getOwned consumer id).Calls Call.Manages := by
  refine Calls.call_bind (by trivial) fun found => ?_
  split
  · exact calls_throw _
  · exact calls_pure _

theorem manages_generateSecret : Webhooks.generateSecret.Calls Call.Manages :=
  Calls.call_bind (by trivial) fun _ => calls_pure _

theorem manages_webhooks {request : WebhooksRequest} (managing : ¬ request.Redelivers) :
    (request.body deployment).Calls Call.Manages := by
  cases request with
  | create consumer dto =>
      refine Calls.map ?_ _
      refine Calls.call_bind (by trivial) fun _ => ?_
      exact Calls.bind manages_generateSecret fun _ => calls_call (by trivial)
  | findAll consumer => exact Calls.map (Calls.call_bind (by trivial) fun _ => calls_pure _) _
  | findOne consumer id =>
      exact Calls.map (Calls.bind (manages_getOwned consumer id) fun _ => calls_pure _) _
  | update consumer id dto =>
      exact Calls.map (Calls.bind (manages_getOwned consumer id) fun _ =>
        Calls.call_bind (by trivial) fun _ => calls_pure _) _
  | remove consumer id =>
      exact Calls.map (Calls.bind (manages_getOwned consumer id) fun _ =>
        Calls.call_bind (by trivial) fun _ => calls_pure _) _
  | rotateSecret consumer id =>
      refine Calls.map ?_ _
      refine Calls.bind (manages_getOwned consumer id) fun _ => ?_
      exact Calls.bind manages_generateSecret fun _ => calls_call (by trivial)
  | listDeliveries consumer id query =>
      exact Calls.map (Calls.bind (manages_getOwned consumer id) fun _ =>
        Calls.call_bind (by trivial) fun _ => calls_pure _) _
  | redeliver consumer endpointId deliveryId => exact absurd trivial managing
  | ping consumer id =>
      refine Calls.map (Calls.bind (manages_getOwned consumer id) fun endpoint =>
        Calls.call_bind (by trivial) fun _ => Calls.call_bind (by trivial) fun _ =>
          Calls.call_bind (by trivial) fun _ => Calls.tryCatch ?_ fun _ => calls_pure _) _
      exact Calls.call_bind (by trivial) fun _ => calls_pure _

theorem calls_webhooks (request : WebhooksRequest) :
    (request.body deployment).Calls Call.Peripheral := by
  cases request with
  | redeliver consumer endpointId deliveryId =>
      exact ((dispatches_redeliver consumer endpointId deliveryId).mono
        fun _ => Call.Dispatches.peripheral).map _
  | _ => exact (manages_webhooks id).mono fun _ => Call.Manages.peripheral

/-- A call about the consumer's own customers or products. -/
def Call.Catalogs : Call → Prop
  | .write (.upsertConsumer _ _) => True
  | .write (.create .customer _) => True
  | .write (.update .customer _ _) => True
  | .write (.delete .customer _) => True
  | .write (.create .product _) => True
  | .write (.update .product _ _) => True
  | .write (.delete .product _) => True
  | .query (.customerOwned _ _) => True
  | .query (.customersOf _) => True
  | .query (.sourcedIntents _) => True
  | .query (.productOwned _ _) => True
  | _ => False

theorem Call.Catalogs.peripheral {call : Call} (catalogs : call.Catalogs) : call.Peripheral := by
  unfold Call.Peripheral
  split <;> first | exact catalogs | trivial

theorem catalogs_customers (request : CustomersRequest) :
    (request.body deployment).Calls Call.Catalogs := by
  have findOne : ∀ consumer id, (Customers.findOne consumer id).Calls Call.Catalogs := by
    intro consumer id
    refine Calls.call_bind (by trivial) fun _ => Calls.call_bind (by trivial) fun found => ?_
    split
    · exact calls_throw _
    · exact calls_pure _
  cases request with
  | create consumer dto =>
      refine Calls.map ?_ _
      exact Calls.call_bind (by trivial) fun _ => calls_call (by trivial)
  | findAll consumer =>
      refine Calls.map (Calls.call_bind (by trivial) fun _ => ?_) _
      exact Calls.call_bind (by trivial) fun _ => Calls.call_bind (by trivial) fun _ =>
        calls_pure _
  | findOne consumer id => exact Calls.map (findOne consumer id) _
  | update consumer id dto =>
      exact Calls.map (Calls.bind (findOne consumer id) fun _ => calls_call (by trivial)) _
  | remove consumer id =>
      exact Calls.map (Calls.bind (findOne consumer id) fun _ =>
        Calls.call_bind (by trivial) fun _ => calls_pure _) _

theorem calls_customers (request : CustomersRequest) :
    (request.body deployment).Calls Call.Peripheral :=
  (catalogs_customers request).mono fun _ => Call.Catalogs.peripheral

/-- A call about the consumer's own products. -/
def Call.Stocks : Call → Prop
  | .write (.upsertConsumer _ _) => True
  | .write (.create .product _) => True
  | .write (.update .product _ _) => True
  | .write (.delete .product _) => True
  | .query (.productOwned _ _) => True
  | _ => False

theorem Call.Stocks.catalogs {call : Call} (stocks : call.Stocks) : call.Catalogs := by
  unfold Call.Stocks at stocks
  split at stocks <;> first | exact stocks.elim | trivial

theorem stocks_products (request : ProductsRequest) : request.body.Calls Call.Stocks := by
  have findOne : ∀ consumer id, (Products.findOne consumer id).Calls Call.Stocks := by
    intro consumer id
    refine Calls.call_bind (by trivial) fun _ => Calls.call_bind (by trivial) fun found => ?_
    split
    · exact calls_throw _
    · exact calls_pure _
  cases request with
  | create consumer dto =>
      refine Calls.map ?_ _
      exact Calls.call_bind (by trivial) fun _ => calls_call (by trivial)
  | findOne consumer id => exact Calls.map (findOne consumer id) _
  | update consumer id dto =>
      exact Calls.map (Calls.bind (findOne consumer id) fun _ => calls_call (by trivial)) _
  | remove consumer id =>
      exact Calls.map (Calls.bind (findOne consumer id) fun _ =>
        Calls.call_bind (by trivial) fun _ => calls_pure _) _

theorem catalogs_products (request : ProductsRequest) : request.body.Calls Call.Catalogs :=
  (stocks_products request).mono fun _ => Call.Stocks.catalogs

theorem calls_products (request : ProductsRequest) :
    request.body.Calls Call.Peripheral :=
  (catalogs_products request).mono fun _ => Call.Catalogs.peripheral

/-- A call that reads the consumer's own figures. -/
def Call.Aggregates : Call → Prop
  | .write (.upsertConsumer _ _) => True
  | .now => True
  | .query (.intentsOn _ _) => True
  | .query (.balanceIntents _ _) => True
  | .query (.endpointsOf _) => True
  | .query (.deliveriesAmong _ _) => True
  | .query (.deliveryCount _ _) => True
  | _ => False

theorem Call.Aggregates.peripheral {call : Call} (aggregates : call.Aggregates) :
    call.Peripheral := by
  unfold Call.Peripheral
  split <;> first | exact aggregates | trivial

theorem aggregates_countDeliveries (endpointIds : List String)
    (status : Option WebhookDeliveryStatus) :
    (Analytics.countDeliveries endpointIds status).Calls Call.Aggregates := by
  unfold Analytics.countDeliveries
  split
  · exact calls_pure _
  · exact calls_call (by trivial)

theorem aggregates_analytics (request : AnalyticsRequest) :
    (request.body deployment).Calls Call.Aggregates := by
  have resolve : ∀ consumer, (Analytics.resolveConsumerId consumer).Calls Call.Aggregates :=
    fun consumer => Calls.call_bind (by trivial) fun _ => calls_pure _
  cases request with
  | summary consumer =>
      refine Calls.map (Calls.bind (resolve consumer) fun _ => ?_) _
      refine Calls.call_bind (by trivial) fun _ => Calls.call_bind (by trivial) fun _ => ?_
      refine Calls.call_bind (by trivial) fun _ => ?_
      refine Calls.bind (aggregates_countDeliveries _ _) fun _ => ?_
      exact Calls.bind (aggregates_countDeliveries _ _) fun _ => calls_pure _
  | balances consumer =>
      refine Calls.map (Calls.bind (resolve consumer) fun _ => ?_) _
      exact Calls.call_bind (by trivial) fun _ => calls_pure _
  | webhookLogs consumer take =>
      refine Calls.map (Calls.bind (resolve consumer) fun _ => ?_) _
      refine Calls.call_bind (by trivial) fun endpoints => ?_
      split
      · exact calls_pure _
      · exact Calls.call_bind (by trivial) fun _ => calls_pure _

theorem calls_analytics (request : AnalyticsRequest) :
    (request.body deployment).Calls Call.Peripheral :=
  (aggregates_analytics request).mono fun _ => Call.Aggregates.peripheral

theorem calls_upsertCustomerFromPayment
    (looksUp : ∀ consumerId account, kind (.query (.customerIdByAccount consumerId account)))
    (creates : ∀ new, kind (.write (.create .customer new))) (intent : PaymentIntent)
    (payer : Option String) :
    (PaymentIntents.upsertCustomerFromPayment intent payer).Calls kind := by
  unfold PaymentIntents.upsertCustomerFromPayment
  split
  · exact calls_pure _
  · refine Calls.call_bind (looksUp _ _) fun found => ?_
    split
    · exact calls_pure _
    · exact Calls.call_bind (creates _) fun _ => calls_pure _

/-- A background task enrolls a customer or works on deliveries. -/
theorem calls_task
    (looksUp : ∀ consumerId account, kind (.query (.customerIdByAccount consumerId account)))
    (creates : ∀ new, kind (.write (.create .customer new)))
    (delivers : ∀ call : Call, call.Dispatches → kind call) (task : BackgroundTask) :
    (task.body deployment).Calls kind := by
  cases task with
  | upsertCustomerFromPayment intent payer =>
      exact calls_upsertCustomerFromPayment looksUp creates intent payer
  | handleEvent payload => exact (dispatches_handleEvent payload).mono delivers
  | createAndDeliver endpoint eventType eventId data =>
      exact (dispatches_createAndDeliver endpoint eventType eventId data).mono delivers

theorem calls_background (task : BackgroundTask) :
    (task.body deployment).Calls Call.Peripheral :=
  calls_task (fun _ _ => trivial) (fun _ => trivial) (fun _ => Call.Dispatches.peripheral) task

/-- Requests that never write an intent. -/
def Request.Peripheral : Request → Prop
  | .paymentIntents (.findAll _ _) => True
  | .paymentIntents (.findOne _ _) => True
  | .paymentIntents _ => False
  | .tick _ => False
  | _ => True

theorem calls_peripheral {request : Request} (isPeripheral : request.Peripheral) :
    (request.body deployment).Calls Call.Peripheral := by
  cases request with
  | paymentIntents request =>
      cases request with
      | findAll consumer query =>
          exact Calls.map (Calls.call_bind (by trivial) fun _ => calls_pure _) _
      | findOne consumer id =>
          refine Calls.map (Calls.call_bind (by trivial) fun found => ?_) _
          split
          · exact calls_throw _
          · exact calls_withQr _
      | _ => exact isPeripheral.elim
  | webhooks request => exact calls_webhooks request
  | customers request => exact calls_customers request
  | products request => exact calls_products request
  | analytics request => exact calls_analytics request
  | tick node => exact isPeripheral.elim
  | background task => exact Calls.map (calls_background task) _

/-! ## Creating intents -/

section Create

open PaymentIntents

/-- A call that changes no existing intent. -/
def Call.Adds : Call → Prop
  | .write (.update .paymentIntent _ _) => False
  | .write (.delete .paymentIntent _) => False
  | _ => True

theorem calls_resolveMemo (draws : kind (.randomBytes 8)) (provided : Field String) :
    (resolveMemo provided).Calls kind := by
  cases provided with
  | undefined => exact Calls.call_bind draws fun _ => calls_pure _
  | null => exact calls_throw _
  | value provided =>
      simp only [resolveMemo]
      split
      · exact calls_pure _
      · exact calls_throw _

theorem Call.Peripheral.adds {call : Call} (peripheral : call.Peripheral) : call.Adds := by
  unfold Call.Adds
  split <;> first | exact peripheral | trivial

theorem calls_existingView (consumerId memo : String) :
    (existingView deployment consumerId memo).Calls Call.Peripheral := by
  refine Calls.call_bind (by trivial) fun found => ?_
  split
  · exact calls_withQr _
  · exact calls_throw _

theorem calls_finishCreate (consumer : GatewayConsumer) (data : NewPaymentIntent) :
    (finishCreate deployment consumer data).Calls Call.Adds := by
  refine Calls.bind (Calls.call_bind (by trivial) fun now => ?_) fun persisted => ?_
  · refine Calls.tryCatch (Calls.map (calls_call (by trivial)) _) fun err => ?_
    split
    · exact calls_pure _
    · exact calls_throw _
  · split
    · exact (calls_existingView _ _).mono fun _ => Call.Peripheral.adds
    · exact Calls.call_bind (by trivial) fun _ => calls_withQr _

theorem calls_loadAccount (network : StellarNetwork) (source : String) :
    (loadAccount network source).Calls Call.IsHorizon := by
  refine Calls.tryCatch (calls_call (by trivial)) fun err => ?_
  split <;> exact calls_throw _

theorem calls_createTx (consumer : GatewayConsumer) (dto : CreateTxPaymentIntentDto) :
    (createTx deployment consumer dto).Calls Call.Adds := by
  refine Calls.call_bind (by trivial) fun owner => Calls.bind (calls_ofExcept _) fun asset => ?_
  refine Calls.bind (calls_resolveMemo trivial _) fun memo => ?_
  refine Calls.call_bind (by trivial) fun found => ?_
  split
  · exact calls_withQr _
  · refine Calls.bind ((calls_loadAccount _ _).mono fun _ isHorizon => isHorizon.peripheral.adds)
      fun _ => ?_
    refine Calls.call_bind (by trivial) fun now => Calls.bind (calls_ofExcept _) fun xdr => ?_
    exact calls_finishCreate consumer _

theorem calls_createPay (consumer : GatewayConsumer) (dto : CreatePayPaymentIntentDto) :
    (createPay deployment consumer dto).Calls Call.Adds := by
  refine Calls.call_bind (by trivial) fun owner => Calls.bind (calls_ofExcept _) fun asset => ?_
  refine Calls.bind (calls_resolveMemo trivial _) fun memo => ?_
  refine Calls.call_bind (by trivial) fun found => ?_
  split
  · exact calls_withQr _
  · exact calls_finishCreate consumer _

end Create

/-! ## Requests about intents -/

section Intents

open PaymentIntents

/-- A call of the endpoints and the observer on single intents. -/
def Call.Handles : Call → Prop
  | .write (.upsertConsumer _ _) => True
  | .write (.create .paymentIntent _) => True
  | .write (.update .paymentIntent _ _) => True
  | .write (.delete .paymentIntent _) => True
  | .query (.intentByMemo _ _) => True
  | .query (.intentOwned _ _) => True
  | .query (.intentIdOwned _ _) => True
  | .query (.intentStatus _) => True
  | .query (.intentSource _) => True
  | .query (.intentPage _ _ _ _) => True
  | .horizon _ => True
  | .now => True
  | .randomBytes _ => True
  | .emit _ => True
  | .start (.upsertCustomerFromPayment _ _) => True
  | _ => False

theorem Call.IsHorizon.handles {call : Call} (isHorizon : call.IsHorizon) : call.Handles := by
  cases call with
  | horizon lookup => trivial
  | _ => exact isHorizon.elim

/-- A call of the endpoints on single intents that settles none. -/
def Call.Serves : Call → Prop
  | .start _ => False
  | call => call.Handles

theorem Call.Serves.handles {call : Call} (serves : call.Serves) : call.Handles := by
  unfold Call.Serves at serves
  split at serves
  · exact serves.elim
  · exact serves

theorem Call.IsHorizon.serves {call : Call} (isHorizon : call.IsHorizon) : call.Serves := by
  cases call with
  | horizon lookup => trivial
  | _ => exact isHorizon.elim

theorem serves_finishCreate (consumer : GatewayConsumer) (data : NewPaymentIntent) :
    (finishCreate deployment consumer data).Calls Call.Serves := by
  refine Calls.bind (Calls.call_bind (by trivial) fun now => ?_) fun persisted => ?_
  · refine Calls.tryCatch (Calls.map (calls_call (by trivial)) _) fun err => ?_
    split
    · exact calls_pure _
    · exact calls_throw _
  · split
    · refine Calls.call_bind (by trivial) fun found => ?_
      split
      · exact calls_withQr _
      · exact calls_throw _
    · exact Calls.call_bind (by trivial) fun _ => calls_withQr _

/-- The lookup that both create endpoints make, and what follows if it misses. -/
theorem serves_findByMemo {consumerId memo : String} {next : Promise PaymentIntentView}
    (calls : next.Calls Call.Serves) :
    (do match ← findByMemo consumerId memo with
        | some existing => withQr deployment existing
        | none => next : Promise PaymentIntentView).Calls Call.Serves := by
  refine Calls.call_bind (by trivial) fun found => ?_
  split
  · exact calls_withQr _
  · exact calls

theorem serves_createTx (consumer : GatewayConsumer) (dto : CreateTxPaymentIntentDto) :
    (createTx deployment consumer dto).Calls Call.Serves := by
  refine Calls.call_bind (by trivial) fun owner => Calls.bind (calls_ofExcept _) fun asset => ?_
  refine Calls.bind (calls_resolveMemo trivial _) fun memo => serves_findByMemo ?_
  refine Calls.bind ((calls_loadAccount _ _).mono fun _ => Call.IsHorizon.serves)
    fun _ => ?_
  refine Calls.call_bind (by trivial) fun now => Calls.bind (calls_ofExcept _) fun xdr => ?_
  exact serves_finishCreate consumer _

theorem serves_createPay (consumer : GatewayConsumer) (dto : CreatePayPaymentIntentDto) :
    (createPay deployment consumer dto).Calls Call.Serves := by
  refine Calls.call_bind (by trivial) fun owner => Calls.bind (calls_ofExcept _) fun asset => ?_
  refine Calls.bind (calls_resolveMemo trivial _) fun memo => serves_findByMemo ?_
  exact serves_finishCreate consumer _

theorem serves_assertOwned (consumer : GatewayConsumer) (id : String) :
    (assertOwned consumer id).Calls Call.Serves := by
  refine Calls.call_bind (by trivial) fun found => ?_
  split
  · exact calls_throw _
  · exact calls_pure _

theorem handles_markSucceeded (id username hash : String) (payer : Option String) :
    (markSucceeded id username hash payer).Calls Call.Handles :=
  Calls.call_bind (by trivial) fun _ => Calls.call_bind (by trivial) fun _ =>
    Calls.call_bind (by trivial) fun _ => Calls.call_bind (by trivial) fun _ => calls_pure _

theorem handles_markFailed (id username : String) (hash : Option String) :
    (markFailed id username hash).Calls Call.Handles :=
  Calls.call_bind (by trivial) fun _ => Calls.call_bind (by trivial) fun _ => calls_pure _

theorem handles_markExpired (id username : String) :
    (markExpired id username).Calls Call.Handles :=
  Calls.call_bind (by trivial) fun _ => Calls.call_bind (by trivial) fun _ => calls_pure _

theorem handles_validate (consumer : GatewayConsumer) (id txHash : String) :
    (validate deployment consumer id txHash).Calls Call.Handles := by
  refine Calls.call_bind (by trivial) fun found => ?_
  split
  · exact calls_throw _
  · rename_i intent
    split
    · exact Calls.bind (calls_withQr _) fun _ => calls_pure _
    · refine Calls.bind ((calls_verifyByHash intent txHash).mono
        fun _ => Call.IsHorizon.handles) fun result => ?_
      unfold settle
      split
      · exact Calls.bind (handles_markSucceeded _ _ _ _) fun _ =>
          Calls.bind (calls_withQr _) fun _ => calls_pure _
      · split
        · exact Calls.bind (handles_markFailed _ _ _) fun _ =>
            Calls.bind (calls_withQr _) fun _ => calls_pure _
        · exact calls_pure _

theorem serves_paymentIntents {request : PaymentIntentsRequest}
    (other : ∀ consumer id txHash, request ≠ .validate consumer id txHash) :
    (request.body deployment).Calls Call.Serves := by
  cases request with
  | createTx consumer dto => exact (serves_createTx consumer dto).map _
  | createPay consumer dto => exact (serves_createPay consumer dto).map _
  | findAll consumer query =>
      exact Calls.map (Calls.call_bind (by trivial) fun _ => calls_pure _) _
  | findOne consumer id =>
      refine Calls.map (Calls.call_bind (by trivial) fun found => ?_) _
      split
      · exact calls_throw _
      · exact calls_withQr _
  | update consumer id dto =>
      refine Calls.map (Calls.bind (serves_assertOwned consumer id) fun _ => ?_) _
      exact Calls.call_bind (by trivial) fun _ => Calls.call_bind (by trivial) fun _ =>
        calls_withQr _
  | remove consumer id =>
      refine Calls.map (Calls.bind (serves_assertOwned consumer id) fun _ => ?_) _
      refine Calls.call_bind (by trivial) fun status => ?_
      split
      · exact calls_throw _
      · exact Calls.call_bind (by trivial) fun _ => Calls.call_bind (by trivial) fun _ =>
          calls_pure _
  | validate consumer id txHash => exact absurd rfl (other consumer id txHash)

theorem handles_paymentIntents (request : PaymentIntentsRequest) :
    (request.body deployment).Calls Call.Handles := by
  cases request with
  | validate consumer id txHash => exact (handles_validate consumer id txHash).map _
  | _ =>
      refine (serves_paymentIntents fun _ _ _ => ?_).mono fun _ => Call.Serves.handles
      rintro ⟨⟩

/-- A call of the work on single intents. -/
def Call.Intends : Call → Prop
  | .write (.upsertConsumer _ _) => True
  | .write (.create .paymentIntent _) => True
  | .write (.update .paymentIntent _ _) => True
  | .write (.delete .paymentIntent _) => True
  | .write (.create .customer _) => True
  | .query (.intentByMemo _ _) => True
  | .query (.intentOwned _ _) => True
  | .query (.intentIdOwned _ _) => True
  | .query (.intentStatus _) => True
  | .query (.intentSource _) => True
  | .query (.intentPage _ _ _ _) => True
  | .query (.customerIdByAccount _ _) => True
  | .horizon _ => True
  | .now => True
  | .randomBytes _ => True
  | .emit _ => True
  | .start (.upsertCustomerFromPayment _ _) => True
  | _ => False

theorem Call.Handles.intends {call : Call} (handles : call.Handles) : call.Intends := by
  unfold Call.Handles at handles
  split at handles <;> first | exact handles.elim | trivial

theorem intends_upsertCustomerFromPayment (intent : PaymentIntent) (payer : Option String) :
    (upsertCustomerFromPayment intent payer).Calls Call.Intends :=
  calls_upsertCustomerFromPayment (fun _ _ => trivial) (fun _ => trivial) intent payer

theorem conforms_logged {relies : Performed signature → Prop}
    {permits : History signature → Call → Prop} {past : History signature}
    {ensures : History signature → Except ServiceError Unit → Prop} {task : Promise Unit}
    (conforms : task.Conforms relies permits (fun later _ => ensures later (.ok ())) past) :
    (StellarObserver.logged task).Conforms relies permits ensures past := by
  unfold StellarObserver.logged
  rw [conforms_tryCatch]
  refine conforms.ensuring fun later outcome holds => ?_
  cases outcome with
  | ok value => exact holds
  | error err => exact holds

theorem handles_logged {task : Promise Unit} (calls : task.Calls Call.Handles) :
    (StellarObserver.logged task).Calls Call.Handles :=
  Calls.tryCatch calls fun _ => calls_pure _

theorem handles_expire (row : PaymentIntent × String) :
    (StellarObserver.expire row).Calls Call.Handles :=
  handles_logged (Calls.bind (handles_markExpired _ _) fun _ => calls_pure _)

theorem handles_reconcile (row : PaymentIntent × String) :
    (StellarObserver.reconcile row).Calls Call.Handles := by
  refine Calls.bind ((calls_verify row.1).mono fun _ => Call.IsHorizon.handles) fun result => ?_
  split
  · exact Calls.bind (handles_markSucceeded _ _ _ _) fun _ => calls_pure _
  · exact calls_pure _

/-- What a tick does while it holds the flag. -/
def Call.Passes : Call → Prop
  | .query (.expiredIntents _ _) => True
  | .query (.pendingIntents _) => True
  | call => call.Intends

theorem Call.Intends.passes {call : Call} (intends : call.Intends) : call.Passes := by
  unfold Call.Passes
  split <;> first | exact intends | trivial

theorem passes_expiryPass : (StellarObserver.expiryPass deployment).Calls Call.Passes :=
  Calls.call_bind (by trivial) fun _ => Calls.call_bind (by trivial) fun rows =>
    (calls_forM handles_expire rows).mono fun _ handles => handles.intends.passes

theorem passes_reconcilePass : (StellarObserver.reconcilePass deployment).Calls Call.Passes :=
  Calls.call_bind (by trivial) fun rows =>
    (calls_forM (fun row => handles_logged (handles_reconcile row)) rows).mono
      fun _ handles => handles.intends.passes

theorem passes_cycle :
    (do StellarObserver.expiryPass deployment
        StellarObserver.reconcilePass deployment : Promise Unit).Calls Call.Passes :=
  Calls.bind passes_expiryPass fun _ => passes_reconcilePass

/-- A call of a tick, which declares no intent failed. -/
def Call.Observes : Call → Prop
  | .enterTick _ => True
  | .leaveTick _ => True
  | .now => True
  | .query (.expiredIntents _ _) => True
  | .query (.pendingIntents _) => True
  | .query (.intentSource _) => True
  | .horizon _ => True
  | .write (.update .paymentIntent _ patch) => patch.status ≠ .value .failed
  | .emit _ => True
  | .start (.upsertCustomerFromPayment _ _) => True
  | _ => False

theorem observes_logged {task : Promise Unit} (calls : task.Calls Call.Observes) :
    (StellarObserver.logged task).Calls Call.Observes :=
  Calls.tryCatch calls fun _ => calls_pure _

theorem observes_expire (row : PaymentIntent × String) :
    (StellarObserver.expire row).Calls Call.Observes := by
  refine observes_logged (Calls.bind ?_ fun _ => calls_pure _)
  exact Calls.call_bind nofun fun _ => Calls.call_bind (by trivial) fun _ => calls_pure _

theorem observes_reconcile (row : PaymentIntent × String) :
    (StellarObserver.reconcile row).Calls Call.Observes := by
  have verified : (StellarObserver.verify row.1).Calls Call.Observes := by
    refine (calls_verify row.1).mono fun call isHorizon => ?_
    cases call with
    | horizon lookup => trivial
    | _ => exact isHorizon.elim
  refine Calls.bind verified fun result => ?_
  split
  · refine Calls.bind ?_ fun _ => calls_pure _
    exact Calls.call_bind (by trivial) fun _ => Calls.call_bind nofun fun _ =>
      Calls.call_bind (by trivial) fun _ => Calls.call_bind (by trivial) fun _ => calls_pure _
  · exact calls_pure _

theorem observes_tick (node : Nat) :
    (StellarObserver.tick deployment node).Calls Call.Observes := by
  refine Calls.call_bind (by trivial) fun entered => ?_
  split
  · refine Calls.bind (Calls.tryCatch (Calls.bind ?_ fun _ => ?_) fun _ => calls_pure _)
      fun _ => calls_call (by trivial)
    · exact Calls.call_bind (by trivial) fun _ => Calls.call_bind (by trivial) fun rows =>
        calls_forM observes_expire rows
    · exact Calls.call_bind (by trivial) fun rows =>
        calls_forM (fun row => observes_logged (observes_reconcile row)) rows
  · exact calls_pure _

end Intents

/-! ## All requests -/

/-- The calls of every request are among those of these kinds. -/
theorem calls_body (passes : ∀ call : Call, call.Passes → kind call)
    (dispatches : ∀ call : Call, call.Dispatches → kind call)
    (manages : ∀ call : Call, call.Manages → kind call)
    (catalogs : ∀ call : Call, call.Catalogs → kind call)
    (aggregates : ∀ call : Call, call.Aggregates → kind call)
    (enters : ∀ node, kind (.enterTick node)) (leaves : ∀ node, kind (.leaveTick node))
    (request : Request) : (request.body deployment).Calls kind := by
  have intends : ∀ call : Call, call.Intends → kind call :=
    fun call isKind => passes call isKind.passes
  cases request with
  | paymentIntents request =>
      exact (handles_paymentIntents request).mono fun call isKind => intends call isKind.intends
  | webhooks request =>
      change (request.body deployment).Calls kind
      cases request with
      | redeliver consumer endpointId deliveryId =>
          exact ((dispatches_redeliver consumer endpointId deliveryId).mono dispatches).map _
      | _ => exact (manages_webhooks id).mono manages
  | customers request => exact (catalogs_customers request).mono catalogs
  | products request => exact (catalogs_products request).mono catalogs
  | analytics request => exact (aggregates_analytics request).mono aggregates
  | tick node =>
      refine Calls.map (Calls.call_bind (enters node) fun entered => ?_) _
      split
      · refine Calls.bind (Calls.tryCatch (passes_cycle.mono passes) fun _ => calls_pure _)
          fun _ => calls_call (leaves node)
      · exact calls_pure _
  | background task =>
      exact (calls_task (fun _ _ => intends _ trivial) (fun _ => intends _ trivial) dispatches
        task).map _

end CosmosPay

import CosmosPay.Store
import CosmosPay.Awaiting.Program

/-!
# Requests and the calls they await

Everything that a request of the service can await: a query or a statement of
the database, a Horizon lookup, the clock, random bytes, an event on the
internal bus, a detached task, an outgoing webhook.
-/

namespace CosmosPay

open Awaiting

/-! ## Horizon -/

/-- A transaction as Horizon answers it: the memo type, and the memo as a string
if there is one. -/
structure TransactionRecord where
  hash : String
  successful : Bool
  memoType : String
  memo : Option String
  deriving DecidableEq, Repr

structure OperationRecord where
  type : String
  transactionHash : String
  fromAccount : String
  toAccount : String
  assetType : String
  assetCode : Option String
  assetIssuer : Option String
  amount : String
  deriving DecidableEq, Repr

inductive HorizonCall where
  | loadAccount (network : StellarNetwork) (source : String)
  | transaction (network : StellarNetwork) (hash : String)
  | paymentsForTransaction (network : StellarNetwork) (hash : String)
  | paymentsForAccount (network : StellarNetwork) (account : String) (limit : Nat)

abbrev HorizonCall.Answer : HorizonCall → Type
  | .loadAccount _ _ => Account
  | .transaction _ _ => TransactionRecord
  | .paymentsForTransaction _ _ => List OperationRecord
  | .paymentsForAccount _ _ _ => List OperationRecord

/-! ## The database -/

inductive Query where
  | intentByMemo (consumerId memo : String)
  | intentOwned (id username : String)
  | intentIdOwned (id username : String)
  | intentStatus (id : String)
  | intentSource (id : String)
  | intentPage (username : String) (status : Option PaymentIntentStatus) (take skip : Nat)
  | expiredIntents (now take : Nat)
  | pendingIntents (take : Nat)
  | customerIdByAccount (consumerId account : String)
  | customerOwned (id consumerId : String)
  | productOwned (id consumerId : String)
  | endpointOwned (id username : String)
  | endpoint (id : String)
  | enabledEndpoints (username : String)
  | endpointsNamed (username : String)
  | endpointsOf (consumerId : String)
  | deliveryOf (id endpointId : String)
  | deliveryPage (endpointId : String) (status : Option WebhookDeliveryStatus)
      (take skip : Nat)
  | deliveriesAmong (endpointIds : List String) (take : Nat)
  | deliveryCount (endpointIds : List String) (status : Option WebhookDeliveryStatus)
  | intentsOn (consumerId : String) (network : StellarNetwork)
  | balanceIntents (consumerId : String) (network : StellarNetwork)
  | customersOf (consumerId : String)
  | sourcedIntents (consumerId : String)

abbrev Query.Answer : Query → Type
  | .intentByMemo _ _ => Option PaymentIntent
  | .intentOwned _ _ => Option PaymentIntent
  | .intentIdOwned _ _ => Option String
  | .intentStatus _ => Option PaymentIntentStatus
  | .intentSource _ => Option (Option String)
  | .intentPage _ _ _ _ => List PaymentIntent × Nat
  | .expiredIntents _ _ => List (PaymentIntent × String)
  | .pendingIntents _ => List (PaymentIntent × String)
  | .customerIdByAccount _ _ => Option String
  | .customerOwned _ _ => Option Customer
  | .productOwned _ _ => Option Product
  | .endpointOwned _ _ => Option WebhookEndpoint
  | .endpoint _ => Option WebhookEndpoint
  | .enabledEndpoints _ => List WebhookEndpoint
  | .endpointsNamed _ => List WebhookEndpoint
  | .endpointsOf _ => List WebhookEndpoint
  | .deliveryOf _ _ => Option WebhookDelivery
  | .deliveryPage _ _ _ _ => List WebhookDelivery × Nat
  | .deliveriesAmong _ _ => List WebhookDelivery
  | .deliveryCount _ _ => Nat
  | .intentsOn _ _ => List PaymentIntent
  | .balanceIntents _ _ => List PaymentIntent
  | .customersOf _ => List Customer
  | .sourcedIntents _ => List PaymentIntent

inductive Write where
  | upsertConsumer (username : String) (credentialId : Option String)
  | create (model : Model) (new : model.New)
  | update (model : Model) (id : String) (patch : model.Patch)
  | delete (model : Model) (id : String)

abbrev Write.Answer : Write → Type
  | .upsertConsumer _ _ => Consumer
  | .create model _ => model.Row
  | .update model _ _ => model.Row
  | .delete model _ => model.Row

/-! ## Requests -/

structure WebhookEventPayload where
  consumerUsername : String
  type : WebhookEventType
  data : PaymentIntent
  deriving DecidableEq

inductive PaymentIntentsRequest where
  | createTx (consumer : GatewayConsumer) (dto : CreateTxPaymentIntentDto)
  | createPay (consumer : GatewayConsumer) (dto : CreatePayPaymentIntentDto)
  | findAll (consumer : GatewayConsumer) (query : QueryPaymentIntentsDto)
  | findOne (consumer : GatewayConsumer) (id : String)
  | update (consumer : GatewayConsumer) (id : String) (dto : UpdatePaymentIntentDto)
  | remove (consumer : GatewayConsumer) (id : String)
  | validate (consumer : GatewayConsumer) (id txHash : String)

inductive WebhooksRequest where
  | create (consumer : GatewayConsumer) (dto : CreateWebhookEndpointDto)
  | findAll (consumer : GatewayConsumer)
  | findOne (consumer : GatewayConsumer) (id : String)
  | update (consumer : GatewayConsumer) (id : String) (dto : UpdateWebhookEndpointDto)
  | remove (consumer : GatewayConsumer) (id : String)
  | rotateSecret (consumer : GatewayConsumer) (id : String)
  | listDeliveries (consumer : GatewayConsumer) (id : String) (query : QueryDeliveriesDto)
  | redeliver (consumer : GatewayConsumer) (endpointId deliveryId : String)
  | ping (consumer : GatewayConsumer) (id : String)

inductive CustomersRequest where
  | create (consumer : GatewayConsumer) (dto : CreateCustomerDto)
  | findAll (consumer : GatewayConsumer)
  | findOne (consumer : GatewayConsumer) (id : String)
  | update (consumer : GatewayConsumer) (id : String) (dto : UpdateCustomerDto)
  | remove (consumer : GatewayConsumer) (id : String)

inductive ProductsRequest where
  | create (consumer : GatewayConsumer) (dto : CreateProductDto)
  | findOne (consumer : GatewayConsumer) (id : String)
  | update (consumer : GatewayConsumer) (id : String) (dto : UpdateProductDto)
  | remove (consumer : GatewayConsumer) (id : String)

inductive AnalyticsRequest where
  | summary (consumer : GatewayConsumer)
  | balances (consumer : GatewayConsumer)
  | webhookLogs (consumer : GatewayConsumer) (take : Nat)

/-- Tasks that nobody awaits. -/
inductive BackgroundTask where
  | upsertCustomerFromPayment (intent : PaymentIntent) (payer : Option String)
  | handleEvent (payload : WebhookEventPayload)
  | createAndDeliver (endpoint : WebhookEndpoint) (eventType : WebhookEventType)
      (eventId : String) (data : PaymentIntent)

/-- What runs as a thread of its own.  `tick` is one timer tick of the observer of
the service instance `node`. -/
inductive Request where
  | paymentIntents (request : PaymentIntentsRequest)
  | webhooks (request : WebhooksRequest)
  | customers (request : CustomersRequest)
  | products (request : ProductsRequest)
  | analytics (request : AnalyticsRequest)
  | tick (node : Nat)
  | background (task : BackgroundTask)

/-- A webhook on the wire. -/
structure WebhookPost where
  url : String
  signatureHeader : String
  signature : String
  event : String
  eventId : Option String
  delivery : Option String
  body : String
  deriving DecidableEq

/-! ## Calls -/

inductive Call where
  | query (asked : Query)
  | write (statement : Write)
  | horizon (lookup : HorizonCall)
  | now
  | randomBytes (size : Nat)
  | randomUUID
  | emit (payload : WebhookEventPayload)
  | start (task : BackgroundTask)
  | post (request : WebhookPost)
  | sleep (milliseconds : Nat)
  | enterTick (node : Nat)
  | leaveTick (node : Nat)

abbrev Call.Answer : Call → Type
  | .query asked => asked.Answer
  | .write statement => statement.Answer
  | .horizon lookup => lookup.Answer
  | .now => Nat
  | .randomBytes _ => List UInt8
  | .randomUUID => String
  | .emit _ => Unit
  | .start _ => Unit
  | .post _ => Nat
  | .sleep _ => Unit
  | .enterTick _ => Bool
  | .leaveTick _ => Unit

abbrev signature : Signature where
  Call := Call
  Answer := Call.Answer
  Error := ServiceError

/-- What an `async` function returns. -/
abbrev Promise (α : Type) : Type :=
  Program signature α

namespace Promise

def call (call : Call) : Promise call.Answer :=
  @Program.call signature call

def query (asked : Query) : Promise asked.Answer :=
  call (.query asked)

def write (statement : Write) : Promise statement.Answer :=
  call (.write statement)

def horizon (lookup : HorizonCall) : Promise lookup.Answer :=
  call (.horizon lookup)

/-- A synchronous step that may throw. -/
def ofExcept {α : Type} (outcome : Except ServiceError α) : Promise α :=
  .done outcome

end Promise

end CosmosPay

import CosmosPay.Analytics
import CosmosPay.Awaiting.Evaluation
import CosmosPay.Catalog
import CosmosPay.StellarObserver
import CosmosPay.Webhooks
import CosmosPay.World

/-!
# The service as a pool of requests

Every request with its program, over the world it runs in.
-/

namespace CosmosPay

open Awaiting

inductive Reply where
  | intent (view : PaymentIntentView)
  | intents (page : PaymentIntents.PaymentIntentPage)
  | validation (outcome : ValidationOutcome)
  | endpoint (endpoint : WebhookEndpoint)
  | safeEndpoint (endpoint : SafeWebhookEndpoint)
  | safeEndpoints (endpoints : List SafeWebhookEndpoint)
  | delivery (delivery : WebhookDelivery)
  | deliveries (page : WebhookDeliveryPage)
  | ping (result : PingResult)
  | customer (customer : Customer)
  | customers (page : CustomerPage)
  | product (product : Product)
  | summary (summary : Summary)
  | balances (page : BalancePage)
  | webhookLogs (page : WebhookLogPage)
  | deleted (id : String)
  | done

section Bodies

variable (deployment : Deployment)

def PaymentIntentsRequest.body : PaymentIntentsRequest → Promise Reply
  | .createTx consumer dto => .intent <$> PaymentIntents.createTx deployment consumer dto
  | .createPay consumer dto => .intent <$> PaymentIntents.createPay deployment consumer dto
  | .findAll consumer query => .intents <$> PaymentIntents.findAll consumer query
  | .findOne consumer id => .intent <$> PaymentIntents.findOne deployment consumer id
  | .update consumer id dto => .intent <$> PaymentIntents.update deployment consumer id dto
  | .remove consumer id => .deleted <$> PaymentIntents.remove consumer id
  | .validate consumer id txHash =>
      .validation <$> PaymentIntents.validate deployment consumer id txHash

def WebhooksRequest.body : WebhooksRequest → Promise Reply
  | .create consumer dto => .endpoint <$> Webhooks.create consumer dto
  | .findAll consumer => .safeEndpoints <$> Webhooks.findAll consumer
  | .findOne consumer id => .safeEndpoint <$> Webhooks.findOne consumer id
  | .update consumer id dto => .safeEndpoint <$> Webhooks.update consumer id dto
  | .remove consumer id => .deleted <$> Webhooks.remove consumer id
  | .rotateSecret consumer id => .endpoint <$> Webhooks.rotateSecret consumer id
  | .listDeliveries consumer id query =>
      .deliveries <$> Webhooks.listDeliveries consumer id query
  | .redeliver consumer endpointId deliveryId =>
      .delivery <$> Webhooks.redeliver deployment consumer endpointId deliveryId
  | .ping consumer id => .ping <$> Webhooks.ping deployment consumer id

def CustomersRequest.body : CustomersRequest → Promise Reply
  | .create consumer dto => .customer <$> Customers.create consumer dto
  | .findAll consumer => .customers <$> Customers.findAll consumer deployment.numbers
  | .findOne consumer id => .customer <$> Customers.findOne consumer id
  | .update consumer id dto => .customer <$> Customers.update consumer id dto
  | .remove consumer id => .deleted <$> Customers.remove consumer id

def ProductsRequest.body : ProductsRequest → Promise Reply
  | .create consumer dto => .product <$> Products.create consumer dto
  | .findOne consumer id => .product <$> Products.findOne consumer id
  | .update consumer id dto => .product <$> Products.update consumer id dto
  | .remove consumer id => .deleted <$> Products.remove consumer id

def AnalyticsRequest.body : AnalyticsRequest → Promise Reply
  | .summary consumer => .summary <$> Analytics.summary consumer deployment.numbers
  | .balances consumer => .balances <$> Analytics.balances consumer deployment.numbers
  | .webhookLogs consumer take => .webhookLogs <$> Analytics.webhookLogs consumer take

def BackgroundTask.body : BackgroundTask → Promise Unit
  | .upsertCustomerFromPayment intent payer =>
      PaymentIntents.upsertCustomerFromPayment intent payer
  | .handleEvent payload => WebhookDispatcher.handleEvent payload
  | .createAndDeliver endpoint eventType eventId data =>
      WebhookDispatcher.createAndDeliver deployment endpoint eventType eventId data

def Request.body : Request → Promise Reply
  | .paymentIntents request => request.body deployment
  | .webhooks request => request.body deployment
  | .customers request => request.body deployment
  | .products request => request.body
  | .analytics request => request.body deployment
  | .tick node => (fun _ => .done) <$> StellarObserver.tick deployment node
  | .background task => (fun _ => .done) <$> task.body deployment

/-- Any number of requests, ticks and detached tasks in flight. -/
def service : Machine signature where
  State := World
  Request := Request
  Reply := Reply
  Choice := Choice
  Move := World.Move
  body := Request.body deployment
  perform := World.perform
  move := World.move

end Bodies

/-! ## Calls that succeed -/

section Success

variable {deployment : Deployment} {world : World}

theorem perform_query_ok {asked : Query} {answer : asked.Answer}
    (answered : asked.answer [] world.store = some answer) :
    (service deployment).perform (.query asked) Choice.serve world =
      some ⟨.ok answer, world, []⟩ := by
  simp [service, World.perform, Choice.order, answered, World.reply]

theorem perform_horizon_ok {lookup : HorizonCall} {answer : lookup.Answer}
    (answered : lookup.answer world = .ok answer) :
    (service deployment).perform (.horizon lookup) Choice.serve world =
      some ⟨.ok answer, world, []⟩ := by
  simp [service, World.perform, answered, World.reply]

theorem perform_write_ok {statement : Write} {answer : statement.Answer} {store : Store}
    (undrawn : statement.draws = false)
    (executed : statement.execute world.store "" world.clock = .ok (answer, store)) :
    (service deployment).perform (.write statement) Choice.serve world =
      some ⟨.ok answer, { world with store }, []⟩ := by
  simp [service, World.perform, undrawn, executed, World.commit]

theorem perform_draw_ok {statement : Write} {answer : statement.Answer} {store : Store}
    {id : String} (draws : statement.draws = true) (fresh : id ∉ world.store.issued)
    (executed : statement.execute world.store id world.clock = .ok (answer, store)) :
    (service deployment).perform (.write statement) (Choice.draw id) world =
      some ⟨.ok answer, { world with store }, []⟩ := by
  simp [service, World.perform, draws, fresh, executed, World.commit]

theorem perform_bytes {size : Nat} {drawn : List UInt8} (isSize : drawn.length = size) :
    (service deployment).perform (.randomBytes size) (Choice.bytes drawn) world =
      some ⟨.ok drawn, world, []⟩ := by
  simp [service, World.perform, isSize, World.reply]

theorem perform_clock :
    (service deployment).perform .now Choice.serve world = some ⟨.ok world.clock, world, []⟩ :=
  rfl

theorem perform_emit (payload : WebhookEventPayload) :
    (service deployment).perform (.emit payload) Choice.serve world =
      some ⟨.ok (), world, [.background (.handleEvent payload)]⟩ :=
  rfl

end Success

/-- Every call can be answered. -/
theorem exists_perform (deployment : Deployment) (call : Call) (world : World) :
    ∃ choice served, (service deployment).perform call choice world = some served := by
  cases call with
  | query asked => exact ⟨Choice.reject, _, rfl⟩
  | write statement => exact ⟨Choice.reject, _, rfl⟩
  | horizon lookup => exact ⟨Choice.reject, _, rfl⟩
  | post request => exact ⟨Choice.reject, _, rfl⟩
  | randomBytes size => exact ⟨Choice.bytes (List.replicate size 0), _, perform_bytes (by simp)⟩
  | randomUUID => exact ⟨Choice.draw "", _, rfl⟩
  | enterTick node =>
      by_cases taken : node ∈ world.running
      · exact ⟨Choice.serve, _, if_pos taken⟩
      · exact ⟨Choice.serve, _, if_neg taken⟩
  | _ => exact ⟨Choice.serve, _, rfl⟩

/-- Every program comes to its end. -/
theorem exists_execute {α : Type} (deployment : Deployment) (program : Promise α)
    (world : World) : ∃ choices execution,
      program.execute (service deployment) choices world = some execution := by
  have calls : program.Calls fun _ => True :=
    fun past => Program.conforms_of_forall _ (fun _ _ => trivial) fun _ _ => trivial
  obtain ⟨choices, execution, -, executed⟩ := calls.exists_execute (service deployment)
    (fun call state _ =>
      have ⟨choice, served, performed⟩ := exists_perform deployment call state
      ⟨choice, served, (trivial : (fun _ => True) choice), performed⟩) world
  exact ⟨choices, execution, executed⟩

/-! ## A small deployment -/

namespace Sample

def destination : String := "GCALNQQBXAPZ2WIRSDDBMSTAKCUH5SG6U76YBFLQLIXJTF7FE5AX7AOO"

def payer : String := "GA7QYNF7SOWQ3GLR2BGMZEHXAVIRZA4KVWLTJJFC7MGXUA74P7UJVSGZ"

def libraries : Libraries where
  isValidEd25519PublicKey key := key = destination ∨ key = payer
  newAsset code issuer := .ok (.issued code issuer)
  buildEnvelope request := .ok ("AAAAAgAAAAA" ++ request.memo)
  toDataURL uri := .ok ("data:image/png;base64," ++ uri)
  hmacSha256 secret message := secret ++ message
  stringify body := body.id
  stringifyPing id _ := id

def deployment : Deployment where
  config := {
    network := .testnet, baseFee := "100", timeoutSeconds := 300, batchSize := 50,
    ttlSeconds := 3600, maxAttempts := 5, backoffMs := 2000,
    signatureHeader := "x-cosmos-signature" }
  libraries := libraries

def caller (username : String) (environment : KeyEnvironment := .dev) : GatewayConsumer where
  username := username
  credentialId := none
  environment := environment
  role := some .admin
  permissions := []

/-- A transaction hash of one repeated hex digit. -/
def hash (digit : Char) : String :=
  String.ofList (List.replicate 64 digit)

/-- A payment of 25.5 lumens with an id memo. -/
def payment (digit : Char) (successful : Bool) (memo : UInt64) (landedAt : Nat := 0) :
    Transaction where
  network := .testnet
  hash := hash digit
  successful := successful
  memo := .id memo
  operations := [⟨"payment", payer, destination, "native", none, none, "25.5000000"⟩]
  landedAt := landedAt

/-- One payment with memo 7 has succeeded, another has failed. -/
def world : World where
  store := .empty
  ledger := ⟨[payment '1' true 7, payment '2' false 7], by decide⟩
  accounts := [(.testnet, ⟨destination, 1⟩), (.testnet, ⟨payer, 1⟩)]
  clock := 1000
  running := []

/-- An intent that asks for the payment with memo 7. -/
def intent : PaymentIntent where
  id := "pi"
  consumerId := "c"
  kind := .pay
  source := none
  destination := destination
  amount := "25.5"
  asset := "native"
  assetIssuer := none
  memo := "7"
  network := .testnet
  msg := none
  callback := none
  status := .pending
  xdr := none
  uri := ""
  txHash := none
  reference := none
  expiresAt := none
  createdAt := 0

def payDto (memo : String) : CreatePayPaymentIntentDto where
  destination := destination
  amount := .value "25.5"
  assetCode := .undefined
  assetIssuer := .undefined
  memo := .value memo
  msg := .undefined
  callback := .undefined

def start : Config (service deployment) :=
  .initial world

/-- A `createPay` request as thread `thread`, run to its announcement. -/
def create (thread : Nat) (username memo consumerId intentId : String) :
    List (Label (service deployment)) :=
  [.issue (.paymentIntents (.createPay (caller username) (payDto memo))),
    .resume thread (.draw consumerId), .resume thread .serve, .resume thread .serve,
    .resume thread (.draw intentId), .resume thread .serve]

def validate (username id : String) (digit : Char) : Label (service deployment) :=
  .issue (.paymentIntents (.validate (caller username) id (hash digit)))

def patch (username id : String) (status : Field PaymentIntentStatus) (reference : Field String) :
    Label (service deployment) :=
  .issue (.paymentIntents (.update (caller username) id ⟨status, .undefined, reference⟩))

/-- A thread gets the answers to its next calls. -/
def serve (thread calls : Nat) : List (Label (service deployment)) :=
  List.replicate calls (.resume thread .serve)

end Sample

end CosmosPay

import CosmosPay.Calls
import CosmosPay.Awaiting.Pool
import Mathlib.Data.List.Perm.Basic

/-!
# The world the service runs in

The database, the chain as Horizon shows it, the clock, and the `running` flag of
each service instance.  `perform` answers a call.  A `Choice` says which answer,
where several are possible: the id or the bytes that are drawn, the order in
which rows come back, the status of a receiver, or that the connection is lost,
in which case nothing has changed.
-/

namespace CosmosPay

open Awaiting Tables

/-! ## The chain -/

inductive Memo where
  | none
  | text (value : String)
  | id (value : UInt64)
  | hash (value : String)
  | returnHash (value : String)
  deriving DecidableEq

/-- `memo_type` -/
def Memo.type : Memo → String
  | .none => "none"
  | .text _ => "text"
  | .id _ => "id"
  | .hash _ => "hash"
  | .returnHash _ => "return"

/-- `memo`: an id memo comes as the canonical decimal of its value. -/
def Memo.render : Memo → Option String
  | .none => Option.none
  | .text value => value
  | .id value => value.toNat.repr
  | .hash value => value
  | .returnHash value => value

structure Operation where
  type : String
  fromAccount : String
  toAccount : String
  assetType : String
  assetCode : Option String
  assetIssuer : Option String
  amount : String
  deriving DecidableEq

structure Transaction where
  network : StellarNetwork
  hash : String
  successful : Bool
  memo : Memo
  operations : List Operation
  landedAt : Nat
  deriving DecidableEq

namespace Transaction

def record (tx : Transaction) : TransactionRecord :=
  ⟨tx.hash, tx.successful, tx.memo.type, tx.memo.render⟩

/-- The operations that Horizon's payment listings contain. -/
def paymentTypes : List String :=
  ["payment", "create_account", "account_merge", "path_payment",
    "path_payment_strict_receive", "path_payment_strict_send"]

def payments (tx : Transaction) : List OperationRecord :=
  (tx.operations.filter fun operation => operation.type ∈ paymentTypes).map fun operation =>
    ⟨operation.type, tx.hash, operation.fromAccount, operation.toAccount, operation.assetType,
      operation.assetCode, operation.assetIssuer, operation.amount⟩

end Transaction

/-- A hash names one transaction of a network. -/
def ledgerIndexes : Indexes Transaction (StellarNetwork × String) :=
  primaryKeyOnly fun tx => (tx.network, tx.hash)

structure World where
  store : Store
  ledger : Table ledgerIndexes
  accounts : List (StellarNetwork × Account)
  clock : Nat
  running : List Nat

namespace World

def account? (world : World) (network : StellarNetwork) (id : String) : Option Account :=
  (world.accounts.find? fun (home, account) => home = network ∧ account.accountId = id).map
    Prod.snd

/-- The payment operations of successful transactions of a network, oldest first. -/
def paymentsOn (world : World) (network : StellarNetwork) : List OperationRecord :=
  (world.ledger.rows.filter fun tx => tx.network = network ∧ tx.successful).flatMap
    Transaction.payments

end World

/-- Horizon's answer; `404` for what it does not know. -/
def HorizonCall.answer : (lookup : HorizonCall) → World → Except ServiceError lookup.Answer
  | .loadAccount network source, world =>
      match world.account? network source with
      | some account => .ok account
      | none => .error (.horizon (some 404))
  | .transaction network hash, world =>
      match world.ledger.find? (network, hash) with
      | some tx => .ok tx.record
      | none => .error (.horizon (some 404))
  | .paymentsForTransaction network hash, world =>
      match world.ledger.find? (network, hash) with
      | some tx => .ok ((if tx.successful then tx.payments else []).take 10)
      | none => .error (.horizon (some 404))
  | .paymentsForAccount network id limit, world =>
      match world.account? network id with
      | some _ =>
          .ok (((world.paymentsOn network).filter fun payment =>
            payment.fromAccount = id ∨ payment.toAccount = id).reverse.take limit)
      | none => .error (.horizon (some 404))

/-! ## Queries -/

/-- Rows in the order in which `order` lists their ids, if it lists each once. -/
def arrange? {ρ : Type} (id : ρ → String) (rows : List ρ) (order : List String) :
    Option (List ρ) :=
  if (rows.map id).isPerm order then
    some (order.filterMap fun listed => rows.find? fun row => id row = listed)
  else none

/-- As `arrange?`, with the given column never decreasing. -/
def arrangeBy? {ρ : Type} (id : ρ → String) (column : ρ → Int) (rows : List ρ)
    (order : List String) : Option (List ρ) :=
  (arrange? id rows order).filter fun arranged =>
    decide (arranged.Pairwise fun first second => column first ≤ column second)

/-- `include: { consumer: true }` -/
def Store.withConsumer (store : Store) (intents : List PaymentIntent) :
    List (PaymentIntent × String) :=
  intents.filterMap fun intent =>
    (store.consumers.find? intent.consumerId).map fun owner => (intent, owner.apisixUsername)

/-- The answer of a query; `order` arranges the rows of a listing. -/
def Query.answer : (asked : Query) → (order : List String) → Store → Option asked.Answer
  | .intentByMemo consumerId memo, _, store =>
      some (store.intents.rows.find? fun row => row.consumerId = consumerId ∧ row.memo = memo)
  | .intentOwned id username, _, store =>
      some ((store.intents.find? id).filter fun row => store.belongsTo row.consumerId username)
  | .intentIdOwned id username, _, store =>
      some (((store.intents.find? id).filter fun row =>
        store.belongsTo row.consumerId username).map PaymentIntent.id)
  | .intentStatus id, _, store => some ((store.intents.find? id).map PaymentIntent.status)
  | .intentSource id, _, store => some ((store.intents.find? id).map PaymentIntent.source)
  | .intentPage username status take skip, order, store =>
      let matching := store.intents.rows.filter fun row =>
        store.belongsTo row.consumerId username ∧ (status = none ∨ status = row.status)
      (arrangeBy? PaymentIntent.id (fun row => -row.createdAt) matching order).map fun rows =>
        ((rows.drop skip).take take, matching.length)
  | .expiredIntents now take, order, store =>
      let matching := store.intents.rows.filter fun row =>
        (row.status = .pending ∨ row.status = .submitted) ∧
          row.expiresAt.any fun expiresAt => expiresAt < now
      (arrange? PaymentIntent.id matching order).map fun rows =>
        store.withConsumer (rows.take take)
  | .pendingIntents take, order, store =>
      let matching := store.intents.rows.filter fun row => row.status = .pending
      (arrangeBy? PaymentIntent.id (fun row => row.createdAt) matching order).map fun rows =>
        store.withConsumer (rows.take take)
  | .customerIdByAccount consumerId account, _, store =>
      some (((store.tables .customer).rows.find? fun row =>
        row.consumerId = consumerId ∧ row.account = some account).map Customer.id)
  | .customerOwned id consumerId, _, store =>
      some ((store.find? .customer id).filter fun row => row.consumerId = consumerId)
  | .productOwned id consumerId, _, store =>
      some ((store.find? .product id).filter fun row => row.consumerId = consumerId)
  | .endpointOwned id username, _, store =>
      some ((store.find? .webhookEndpoint id).filter fun row =>
        store.belongsTo row.consumerId username)
  | .endpoint id, _, store => some (store.find? .webhookEndpoint id)
  | .enabledEndpoints username, order, store =>
      let matching := (store.tables .webhookEndpoint).rows.filter fun row =>
        row.enabled ∧ store.belongsTo row.consumerId username
      arrange? WebhookEndpoint.id matching order
  | .endpointsNamed username, order, store =>
      let matching := (store.tables .webhookEndpoint).rows.filter fun row =>
        store.belongsTo row.consumerId username
      arrangeBy? WebhookEndpoint.id (fun row => -row.createdAt) matching order
  | .endpointsOf consumerId, order, store =>
      let matching := (store.tables .webhookEndpoint).rows.filter fun row =>
        row.consumerId = consumerId
      arrange? WebhookEndpoint.id matching order
  | .deliveryOf id endpointId, _, store =>
      some ((store.find? .webhookDelivery id).filter fun row => row.endpointId = endpointId)
  | .deliveryPage endpointId status take skip, order, store =>
      let matching := (store.tables .webhookDelivery).rows.filter fun row =>
        row.endpointId = endpointId ∧ (status = none ∨ status = row.status)
      (arrangeBy? WebhookDelivery.id (fun row => -row.createdAt) matching order).map fun rows =>
        ((rows.drop skip).take take, matching.length)
  | .deliveriesAmong endpointIds take, order, store =>
      let matching := (store.tables .webhookDelivery).rows.filter fun row =>
        row.endpointId ∈ endpointIds
      (arrangeBy? WebhookDelivery.id (fun row => -row.createdAt) matching order).map fun rows =>
        rows.take take
  | .deliveryCount endpointIds status, _, store =>
      some ((store.tables .webhookDelivery).rows.countP fun row =>
        row.endpointId ∈ endpointIds ∧ (status = none ∨ status = row.status))
  | .intentsOn consumerId network, order, store =>
      let matching := store.intents.rows.filter fun row =>
        row.consumerId = consumerId ∧ row.network = network
      arrangeBy? PaymentIntent.id (fun row => -row.createdAt) matching order
  | .balanceIntents consumerId network, order, store =>
      let matching := store.intents.rows.filter fun row =>
        row.consumerId = consumerId ∧ row.network = network
      arrange? PaymentIntent.id matching order
  | .customersOf consumerId, order, store =>
      let matching := (store.tables .customer).rows.filter fun row =>
        row.consumerId = consumerId
      arrangeBy? Customer.id (fun row => -row.createdAt) matching order
  | .sourcedIntents consumerId, order, store =>
      let matching := store.intents.rows.filter fun row =>
        row.consumerId = consumerId ∧ row.source ≠ none
      arrange? PaymentIntent.id matching order

/-! ## Statements -/

/-- Does the statement draw an id? -/
def Write.draws : Write → Bool
  | .upsertConsumer _ _ => true
  | .create _ _ => true
  | .update _ _ _ => false
  | .delete _ _ => false

def Write.execute : (statement : Write) → Store → (id : String) → (now : Nat) →
    Except ServiceError (statement.Answer × Store)
  | .upsertConsumer username credentialId, store, id, _ =>
      store.upsertConsumer username credentialId id
  | .create model new, store, id, now => store.create model new id now
  | .update model key patch, store, _, _ => store.update model key patch
  | .delete model key, store, _, _ => store.delete model key

/-! ## Performing calls -/

inductive Choice where
  | serve
  | reject
  | draw (id : String)
  | arrange (order : List String)
  | bytes (drawn : List UInt8)
  | respond (status : Nat)

def Choice.order : Choice → List String
  | .arrange order => order
  | _ => []

/-- The error of a lost connection. -/
def disconnected : ServiceError :=
  .prisma "P1001"

namespace World

abbrev Performs (call : Call) : Type :=
  Option (Served signature call World Request)

/-- A call that only reads. -/
def reply {call : Call} (world : World) (answer : Except ServiceError call.Answer) :
    Served signature call World Request :=
  ⟨answer, world, []⟩

/-- A statement takes effect as a whole or not at all. -/
def commit (world : World) (statement : Write)
    (executed : Except ServiceError (statement.Answer × Store)) :
    Served signature (.write statement) World Request :=
  match executed with
  | .ok (answer, store) => ⟨.ok answer, { world with store }, []⟩
  | .error err => world.reply (.error err)

def perform : (call : Call) → Choice → World → Performs call
  | .query _, .reject, world => some (world.reply (.error disconnected))
  | .query asked, choice, world =>
      (asked.answer choice.order world.store).map fun answer => world.reply (.ok answer)
  | .write _, .reject, world => some (world.reply (.error disconnected))
  | .write statement, .draw id, world =>
      if statement.draws ∧ id ∉ world.store.issued then
        some (world.commit statement (statement.execute world.store id world.clock))
      else none
  | .write statement, .serve, world =>
      if statement.draws then none
      else some (world.commit statement (statement.execute world.store "" world.clock))
  | .horizon _, .reject, world => some (world.reply (.error (.horizon none)))
  | .horizon lookup, .serve, world => some (world.reply (lookup.answer world))
  | .now, .serve, world => some (world.reply (.ok world.clock))
  | .randomBytes size, .bytes drawn, world =>
      if drawn.length = size then some (world.reply (.ok drawn)) else none
  | .randomUUID, .draw id, world => some (world.reply (.ok id))
  | .emit payload, .serve, world =>
      some ⟨.ok (), world, [.background (.handleEvent payload)]⟩
  | .start task, .serve, world => some ⟨.ok (), world, [.background task]⟩
  | .post _, .reject, world => some (world.reply (.error (.other "fetch failed")))
  | .post _, .respond status, world => some (world.reply (.ok status))
  | .sleep _, .serve, world => some (world.reply (.ok ()))
  | .enterTick node, .serve, world =>
      if node ∈ world.running then some (world.reply (.ok false))
      else some ⟨.ok true, { world with running := node :: world.running }, []⟩
  | .leaveTick node, .serve, world =>
      some ⟨.ok (), { world with running := world.running.filter (· ≠ node) }, []⟩
  | _, _, _ => none

/-- What happens around the service: time passes, a transaction lands, an account
is created. -/
inductive Move where
  | pass (milliseconds : Nat)
  | land (tx : Transaction)
  | fund (network : StellarNetwork) (account : Account)

/-- A transaction lands with the current time, under a hash of its own. -/
def move : Move → World → Option World
  | .pass milliseconds, world => some { world with clock := world.clock + milliseconds }
  | .land tx, world =>
      if tx.landedAt = world.clock then
        (world.ledger.insert? tx).map fun ledger => { world with ledger }
      else none
  | .fund network account, world =>
      some { world with accounts := (network, account) :: world.accounts }

end World

end CosmosPay

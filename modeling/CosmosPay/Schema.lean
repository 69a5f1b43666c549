import CosmosPay.Tables.Table

/-!
# The database schema

The rows of `prisma/schema.prisma` and the unique indexes of each table.  Row
ids are drawn at creation and never drawn again.  Timestamps are milliseconds.
-/

namespace CosmosPay

open Tables

/-- `'public' | 'testnet'` -/
inductive StellarNetwork where
  | pubnet
  | testnet
  deriving DecidableEq, Repr

inductive PaymentIntentStatus where
  | pending
  | submitted
  | succeeded
  | failed
  | cancelled
  | expired
  deriving DecidableEq, Repr

inductive PaymentIntentKind where
  | tx
  | pay
  deriving DecidableEq, Repr

inductive WebhookEventType where
  | paymentIntentCreated
  | paymentIntentUpdated
  | paymentIntentSucceeded
  | paymentIntentFailed
  | paymentIntentCancelled
  | paymentIntentDeleted
  deriving DecidableEq, Repr

inductive WebhookDeliveryStatus where
  | pending
  | succeeded
  | failed
  deriving DecidableEq, Repr

structure Consumer where
  id : String
  apisixUsername : String
  credentialId : Option String
  deriving DecidableEq, Repr

structure PaymentIntent where
  id : String
  consumerId : String
  kind : PaymentIntentKind
  source : Option String
  destination : String
  amount : Option String
  asset : String
  assetIssuer : Option String
  memo : String
  network : StellarNetwork
  msg : Option String
  callback : Option String
  status : PaymentIntentStatus
  xdr : Option String
  uri : String
  txHash : Option String
  reference : Option String
  expiresAt : Option Nat
  createdAt : Nat
  deriving DecidableEq, Repr

structure Customer where
  id : String
  consumerId : String
  name : String
  displayAlias : Option String
  email : Option String
  account : Option String
  note : Option String
  reference : Option String
  createdAt : Nat
  deriving DecidableEq, Repr

structure Product where
  id : String
  consumerId : String
  name : String
  description : Option String
  amount : Option String
  asset : String
  kind : String
  active : Bool
  reference : Option String
  createdAt : Nat
  deriving DecidableEq, Repr

structure WebhookEndpoint where
  id : String
  consumerId : String
  url : String
  secret : String
  description : Option String
  enabled : Bool
  eventTypes : List WebhookEventType
  createdAt : Nat
  deriving DecidableEq, Repr

/-- The JSON body that `buildBody` assembles for a delivery. -/
structure WebhookBody where
  id : String
  type : WebhookEventType
  createdAt : Nat
  data : PaymentIntent
  deriving DecidableEq, Repr

structure WebhookDelivery where
  id : String
  endpointId : String
  eventType : WebhookEventType
  eventId : String
  payload : WebhookBody
  status : WebhookDeliveryStatus
  attempts : Nat
  responseStatus : Option Nat
  error : Option String
  lastAttemptAt : Option Nat
  createdAt : Nat
  deriving DecidableEq, Repr

/-! ## What is inserted and what is patched -/

/-- An optional field: left out, given as `null`, or given. -/
inductive Field (α : Type) where
  | undefined
  | null
  | value (given : α)
  deriving DecidableEq, Repr

namespace Field

variable {α : Type}

/-- `field ?? null` -/
def toOption : Field α → Option α
  | .value given => some given
  | _ => none

/-- A nullable column after a patch. -/
def set (field : Field α) (old : Option α) : Option α :=
  match field with
  | .undefined => old
  | .null => none
  | .value given => some given

/-- A required column after a patch. -/
def setRequired (field : Field α) (old : α) : α :=
  field.toOption.getD old

/-- `@IsOptional()` skips the checks on an absent or null field. -/
def Admits (field : Field α) (check : α → Prop) : Prop :=
  match field with
  | .value given => check given
  | _ => True

end Field

structure NewPaymentIntent where
  consumerId : String
  kind : PaymentIntentKind
  source : Option String
  destination : String
  amount : Option String
  asset : String
  assetIssuer : Option String
  memo : String
  msg : Field String
  callback : Field String
  network : StellarNetwork
  status : PaymentIntentStatus
  xdr : Option String
  uri : String
  expiresAt : Option Nat := none

structure PaymentIntentPatch where
  status : Field PaymentIntentStatus := .undefined
  txHash : Field String := .undefined
  reference : Field String := .undefined
  source : Field String := .undefined
  deriving DecidableEq

structure NewCustomer where
  consumerId : String
  name : String
  displayAlias : Option String := none
  note : Option String := none
  email : Option String := none
  account : Option String := none
  reference : Option String := none

structure CustomerPatch where
  name : Field String
  displayAlias : Field String
  note : Field String
  email : Field String
  account : Field String
  reference : Field String

structure NewProduct where
  consumerId : String
  name : String
  description : Option String
  amount : Option String
  asset : String
  kind : String
  active : Bool
  reference : Option String

structure ProductPatch where
  name : Field String
  description : Field String
  amount : Field String
  asset : Field String
  kind : Field String
  active : Field Bool
  reference : Field String

structure NewWebhookEndpoint where
  consumerId : String
  url : String
  secret : String
  description : Field String
  eventTypes : List WebhookEventType

structure WebhookEndpointPatch where
  url : Field String := .undefined
  secret : Field String := .undefined
  description : Field String := .undefined
  enabled : Field Bool := .undefined
  eventTypes : Field (List WebhookEventType) := .undefined

structure NewWebhookDelivery where
  endpointId : String
  eventType : WebhookEventType
  eventId : String
  payload : WebhookBody
  status : WebhookDeliveryStatus

structure WebhookDeliveryPatch where
  status : WebhookDeliveryStatus
  attempts : Nat
  responseStatus : Option Nat
  error : Option String
  lastAttemptAt : Nat

/-! ## Unique indexes -/

/-- A table whose only unique index is its primary key. -/
def primaryKeyOnly {ρ κ : Type} [DecidableEq κ] (key : ρ → κ) : Indexes ρ κ where
  key := key
  clash first second := key first = key second
  symm clashes := by simpa using (of_decide_eq_true clashes).symm
  clash_of_key_eq same := by simpa using same

/-- `@id`, and `@unique` on `apisixUsername`. -/
def consumerIndexes : Indexes Consumer String where
  key := Consumer.id
  clash first second :=
    first.id = second.id ∨ first.apisixUsername = second.apisixUsername
  symm clashes := by
    simp only [decide_eq_true_eq] at clashes ⊢
    exact clashes.imp Eq.symm Eq.symm
  clash_of_key_eq same := by simp [same]

/-- `@id`, `@unique` on `txHash` (nulls do not collide) and
`@@unique([consumerId, memo])`. -/
def intentIndexes : Indexes PaymentIntent String where
  key := PaymentIntent.id
  clash first second :=
    first.id = second.id ∨
      (first.consumerId = second.consumerId ∧ first.memo = second.memo) ∨
      (first.txHash ≠ none ∧ first.txHash = second.txHash)
  symm clashes := by
    simp only [decide_eq_true_eq] at clashes ⊢
    rcases clashes with same | ⟨owner, memo⟩ | ⟨given, hash⟩
    · exact .inl same.symm
    · exact .inr (.inl ⟨owner.symm, memo.symm⟩)
    · exact .inr (.inr ⟨hash ▸ given, hash.symm⟩)
  clash_of_key_eq same := by simp [same]

/-! ## Models -/

/-- The models whose rows are created, patched and deleted by id. -/
inductive Model where
  | paymentIntent
  | customer
  | product
  | webhookEndpoint
  | webhookDelivery
  deriving DecidableEq, Repr

namespace Model

abbrev Row : Model → Type
  | .paymentIntent => PaymentIntent
  | .customer => Customer
  | .product => Product
  | .webhookEndpoint => WebhookEndpoint
  | .webhookDelivery => WebhookDelivery

abbrev New : Model → Type
  | .paymentIntent => NewPaymentIntent
  | .customer => NewCustomer
  | .product => NewProduct
  | .webhookEndpoint => NewWebhookEndpoint
  | .webhookDelivery => NewWebhookDelivery

abbrev Patch : Model → Type
  | .paymentIntent => PaymentIntentPatch
  | .customer => CustomerPatch
  | .product => ProductPatch
  | .webhookEndpoint => WebhookEndpointPatch
  | .webhookDelivery => WebhookDeliveryPatch

def indexes : (model : Model) → Indexes model.Row String
  | .paymentIntent => intentIndexes
  | .customer => primaryKeyOnly Customer.id
  | .product => primaryKeyOnly Product.id
  | .webhookEndpoint => primaryKeyOnly WebhookEndpoint.id
  | .webhookDelivery => primaryKeyOnly WebhookDelivery.id

/-- The row that an insertion stores, with the defaults of the schema. -/
def make : (model : Model) → model.New → (id : String) → (createdAt : Nat) → model.Row
  | .paymentIntent, new, id, createdAt => {
      id, createdAt, consumerId := new.consumerId, kind := new.kind, source := new.source,
      destination := new.destination, amount := new.amount, asset := new.asset,
      assetIssuer := new.assetIssuer, memo := new.memo, network := new.network,
      msg := new.msg.toOption, callback := new.callback.toOption, status := new.status,
      xdr := new.xdr, uri := new.uri, txHash := none, reference := none,
      expiresAt := new.expiresAt }
  | .customer, new, id, createdAt => {
      id, createdAt, consumerId := new.consumerId, name := new.name,
      displayAlias := new.displayAlias, email := new.email, account := new.account,
      note := new.note, reference := new.reference }
  | .product, new, id, createdAt => {
      id, createdAt, consumerId := new.consumerId, name := new.name,
      description := new.description, amount := new.amount, asset := new.asset,
      kind := new.kind, active := new.active, reference := new.reference }
  | .webhookEndpoint, new, id, createdAt => {
      id, createdAt, consumerId := new.consumerId, url := new.url, secret := new.secret,
      description := new.description.toOption, enabled := true,
      eventTypes := new.eventTypes }
  | .webhookDelivery, new, id, createdAt => {
      id, createdAt, endpointId := new.endpointId, eventType := new.eventType,
      eventId := new.eventId, payload := new.payload, status := new.status, attempts := 0,
      responseStatus := none, error := none, lastAttemptAt := none }

/-- The columns that a patch names, changed. -/
def apply : (model : Model) → model.Patch → model.Row → model.Row
  | .paymentIntent, patch, row => { row with
      status := patch.status.setRequired row.status
      txHash := patch.txHash.set row.txHash
      reference := patch.reference.set row.reference
      source := patch.source.set row.source }
  | .customer, patch, row => { row with
      name := patch.name.setRequired row.name
      displayAlias := patch.displayAlias.set row.displayAlias
      note := patch.note.set row.note
      email := patch.email.set row.email
      account := patch.account.set row.account
      reference := patch.reference.set row.reference }
  | .product, patch, row => { row with
      name := patch.name.setRequired row.name
      description := patch.description.set row.description
      amount := patch.amount.set row.amount
      asset := patch.asset.setRequired row.asset
      kind := patch.kind.setRequired row.kind
      active := patch.active.setRequired row.active
      reference := patch.reference.set row.reference }
  | .webhookEndpoint, patch, row => { row with
      url := patch.url.setRequired row.url
      secret := patch.secret.setRequired row.secret
      description := patch.description.set row.description
      enabled := patch.enabled.setRequired row.enabled
      eventTypes := patch.eventTypes.setRequired row.eventTypes }
  | .webhookDelivery, patch, row => { row with
      status := patch.status
      attempts := patch.attempts
      responseStatus := patch.responseStatus
      error := patch.error
      lastAttemptAt := some patch.lastAttemptAt }

/-- Does the patch give `null` for a required column?  The client refuses it. -/
def nullsRequired : (model : Model) → model.Patch → Bool
  | .paymentIntent, patch => patch.status = .null
  | .customer, patch => patch.name = .null
  | .product, patch =>
      patch.name = .null ∨ patch.asset = .null ∨ patch.kind = .null ∨ patch.active = .null
  | .webhookEndpoint, patch =>
      patch.url = .null ∨ patch.secret = .null ∨ patch.enabled = .null ∨
        patch.eventTypes = .null
  | .webhookDelivery, _ => false

/-- The row that this one references: its endpoint for a delivery, its consumer
otherwise. -/
def parent : (model : Model) → model.Row → String
  | .paymentIntent => PaymentIntent.consumerId
  | .customer => Customer.consumerId
  | .product => Product.consumerId
  | .webhookEndpoint => WebhookEndpoint.consumerId
  | .webhookDelivery => WebhookDelivery.endpointId

@[simp]
theorem key_make (model : Model) (new : model.New) (id : String) (createdAt : Nat) :
    model.indexes.key (model.make new id createdAt) = id := by
  cases model <;> rfl

@[simp]
theorem key_apply (model : Model) (patch : model.Patch) (row : model.Row) :
    model.indexes.key (model.apply patch row) = model.indexes.key row := by
  cases model <;> rfl

@[simp]
theorem parent_apply (model : Model) (patch : model.Patch) (row : model.Row) :
    model.parent (model.apply patch row) = model.parent row := by
  cases model <;> rfl

end Model

end CosmosPay

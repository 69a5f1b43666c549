import CosmosPay.Schema
import CosmosPay.Text.Numbers

/-!
# Callers, configuration and request bodies

The consumer context that the gateway forwards, the configuration, the
third-party code that the service calls, and the request bodies that the
validation pipe admits.
-/

namespace CosmosPay

/-- The API key type that the gateway forwards. -/
inductive KeyEnvironment where
  | dev
  | prod
  deriving DecidableEq, Repr

inductive KeyRole where
  | admin
  | user
  deriving DecidableEq, Repr

structure GatewayConsumer where
  username : String
  credentialId : Option String
  environment : Option KeyEnvironment
  role : Option KeyRole
  permissions : List String
  deriving DecidableEq, Repr

/-- What the service can fail with: a Nest HTTP exception, a Prisma error with
its code, a Horizon error with the HTTP status it carries, or any other error. -/
inductive ServiceError where
  | http (status : Nat) (message : String)
  | prisma (code : String)
  | horizon (status : Option Nat)
  | other (message : String)
  deriving DecidableEq, Repr

namespace ServiceError

def badRequest (message : String) : ServiceError := .http 400 message

def notFound (message : String) : ServiceError := .http 404 message

def serviceUnavailable (message : String) : ServiceError := .http 503 message

/-- `err instanceof Error ? err.message : …` -/
def message : ServiceError → String
  | .http _ message => message
  | .prisma code => code
  | .horizon _ => "Request failed"
  | .other message => message

end ServiceError

structure AppConfig where
  network : StellarNetwork
  baseFee : String
  timeoutSeconds : Nat
  batchSize : Nat
  ttlSeconds : Nat
  maxAttempts : Nat
  backoffMs : Nat
  signatureHeader : String

/-- An account as `loadAccount` returns it. -/
structure Account where
  accountId : String
  sequence : Nat
  deriving DecidableEq, Repr

inductive Asset where
  | native
  | issued (code issuer : String)
  deriving DecidableEq, Repr

/-- Everything that goes into the unsigned envelope of a TX intent. -/
structure EnvelopeRequest where
  account : Account
  fee : String
  networkPassphrase : String
  destination : String
  amount : String
  asset : Asset
  memo : String
  timeoutSeconds : Nat
  now : Nat

/-- Third-party code: the Stellar SDK, the QR encoder, HMAC-SHA256 in hex and the
JSON printer for webhook bodies. -/
structure Libraries where
  isValidEd25519PublicKey : String → Bool
  newAsset : (code issuer : String) → Except ServiceError Asset
  buildEnvelope : EnvelopeRequest → Except ServiceError String
  toDataURL : String → Except ServiceError String
  hmacSha256 : (secret message : String) → String
  stringify : WebhookBody → String
  stringifyPing : (id : String) → (createdAt : Nat) → String

/-- A running deployment, with the arithmetic of its runtime. -/
structure Deployment where
  config : AppConfig
  libraries : Libraries
  numbers : Text.Numbers := .exact

/-! ## Request bodies -/

/-- `if (text)`: a string that is given and not empty. -/
def truthy (text : Option String) : Option String :=
  text.filter (· ≠ "")

theorem truthy_eq_some {text : Option String} {value : String} :
    truthy text = some value ↔ text = some value ∧ value ≠ "" := by
  simp [truthy, Option.filter_eq_some_iff]

structure CreateTxPaymentIntentDto where
  source : String
  destination : String
  amount : String
  assetCode : Field String
  assetIssuer : Field String
  memo : Field String
  msg : Field String
  callback : Field String

structure CreatePayPaymentIntentDto where
  destination : String
  amount : Field String
  assetCode : Field String
  assetIssuer : Field String
  memo : Field String
  msg : Field String
  callback : Field String

structure UpdatePaymentIntentDto where
  status : Field PaymentIntentStatus
  txHash : Field String
  reference : Field String

/-- `/^\d+(\.\d{1,7})?$/` -/
def IsAmount (text : String) : Prop :=
  ∃ digits places, Text.decimalDigits text = some (digits, places) ∧ places ≤ 7

/-- `/^[a-zA-Z0-9]{1,12}$/` -/
def IsAssetCode (text : String) : Prop :=
  (∀ char ∈ text.toList, char.isAlphanum = true) ∧ 1 ≤ text.length ∧ text.length ≤ 12

/-- What the validation pipe lets through to `createTx`. -/
def CreateTxPaymentIntentDto.Admitted (libraries : Libraries)
    (dto : CreateTxPaymentIntentDto) : Prop :=
  libraries.isValidEd25519PublicKey dto.source = true ∧
    libraries.isValidEd25519PublicKey dto.destination = true ∧
    IsAmount dto.amount ∧
    dto.assetCode.Admits IsAssetCode ∧
    dto.assetIssuer.Admits (libraries.isValidEd25519PublicKey · = true) ∧
    dto.memo.Admits Text.IsNumeral ∧
    dto.msg.Admits (String.length · ≤ 300) ∧
    dto.callback.Admits (String.length · ≤ 2048)

/-- What the validation pipe lets through to `createPay`. -/
def CreatePayPaymentIntentDto.Admitted (libraries : Libraries)
    (dto : CreatePayPaymentIntentDto) : Prop :=
  libraries.isValidEd25519PublicKey dto.destination = true ∧
    dto.amount.Admits IsAmount ∧
    dto.assetCode.Admits IsAssetCode ∧
    dto.assetIssuer.Admits (libraries.isValidEd25519PublicKey · = true) ∧
    dto.memo.Admits Text.IsNumeral ∧
    dto.msg.Admits (String.length · ≤ 300) ∧
    dto.callback.Admits (String.length · ≤ 2048)

/-- What the validation pipe lets through to `update`. -/
def UpdatePaymentIntentDto.Admitted (dto : UpdatePaymentIntentDto) : Prop :=
  dto.txHash.Admits (String.length · ≤ 128) ∧
    dto.reference.Admits (String.length · ≤ 255)

structure CreateCustomerDto where
  name : String
  displayAlias : Field String
  note : Field String
  email : Field String
  account : Field String
  reference : Field String

structure UpdateCustomerDto where
  name : Field String
  displayAlias : Field String
  note : Field String
  email : Field String
  account : Field String
  reference : Field String

structure CreateProductDto where
  name : String
  description : Field String
  amount : Field String
  assetCode : Field String
  kind : Field String
  active : Field Bool
  reference : Field String

structure UpdateProductDto where
  name : Field String
  description : Field String
  amount : Field String
  assetCode : Field String
  kind : Field String
  active : Field Bool
  reference : Field String

structure CreateWebhookEndpointDto where
  url : String
  description : Field String
  eventTypes : Field (List WebhookEventType)

structure UpdateWebhookEndpointDto where
  url : Field String
  description : Field String
  enabled : Field Bool
  eventTypes : Field (List WebhookEventType)

structure QueryDeliveriesDto where
  status : Option WebhookDeliveryStatus
  take : Nat
  skip : Nat

structure QueryPaymentIntentsDto where
  status : Option PaymentIntentStatus
  take : Nat
  skip : Nat

end CosmosPay

import CosmosPay.Calls

/-!
# Webhooks

`WebhookDispatcherService` fans events out and retries their deliveries;
`WebhooksService` manages the endpoints of a consumer.
-/

namespace CosmosPay

open Awaiting

/-- An endpoint without its signing secret. -/
structure SafeWebhookEndpoint where
  id : String
  consumerId : String
  url : String
  description : Option String
  enabled : Bool
  eventTypes : List WebhookEventType
  createdAt : Nat
  deriving DecidableEq

structure PingResult where
  ok : Bool
  responseStatus : Option Nat
  error : Option String

structure WebhookDeliveryPage where
  data : List WebhookDelivery
  total : Nat
  take : Nat
  skip : Nat

def WebhookEventType.name : WebhookEventType → String
  | .paymentIntentCreated => "PAYMENT_INTENT_CREATED"
  | .paymentIntentUpdated => "PAYMENT_INTENT_UPDATED"
  | .paymentIntentSucceeded => "PAYMENT_INTENT_SUCCEEDED"
  | .paymentIntentFailed => "PAYMENT_INTENT_FAILED"
  | .paymentIntentCancelled => "PAYMENT_INTENT_CANCELLED"
  | .paymentIntentDeleted => "PAYMENT_INTENT_DELETED"

/-- Two lowercase hex digits for each byte. -/
def hex (bytes : List UInt8) : String :=
  let digit (value : Nat) : Char := Nat.digitChar value
  String.ofList (bytes.flatMap fun byte => [digit (byte.toNat / 16), digit (byte.toNat % 16)])

namespace WebhookDispatcher

variable (deployment : Deployment)

def signPayload (secret body : String) (timestampSeconds : Nat) : String :=
  deployment.libraries.hmacSha256 secret (timestampSeconds.repr ++ "." ++ body)

def buildSignatureHeader (secret body : String) (timestampSeconds : Nat) : String :=
  "t=" ++ timestampSeconds.repr ++ ",v1=" ++
    signPayload deployment secret body timestampSeconds

def isOk (status : Nat) : Bool :=
  200 ≤ status && status < 300

def finalize (id : String) (status : WebhookDeliveryStatus) (attempts : Nat)
    (responseStatus : Option Nat) (error : Option String) : Promise WebhookDelivery := do
  let lastAttemptAt ← Promise.call .now
  Promise.write (.update .webhookDelivery id
    { status, attempts, responseStatus, error, lastAttemptAt })

/-- One signed POST of a delivery. -/
def deliveryPost (endpoint : WebhookEndpoint) (delivery : WebhookDelivery) (body : String)
    (timestamp : Nat) : WebhookPost where
  url := endpoint.url
  signatureHeader := deployment.config.signatureHeader
  signature := buildSignatureHeader deployment endpoint.secret body timestamp
  event := delivery.eventType.name
  eventId := delivery.eventId
  delivery := delivery.id
  body := body

/-- Linear backoff before the next round, if there is one. -/
def backoff (remaining i : Nat) : Promise Unit :=
  if 0 < remaining then Promise.call (.sleep (deployment.config.backoffMs * (i + 1)))
  else pure ()

/-- The loop of `attempt` with `remaining` rounds to go, in round `i`. -/
def attemptLoop (endpoint : WebhookEndpoint) (delivery : WebhookDelivery) (body : String) :
    (remaining i attempts : Nat) → (lastError : Option String) → (responseStatus : Option Nat) →
      Promise WebhookDelivery
  | 0, _, attempts, lastError, responseStatus =>
      finalize delivery.id .failed attempts responseStatus lastError
  | remaining + 1, i, attempts, _, _ => do
      let now ← Promise.call .now
      let posted ← tryCatch
        (.ok <$> Promise.call (.post (deliveryPost deployment endpoint delivery body (now / 1000))))
        fun err => pure (Except.error err.message)
      match posted with
      | .ok status =>
          if isOk status then
            finalize delivery.id .succeeded (attempts + 1) status none
          else do
            backoff deployment remaining i
            attemptLoop endpoint delivery body remaining (i + 1) (attempts + 1)
              (some ("Non-2xx response: " ++ status.repr)) status
      | .error message => do
          backoff deployment remaining i
          attemptLoop endpoint delivery body remaining (i + 1) (attempts + 1) message none

def attempt (endpoint : WebhookEndpoint) (delivery : WebhookDelivery) :
    Promise WebhookDelivery :=
  attemptLoop deployment endpoint delivery (deployment.libraries.stringify delivery.payload)
    deployment.config.maxAttempts 0 delivery.attempts none none

def createAndDeliver (endpoint : WebhookEndpoint) (eventType : WebhookEventType)
    (eventId : String) (data : PaymentIntent) : Promise Unit := do
  let createdAt ← Promise.call .now
  let payload := { id := eventId, type := eventType, createdAt, data }
  let delivery ← Promise.write (.create .webhookDelivery
    { endpointId := endpoint.id, eventType, eventId, payload, status := .pending })
  let _ ← attempt deployment endpoint delivery
  pure ()

/-- The tasks of all targets run side by side. -/
def handleEvent (payload : WebhookEventPayload) : Promise Unit := do
  let endpoints ← Promise.query (.enabledEndpoints payload.consumerUsername)
  let targets := endpoints.filter fun endpoint =>
    endpoint.eventTypes.isEmpty || endpoint.eventTypes.contains payload.type
  if targets.isEmpty then pure ()
  else
    let uuid ← Promise.call .randomUUID
    targets.forM fun endpoint => Promise.call
      (.start (.createAndDeliver endpoint payload.type ("evt_" ++ uuid) payload.data))

def redeliver (delivery : WebhookDelivery) : Promise WebhookDelivery := do
  match ← Promise.query (.endpoint delivery.endpointId) with
  | none => throw (.other ("Endpoint " ++ delivery.endpointId ++ " no longer exists"))
  | some endpoint => attempt deployment endpoint delivery

def pingPost (endpoint : WebhookEndpoint) (body : String) (timestamp : Nat) : WebhookPost where
  url := endpoint.url
  signatureHeader := deployment.config.signatureHeader
  signature := buildSignatureHeader deployment endpoint.secret body timestamp
  event := "ping"
  eventId := none
  delivery := none
  body := body

def pingEndpoint (endpoint : WebhookEndpoint) : Promise PingResult := do
  let uuid ← Promise.call .randomUUID
  let createdAt ← Promise.call .now
  let body := deployment.libraries.stringifyPing ("evt_ping_" ++ uuid) createdAt
  let now ← Promise.call .now
  tryCatch
    (do
      let status ← Promise.call (.post (pingPost deployment endpoint body (now / 1000)))
      pure ⟨isOk status, some status, none⟩)
    fun err => pure ⟨false, none, some err.message⟩

end WebhookDispatcher

namespace Webhooks

variable (deployment : Deployment)

def resolveConsumer (consumer : GatewayConsumer) : Promise Consumer :=
  Promise.write (.upsertConsumer consumer.username consumer.credentialId)

def generateSecret : Promise String := do
  let bytes ← Promise.call (.randomBytes 24)
  pure ("whsec_" ++ hex bytes)

def strip (endpoint : WebhookEndpoint) : SafeWebhookEndpoint where
  id := endpoint.id
  consumerId := endpoint.consumerId
  url := endpoint.url
  description := endpoint.description
  enabled := endpoint.enabled
  eventTypes := endpoint.eventTypes
  createdAt := endpoint.createdAt

def getOwned (consumer : GatewayConsumer) (id : String) : Promise WebhookEndpoint := do
  match ← Promise.query (.endpointOwned id consumer.username) with
  | none => throw (.notFound ("Webhook endpoint " ++ id ++ " not found"))
  | some endpoint => pure endpoint

def create (consumer : GatewayConsumer) (dto : CreateWebhookEndpointDto) :
    Promise WebhookEndpoint := do
  let localConsumer ← resolveConsumer consumer
  let secret ← generateSecret
  Promise.write (.create .webhookEndpoint
    { consumerId := localConsumer.id, url := dto.url, secret, description := dto.description,
      eventTypes := dto.eventTypes.toOption.getD [] })

def findAll (consumer : GatewayConsumer) : Promise (List SafeWebhookEndpoint) := do
  let endpoints ← Promise.query (.endpointsNamed consumer.username)
  pure (endpoints.map strip)

def findOne (consumer : GatewayConsumer) (id : String) : Promise SafeWebhookEndpoint := do
  let endpoint ← getOwned consumer id
  pure (strip endpoint)

def patchOf (dto : UpdateWebhookEndpointDto) : WebhookEndpointPatch where
  url := dto.url
  description := dto.description
  enabled := dto.enabled
  eventTypes := dto.eventTypes

def update (consumer : GatewayConsumer) (id : String) (dto : UpdateWebhookEndpointDto) :
    Promise SafeWebhookEndpoint := do
  let _ ← getOwned consumer id
  let updated ← Promise.write (.update .webhookEndpoint id (patchOf dto))
  pure (strip updated)

def remove (consumer : GatewayConsumer) (id : String) : Promise String := do
  let _ ← getOwned consumer id
  let _ ← Promise.write (.delete .webhookEndpoint id)
  pure id

def rotateSecret (consumer : GatewayConsumer) (id : String) : Promise WebhookEndpoint := do
  let _ ← getOwned consumer id
  let secret ← generateSecret
  Promise.write (.update .webhookEndpoint id { secret := .value secret })

def listDeliveries (consumer : GatewayConsumer) (id : String) (query : QueryDeliveriesDto) :
    Promise WebhookDeliveryPage := do
  let _ ← getOwned consumer id
  let (data, total) ← Promise.query (.deliveryPage id query.status query.take query.skip)
  pure ⟨data, total, query.take, query.skip⟩

def redeliver (consumer : GatewayConsumer) (endpointId deliveryId : String) :
    Promise WebhookDelivery := do
  let _ ← getOwned consumer endpointId
  match ← Promise.query (.deliveryOf deliveryId endpointId) with
  | none => throw (.notFound ("Delivery " ++ deliveryId ++ " not found"))
  | some delivery => WebhookDispatcher.redeliver deployment delivery

def ping (consumer : GatewayConsumer) (id : String) : Promise PingResult := do
  let endpoint ← getOwned consumer id
  WebhookDispatcher.pingEndpoint deployment endpoint

end Webhooks

end CosmosPay

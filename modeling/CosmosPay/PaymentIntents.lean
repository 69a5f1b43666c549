import CosmosPay.StellarVerifier
import CosmosPay.Text.Trim
import CosmosPay.Text.Urlencoded

/-!
# Payment intents

`PaymentIntentsService`: creating, reading, patching, deleting and validating
intents, and the `mark*` helpers that finalize them.
-/

namespace CosmosPay

open Awaiting
open Text (trim toLowerCase)

/-- `StellarService.passphrase` -/
def StellarNetwork.passphrase : StellarNetwork → String
  | .pubnet => "Public Global Stellar Network ; September 2015"
  | .testnet => "Test SDF Network ; September 2015"

/-- The network as it is stored and shown. -/
def StellarNetwork.name : StellarNetwork → String
  | .pubnet => "public"
  | .testnet => "testnet"

/-- A stored intent and its QR code. -/
structure PaymentIntentView where
  intent : PaymentIntent
  qr : String

structure ValidationOutcome where
  valid : Bool
  status : PaymentIntentStatus
  reason : Option String := none
  paymentIntent : Option PaymentIntentView := none

structure ResolvedAsset where
  code : String
  issuer : Option String
  asset : Asset

/-- The number that bytes spell, the most significant first. -/
def bigEndian (bytes : List UInt8) : Nat :=
  bytes.foldl (fun value byte => value * 256 + byte.toNat) 0

namespace PaymentIntents

variable (deployment : Deployment)

def resolveNetwork (consumer : GatewayConsumer) : StellarNetwork :=
  match consumer.environment with
  | some .prod => .pubnet
  | some .dev => .testnet
  | none => deployment.config.network

def statusEvent : PaymentIntentStatus → WebhookEventType
  | .succeeded => .paymentIntentSucceeded
  | .failed => .paymentIntentFailed
  | .cancelled => .paymentIntentCancelled
  | _ => .paymentIntentUpdated

def resolveConsumer (consumer : GatewayConsumer) : Promise Consumer :=
  Promise.write (.upsertConsumer consumer.username consumer.credentialId)

def emit (consumerUsername : String) (type : WebhookEventType) (data : PaymentIntent) :
    Promise Unit :=
  Promise.call (.emit ⟨consumerUsername, type, data⟩)

def withQr (intent : PaymentIntent) : Promise PaymentIntentView :=
  Promise.ofExcept ((deployment.libraries.toDataURL intent.uri).map (⟨intent, ·⟩))

def isNativeCode (code : String) : Bool :=
  toLowerCase code = "xlm" || toLowerCase code = "native"

def resolveAsset (assetCode assetIssuer : Field String) : Except ServiceError ResolvedAsset :=
  match truthy (assetCode.toOption.map trim) with
  | none => .ok ⟨"native", none, .native⟩
  | some code =>
      if isNativeCode code then .ok ⟨"native", none, .native⟩
      else
        match truthy assetIssuer.toOption with
        | none => .error (.badRequest
            ("assetIssuer is required for non-native asset \"" ++ code ++ "\""))
        | some issuer =>
            (deployment.libraries.newAsset code issuer).map (⟨code, issuer, ·⟩)

/-- The largest `uint64`. -/
def maxMemoId : Nat := 18446744073709551615

def badMemo : ServiceError :=
  .badRequest "memo must be a MEMO_ID: a numeric uint64 string"

/-- A memo that is given as `null` is refused; one that is left out is drawn. -/
def resolveMemo : (provided : Field String) → Promise String
  | .value provided =>
      if Text.IsNumeral provided ∧ Text.numeralValue provided ≤ maxMemoId then pure provided
      else throw badMemo
  | .null => throw badMemo
  | .undefined => do
      let bytes ← Promise.call (.randomBytes 8)
      pure (bigEndian bytes).repr

def findByMemo (consumerId memo : String) : Promise (Option PaymentIntent) :=
  Promise.query (.intentByMemo consumerId memo)

def isUniqueViolation (err : ServiceError) : Bool :=
  err = .prisma "P2002"

def appendSep7Extras (params : Text.QueryParams) (msg callback : Field String) :
    Text.QueryParams :=
  let params := match truthy callback.toOption with
    | some callback => params.set "callback" callback
    | none => params
  match truthy msg.toOption with
  | some msg => params.set "msg" msg
  | none => params

def loadAccount (network : StellarNetwork) (source : String) : Promise Account :=
  tryCatch (Promise.horizon (.loadAccount network source)) fun err =>
    match err with
    | .horizon (some 404) => throw (.badRequest
        ("Source account " ++ source ++ " not found or not funded on the " ++ network.name ++
          " network"))
    | _ => throw (.serviceUnavailable "Could not reach the Stellar network")

/-- `none` when the insertion violates a unique index. -/
def persist (data : NewPaymentIntent) : Promise (Option PaymentIntent) := do
  let now ← Promise.call .now
  let expiresAt := data.expiresAt.getD (now + deployment.config.ttlSeconds * 1000)
  tryCatch
    (some <$> Promise.write (.create .paymentIntent { data with expiresAt }))
    fun err => if isUniqueViolation err then pure none else throw err

/-- `this.withQr((await this.findByMemo(…))!)` -/
def existingView (consumerId memo : String) : Promise PaymentIntentView := do
  match ← findByMemo consumerId memo with
  | some existing => withQr deployment existing
  | none => throw (.other "Cannot read properties of null (reading 'uri')")

/-- What both create endpoints do after the idempotency lookup has missed. -/
def finishCreate (consumer : GatewayConsumer) (data : NewPaymentIntent) :
    Promise PaymentIntentView := do
  match ← persist deployment data with
  | none => existingView deployment data.consumerId data.memo
  | some intent =>
      emit consumer.username .paymentIntentCreated intent
      withQr deployment intent

def createTx (consumer : GatewayConsumer) (dto : CreateTxPaymentIntentDto) :
    Promise PaymentIntentView := do
  let network := resolveNetwork deployment consumer
  let localConsumer ← resolveConsumer consumer
  let asset ← Promise.ofExcept (resolveAsset deployment dto.assetCode dto.assetIssuer)
  let memo ← resolveMemo dto.memo
  match ← findByMemo localConsumer.id memo with
  | some existing => withQr deployment existing
  | none =>
      let account ← loadAccount network dto.source
      let now ← Promise.call .now
      let xdr ← Promise.ofExcept (deployment.libraries.buildEnvelope {
        account, fee := deployment.config.baseFee, networkPassphrase := network.passphrase,
        destination := dto.destination, amount := dto.amount, asset := asset.asset, memo,
        timeoutSeconds := deployment.config.timeoutSeconds, now })
      let params := appendSep7Extras [("xdr", xdr)] dto.msg dto.callback
      finishCreate deployment consumer {
        consumerId := localConsumer.id, kind := .tx, source := dto.source,
        destination := dto.destination, amount := dto.amount, asset := asset.code,
        assetIssuer := asset.issuer, memo, msg := dto.msg, callback := dto.callback, network,
        status := .pending, xdr, uri := "web+stellar:tx?" ++ params.serialize }

def payParams (dto : CreatePayPaymentIntentDto) (asset : ResolvedAsset) (memo : String) :
    Text.QueryParams :=
  let params : Text.QueryParams := [("destination", dto.destination)]
  let params := match truthy dto.amount.toOption with
    | some amount => params.set "amount" amount
    | none => params
  let params :=
    if asset.code ≠ "native" then
      let params := params.set "asset_code" asset.code
      match truthy asset.issuer with
      | some issuer => params.set "asset_issuer" issuer
      | none => params
    else params
  let params := (params.set "memo" memo).set "memo_type" "MEMO_ID"
  appendSep7Extras params dto.msg dto.callback

def createPay (consumer : GatewayConsumer) (dto : CreatePayPaymentIntentDto) :
    Promise PaymentIntentView := do
  let network := resolveNetwork deployment consumer
  let localConsumer ← resolveConsumer consumer
  let asset ← Promise.ofExcept (resolveAsset deployment dto.assetCode dto.assetIssuer)
  let memo ← resolveMemo dto.memo
  match ← findByMemo localConsumer.id memo with
  | some existing => withQr deployment existing
  | none =>
      finishCreate deployment consumer {
        consumerId := localConsumer.id, kind := .pay, source := none,
        destination := dto.destination, amount := dto.amount.toOption, asset := asset.code,
        assetIssuer := asset.issuer, memo, msg := dto.msg, callback := dto.callback, network,
        status := .pending, xdr := none,
        uri := "web+stellar:pay?" ++ (payParams dto asset memo).serialize }

structure PaymentIntentPage where
  data : List PaymentIntent
  total : Nat
  take : Nat
  skip : Nat

def findAll (consumer : GatewayConsumer) (query : QueryPaymentIntentsDto) :
    Promise PaymentIntentPage := do
  let (data, total) ←
    Promise.query (.intentPage consumer.username query.status query.take query.skip)
  pure ⟨data, total, query.take, query.skip⟩

def notFound (id : String) : ServiceError :=
  .notFound ("Payment intent " ++ id ++ " not found")

def findOne (consumer : GatewayConsumer) (id : String) : Promise PaymentIntentView := do
  match ← Promise.query (.intentOwned id consumer.username) with
  | none => throw (notFound id)
  | some intent => withQr deployment intent

def assertOwned (consumer : GatewayConsumer) (id : String) : Promise Unit := do
  match ← Promise.query (.intentIdOwned id consumer.username) with
  | none => throw (notFound id)
  | some _ => pure ()

/-- A status of `null` counts as left out. -/
def patchOf (dto : UpdatePaymentIntentDto) : PaymentIntentPatch where
  status := match dto.status with
    | .value status => .value status
    | _ => .undefined
  txHash := dto.txHash
  reference := dto.reference

def updateEvent (dto : UpdatePaymentIntentDto) : WebhookEventType :=
  match dto.status with
  | .value status => statusEvent status
  | _ => .paymentIntentUpdated

def update (consumer : GatewayConsumer) (id : String) (dto : UpdatePaymentIntentDto) :
    Promise PaymentIntentView := do
  assertOwned consumer id
  let updated ← Promise.write (.update .paymentIntent id (patchOf dto))
  emit consumer.username (updateEvent dto) updated
  withQr deployment updated

def remove (consumer : GatewayConsumer) (id : String) : Promise String := do
  assertOwned consumer id
  let existing ← Promise.query (.intentStatus id)
  if existing = some .succeeded then
    throw (.badRequest "A paid payment intent cannot be deleted.")
  else
    let deleted ← Promise.write (.delete .paymentIntent id)
    emit consumer.username .paymentIntentDeleted deleted
    pure id

/-- The patch of `markSucceeded`: the payer is recorded where no source is. -/
def succeededPatch (txHash : String) (payer : Option String)
    (current : Option (Option String)) : PaymentIntentPatch where
  status := .value .succeeded
  txHash := .value txHash
  source := match truthy payer, truthy current.join with
    | some payer, none => .value payer
    | _, _ => .undefined

def markSucceeded (intentId consumerUsername txHash : String) (payer : Option String) :
    Promise PaymentIntent := do
  let current ← Promise.query (.intentSource intentId)
  let updated ←
    Promise.write (.update .paymentIntent intentId (succeededPatch txHash payer current))
  emit consumerUsername .paymentIntentSucceeded updated
  Promise.call (.start (.upsertCustomerFromPayment updated payer))
  pure updated

def failedPatch (txHash : Option String) : PaymentIntentPatch where
  status := .value .failed
  txHash := match truthy txHash with
    | some txHash => .value txHash
    | none => .undefined

def markFailed (intentId consumerUsername : String) (txHash : Option String) :
    Promise PaymentIntent := do
  let updated ← Promise.write (.update .paymentIntent intentId (failedPatch txHash))
  emit consumerUsername .paymentIntentFailed updated
  pure updated

def expiredPatch : PaymentIntentPatch where
  status := .value .expired

def markExpired (intentId consumerUsername : String) : Promise PaymentIntent := do
  let updated ← Promise.write (.update .paymentIntent intentId expiredPatch)
  emit consumerUsername .paymentIntentUpdated updated
  pure updated

/-- What `validate` does with the verdict on an intent that it read. -/
def settle (consumer : GatewayConsumer) (intent : PaymentIntent) (txHash : String)
    (result : VerificationResult) : Promise ValidationOutcome := do
  if result.valid then
    let updated ← markSucceeded intent.id consumer.username (result.txHash.getD txHash)
      result.payer
    let view ← withQr deployment updated
    pure { valid := true, status := .succeeded, paymentIntent := view }
  else if result.reason = some "Transaction failed on-chain" then
    let updated ← markFailed intent.id consumer.username txHash
    let view ← withQr deployment updated
    pure { valid := false, status := .failed, reason := result.reason, paymentIntent := view }
  else
    pure { valid := false, status := intent.status, reason := result.reason }

def validate (consumer : GatewayConsumer) (id txHash : String) :
    Promise ValidationOutcome := do
  match ← Promise.query (.intentOwned id consumer.username) with
  | none => throw (notFound id)
  | some intent =>
      if intent.status = .succeeded then
        let view ← withQr deployment intent
        pure { valid := true, status := .succeeded, paymentIntent := view }
      else
        let result ← StellarVerifier.verifyByHash intent txHash
        settle deployment consumer intent txHash result

/-- The name of an automatic customer. -/
def shortName (account : String) : String :=
  String.ofList (account.toList.take 6) ++ "…" ++
    String.ofList (account.toList.drop (account.length - 4))

def upsertCustomerFromPayment (intent : PaymentIntent) (payer : Option String) :
    Promise Unit := do
  match truthy (payer <|> intent.source) with
  | none => pure ()
  | some account =>
      match ← Promise.query (.customerIdByAccount intent.consumerId account) with
      | some _ => pure ()
      | none =>
          let _ ← Promise.write (.create .customer {
            consumerId := intent.consumerId, name := shortName account, account,
            reference := "auto" })
          pure ()

end PaymentIntents

end CosmosPay

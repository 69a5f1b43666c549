import CosmosPay.Calls
import CosmosPay.Tables.Tally
import CosmosPay.Text.Calendar
import Mathlib.Data.List.Dedup

/-!
# Analytics

`AnalyticsService`: aggregates for the dashboard, read off the intents, endpoints and
deliveries of a consumer.
-/

namespace CosmosPay

open Awaiting Tables
open Text (Numbers isoDate msPerDay)

/-- `totals` of the summary: how many intents there are, and how many of each status; the
success rate is a number, as it is printed. -/
structure Totals where
  all : Nat
  succeeded : Nat
  pending : Nat
  submitted : Nat
  failed : Nat
  cancelled : Nat
  expired : Nat
  successRate : String
  deriving DecidableEq

/-- An entry of `volume`. -/
structure AssetVolume where
  asset : String
  amount : String
  count : Nat
  deriving DecidableEq

/-- An entry of `series`. -/
structure SeriesDay where
  date : String
  count : Nat
  volume : String
  deriving DecidableEq

structure WebhookHealth where
  endpoints : Nat
  deliveries : Nat
  failedDeliveries : Nat
  deriving DecidableEq

structure RecentRow where
  id : String
  kind : PaymentIntentKind
  status : PaymentIntentStatus
  amount : Option String
  asset : String
  destination : String
  createdAt : Nat
  deriving DecidableEq

structure Summary where
  totals : Totals
  volume : List AssetVolume
  webhooks : WebhookHealth
  customers : Nat
  series : List SeriesDay
  recent : List RecentRow
  deriving DecidableEq

structure Balance where
  asset : String
  amount : String
  pending : String
  count : Nat
  deriving DecidableEq

structure BalancePage where
  data : List Balance
  total : Nat
  deriving DecidableEq

structure WebhookLog where
  id : String
  endpointId : String
  url : Option String
  eventType : WebhookEventType
  eventId : String
  attempts : Nat
  responseStatus : Option Nat
  error : Option String
  status : String
  «at» : Nat
  deriving DecidableEq

structure WebhookLogPage where
  data : List WebhookLog
  total : Nat
  deriving DecidableEq

namespace Analytics

section Amounts

variable (numbers : Numbers)

/-- `num`: absent amounts and amounts that are no finite numbers count as zero. -/
def num (amount : Option String) : numbers.Value :=
  match truthy amount with
  | none => numbers.ofNat 0
  | some text =>
      if numbers.isFinite (numbers.number text) then numbers.number text else numbers.ofNat 0

def money (value : numbers.Value) : String :=
  numbers.toString (numbers.toFixed value)

end Amounts

def assetLabel (asset : String) : String :=
  if asset = "" ∨ asset = "native" then "XLM" else asset

def resolveConsumerId (consumer : GatewayConsumer) : Promise String := do
  let localConsumer ←
    Promise.write (.upsertConsumer consumer.username consumer.credentialId)
  pure localConsumer.id

/-- The network of the forwarded key; no key counts as a testnet key. -/
def network (consumer : GatewayConsumer) : StellarNetwork :=
  if consumer.environment = some .prod then .pubnet else .testnet

/-- `byStatus`, a counter for each status that is seen. -/
def byStatus (intents : List PaymentIntent) : PaymentIntentStatus → Nat :=
  intents.foldl (fun counts intent =>
    Function.update counts intent.status (counts intent.status + 1)) fun _ => 0

def succeeded (intents : List PaymentIntent) : List PaymentIntent :=
  intents.filter fun intent => intent.status = .succeeded

def successRate (numbers : Numbers) (succeeded total : Nat) : numbers.Value :=
  if total = 0 then numbers.ofNat 0
  else
    let share := numbers.div (numbers.ofNat succeeded) (numbers.ofNat total)
    numbers.div (numbers.round (numbers.mul share (numbers.ofNat 1000))) (numbers.ofNat 10)

def totals (intents : List PaymentIntent) (numbers : Numbers := .exact) : Totals where
  all := intents.length
  succeeded := (succeeded intents).length
  pending := byStatus intents .pending
  submitted := byStatus intents .submitted
  failed := byStatus intents .failed
  cancelled := byStatus intents .cancelled
  expired := byStatus intents .expired
  successRate :=
    numbers.toString (successRate numbers (succeeded intents).length intents.length)

/-- `volumeMap`: the amount and the number of succeeded intents for each asset label. -/
def volumeMap (numbers : Numbers) (intents : List PaymentIntent) :
    OrderedMap String (numbers.Value × Nat) :=
  tally (fun intent => assetLabel intent.asset) (numbers.ofNat 0, 0)
    (fun (amount, count) intent => (numbers.add amount (num numbers intent.amount), count + 1))
    (succeeded intents)

def volume (numbers : Numbers) (intents : List PaymentIntent) : List AssetVolume :=
  (volumeMap numbers intents).entries.map fun (asset, amount, count) =>
    ⟨asset, money numbers amount, count⟩

/-- The thirty days that end with the day of `now`. -/
def seriesDays (now : Nat) : List SeriesDay :=
  (List.range 30).map fun day => ⟨isoDate (now - 29 * msPerDay + day * msPerDay), 0, "0"⟩

/-- `indexByDate`: of equal dates the last one stays. -/
def indexByDate (series : List SeriesDay) : OrderedMap String Nat :=
  series.zipIdx.foldl (fun map (day, index) => map.set day.date index) .empty

/-- A day with one more intent. -/
def addToDay (numbers : Numbers) (intent : PaymentIntent) (day : SeriesDay) : SeriesDay where
  date := day.date
  count := day.count + 1
  volume :=
    if intent.status = .succeeded then
      money numbers (numbers.add (num numbers day.volume) (num numbers intent.amount))
    else day.volume

/-- The series with one more intent; intents of other days are left out. -/
def addToSeries (numbers : Numbers) (days : OrderedMap String Nat) (series : List SeriesDay)
    (intent : PaymentIntent) : List SeriesDay :=
  match days.get? (isoDate intent.createdAt) with
  | none => series
  | some index => series.modify index (addToDay numbers intent)

def series (numbers : Numbers) (now : Nat) (intents : List PaymentIntent) : List SeriesDay :=
  intents.foldl (addToSeries numbers (indexByDate (seriesDays now))) (seriesDays now)

/-- `distinctPayers` -/
def distinctPayers (intents : List PaymentIntent) : List String :=
  (intents.filterMap fun intent => truthy intent.source).dedup

def recentRow (intent : PaymentIntent) : RecentRow where
  id := intent.id
  kind := intent.kind
  status := intent.status
  amount := intent.amount
  asset := assetLabel intent.asset
  destination := intent.destination
  createdAt := intent.createdAt

/-- Nothing is counted for a consumer without endpoints. -/
def countDeliveries (endpointIds : List String) (status : Option WebhookDeliveryStatus) :
    Promise Nat :=
  if endpointIds.isEmpty then pure 0
  else Promise.query (.deliveryCount endpointIds status)

def summary (consumer : GatewayConsumer) (numbers : Numbers := .exact) : Promise Summary := do
  let consumerId ← resolveConsumerId consumer
  let intents ← Promise.query (.intentsOn consumerId (network consumer))
  let now ← Promise.call .now
  let endpoints ← Promise.query (.endpointsOf consumerId)
  let endpointIds := endpoints.map WebhookEndpoint.id
  let deliveries ← countDeliveries endpointIds none
  let failedDeliveries ← countDeliveries endpointIds (some .failed)
  pure {
    totals := totals intents numbers
    volume := volume numbers intents
    webhooks := ⟨endpoints.length, deliveries, failedDeliveries⟩
    customers := (distinctPayers intents).length
    series := series numbers now intents
    recent := ((succeeded intents).take 6).map recentRow }

/-- What the balances collect for an asset label. -/
structure BalanceFigures (numbers : Numbers) where
  settled : numbers.Value
  pending : numbers.Value
  settledCount : Nat

def addToBalance (numbers : Numbers) (figures : BalanceFigures numbers)
    (intent : PaymentIntent) : BalanceFigures numbers :=
  match intent.status with
  | .succeeded => { figures with
      settled := numbers.add figures.settled (num numbers intent.amount)
      settledCount := figures.settledCount + 1 }
  | .pending | .submitted => { figures with
      pending := numbers.add figures.pending (num numbers intent.amount) }
  | .failed | .cancelled | .expired => figures

def balanceMap (numbers : Numbers) (intents : List PaymentIntent) :
    OrderedMap String (BalanceFigures numbers) :=
  tally (fun intent => assetLabel intent.asset) ⟨numbers.ofNat 0, numbers.ofNat 0, 0⟩
    (addToBalance numbers) intents

/-- The largest settled amount comes first. -/
def balanceData (numbers : Numbers) (intents : List PaymentIntent) : List Balance :=
  ((balanceMap numbers intents).entries.map fun (asset, figures) =>
    (⟨asset, money numbers figures.settled, money numbers figures.pending,
      figures.settledCount⟩ : Balance)).mergeSort fun first second =>
        !numbers.less (num numbers first.amount) (num numbers second.amount)

def balances (consumer : GatewayConsumer) (numbers : Numbers := .exact) :
    Promise BalancePage := do
  let consumerId ← resolveConsumerId consumer
  let intents ← Promise.query (.balanceIntents consumerId (network consumer))
  let data := balanceData numbers intents
  pure ⟨data, data.length⟩

/-- The status of a delivery as the log shows it. -/
def logStatus : WebhookDeliveryStatus → String
  | .succeeded => "ok"
  | .failed => "fail"
  | .pending => "pending"

def webhookLog (endpoints : List WebhookEndpoint) (delivery : WebhookDelivery) :
    WebhookLog where
  id := delivery.id
  endpointId := delivery.endpointId
  url := (endpoints.find? fun endpoint => endpoint.id = delivery.endpointId).map
    WebhookEndpoint.url
  eventType := delivery.eventType
  eventId := delivery.eventId
  attempts := delivery.attempts
  responseStatus := delivery.responseStatus
  error := delivery.error
  status := logStatus delivery.status
  «at» := delivery.lastAttemptAt.getD delivery.createdAt

def webhookLogs (consumer : GatewayConsumer) (take : Nat := 100) : Promise WebhookLogPage := do
  let consumerId ← resolveConsumerId consumer
  let endpoints ← Promise.query (.endpointsOf consumerId)
  if endpoints.isEmpty then pure ⟨[], 0⟩
  else
    let deliveries ←
      Promise.query (.deliveriesAmong (endpoints.map WebhookEndpoint.id) take)
    let data := deliveries.map (webhookLog endpoints)
    pure ⟨data, data.length⟩

end Analytics

end CosmosPay

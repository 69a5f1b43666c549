import CosmosPay.Answers
import CosmosPay.Contracts.Kinds

/-!
# The rows that a request works on

A request names a row only after an answer has shown that the row is its caller's.  It
asks for listings by the caller's name, or by a consumer row that it has upserted under
that name, and sends and returns nothing but rows that it was shown.  A request for a row
that is not there, or not the caller's, has done nothing but looked up.
-/

namespace CosmosPay

open Awaiting Program

/-! ## Shown rows -/

abbrev AnyRow : Type :=
  (model : Model) × model.Row

def Query.rows : (asked : Query) → asked.Answer → List AnyRow
  | .intentByMemo _ _, found => found.toList.map fun row => ⟨.paymentIntent, row⟩
  | .intentOwned _ _, found => found.toList.map fun row => ⟨.paymentIntent, row⟩
  | .intentIdOwned _ _, _ => []
  | .intentStatus _, _ => []
  | .intentSource _, _ => []
  | .intentPage _ _ _ _, (rows, _) => rows.map fun row => ⟨.paymentIntent, row⟩
  | .expiredIntents _ _, rows => rows.map fun row => ⟨.paymentIntent, row.1⟩
  | .pendingIntents _, rows => rows.map fun row => ⟨.paymentIntent, row.1⟩
  | .customerIdByAccount _ _, _ => []
  | .customerOwned _ _, found => found.toList.map fun row => ⟨.customer, row⟩
  | .productOwned _ _, found => found.toList.map fun row => ⟨.product, row⟩
  | .endpointOwned _ _, found => found.toList.map fun row => ⟨.webhookEndpoint, row⟩
  | .endpoint _, found => found.toList.map fun row => ⟨.webhookEndpoint, row⟩
  | .enabledEndpoints _, rows => rows.map fun row => ⟨.webhookEndpoint, row⟩
  | .endpointsNamed _, rows => rows.map fun row => ⟨.webhookEndpoint, row⟩
  | .endpointsOf _, rows => rows.map fun row => ⟨.webhookEndpoint, row⟩
  | .deliveryOf _ _, found => found.toList.map fun row => ⟨.webhookDelivery, row⟩
  | .deliveryPage _ _ _ _, (rows, _) => rows.map fun row => ⟨.webhookDelivery, row⟩
  | .deliveriesAmong _ _, rows => rows.map fun row => ⟨.webhookDelivery, row⟩
  | .deliveryCount _ _, _ => []
  | .intentsOn _ _, rows => rows.map fun row => ⟨.paymentIntent, row⟩
  | .balanceIntents _ _, rows => rows.map fun row => ⟨.paymentIntent, row⟩
  | .customersOf _, rows => rows.map fun row => ⟨.customer, row⟩
  | .sourcedIntents _, rows => rows.map fun row => ⟨.paymentIntent, row⟩

def Write.rows : (statement : Write) → statement.Answer → List AnyRow
  | .upsertConsumer _ _, _ => []
  | .create model _, row => [⟨model, row⟩]
  | .update model _ _, row => [⟨model, row⟩]
  | .delete model _, row => [⟨model, row⟩]

/-- The rows that an answer contains. -/
def Call.rows : (call : Call) → call.Answer → List AnyRow
  | .query asked, answer => asked.rows answer
  | .write statement, answer => statement.rows answer
  | _, _ => []

/-- The history has shown the row. -/
def Shows (past : History signature) (model : Model) (row : model.Row) : Prop :=
  ∃ performed ∈ past, ∃ answer, performed.answer = .ok answer ∧
    ⟨model, row⟩ ∈ performed.call.rows answer

/-- The history has shown the row, or that the caller has an intent with this id. -/
inductive Owns (past : History signature) : Model → String → Prop where
  | shown (model : Model) (row : model.Row) (id : String) (shows : Shows past model row)
      (isKey : model.indexes.key row = id) : Owns past model id
  | identified (id username : String)
      (member : ⟨.query (.intentIdOwned id username), .ok (some id)⟩ ∈ past) :
      Owns past .paymentIntent id

/-- The history has upserted the caller under this id. -/
def Enrolled (past : History signature) (username consumerId : String) : Prop :=
  ∃ credentialId owner,
    ⟨.write (.upsertConsumer username credentialId), .ok owner⟩ ∈ past ∧ owner.id = consumerId

/-- A call that looks up, or refreshes the caller's own consumer row. -/
def Call.LooksUp : Call → Prop
  | .query _ => True
  | .write (.upsertConsumer _ _) => True
  | _ => False

/-- The outcome of a request that has found nothing of its caller's: not found, or the error
of a lookup. -/
structure Refused {α : Type} (past : History signature) (outcome : Except ServiceError α) :
    Prop where
  error : ∃ err, outcome = .error err ∧
    ((∃ message, err = .notFound message) ∨ ∃ performed ∈ past, performed.answer = .error err)
  lookedUp : ∀ performed ∈ past, performed.call.LooksUp

/-! ## The contract -/

def PaymentIntentsRequest.consumer : PaymentIntentsRequest → GatewayConsumer
  | .createTx consumer _ => consumer
  | .createPay consumer _ => consumer
  | .findAll consumer _ => consumer
  | .findOne consumer _ => consumer
  | .update consumer _ _ => consumer
  | .remove consumer _ => consumer
  | .validate consumer _ _ => consumer

def WebhooksRequest.consumer : WebhooksRequest → GatewayConsumer
  | .create consumer _ => consumer
  | .findAll consumer => consumer
  | .findOne consumer _ => consumer
  | .update consumer _ _ => consumer
  | .remove consumer _ => consumer
  | .rotateSecret consumer _ => consumer
  | .listDeliveries consumer _ _ => consumer
  | .redeliver consumer _ _ => consumer
  | .ping consumer _ => consumer

def CustomersRequest.consumer : CustomersRequest → GatewayConsumer
  | .create consumer _ => consumer
  | .findAll consumer => consumer
  | .findOne consumer _ => consumer
  | .update consumer _ _ => consumer
  | .remove consumer _ => consumer

def ProductsRequest.consumer : ProductsRequest → GatewayConsumer
  | .create consumer _ => consumer
  | .findOne consumer _ => consumer
  | .update consumer _ _ => consumer
  | .remove consumer _ => consumer

def AnalyticsRequest.consumer : AnalyticsRequest → GatewayConsumer
  | .summary consumer => consumer
  | .balances consumer => consumer
  | .webhookLogs consumer _ => consumer

/-- Who issues the request; nobody issues a tick or a detached task. -/
def Request.caller? : Request → Option String
  | .paymentIntents request => some request.consumer.username
  | .webhooks request => some request.consumer.username
  | .customers request => some request.consumer.username
  | .products request => some request.consumer.username
  | .analytics request => some request.consumer.username
  | .tick _ => none
  | .background _ => none

/-- The rows that a request names. -/
def Request.targets : Request → List (Model × String)
  | .paymentIntents (.findOne _ id) => [(.paymentIntent, id)]
  | .paymentIntents (.update _ id _) => [(.paymentIntent, id)]
  | .paymentIntents (.remove _ id) => [(.paymentIntent, id)]
  | .paymentIntents (.validate _ id _) => [(.paymentIntent, id)]
  | .webhooks (.findOne _ id) => [(.webhookEndpoint, id)]
  | .webhooks (.update _ id _) => [(.webhookEndpoint, id)]
  | .webhooks (.remove _ id) => [(.webhookEndpoint, id)]
  | .webhooks (.rotateSecret _ id) => [(.webhookEndpoint, id)]
  | .webhooks (.listDeliveries _ id _) => [(.webhookEndpoint, id)]
  | .webhooks (.redeliver _ endpointId deliveryId) =>
      [(.webhookEndpoint, endpointId), (.webhookDelivery, deliveryId)]
  | .webhooks (.ping _ id) => [(.webhookEndpoint, id)]
  | .customers (.findOne _ id) => [(.customer, id)]
  | .customers (.update _ id _) => [(.customer, id)]
  | .customers (.remove _ id) => [(.customer, id)]
  | .products (.findOne _ id) => [(.product, id)]
  | .products (.update _ id _) => [(.product, id)]
  | .products (.remove _ id) => [(.product, id)]
  | _ => []

/-- A property of rows. -/
abbrev RowProperty : Type :=
  (model : Model) → model.Row → Prop

def PaymentIntentView.Tells (known : RowProperty) (view : PaymentIntentView) : Prop :=
  known .paymentIntent view.intent

def ValidationOutcome.Tells (known : RowProperty) (outcome : ValidationOutcome) : Prop :=
  ∀ view, outcome.paymentIntent = some view → view.Tells known

def SafeWebhookEndpoint.Tells (known : RowProperty) (endpoint : SafeWebhookEndpoint) : Prop :=
  ∃ row, known .webhookEndpoint row ∧ endpoint = Webhooks.strip row

def Summary.Tells (known : RowProperty) (summary : Summary) : Prop :=
  ∃ numbers now intents, (∀ intent ∈ intents, known .paymentIntent intent) ∧
    summary.totals = Analytics.totals intents numbers ∧
    summary.volume = Analytics.volume numbers intents ∧
    summary.customers = (Analytics.distinctPayers intents).length ∧
    summary.series = Analytics.series numbers now intents ∧
    summary.recent = ((Analytics.succeeded intents).take 6).map Analytics.recentRow

def BalancePage.Tells (known : RowProperty) (page : BalancePage) : Prop :=
  ∃ numbers intents, (∀ intent ∈ intents, known .paymentIntent intent) ∧
    page.data = Analytics.balanceData numbers intents

def CustomerPage.Tells (known : RowProperty) (page : CustomerPage) : Prop :=
  ∃ numbers, ∃ customers : List Customer, ∃ intents,
    (∀ customer ∈ customers, known .customer customer) ∧
    (∀ intent ∈ intents, known .paymentIntent intent) ∧
    page.data = customers.map (Customers.customerRow numbers intents)

def WebhookLogPage.Tells (known : RowProperty) (page : WebhookLogPage) : Prop :=
  ∀ log ∈ page.data, ∃ endpoints delivery,
    (∀ endpoint ∈ endpoints, known .webhookEndpoint endpoint) ∧
      known .webhookDelivery delivery ∧ log = Analytics.webhookLog endpoints delivery

/-- The rows that a reply presents have the property. -/
def Reply.Tells (known : RowProperty) : Reply → Prop
  | .intent view => view.Tells known
  | .intents page => ∀ intent ∈ page.data, known .paymentIntent intent
  | .validation outcome => outcome.Tells known
  | .endpoint row => known .webhookEndpoint row
  | .safeEndpoint shown => shown.Tells known
  | .safeEndpoints shown => ∀ endpoint ∈ shown, endpoint.Tells known
  | .delivery row => known .webhookDelivery row
  | .deliveries page => ∀ delivery ∈ page.data, known .webhookDelivery delivery
  | .customer row => known .customer row
  | .customers page => page.Tells known
  | .product row => known .product row
  | .summary shown => shown.Tells known
  | .balances page => page.Tells known
  | .webhookLogs page => page.Tells known
  | .ping _ => True
  | .deleted _ => True
  | .done => True

section Contract

variable (deployment : Deployment)

/-- A delivery or a test event for an endpoint. -/
inductive Posts (known : RowProperty) : WebhookPost → Prop where
  | delivery (endpoint : WebhookEndpoint) (delivery : WebhookDelivery) (timestamp : Nat)
      (receiver : known .webhookEndpoint endpoint) (sent : known .webhookDelivery delivery) :
      Posts known (WebhookDispatcher.deliveryPost deployment endpoint delivery
        (deployment.libraries.stringify delivery.payload) timestamp)
  | ping (endpoint : WebhookEndpoint) (id : String) (createdAt timestamp : Nat)
      (receiver : known .webhookEndpoint endpoint) :
      Posts known (WebhookDispatcher.pingPost deployment endpoint
        (deployment.libraries.stringifyPing id createdAt) timestamp)

/-- What a call hands on, it hands on for the user, and about rows with the property. -/
def Call.Sends (username : String) (known : RowProperty) : Call → Prop
  | .emit payload => payload.consumerUsername = username ∧ known .paymentIntent payload.data
  | .start task => ∃ intent payer, task = .upsertCustomerFromPayment intent payer ∧
      known .paymentIntent intent
  | .post request => Posts deployment known request
  | _ => True

def permitsQuery (username : String) (past : History signature) : Query → Prop
  | .intentByMemo consumerId _ => Enrolled past username consumerId
  | .intentOwned _ name => name = username
  | .intentIdOwned _ name => name = username
  | .intentStatus id => Owns past .paymentIntent id
  | .intentSource id => Owns past .paymentIntent id
  | .intentPage name _ _ _ => name = username
  | .expiredIntents _ _ => False
  | .pendingIntents _ => False
  | .customerIdByAccount _ _ => False
  | .customerOwned _ consumerId => Enrolled past username consumerId
  | .productOwned _ consumerId => Enrolled past username consumerId
  | .endpointOwned _ name => name = username
  | .endpoint id => Owns past .webhookEndpoint id
  | .enabledEndpoints name => name = username
  | .endpointsNamed name => name = username
  | .endpointsOf consumerId => Enrolled past username consumerId
  | .deliveryOf _ endpointId => Owns past .webhookEndpoint endpointId
  | .deliveryPage endpointId _ _ _ => Owns past .webhookEndpoint endpointId
  | .deliveriesAmong endpointIds _ => ∀ id ∈ endpointIds, Owns past .webhookEndpoint id
  | .deliveryCount endpointIds _ => ∀ id ∈ endpointIds, Owns past .webhookEndpoint id
  | .intentsOn consumerId _ => Enrolled past username consumerId
  | .balanceIntents consumerId _ => Enrolled past username consumerId
  | .customersOf consumerId => Enrolled past username consumerId
  | .sourcedIntents consumerId => Enrolled past username consumerId

def permitsWrite (username : String) (past : History signature) : Write → Prop
  | .upsertConsumer name _ => name = username
  | .create model new => model ≠ .webhookDelivery ∧
      ∀ id createdAt, Enrolled past username (model.parent (model.make new id createdAt))
  | .update model id _ => Owns past model id
  | .delete model id => Owns past model id

def permitsTenant (username : String) (past : History signature) : Call → Prop
  | .query asked => permitsQuery username past asked
  | .write statement => permitsWrite username past statement
  | call => call.Sends deployment username (Shows past)

def ensuresTenant {α : Type} (tells : RowProperty → α → Prop) (targets : List (Model × String))
    (past : History signature) (outcome : Except ServiceError α) : Prop :=
  (∀ value, outcome = .ok value → tells (Shows past) value) ∧
    ∀ target ∈ targets, Owns past target.1 target.2 ∨ Refused past outcome

/-- What a request with a caller may do, and what it returns; ticks and detached tasks are
left open. -/
def tenancy : Contract (service deployment) where
  relies := Believable
  permits request past call :=
    ∀ username ∈ Request.caller? request, permitsTenant deployment username past call
  ensures request past outcome := ∀ username ∈ Request.caller? request,
    ensuresTenant Reply.Tells (Request.targets request) past outcome

end Contract

/-! ## Growing histories -/

section Growth

variable {past later : History signature}

theorem Shows.of_mem {call : Call} {answer : call.Answer} {model : Model} {row : model.Row}
    (member : ⟨call, .ok answer⟩ ∈ past) (listed : ⟨model, row⟩ ∈ call.rows answer) :
    Shows past model row :=
  ⟨_, member, answer, rfl, listed⟩

theorem Shows.of_update {model : Model} {id : String} {patch : model.Patch} {row : model.Row}
    (made : ⟨.write (.update model id patch), .ok row⟩ ∈ past) : Shows past model row :=
  .of_mem made List.mem_cons_self

variable (grows : past ⊆ later)

include grows

theorem Shows.mono {model : Model} {row : model.Row} (shows : Shows past model row) :
    Shows later model row := by
  obtain ⟨performed, member, answer, isAnswer, listed⟩ := shows
  exact ⟨performed, grows member, answer, isAnswer, listed⟩

theorem Owns.mono {model : Model} {id : String} (owns : Owns past model id) :
    Owns later model id := by
  cases owns with
  | shown _ row _ shows isKey => exact .shown model row id (shows.mono grows) isKey
  | identified _ username member => exact .identified id username (grows member)

theorem Enrolled.mono {username consumerId : String}
    (enrolled : Enrolled past username consumerId) :
    Enrolled later username consumerId := by
  obtain ⟨credentialId, owner, upserted, isId⟩ := enrolled
  exact ⟨credentialId, owner, grows upserted, isId⟩

end Growth

/-! ## Rules -/

section Rules

variable {deployment : Deployment} {past : History signature} {α β : Type}
variable {tells : RowProperty → α → Prop} {username : String}
variable {targets : List (Model × String)}

/-- The history has shown that all named rows are the caller's. -/
def OwnsAll (past : History signature) (targets : List (Model × String)) : Prop :=
  ∀ target ∈ targets, Owns past target.1 target.2

theorem OwnsAll.nil : OwnsAll past [] := by
  simp [OwnsAll]

theorem OwnsAll.single {id : String} {model : Model} (owns : Owns past model id) :
    OwnsAll past [(model, id)] := by
  intro target member
  rw [List.mem_singleton.mp member]
  exact owns

theorem OwnsAll.mono {later : History signature} (owns : OwnsAll past targets)
    (grows : past ⊆ later) : OwnsAll later targets :=
  fun target member => (owns target member).mono grows

theorem ensuresTenant_ok {value : α} (owns : OwnsAll past targets)
    (shows : tells (Shows past) value) : ensuresTenant tells targets past (.ok value) := by
  refine ⟨?_, fun target member => .inl (owns target member)⟩
  rintro other ⟨⟩
  exact shows

theorem ensuresTenant_error {err : ServiceError} (owns : OwnsAll past targets) :
    ensuresTenant tells targets past (.error err) :=
  ⟨by rintro value ⟨⟩, fun target member => .inl (owns target member)⟩

theorem ensuresTenant_refused {err : ServiceError} (lookedUp : ∀ performed ∈ past,
      performed.call.LooksUp)
    (refused : (∃ message, err = .notFound message) ∨
      ∃ performed ∈ past, performed.answer = .error err) :
    ensuresTenant tells targets past (.error err) :=
  ⟨by rintro value ⟨⟩, fun _ _ => .inr ⟨⟨err, rfl, refused⟩, lookedUp⟩⟩

theorem Refused.of_error {err : ServiceError}
    (refused : Refused past (.error err : Except ServiceError α)) :
    Refused past (.error err : Except ServiceError β) := by
  obtain ⟨⟨other, isError, cause⟩, lookedUp⟩ := refused
  obtain rfl := Except.error.inj isError
  exact ⟨⟨err, rfl, cause⟩, lookedUp⟩

theorem not_refused_ok {value : α} : ¬ Refused past (.ok value : Except ServiceError α) := by
  rintro ⟨⟨err, isError, -⟩, -⟩
  cases isError

/-- What an outcome that is passed on ensures. -/
theorem ensuresTenant_error_of {tells' : RowProperty → β → Prop} {err : ServiceError}
    (ensured : ensuresTenant tells targets past (.error err)) :
    ensuresTenant tells' targets past (.error err) :=
  ⟨by rintro value ⟨⟩, fun target member => (ensured.2 target member).imp_right .of_error⟩

theorem OwnsAll.of_ok {value : α} (ensured : ensuresTenant tells targets past (.ok value)) :
    OwnsAll past targets :=
  fun target member => (ensured.2 target member).resolve_right not_refused_ok

theorem ensuresTenant_map {wrap : β → α} {outcome : Except ServiceError β}
    (ensured : ensuresTenant (fun known value => tells known (wrap value)) targets past outcome) :
    ensuresTenant tells targets past (outcome.map wrap) := by
  cases outcome with
  | ok value => exact ensuresTenant_ok (.of_ok ensured) (ensured.1 value rfl)
  | error err => exact ensuresTenant_error_of ensured

/-- A call after the named rows have turned out to be the caller's. -/
theorem tenant_call {call : Call} {next : call.Answer → Promise α} (owns : OwnsAll past targets)
    (permitted : permitsTenant deployment username past call)
    (rest : ∀ value later, OwnsAll later targets → past ⊆ later → ⟨call, .ok value⟩ ∈ later →
      (next value).Conforms Believable (permitsTenant deployment username)
        (ensuresTenant tells targets) later) :
    (Promise.call call >>= next).Conforms Believable (permitsTenant deployment username)
      (ensuresTenant tells targets) past := by
  have grows : ∀ answer, past ⊆ ⟨call, answer⟩ :: past := fun answer => List.subset_cons_self _ _
  refine conforms_call_bind.mpr ⟨permitted, fun err _ => ?_, fun value _ => ?_⟩
  · exact ensuresTenant_error (owns.mono (grows _))
  · exact rest value _ (owns.mono (grows _)) (grows _) List.mem_cons_self

/-- What follows a program that returns what it has shown. -/
theorem tenant_seq {shown : RowProperty → β → Prop} {first : Promise β} {next : β → Promise α}
    (conforms : first.Conforms Believable (permitsTenant deployment username)
      (ensuresTenant shown targets) past)
    (rest : ∀ value later, OwnsAll later targets → shown (Shows later) value →
      (next value).Conforms Believable (permitsTenant deployment username)
        (ensuresTenant tells targets) later) :
    (first >>= next).Conforms Believable (permitsTenant deployment username)
      (ensuresTenant tells targets) past := by
  rw [conforms_bind]
  refine conforms.ensuring fun later outcome ensured => ?_
  cases outcome with
  | ok value => exact rest value later (.of_ok ensured) (ensured.1 value rfl)
  | error err => exact ensuresTenant_error_of ensured

/-- A synchronous step that may throw. -/
theorem tenant_ofExcept {outcome : Except ServiceError β} {next : β → Promise α}
    (owns : OwnsAll past targets)
    (rest : ∀ value, (next value).Conforms Believable (permitsTenant deployment username)
      (ensuresTenant tells targets) past) :
    (Promise.ofExcept outcome >>= next).Conforms Believable (permitsTenant deployment username)
      (ensuresTenant tells targets) past := by
  cases outcome with
  | ok value => exact rest value
  | error err => exact ensuresTenant_error owns

/-- Lookups at Horizon are nobody's rows. -/
theorem tenant_horizon {first : Promise β} {next : β → Promise α}
    (calls : first.Calls Call.IsHorizon) (owns : OwnsAll past targets)
    (rest : ∀ value later, OwnsAll later targets → past ⊆ later →
      (next value).Conforms Believable (permitsTenant deployment username)
        (ensuresTenant tells targets) later) :
    (first >>= next).Conforms Believable (permitsTenant deployment username)
      (ensuresTenant tells targets) past := by
  rw [conforms_bind]
  refine calls.conforms (fun recent call _ isHorizon => ?_) fun recent outcome _ => ?_
  · cases call <;> trivial
  · have grows : past ⊆ recent ++ past := List.subset_append_right recent past
    cases outcome with
    | ok value => exact rest value _ (owns.mono grows) grows
    | error err => exact ensuresTenant_error (owns.mono grows)

/-- A last call, whose answer is returned. -/
theorem tenant_return {call : Call} {tells : RowProperty → call.Answer → Prop}
    (owns : OwnsAll past targets) (permitted : permitsTenant deployment username past call)
    (shows : ∀ value, tells (Shows (⟨call, .ok value⟩ :: past)) value) :
    (Promise.call call).Conforms Believable (permitsTenant deployment username)
      (ensuresTenant tells targets) past := by
  refine (conforms_call _).mpr ⟨permitted, fun answer _ => ?_⟩
  have still := owns.mono (List.subset_cons_self ⟨call, answer⟩ past)
  cases answer with
  | error err => exact ensuresTenant_error still
  | ok value => exact ensuresTenant_ok still (shows value)

/-- What a program ensures that only looks up. -/
def ensuresLookup (found : History signature → β → Prop) (past : History signature)
    (outcome : Except ServiceError β) : Prop :=
  (∀ performed ∈ past, performed.call.LooksUp) ∧
    match outcome with
    | .ok value => found past value
    | .error err => (∃ message, err = .notFound message) ∨
        ∃ performed ∈ past, performed.answer = .error err

theorem looksUp_cons (performed : Performed signature) (looksUp : performed.call.LooksUp)
    (lookedUp : ∀ other ∈ past, other.call.LooksUp) :
    ∀ other ∈ performed :: past, other.call.LooksUp := by
  intro other member
  rcases List.mem_cons.mp member with rfl | older
  · exact looksUp
  · exact lookedUp other older

theorem lookup_call {found : History signature → β → Prop} {call : Call}
    {next : call.Answer → Promise β} (looksUp : call.LooksUp)
    (lookedUp : ∀ performed ∈ past, performed.call.LooksUp)
    (permitted : permitsTenant deployment username past call)
    (rest : ∀ value, (∀ performed ∈ (⟨call, .ok value⟩ :: past : History signature),
        performed.call.LooksUp) → Believable ⟨call, .ok value⟩ →
      (next value).Conforms Believable (permitsTenant deployment username)
        (ensuresLookup found) (⟨call, .ok value⟩ :: past)) :
    (Promise.call call >>= next).Conforms Believable (permitsTenant deployment username)
      (ensuresLookup found) past := by
  have still := fun answer => looksUp_cons ⟨call, answer⟩ looksUp lookedUp
  refine conforms_call_bind.mpr ⟨permitted, fun err _ => ?_, fun value relied => ?_⟩
  · exact ⟨still _, .inr ⟨_, List.mem_cons_self, rfl⟩⟩
  · exact rest value (still _) relied

/-- What follows a lookup may use what it has found. -/
theorem tenant_bind {found : History signature → β → Prop} {first : Promise β}
    {next : β → Promise α}
    (lookup : first.Conforms Believable (permitsTenant deployment username)
      (ensuresLookup found) past)
    (rest : ∀ later value, (∀ performed ∈ later, performed.call.LooksUp) → found later value →
      (next value).Conforms Believable (permitsTenant deployment username)
        (ensuresTenant tells targets) later) :
    (first >>= next).Conforms Believable (permitsTenant deployment username)
      (ensuresTenant tells targets) past := by
  rw [conforms_bind]
  refine lookup.ensuring fun later outcome ensured => ?_
  cases outcome with
  | ok value => exact rest later value ensured.1 ensured.2
  | error err => exact ensuresTenant_refused ensured.1 ensured.2

/-- A lookup that is returned. -/
theorem tenant_found {found : History signature → α → Prop} {first : Promise α}
    (lookup : first.Conforms Believable (permitsTenant deployment username)
      (ensuresLookup found) past)
    (owns : ∀ later value, found later value → OwnsAll later targets)
    (shows : ∀ later value, found later value → tells (Shows later) value) :
    first.Conforms Believable (permitsTenant deployment username)
      (ensuresTenant tells targets) past := by
  refine lookup.ensuring fun later outcome ensured => ?_
  cases outcome with
  | ok value => exact ensuresTenant_ok (owns _ _ ensured.2) (shows _ _ ensured.2)
  | error err => exact ensuresTenant_refused ensured.1 ensured.2

/-- A patch of the row that a lookup has found. -/
theorem tenant_updateFound {found : History signature → β → Prop} {first : Promise β}
    {model : Model} {id : String} {patch : model.Patch}
    (lookup : first.Conforms Believable (permitsTenant deployment username)
      (ensuresLookup found) past)
    (owns : ∀ later value, found later value → Owns later model id) :
    (first >>= fun _ => Promise.write (.update model id patch)).Conforms Believable
      (permitsTenant deployment username)
      (ensuresTenant (fun known row => known model row) [(model, id)]) past := by
  refine tenant_bind lookup fun later value _ isFound => ?_
  have owned := owns later value isFound
  exact tenant_return (.single owned) owned fun updated => .of_update List.mem_cons_self

/-- A deletion of the row that a lookup has found. -/
theorem tenant_deleteFound {found : History signature → β → Prop} {first : Promise β}
    {model : Model} {id : String}
    (lookup : first.Conforms Believable (permitsTenant deployment username)
      (ensuresLookup found) past)
    (owns : ∀ later value, found later value → Owns later model id) :
    (first >>= fun _ => Promise.write (.delete model id) >>= fun _ => pure id).Conforms Believable
      (permitsTenant deployment username)
      (ensuresTenant (fun _ _ => True) [(model, id)]) past := by
  refine tenant_bind lookup fun later value _ isFound => ?_
  have owned := owns later value isFound
  exact tenant_call (.single owned) owned fun _ _ still _ _ => ensuresTenant_ok still trivial

end Rules

/-! ## Lookups -/

section Lookups

variable {deployment : Deployment}

theorem lookup_assertOwned (consumer : GatewayConsumer) (id : String) :
    (PaymentIntents.assertOwned consumer id).Conforms Believable
      (permitsTenant deployment consumer.username)
      (ensuresLookup fun later _ => Owns later .paymentIntent id) [] := by
  refine lookup_call trivial (by simp) rfl fun found lookedUp believed => ?_
  split
  · exact ⟨lookedUp, .inl ⟨_, rfl⟩⟩
  · rename_i shown
    obtain rfl : shown = id := believed _ rfl shown rfl
    exact ⟨lookedUp, .identified shown consumer.username List.mem_cons_self⟩

theorem lookup_getOwned (consumer : GatewayConsumer) (id : String) :
    (Webhooks.getOwned consumer id).Conforms Believable
      (permitsTenant deployment consumer.username)
      (ensuresLookup fun later endpoint => Owns later .webhookEndpoint id ∧
        Shows later .webhookEndpoint endpoint) [] := by
  refine lookup_call trivial (by simp) rfl fun found lookedUp believed => ?_
  split
  · exact ⟨lookedUp, .inl ⟨_, rfl⟩⟩
  · rename_i endpoint
    have shows : Shows [⟨.query (.endpointOwned id consumer.username), .ok (some endpoint)⟩]
        .webhookEndpoint endpoint :=
      .of_mem List.mem_cons_self List.mem_cons_self
    exact ⟨lookedUp, .shown .webhookEndpoint endpoint id shows (believed _ rfl endpoint rfl), shows⟩

theorem lookup_customer (consumer : GatewayConsumer) (id : String) :
    (Customers.findOne consumer id).Conforms Believable
      (permitsTenant deployment consumer.username)
      (ensuresLookup fun later customer => Owns later .customer id ∧
        Shows later .customer customer) [] := by
  refine lookup_call trivial (by simp) rfl fun owner lookedUp _ => ?_
  refine lookup_call trivial lookedUp ⟨_, owner, List.mem_cons_self, rfl⟩
    fun found lookedUp believed => ?_
  split
  · exact ⟨lookedUp, .inl ⟨_, rfl⟩⟩
  · rename_i customer
    have shows : ∀ past : History signature, Shows
        (⟨.query (.customerOwned id owner.id), .ok (some customer)⟩ :: past) .customer customer :=
      fun past => .of_mem List.mem_cons_self List.mem_cons_self
    exact ⟨lookedUp, .shown .customer customer id (shows _) (believed _ rfl customer rfl).1,
      shows _⟩

theorem lookup_product (consumer : GatewayConsumer) (id : String) :
    (Products.findOne consumer id).Conforms Believable
      (permitsTenant deployment consumer.username)
      (ensuresLookup fun later product => Owns later .product id ∧
        Shows later .product product) [] := by
  refine lookup_call trivial (by simp) rfl fun owner lookedUp _ => ?_
  refine lookup_call trivial lookedUp ⟨_, owner, List.mem_cons_self, rfl⟩
    fun found lookedUp believed => ?_
  split
  · exact ⟨lookedUp, .inl ⟨_, rfl⟩⟩
  · rename_i product
    have shows : ∀ past : History signature, Shows
        (⟨.query (.productOwned id owner.id), .ok (some product)⟩ :: past) .product product :=
      fun past => .of_mem List.mem_cons_self List.mem_cons_self
    exact ⟨lookedUp, .shown .product product id (shows _) (believed _ rfl product rfl).1, shows _⟩

end Lookups

/-! ## Payment intents -/

section Intents

variable {deployment : Deployment} {past : History signature} {username id : String}
variable {targets : List (Model × String)} {intent : PaymentIntent}

theorem tenant_withQr (owns : OwnsAll past targets) (shows : Shows past .paymentIntent intent) :
    (PaymentIntents.withQr deployment intent).Conforms Believable
      (permitsTenant deployment username) (ensuresTenant PaymentIntentView.Tells targets) past := by
  unfold PaymentIntents.withQr
  cases deployment.libraries.toDataURL intent.uri with
  | error err => exact ensuresTenant_error owns
  | ok qr => exact ensuresTenant_ok owns shows

/-- The view of an intent as a part of the outcome. -/
theorem tenant_outcome {outcome : PaymentIntentView → ValidationOutcome}
    (isView : ∀ view, (outcome view).paymentIntent = some view) (owns : OwnsAll past targets)
    (shows : Shows past .paymentIntent intent) :
    (PaymentIntents.withQr deployment intent >>= fun view => pure (outcome view) :
      Promise ValidationOutcome).Conforms Believable (permitsTenant deployment username)
        (ensuresTenant ValidationOutcome.Tells targets) past := by
  unfold PaymentIntents.withQr
  cases deployment.libraries.toDataURL intent.uri with
  | error err => exact ensuresTenant_error owns
  | ok qr =>
      refine ensuresTenant_ok owns fun view isSome => ?_
      obtain rfl := Option.some.inj ((isView _).symm.trans isSome)
      exact shows

theorem lookup_intent {α : Type} {tells : RowProperty → α → Prop}
    {next : Option PaymentIntent → Promise α} (consumer : GatewayConsumer) (id : String)
    (absent : ∃ message, next none = throw (.notFound message))
    (continues : ∀ intent later, intent.id = id → Owns later .paymentIntent id →
      Shows later .paymentIntent intent →
      (next (some intent)).Conforms Believable (permitsTenant deployment consumer.username)
        (ensuresTenant tells [(.paymentIntent, id)]) later) :
    (Promise.query (.intentOwned id consumer.username) >>= next).Conforms Believable
      (permitsTenant deployment consumer.username)
      (ensuresTenant tells [(.paymentIntent, id)]) [] := by
  have lookedUp : ∀ answer, ∀ performed ∈ ([⟨.query (.intentOwned id consumer.username), answer⟩] :
      History signature), performed.call.LooksUp :=
    fun answer => looksUp_cons _ trivial (by simp)
  refine conforms_call_bind.mpr ⟨rfl, fun err _ => ?_, fun found believed => ?_⟩
  · exact ensuresTenant_refused (lookedUp _) (.inr ⟨_, List.mem_cons_self, rfl⟩)
  · cases found with
    | none =>
        obtain ⟨message, isThrow⟩ := absent
        rw [isThrow]
        exact ensuresTenant_refused (lookedUp _) (.inl ⟨message, rfl⟩)
    | some intent =>
        have isId := believed _ rfl intent rfl
        have shows : Shows [⟨.query (.intentOwned id consumer.username), .ok (some intent)⟩]
            .paymentIntent intent :=
          .of_mem List.mem_cons_self List.mem_cons_self
        exact continues intent _ isId (.shown .paymentIntent intent id shows isId) shows

theorem tenant_findOne (consumer : GatewayConsumer) (id : String) :
    (PaymentIntents.findOne deployment consumer id).Conforms Believable
      (permitsTenant deployment consumer.username)
      (ensuresTenant PaymentIntentView.Tells [(.paymentIntent, id)]) [] := by
  refine lookup_intent consumer id ⟨_, rfl⟩ fun intent later _ owns shows => ?_
  exact tenant_withQr (.single owns) shows

theorem tenant_update (consumer : GatewayConsumer) (id : String) (dto : UpdatePaymentIntentDto) :
    (PaymentIntents.update deployment consumer id dto).Conforms Believable
      (permitsTenant deployment consumer.username)
      (ensuresTenant PaymentIntentView.Tells [(.paymentIntent, id)]) [] := by
  refine tenant_bind (lookup_assertOwned consumer id) fun _ _ _ owns => ?_
  refine tenant_call (.single owns) owns fun updated later owned _ made => ?_
  have shows : Shows later .paymentIntent updated := .of_update made
  refine tenant_call owned ⟨rfl, shows⟩ fun _ _ owned grows _ => ?_
  exact tenant_withQr owned (shows.mono grows)

theorem tenant_remove (consumer : GatewayConsumer) (id : String) :
    (PaymentIntents.remove consumer id).Conforms Believable
      (permitsTenant deployment consumer.username)
      (ensuresTenant (fun _ _ => True) [(.paymentIntent, id)]) [] := by
  refine tenant_bind (lookup_assertOwned consumer id) fun _ _ _ owns => ?_
  refine tenant_call (.single owns) owns fun existing later owned grows _ => ?_
  split
  · exact ensuresTenant_error owned
  · refine tenant_call owned (owns.mono grows) fun deleted _ owned _ made => ?_
    refine tenant_call owned ⟨rfl, .of_mem made List.mem_cons_self⟩ fun _ _ owned _ _ => ?_
    exact ensuresTenant_ok owned trivial

theorem tenant_markSucceeded {hash : String} {payer : Option String}
    (owns : Owns past .paymentIntent id) :
    (PaymentIntents.markSucceeded id username hash payer).Conforms Believable
      (permitsTenant deployment username)
      (ensuresTenant (fun known row => known .paymentIntent row) [(.paymentIntent, id)]) past := by
  refine tenant_call (.single owns) owns fun current _ owned grows _ => ?_
  refine tenant_call owned (owns.mono grows) fun updated later owned _ made => ?_
  have shows : Shows later .paymentIntent updated := .of_update made
  refine tenant_call owned ⟨rfl, shows⟩ fun _ _ owned grows _ => ?_
  refine tenant_call owned ⟨updated, payer, rfl, shows.mono grows⟩ fun _ _ owned grows' _ => ?_
  exact ensuresTenant_ok owned ((shows.mono grows).mono grows')

/-- A patch of an owned intent that is announced and returned. -/
theorem tenant_mark {patch : PaymentIntentPatch} {type : WebhookEventType}
    (owns : Owns past .paymentIntent id) :
    (do let updated ← Promise.write (.update .paymentIntent id patch)
        PaymentIntents.emit username type updated
        pure updated : Promise PaymentIntent).Conforms Believable
      (permitsTenant deployment username)
      (ensuresTenant (fun known row => known .paymentIntent row) [(.paymentIntent, id)]) past := by
  refine tenant_call (.single owns) owns fun updated later owned _ made => ?_
  have shows : Shows later .paymentIntent updated := .of_update made
  refine tenant_call owned ⟨rfl, shows⟩ fun _ _ owned grows _ => ?_
  exact ensuresTenant_ok owned (shows.mono grows)

theorem tenant_markFailed {hash : Option String} (owns : Owns past .paymentIntent id) :
    (PaymentIntents.markFailed id username hash).Conforms Believable
      (permitsTenant deployment username)
      (ensuresTenant (fun known row => known .paymentIntent row) [(.paymentIntent, id)]) past :=
  tenant_mark owns

theorem tenant_markExpired (owns : Owns past .paymentIntent id) :
    (PaymentIntents.markExpired id username).Conforms Believable
      (permitsTenant deployment username)
      (ensuresTenant (fun known row => known .paymentIntent row) [(.paymentIntent, id)]) past :=
  tenant_mark owns

theorem tenant_validate (consumer : GatewayConsumer) (id txHash : String) :
    (PaymentIntents.validate deployment consumer id txHash).Conforms Believable
      (permitsTenant deployment consumer.username)
      (ensuresTenant ValidationOutcome.Tells [(.paymentIntent, id)]) [] := by
  refine lookup_intent consumer id ⟨_, rfl⟩ fun intent later isId owns shows => ?_
  simp only
  split
  · exact tenant_outcome (fun _ => rfl) (.single owns) shows
  · refine tenant_horizon (calls_verifyByHash intent txHash) (.single owns)
      fun result later owned grows => ?_
    unfold PaymentIntents.settle
    rw [isId]
    split
    · refine tenant_seq (tenant_markSucceeded (owns.mono grows)) fun updated _ owned shows => ?_
      exact tenant_outcome (fun _ => rfl) owned shows
    · split
      · refine tenant_seq (tenant_markFailed (owns.mono grows)) fun updated _ owned shows => ?_
        exact tenant_outcome (fun _ => rfl) owned shows
      · exact ensuresTenant_ok owned (by rintro view ⟨⟩)

theorem tenant_findAll (consumer : GatewayConsumer) (query : QueryPaymentIntentsDto) :
    (PaymentIntents.findAll consumer query).Conforms Believable
      (permitsTenant deployment consumer.username)
      (ensuresTenant (fun known page => ∀ intent ∈ page.data, known .paymentIntent intent) [])
      [] := by
  refine tenant_call .nil rfl fun page later owned _ shown => ?_
  obtain ⟨rows, total⟩ := page
  refine ensuresTenant_ok owned fun intent listed => ?_
  exact .of_mem shown (List.mem_map.mpr ⟨intent, listed, rfl⟩)

end Intents

/-! ## Creating intents -/

section Creation

open PaymentIntents

variable {deployment : Deployment} {past : History signature} {consumer : GatewayConsumer}
variable {owner : Consumer} {memo : String}

theorem tenant_resolveMemo (provided : Field String) {next : String → Promise PaymentIntentView}
    (rest : ∀ memo later, past ⊆ later →
      (next memo).Conforms Believable (permitsTenant deployment consumer.username)
        (ensuresTenant PaymentIntentView.Tells []) later) :
    (resolveMemo provided >>= next).Conforms Believable
      (permitsTenant deployment consumer.username)
      (ensuresTenant PaymentIntentView.Tells []) past := by
  cases provided with
  | undefined =>
      rw [conforms_bind]
      exact conforms_call_bind.mpr ⟨trivial, fun err _ => ensuresTenant_error .nil,
        fun bytes _ => rest _ _ (List.subset_cons_self _ _)⟩
  | null => exact ensuresTenant_error .nil
  | value provided =>
      simp only [resolveMemo]
      split
      · exact rest provided past (List.Subset.refl past)
      · exact ensuresTenant_error .nil

/-- The idempotency lookup, with what follows when it misses. -/
theorem tenant_findByMemo {next : Promise PaymentIntentView}
    (enrolled : Enrolled past consumer.username owner.id)
    (missed : ∀ later, past ⊆ later →
      next.Conforms Believable (permitsTenant deployment consumer.username)
        (ensuresTenant PaymentIntentView.Tells []) later) :
    (do match ← findByMemo owner.id memo with
        | some existing => withQr deployment existing
        | none => next : Promise PaymentIntentView).Conforms Believable
      (permitsTenant deployment consumer.username)
      (ensuresTenant PaymentIntentView.Tells []) past := by
  refine tenant_call .nil enrolled fun found later _ grows shown => ?_
  split
  · exact tenant_withQr .nil (.of_mem shown List.mem_cons_self)
  · exact missed later grows

theorem tenant_finishCreate {data : NewPaymentIntent}
    (enrolled : Enrolled past consumer.username owner.id) (isOwner : data.consumerId = owner.id) :
    (finishCreate deployment consumer data).Conforms Believable
      (permitsTenant deployment consumer.username)
      (ensuresTenant PaymentIntentView.Tells []) past := by
  unfold finishCreate
  rw [conforms_bind]
  refine conforms_call_bind.mpr
    ⟨trivial, fun err _ => ensuresTenant_error .nil, fun now _ => ?_⟩
  have afterNow := enrolled.mono (List.subset_cons_self ⟨.now, .ok now⟩ past)
  refine conforms_call_tryCatch.mpr ⟨⟨by simp, fun _ _ => isOwner ▸ afterNow⟩, fun err _ => ?_,
    fun row _ => ?_⟩
  · split
    · refine (andThen_ok _ _).mpr ?_
      rw [isOwner]
      exact tenant_findByMemo (afterNow.mono (List.subset_cons_self _ _))
        fun _ _ => ensuresTenant_error .nil
    · exact ensuresTenant_error .nil
  · refine (andThen_ok _ _).mpr ?_
    refine tenant_call .nil ⟨rfl, .of_mem List.mem_cons_self List.mem_cons_self⟩
      fun _ _ owned grows _ => ?_
    exact tenant_withQr owned (.of_mem (grows List.mem_cons_self) List.mem_cons_self)

/-- The steps that both endpoints begin with. -/
theorem tenant_prepare {next : Consumer → ResolvedAsset → String → Promise PaymentIntentView}
    {assetCode assetIssuer provided : Field String}
    (continues : ∀ later owner asset memo, Enrolled later consumer.username owner.id →
      (next owner asset memo).Conforms Believable (permitsTenant deployment consumer.username)
        (ensuresTenant PaymentIntentView.Tells []) later) :
    (do let localConsumer ← resolveConsumer consumer
        let asset ← Promise.ofExcept (resolveAsset deployment assetCode assetIssuer)
        let memo ← resolveMemo provided
        next localConsumer asset memo : Promise PaymentIntentView).Conforms Believable
      (permitsTenant deployment consumer.username)
      (ensuresTenant PaymentIntentView.Tells []) [] := by
  refine tenant_call .nil rfl fun owner _ _ _ upserted => ?_
  refine tenant_ofExcept .nil fun asset => tenant_resolveMemo provided fun memo later grows => ?_
  exact continues later owner asset memo ⟨_, owner, grows upserted, rfl⟩

theorem tenant_createTx (dto : CreateTxPaymentIntentDto) :
    (createTx deployment consumer dto).Conforms Believable
      (permitsTenant deployment consumer.username)
      (ensuresTenant PaymentIntentView.Tells []) [] := by
  refine tenant_prepare fun later owner asset memo enrolled => ?_
  refine tenant_findByMemo enrolled fun later grows => ?_
  refine tenant_horizon (calls_loadAccount _ _) .nil fun account later _ grows' => ?_
  refine tenant_call .nil trivial fun now later _ grows'' _ => ?_
  refine tenant_ofExcept .nil fun xdr => ?_
  exact tenant_finishCreate (((enrolled.mono grows).mono grows').mono grows'') rfl

theorem tenant_createPay (dto : CreatePayPaymentIntentDto) :
    (createPay deployment consumer dto).Conforms Believable
      (permitsTenant deployment consumer.username)
      (ensuresTenant PaymentIntentView.Tells []) [] := by
  refine tenant_prepare fun later owner asset memo enrolled => ?_
  refine tenant_findByMemo enrolled fun later grows => ?_
  exact tenant_finishCreate (enrolled.mono grows) rfl

/-- An insertion for the consumer row that the request has upserted. -/
theorem tenant_insert {model : Model} {new : model.New}
    (isTable : model ≠ .webhookDelivery)
    (enrolled : ∀ id createdAt, Enrolled past consumer.username
      (model.parent (model.make new id createdAt))) :
    (Promise.write (.create model new)).Conforms Believable
      (permitsTenant deployment consumer.username)
      (ensuresTenant (fun known row => known model row) []) past :=
  tenant_return .nil ⟨isTable, enrolled⟩ fun _ => .of_mem List.mem_cons_self List.mem_cons_self

end Creation

/-! ## Webhook endpoints -/

section Endpoints

variable {deployment : Deployment} {past : History signature} {username : String}
variable {targets : List (Model × String)}

theorem tenant_generateSecret (owns : OwnsAll past targets) :
    Webhooks.generateSecret.Conforms Believable (permitsTenant deployment username)
      (ensuresTenant (fun _ _ => True) targets) past :=
  tenant_call owns trivial fun _ _ owned _ _ => ensuresTenant_ok owned trivial

theorem tenant_createEndpoint (consumer : GatewayConsumer) (dto : CreateWebhookEndpointDto) :
    (Webhooks.create consumer dto).Conforms Believable
      (permitsTenant deployment consumer.username)
      (ensuresTenant (fun known row => known .webhookEndpoint row) []) [] := by
  refine tenant_call .nil rfl fun owner later _ _ upserted => ?_
  rw [conforms_bind]
  refine conforms_call_bind.mpr ⟨trivial, fun err _ => ?_, fun bytes _ => ?_⟩
  · exact (andThen_error _ err).mpr (ensuresTenant_error .nil)
  · exact tenant_insert (by simp) fun _ _ => ⟨_, owner, List.mem_cons_of_mem _ upserted, rfl⟩

theorem tenant_findAllEndpoints (consumer : GatewayConsumer) :
    (Webhooks.findAll consumer).Conforms Believable
      (permitsTenant deployment consumer.username)
      (ensuresTenant (fun known shown => ∀ endpoint ∈ shown,
        SafeWebhookEndpoint.Tells known endpoint) []) [] := by
  refine tenant_call .nil rfl fun rows later owned _ made => ?_
  refine ensuresTenant_ok owned fun endpoint listed => ?_
  obtain ⟨row, isRow, rfl⟩ := List.mem_map.mp listed
  exact ⟨row, .of_mem made (List.mem_map.mpr ⟨row, isRow, rfl⟩), rfl⟩

theorem tenant_findOneEndpoint (consumer : GatewayConsumer) (id : String) :
    (Webhooks.findOne consumer id).Conforms Believable
      (permitsTenant deployment consumer.username)
      (ensuresTenant SafeWebhookEndpoint.Tells [(.webhookEndpoint, id)]) [] := by
  refine tenant_bind (lookup_getOwned consumer id) fun _ endpoint _ found => ?_
  exact ensuresTenant_ok (.single found.1) ⟨endpoint, found.2, rfl⟩

theorem tenant_updateEndpoint (consumer : GatewayConsumer) (id : String)
    (dto : UpdateWebhookEndpointDto) :
    (Webhooks.update consumer id dto).Conforms Believable
      (permitsTenant deployment consumer.username)
      (ensuresTenant SafeWebhookEndpoint.Tells [(.webhookEndpoint, id)]) [] := by
  refine tenant_bind (lookup_getOwned consumer id) fun _ endpoint _ found => ?_
  refine tenant_call (.single found.1) found.1 fun updated later owned _ made => ?_
  exact ensuresTenant_ok owned ⟨updated, .of_update made, rfl⟩

theorem tenant_removeEndpoint (consumer : GatewayConsumer) (id : String) :
    (Webhooks.remove consumer id).Conforms Believable
      (permitsTenant deployment consumer.username)
      (ensuresTenant (fun _ _ => True) [(.webhookEndpoint, id)]) [] :=
  tenant_deleteFound (lookup_getOwned consumer id) fun _ _ found => found.1

theorem tenant_rotateSecret (consumer : GatewayConsumer) (id : String) :
    (Webhooks.rotateSecret consumer id).Conforms Believable
      (permitsTenant deployment consumer.username)
      (ensuresTenant (fun known row => known .webhookEndpoint row) [(.webhookEndpoint, id)])
      [] := by
  refine tenant_bind (lookup_getOwned consumer id) fun later endpoint _ found => ?_
  refine tenant_seq (tenant_generateSecret (.single found.1)) fun drawn latest owned _ => ?_
  exact tenant_return owned (owned _ List.mem_cons_self) fun updated =>
    .of_update List.mem_cons_self

theorem tenant_listDeliveries (consumer : GatewayConsumer) (id : String)
    (query : QueryDeliveriesDto) :
    (Webhooks.listDeliveries consumer id query).Conforms Believable
      (permitsTenant deployment consumer.username)
      (ensuresTenant (fun known page => ∀ row ∈ page.data, known .webhookDelivery row)
        [(.webhookEndpoint, id)]) [] := by
  refine tenant_bind (lookup_getOwned consumer id) fun _ endpoint _ found => ?_
  refine tenant_call (.single found.1) found.1 fun page later owned _ shown => ?_
  obtain ⟨rows, total⟩ := page
  refine ensuresTenant_ok owned fun delivery listed => ?_
  exact .of_mem shown (List.mem_map.mpr ⟨delivery, listed, rfl⟩)

theorem tenant_finalize {id : String} {status : WebhookDeliveryStatus} {attempts : Nat}
    {responseStatus : Option Nat} {error : Option String} (owns : OwnsAll past targets)
    (owned : Owns past .webhookDelivery id) :
    (WebhookDispatcher.finalize id status attempts responseStatus error).Conforms Believable
      (permitsTenant deployment username)
      (ensuresTenant (fun known row => known .webhookDelivery row) targets) past := by
  refine tenant_call owns trivial fun _ later owns grows _ => ?_
  exact tenant_return owns (owned.mono grows) fun updated => .of_update List.mem_cons_self

/-- The retry loop sends one delivery to one endpoint, and records the attempts. -/
theorem tenant_attemptLoop {endpoint : WebhookEndpoint} {delivery : WebhookDelivery}
    (receiver : Shows past .webhookEndpoint endpoint)
    (sent : Shows past .webhookDelivery delivery) (owns : OwnsAll past targets)
    (owned : Owns past .webhookDelivery delivery.id) (remaining i attempts : Nat)
    (lastError : Option String) (responseStatus : Option Nat) :
    (WebhookDispatcher.attemptLoop deployment endpoint delivery
        (deployment.libraries.stringify delivery.payload) remaining i attempts lastError
        responseStatus).Conforms Believable (permitsTenant deployment username)
      (ensuresTenant (fun known row => known .webhookDelivery row) targets) past := by
  induction remaining generalizing past i attempts lastError responseStatus with
  | zero => exact tenant_finalize owns owned
  | succ remaining ih =>
      refine tenant_call owns trivial fun now later owns grows _ => ?_
      have receiver := receiver.mono grows
      have sent := sent.mono grows
      have owned := owned.mono grows
      -- another round, after the backoff
      have again : ∀ latest, later ⊆ latest → ∀ attempts lastError responseStatus,
          (do WebhookDispatcher.backoff deployment remaining i
              WebhookDispatcher.attemptLoop deployment endpoint delivery
                (deployment.libraries.stringify delivery.payload) remaining (i + 1) attempts
                lastError responseStatus).Conforms Believable (permitsTenant deployment username)
            (ensuresTenant (fun known row => known .webhookDelivery row) targets) latest := by
        intro latest grows attempts lastError responseStatus
        unfold WebhookDispatcher.backoff
        split
        · exact tenant_call (owns.mono grows) trivial fun _ last owns grows' _ =>
            ih ((receiver.mono grows).mono grows') ((sent.mono grows).mono grows') owns
              ((owned.mono grows).mono grows') _ _ _ _
        · exact ih (receiver.mono grows) (sent.mono grows) (owns.mono grows) (owned.mono grows)
            _ _ _ _
      rw [conforms_bind]
      refine conforms_call_tryCatch.mpr ⟨.delivery endpoint delivery _ receiver sent,
        fun err _ => ?_, fun status _ => ?_⟩
      · exact again _ (List.subset_cons_self _ _) _ _ _
      · refine (andThen_ok _ _).mpr ?_
        simp only
        split
        · exact tenant_finalize (owns.mono (List.subset_cons_self _ _))
            (owned.mono (List.subset_cons_self _ _))
        · exact again _ (List.subset_cons_self _ _) _ _ _

theorem tenant_redeliver (consumer : GatewayConsumer) (endpointId deliveryId : String) :
    (Webhooks.redeliver deployment consumer endpointId deliveryId).Conforms Believable
      (permitsTenant deployment consumer.username)
      (ensuresTenant (fun known row => known .webhookDelivery row)
        [(.webhookEndpoint, endpointId), (.webhookDelivery, deliveryId)]) [] := by
  refine tenant_bind (lookup_getOwned consumer endpointId) fun later endpoint lookedUp found => ?_
  obtain ⟨ownsEndpoint, -⟩ := found
  have still := fun answer =>
    looksUp_cons ⟨.query (.deliveryOf deliveryId endpointId), answer⟩ trivial lookedUp
  refine conforms_call_bind.mpr ⟨ownsEndpoint, fun err _ => ?_, fun found believed => ?_⟩
  · exact ensuresTenant_refused (still _) (.inr ⟨_, List.mem_cons_self, rfl⟩)
  split
  · exact ensuresTenant_refused (still _) (.inl ⟨_, rfl⟩)
  · rename_i delivery
    obtain ⟨isId, isEndpoint⟩ := believed _ rfl delivery rfl
    let middle : History signature :=
      ⟨.query (.deliveryOf deliveryId endpointId), .ok (some delivery)⟩ :: later
    have grows : later ⊆ middle := List.subset_cons_self _ _
    have sent : Shows middle .webhookDelivery delivery :=
      .of_mem List.mem_cons_self List.mem_cons_self
    have owned : Owns middle .webhookDelivery deliveryId :=
      .shown .webhookDelivery delivery deliveryId sent isId
    have owns : OwnsAll middle
        [(.webhookEndpoint, endpointId), (.webhookDelivery, deliveryId)] := by
      intro target member
      simp only [List.mem_cons, List.not_mem_nil, or_false] at member
      rcases member with rfl | rfl
      · exact ownsEndpoint.mono grows
      · exact owned
    refine tenant_call owns (by rw [isEndpoint]; exact ownsEndpoint.mono grows)
      fun found latest owns grows' shown => ?_
    split
    · exact ensuresTenant_error owns
    · rename_i receiver
      refine tenant_attemptLoop (.of_mem shown List.mem_cons_self) (sent.mono grows') owns ?_
        _ _ _ _ _
      rw [isId]
      exact owned.mono grows'

theorem tenant_ping (consumer : GatewayConsumer) (id : String) :
    (Webhooks.ping deployment consumer id).Conforms Believable
      (permitsTenant deployment consumer.username)
      (ensuresTenant (fun _ _ => True) [(.webhookEndpoint, id)]) [] := by
  refine tenant_bind (lookup_getOwned consumer id) fun _ endpoint _ found => ?_
  obtain ⟨owns, shows⟩ := found
  refine tenant_call (.single owns) trivial fun uuid _ owned grows _ => ?_
  refine tenant_call owned trivial fun createdAt _ owned grows' _ => ?_
  refine tenant_call owned trivial fun now _ owned grows'' _ => ?_
  have receiver := ((shows.mono grows).mono grows').mono grows''
  refine conforms_call_tryCatch.mpr ⟨.ping endpoint _ createdAt _ receiver, fun err _ => ?_,
    fun status _ => ?_⟩
  · exact ensuresTenant_ok (owned.mono (List.subset_cons_self _ _)) trivial
  · exact ensuresTenant_ok (owned.mono (List.subset_cons_self _ _)) trivial

end Endpoints

/-! ## Aggregates -/

section Aggregates

variable {deployment : Deployment} {past : History signature} {username : String}

/-- The deliveries of endpoints that were listed. -/
theorem tenant_countDeliveries {α : Type} {tells : RowProperty → α → Prop}
    {endpointIds : List String} {next : Nat → Promise α}
    (owned : ∀ id ∈ endpointIds, Owns past .webhookEndpoint id)
    (status : Option WebhookDeliveryStatus)
    (rest : ∀ count later, past ⊆ later →
      (next count).Conforms Believable (permitsTenant deployment username)
        (ensuresTenant tells []) later) :
    (Analytics.countDeliveries endpointIds status >>= next).Conforms Believable
      (permitsTenant deployment username) (ensuresTenant tells []) past := by
  unfold Analytics.countDeliveries
  split
  · exact rest 0 past (List.Subset.refl past)
  · exact tenant_call .nil owned fun count later _ grows _ => rest count later grows

theorem owns_listed {consumerId : String} {endpoints : List WebhookEndpoint}
    (shown : ⟨.query (.endpointsOf consumerId), .ok endpoints⟩ ∈ past) :
    ∀ id ∈ endpoints.map WebhookEndpoint.id, Owns past .webhookEndpoint id := by
  intro id listed
  obtain ⟨endpoint, member, rfl⟩ := List.mem_map.mp listed
  exact .shown .webhookEndpoint endpoint _
    (.of_mem shown (List.mem_map.mpr ⟨endpoint, member, rfl⟩)) rfl

theorem tenant_resolveConsumerId {α : Type} {tells : RowProperty → α → Prop}
    {next : String → Promise α} (consumer : GatewayConsumer)
    (rest : ∀ consumerId later, Enrolled later consumer.username consumerId →
      (next consumerId).Conforms Believable (permitsTenant deployment consumer.username)
        (ensuresTenant tells []) later) :
    (Analytics.resolveConsumerId consumer >>= next).Conforms Believable
      (permitsTenant deployment consumer.username) (ensuresTenant tells []) [] := by
  rw [conforms_bind]
  refine conforms_call_bind.mpr ⟨rfl, fun err _ => ensuresTenant_error .nil, fun owner _ => ?_⟩
  exact rest owner.id _ ⟨_, owner, List.mem_cons_self, rfl⟩

theorem tenant_summary (consumer : GatewayConsumer) (numbers : Text.Numbers) :
    (Analytics.summary consumer numbers).Conforms Believable
      (permitsTenant deployment consumer.username)
      (ensuresTenant (fun known summary => summary.Tells known) []) [] := by
  refine tenant_resolveConsumerId consumer fun consumerId _ isEnrolled => ?_
  refine tenant_call .nil isEnrolled fun intents listing _ grows answered => ?_
  refine tenant_call .nil trivial fun now timed _ clocked _ => ?_
  refine tenant_call .nil ((isEnrolled.mono grows).mono clocked)
    fun endpoints counting _ grows' shown => ?_
  refine tenant_countDeliveries (owns_listed shown) none fun deliveries later grows'' => ?_
  have stillShown := grows'' shown
  refine tenant_countDeliveries (owns_listed stillShown) _ fun failed latest grows''' => ?_
  refine ensuresTenant_ok .nil ⟨numbers, now, intents, fun intent isListed => ?_,
    rfl, rfl, rfl, rfl, rfl⟩
  have known : Shows listing .paymentIntent intent :=
    .of_mem answered (List.mem_map.mpr ⟨intent, isListed, rfl⟩)
  exact (((known.mono clocked).mono grows').mono grows'').mono grows'''

theorem tenant_balances (consumer : GatewayConsumer) (numbers : Text.Numbers) :
    (Analytics.balances consumer numbers).Conforms Believable
      (permitsTenant deployment consumer.username)
      (ensuresTenant (fun known page => page.Tells known) []) [] := by
  refine tenant_resolveConsumerId consumer fun consumerId _ isEnrolled => ?_
  refine tenant_call .nil isEnrolled fun intents listing _ _ answered => ?_
  refine ensuresTenant_ok .nil ⟨numbers, intents, fun intent isListed => ?_, rfl⟩
  exact .of_mem answered (List.mem_map.mpr ⟨intent, isListed, rfl⟩)

theorem tenant_findAllCustomers (consumer : GatewayConsumer) (numbers : Text.Numbers) :
    (Customers.findAll consumer numbers).Conforms Believable
      (permitsTenant deployment consumer.username)
      (ensuresTenant (fun known page => page.Tells known) []) [] := by
  refine tenant_call .nil rfl fun owner resolved _ _ upserted => ?_
  have isEnrolled : Enrolled resolved consumer.username owner.id := ⟨_, owner, upserted, rfl⟩
  refine tenant_call .nil isEnrolled fun customers listing _ grows listed => ?_
  refine tenant_call .nil (isEnrolled.mono grows) fun intents later _ grows' answered => ?_
  refine ensuresTenant_ok .nil ⟨numbers, customers, intents, fun customer isListed => ?_,
    fun intent isListed => ?_, rfl⟩
  · exact (Shows.of_mem listed (List.mem_map.mpr ⟨customer, isListed, rfl⟩)).mono grows'
  · exact .of_mem answered (List.mem_map.mpr ⟨intent, isListed, rfl⟩)

theorem tenant_webhookLogs (consumer : GatewayConsumer) (take : Nat) :
    (Analytics.webhookLogs consumer take).Conforms Believable
      (permitsTenant deployment consumer.username)
      (ensuresTenant (fun known page => page.Tells known) []) [] := by
  refine tenant_resolveConsumerId consumer fun consumerId _ isEnrolled => ?_
  refine tenant_call .nil isEnrolled fun endpoints listing _ _ shown => ?_
  split
  · exact ensuresTenant_ok .nil fun log member => absurd member List.not_mem_nil
  · refine tenant_call .nil (owns_listed shown) fun deliveries later _ grows answered => ?_
    refine ensuresTenant_ok .nil fun log member => ?_
    obtain ⟨delivery, listed, rfl⟩ := List.mem_map.mp member
    refine ⟨endpoints, delivery, fun endpoint isEndpoint => ?_, ?_, rfl⟩
    · exact (Shows.of_mem shown (List.mem_map.mpr ⟨endpoint, isEndpoint, rfl⟩)).mono grows
    · exact .of_mem answered (List.mem_map.mpr ⟨delivery, listed, rfl⟩)

end Aggregates

/-! ## The requests -/

section Requests

variable {deployment : Deployment}

/-- Requests work on their caller's rows. -/
theorem tenancy_fulfilled : (tenancy deployment).Fulfilled where
  answers performed := Performs.believable ⟨_, _, performed, rfl, rfl⟩
  bodies request := by
    -- a request with a caller keeps the contract of its program
    have keeps : ∀ {α : Type} {program : Promise α} {reply : α → Reply} {username : String},
        request.caller? = some username →
        program.Conforms Believable (permitsTenant deployment username)
          (ensuresTenant (fun known value => (reply value).Tells known) request.targets) [] →
        (reply <$> program).Conforms Believable ((tenancy deployment).permits request)
          ((tenancy deployment).ensures request) [] := by
      intro α program reply username isCaller conforms
      refine (conforms_map _ _).mpr ?_
      refine conforms.mono (fun past call permitted => ?_) fun past outcome ensured => ?_
      · intro other isOther
        obtain rfl := Option.some.inj (isCaller.symm.trans isOther)
        exact permitted
      · intro other isOther
        exact ensuresTenant_map ensured
    have free : request.caller? = none → (request.body deployment).Conforms Believable
        ((tenancy deployment).permits request) ((tenancy deployment).ensures request) [] := by
      intro isNone
      refine conforms_of_forall _ (fun past call username isSome => ?_)
        fun past outcome username isSome => ?_
      · simp [isNone] at isSome
      · simp [isNone] at isSome
    cases request with
    | paymentIntents request =>
        cases request with
        | createTx consumer dto => exact keeps rfl (tenant_createTx dto)
        | createPay consumer dto => exact keeps rfl (tenant_createPay dto)
        | findAll consumer query => exact keeps rfl (tenant_findAll consumer query)
        | findOne consumer id => exact keeps rfl (tenant_findOne consumer id)
        | update consumer id dto => exact keeps rfl (tenant_update consumer id dto)
        | remove consumer id => exact keeps rfl (tenant_remove consumer id)
        | validate consumer id txHash => exact keeps rfl (tenant_validate consumer id txHash)
    | webhooks request =>
        cases request with
        | create consumer dto => exact keeps rfl (tenant_createEndpoint consumer dto)
        | findAll consumer => exact keeps rfl (tenant_findAllEndpoints consumer)
        | findOne consumer id => exact keeps rfl (tenant_findOneEndpoint consumer id)
        | update consumer id dto => exact keeps rfl (tenant_updateEndpoint consumer id dto)
        | remove consumer id => exact keeps rfl (tenant_removeEndpoint consumer id)
        | rotateSecret consumer id => exact keeps rfl (tenant_rotateSecret consumer id)
        | listDeliveries consumer id query =>
            exact keeps rfl (tenant_listDeliveries consumer id query)
        | redeliver consumer endpointId deliveryId =>
            exact keeps rfl (tenant_redeliver consumer endpointId deliveryId)
        | ping consumer id => exact keeps rfl (tenant_ping consumer id)
    | customers request =>
        cases request with
        | create consumer dto =>
            refine keeps rfl (tenant_call .nil rfl fun owner later _ _ upserted => ?_)
            exact tenant_insert (by simp) fun _ _ => ⟨_, owner, upserted, rfl⟩
        | findAll consumer => exact keeps rfl (tenant_findAllCustomers consumer _)
        | findOne consumer id =>
            exact keeps rfl (tenant_found (lookup_customer consumer id)
              (fun _ _ found => .single found.1) fun _ _ found => found.2)
        | update consumer id dto =>
            exact keeps rfl (tenant_updateFound (lookup_customer consumer id)
              fun _ _ found => found.1)
        | remove consumer id =>
            exact keeps rfl (tenant_deleteFound (lookup_customer consumer id)
              fun _ _ found => found.1)
    | products request =>
        cases request with
        | create consumer dto =>
            refine keeps rfl (tenant_call .nil rfl fun owner later _ _ upserted => ?_)
            exact tenant_insert (by simp) fun _ _ => ⟨_, owner, upserted, rfl⟩
        | findOne consumer id =>
            exact keeps rfl (tenant_found (lookup_product consumer id)
              (fun _ _ found => .single found.1) fun _ _ found => found.2)
        | update consumer id dto =>
            exact keeps rfl (tenant_updateFound (lookup_product consumer id)
              fun _ _ found => found.1)
        | remove consumer id =>
            exact keeps rfl (tenant_deleteFound (lookup_product consumer id)
              fun _ _ found => found.1)
    | analytics request =>
        cases request with
        | summary consumer =>
            exact keeps rfl (tenant_summary consumer _)
        | balances consumer => exact keeps rfl (tenant_balances consumer _)
        | webhookLogs consumer take => exact keeps rfl (tenant_webhookLogs consumer take)
    | tick node => exact free rfl
    | background task => exact free rfl

end Requests

end CosmosPay

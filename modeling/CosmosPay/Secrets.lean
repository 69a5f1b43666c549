import CosmosPay.Attempts
import CosmosPay.Comparison

/-!
# Secrets are not shown

Two stores that differ only in the signing secrets of endpoints cannot be told apart by
the requests that do not create an endpoint or rotate its secret: they load the secret, but
use it for the signature of a POST and for nothing else.
-/

namespace CosmosPay

open Awaiting Program Tables

/-! ## Stores up to secrets -/

/-- The endpoint with its secret left blank. -/
def WebhookEndpoint.conceal (endpoint : WebhookEndpoint) : WebhookEndpoint :=
  { endpoint with secret := "" }

/-- The contents differ in the secrets of endpoints and in nothing else. -/
structure Contents.SameButSecrets (contents contents' : Contents) : Prop where
  consumers : contents.consumers = contents'.consumers
  issued : contents.issued = contents'.issued
  tables : ∀ model, model ≠ .webhookEndpoint → contents.tables model = contents'.tables model
  endpoints : (contents.tables .webhookEndpoint).rows.map WebhookEndpoint.conceal =
    (contents'.tables .webhookEndpoint).rows.map WebhookEndpoint.conceal

def Store.SameButSecrets (store store' : Store) : Prop :=
  store.contents.SameButSecrets store'.contents

/-- The endpoints differ in their secrets at most. -/
def WebhookEndpoint.SameButSecret (endpoint endpoint' : WebhookEndpoint) : Prop :=
  endpoint.conceal = endpoint'.conceal

/-- Related answers, and stores that are the same but for secrets. -/
def AlikeAfter {α β : Type} (answers : α → β → Prop) (one : α × Store) (other : β × Store) :
    Prop :=
  answers one.1 other.1 ∧ one.2.SameButSecrets other.2

section Statements

variable {store store' : Store} {model : Model} {id : String}

/-- Statements that have related effects. -/
theorem agree_of_effect {α β : Type} {answers : α → β → Prop}
    {executed : Except ServiceError (α × Store)} {executed' : Except ServiceError (β × Store)}
    (agree : Agree (fun one other => answers one.1 other.1 ∧ one.2.SameButSecrets other.2)
      (Store.effect executed) (Store.effect executed')) :
    Agree (AlikeAfter answers) executed executed' := by
  cases executed <;> cases executed'
  · cases agree
    exact .error _
  · cases agree
  · cases agree
  · cases agree with
    | ok related => exact .ok related

variable (same : store.SameButSecrets store')

include same

theorem agree_upsertConsumer (username : String) (credentialId : Option String) :
    Agree (AlikeAfter Eq) (store.upsertConsumer username credentialId id)
      (store'.upsertConsumer username credentialId id) := by
  apply agree_of_effect
  have sameConsumers : store.consumers = store'.consumers := same.consumers
  have sameIssued : store.issued = store'.issued := same.issued
  rw [effect_upsertConsumer, effect_upsertConsumer, sameConsumers, sameIssued]
  split
  · split
    · exact .error _
    · exact .ok ⟨rfl, rfl, rfl, same.tables, same.endpoints⟩
  · split
    · exact .error _
    · exact .ok ⟨rfl, rfl, rfl, same.tables, same.endpoints⟩

/-- A patch of a row of another table. -/
theorem agree_update (isOther : model ≠ .webhookEndpoint) (patch : model.Patch) :
    Agree (AlikeAfter Eq) (store.update model id patch) (store'.update model id patch) := by
  apply agree_of_effect
  have sameTable : store.tables model = store'.tables model := same.tables model isOther
  rw [effect_update, effect_update, sameTable]
  split
  · exact .error _
  · split
    · exact .error _
    · exact .error _
    · refine .ok ⟨rfl, same.consumers, same.issued, fun other differ => ?_, ?_⟩
      · by_cases isModel : other = model
        · subst isModel
          simp
        · simpa [Store.contents, Function.update_of_ne isModel] using same.tables other differ
      · simpa [Store.contents, Function.update_of_ne isOther.symm] using same.endpoints

theorem agree_updateEndpoint (patch : WebhookEndpointPatch) :
    Agree (AlikeAfter WebhookEndpoint.SameButSecret)
      (store.update .webhookEndpoint id patch) (store'.update .webhookEndpoint id patch) := by
  apply agree_of_effect
  rw [effect_update, effect_update]
  have sameConsumers : store.consumers = store'.consumers := same.consumers
  have sameIssued : store.issued = store'.issued := same.issued
  have sameRows : (store.tables .webhookEndpoint).rows.map WebhookEndpoint.conceal =
      (store'.tables .webhookEndpoint).rows.map WebhookEndpoint.conceal := same.endpoints
  split
  · exact .error _
  · have agree : Agree (fun one other => WebhookEndpoint.conceal one.1 = other.1.conceal ∧
          one.2.rows.map WebhookEndpoint.conceal = other.2.rows.map WebhookEndpoint.conceal)
        ((store.tables .webhookEndpoint).update (Model.apply .webhookEndpoint patch) id)
        ((store'.tables .webhookEndpoint).update (Model.apply .webhookEndpoint patch) id) :=
      update_blur sameRows (fun _ => rfl) (fun _ => rfl) (Model.apply .webhookEndpoint patch)
        (fun _ => rfl) (fun _ => rfl) id
    generalize (store.tables .webhookEndpoint).update
      (Model.apply .webhookEndpoint patch) id = one at agree ⊢
    generalize (store'.tables .webhookEndpoint).update
      (Model.apply .webhookEndpoint patch) id = other at agree ⊢
    cases agree with
    | error refusal => cases refusal <;> exact .error _
    | ok related =>
        refine .ok ⟨related.1, same.consumers, same.issued, fun model differ => ?_, ?_⟩
        · simpa [Store.contents, Function.update_of_ne differ] using same.tables model differ
        · simpa using related.2

theorem agree_deleteEndpoint :
    Agree (AlikeAfter WebhookEndpoint.SameButSecret)
      (store.delete .webhookEndpoint id) (store'.delete .webhookEndpoint id) := by
  have sameRows : (store.tables .webhookEndpoint).rows.map WebhookEndpoint.conceal =
      (store'.tables .webhookEndpoint).rows.map WebhookEndpoint.conceal := same.endpoints
  have found : ((store.tables .webhookEndpoint).find? id).map WebhookEndpoint.conceal =
      ((store'.tables .webhookEndpoint).find? id).map WebhookEndpoint.conceal :=
    find?_blur sameRows fun _ => rfl
  have kept : ((store.tables .webhookEndpoint).restrict fun row =>
        Model.webhookEndpoint.indexes.key row ≠ id).rows.map WebhookEndpoint.conceal =
      ((store'.tables .webhookEndpoint).restrict fun row =>
        Model.webhookEndpoint.indexes.key row ≠ id).rows.map WebhookEndpoint.conceal :=
    filter_blur sameRows fun _ => rfl
  unfold Store.delete
  have related := rel_of_map_eq found
  generalize (store.tables .webhookEndpoint).find? id = one at related ⊢
  generalize (store'.tables .webhookEndpoint).find? id = other at related ⊢
  cases related with
  | none => exact .error _
  | some sameRow =>
      refine .ok ⟨sameRow, same.consumers, same.issued, fun model differ => ?_, ?_⟩
      · have sameTable : store.tables model = store'.tables model := same.tables model differ
        by_cases isDelivery : model = .webhookDelivery
        · subst isDelivery
          simp [Store.contents, Store.cascade, Store.restrict, Store.put, sameTable]
        · simpa [Store.contents, Store.cascade, Store.restrict, Store.put,
            Function.update_of_ne differ, Function.update_of_ne isDelivery] using sameTable
      · simpa [Store.contents, Store.cascade, Store.restrict, Store.put] using kept

omit same in
/-- A rotation changes a secret and nothing else. -/
theorem sameButSecrets_of_rotation {secret : String} {row : WebhookEndpoint}
    (rotated : store.update .webhookEndpoint id { secret := .value secret } = .ok (row, store')) :
    store.SameButSecrets store' := by
  let patch : WebhookEndpointPatch := { secret := .value secret }
  have effect : Store.effect (store.update .webhookEndpoint id patch) = _ := effect_update _
  rw [rotated] at effect
  have conceals : ∀ row, WebhookEndpoint.conceal
      (Model.webhookEndpoint.indexes.changeRow (Model.apply .webhookEndpoint patch) id row) =
        row.conceal := by
    intro row
    unfold Indexes.changeRow
    split <;> rfl
  split at effect
  · cases effect
  · split at effect
    · cases effect
    · cases effect
    · rename_i row' table updated
      obtain ⟨-, sameContents⟩ := Prod.mk.inj (Except.ok.inj effect)
      obtain ⟨-, -, -, rows, -⟩ := Table.update_eq_ok updated
      rw [Store.SameButSecrets, sameContents]
      refine ⟨rfl, rfl, fun model differ => ?_, ?_⟩
      · simp [Store.contents, Function.update_of_ne differ]
      · simp [Store.contents, rows, Function.comp_def, conceals]

end Statements

/-! ## Calls in lockstep -/

/-- The worlds differ in the secrets of endpoints and in nothing else. -/
structure World.SameButSecrets (world world' : World) : Prop where
  store : world.store.SameButSecrets world'.store
  rest : { world with store := world'.store } = world'

/-- A call that shows no endpoint. -/
def Call.Plain : Call → Prop
  | .query (.deliveryOf _ _) => True
  | .query (.deliveryPage _ _ _ _) => True
  | .query (.deliveriesAmong _ _) => True
  | .write (.upsertConsumer _ _) => True
  | .write (.update .webhookDelivery _ _) => True
  | .now => True
  | .randomUUID => True
  | .sleep _ => True
  | _ => False

/-- Calls whose answers differ in secrets at most.  The answer to a POST is up to its
receiver. -/
inductive Blurs : Links signature where
  | plain (call : Call) (isPlain : call.Plain) : Blurs call call Eq
  | endpointOwned (id username : String) :
      Blurs (.query (.endpointOwned id username)) (.query (.endpointOwned id username))
        fun one other => one.map WebhookEndpoint.conceal = other.map WebhookEndpoint.conceal
  | endpoint (id : String) :
      Blurs (.query (.endpoint id)) (.query (.endpoint id))
        fun one other => one.map WebhookEndpoint.conceal = other.map WebhookEndpoint.conceal
  | endpointsNamed (username : String) :
      Blurs (.query (.endpointsNamed username)) (.query (.endpointsNamed username))
        fun one other => one.map WebhookEndpoint.conceal = other.map WebhookEndpoint.conceal
  | endpointsOf (consumerId : String) :
      Blurs (.query (.endpointsOf consumerId)) (.query (.endpointsOf consumerId))
        fun one other => one.map WebhookEndpoint.conceal = other.map WebhookEndpoint.conceal
  | updateEndpoint (id : String) (patch : WebhookEndpointPatch) :
      Blurs (.write (.update .webhookEndpoint id patch))
        (.write (.update .webhookEndpoint id patch)) WebhookEndpoint.SameButSecret
  | deleteEndpoint (id : String) :
      Blurs (.write (.delete .webhookEndpoint id)) (.write (.delete .webhookEndpoint id))
        WebhookEndpoint.SameButSecret
  | post (request request' : WebhookPost) : Blurs (.post request) (.post request') Eq

section Lockstep

variable {world world' : World}

/-- The answers are related, and the worlds stay the same but for secrets. -/
def ServedAlike {call call' : Call} (answers : call.Answer → call'.Answer → Prop)
    (served : Served signature call World Request)
    (served' : Served signature call' World Request) : Prop :=
  Agree answers served.answer served'.answer ∧ served.state.SameButSecrets served'.state ∧
    served.spawned = served'.spawned

theorem rel_query (same : world.SameButSecrets world') {asked : Query}
    {answers : asked.Answer → asked.Answer → Prop} (choice : Choice)
    (alike : ∀ order, Option.Rel answers (asked.answer order world.store)
      (asked.answer order world'.store)) :
    Option.Rel (ServedAlike answers) (World.perform (.query asked) choice world)
      (World.perform (.query asked) choice world') := by
  have answered : Option.Rel (ServedAlike answers)
      ((asked.answer choice.order world.store).map fun answer =>
        (world.reply (.ok answer) : Served signature (.query asked) World Request))
      ((asked.answer choice.order world'.store).map fun answer =>
        (world'.reply (.ok answer) : Served signature (.query asked) World Request)) :=
    rel_map (alike choice.order) fun _ _ related => ⟨.ok related, same, rfl⟩
  cases choice with
  | reject => exact .some ⟨.error _, same, rfl⟩
  | _ => exact answered

/-- The world after a statement. -/
theorem World.SameButSecrets.put (same : world.SameButSecrets world') {store store' : Store}
    (alike : store.SameButSecrets store') :
    ({ world with store } : World).SameButSecrets { world' with store := store' } := by
  refine ⟨alike, ?_⟩
  rw [← same.rest]

theorem servedAlike_commit (same : world.SameButSecrets world') {statement : Write}
    {answers : statement.Answer → statement.Answer → Prop}
    {executed executed' : Except ServiceError (statement.Answer × Store)}
    (agree : Agree (AlikeAfter answers) executed executed') :
    ServedAlike answers (world.commit statement executed) (world'.commit statement executed') := by
  cases agree with
  | error err => exact ⟨.error err, same, rfl⟩
  | ok related => exact ⟨.ok related.1, same.put related.2, rfl⟩

theorem rel_write (same : world.SameButSecrets world') {statement : Write}
    {answers : statement.Answer → statement.Answer → Prop} (choice : Choice)
    (alike : ∀ id now, Agree (AlikeAfter answers) (statement.execute world.store id now)
      (statement.execute world'.store id now)) :
    Option.Rel (ServedAlike answers) (World.perform (.write statement) choice world)
      (World.perform (.write statement) choice world') := by
  have sameClock : world.clock = world'.clock := by
    rw [← same.rest]
  have sameIssued : world.store.issued = world'.store.issued := same.store.issued
  cases choice with
  | reject => exact .some ⟨.error _, same, rfl⟩
  | draw id =>
      simp only [World.perform, sameClock, sameIssued]
      split
      · exact .some (servedAlike_commit same (alike id _))
      · exact .none
  | serve =>
      simp only [World.perform, sameClock]
      split
      · exact .none
      · exact .some (servedAlike_commit same (alike "" _))
  | arrange order => exact .none
  | bytes drawn => exact .none
  | respond status => exact .none

theorem rel_plain (same : world.SameButSecrets world') {call : Call} (isPlain : call.Plain)
    (choice : Choice) :
    Option.Rel (ServedAlike Eq) (World.perform call choice world)
      (World.perform call choice world') := by
  have sameDeliveries : world.store.tables .webhookDelivery =
      world'.store.tables .webhookDelivery := same.store.tables _ (by simp)
  have sameClock : world.clock = world'.clock := by
    rw [← same.rest]
  cases call with
  | query asked =>
      refine rel_query same choice fun order => rel_of_eq ?_
      cases asked with
      | deliveryOf id endpointId => simp only [Query.answer, Store.find?, sameDeliveries]
      | deliveryPage endpointId status take skip => simp only [Query.answer, sameDeliveries]
      | deliveriesAmong endpointIds take => simp only [Query.answer, sameDeliveries]
      | _ => exact isPlain.elim
  | write statement =>
      cases statement with
      | upsertConsumer username credentialId =>
          exact rel_write same choice fun _ _ => agree_upsertConsumer same.store _ _
      | update model id patch =>
          cases model with
          | webhookDelivery =>
              exact rel_write same choice fun _ _ => agree_update same.store (by simp) patch
          | _ => exact isPlain.elim
      | _ => exact isPlain.elim
  | now =>
      cases choice with
      | serve => exact .some ⟨.ok sameClock, same, rfl⟩
      | _ => exact .none
  | randomUUID =>
      cases choice with
      | draw id => exact .some ⟨.ok rfl, same, rfl⟩
      | _ => exact .none
  | sleep milliseconds =>
      cases choice with
      | serve => exact .some ⟨.ok rfl, same, rfl⟩
      | _ => exact .none
  | _ => exact isPlain.elim

/-- Linked calls cannot tell the secrets apart. -/
theorem blurs_lockstep (deployment : Deployment) :
    Lockstep (service deployment) Blurs World.SameButSecrets := by
  intro call call' answers linked choice world world' same
  change Option.Rel (ServedAlike answers) (World.perform call choice world)
    (World.perform call' choice world')
  have sameConsumers : world.store.consumers = world'.store.consumers := same.store.consumers
  have sameRows : (world.store.tables .webhookEndpoint).rows.map WebhookEndpoint.conceal =
      (world'.store.tables .webhookEndpoint).rows.map WebhookEndpoint.conceal :=
    same.store.endpoints
  have sameOwner : world.store.belongsTo = world'.store.belongsTo := by
    funext consumerId username
    simp only [Store.belongsTo, sameConsumers]
  have sameFound : ∀ id, (world.store.find? .webhookEndpoint id).map WebhookEndpoint.conceal =
      (world'.store.find? .webhookEndpoint id).map WebhookEndpoint.conceal :=
    fun id => find?_blur sameRows fun _ => rfl
  cases linked with
  | plain _ isPlain => exact rel_plain same isPlain choice
  | endpointOwned id username =>
      refine rel_query same choice fun order => ?_
      simp only [Query.answer, sameOwner]
      exact .some (option_filter_blur (sameFound id) fun _ => rfl)
  | endpoint id => exact rel_query same choice fun order => .some (sameFound id)
  | endpointsNamed username =>
      refine rel_query same choice fun order => ?_
      simp only [Query.answer, sameOwner]
      exact rel_of_map_eq (arrangeBy?_blur (filter_blur sameRows fun _ => rfl) (fun _ => rfl)
        (fun _ => rfl) order)
  | endpointsOf consumerId =>
      refine rel_query same choice fun order => ?_
      exact rel_of_map_eq (arrange?_blur (filter_blur sameRows fun _ => rfl) (fun _ => rfl) order)
  | updateEndpoint id patch =>
      exact rel_write same choice fun _ _ => agree_updateEndpoint same.store patch
  | deleteEndpoint id => exact rel_write same choice fun _ _ => agree_deleteEndpoint same.store
  | post request request' =>
      cases choice with
      | reject => exact .some ⟨.error _, same, rfl⟩
      | respond status => exact .some ⟨.ok rfl, same, rfl⟩
      | _ => exact .none

end Lockstep

/-! ## The requests -/

section Requests

variable {deployment : Deployment} {endpoint endpoint' : WebhookEndpoint}

@[simp]
theorem strip_conceal (endpoint : WebhookEndpoint) :
    Webhooks.strip endpoint.conceal = Webhooks.strip endpoint :=
  rfl

theorem strip_eq (same : endpoint.SameButSecret endpoint') :
    Webhooks.strip endpoint = Webhooks.strip endpoint' := by
  have concealed : endpoint.conceal = endpoint'.conceal := same
  rw [← strip_conceal endpoint, concealed, strip_conceal]

/-- A plain call is answered the same, and what follows goes on the same. -/
theorem paired_plain {α β : Type} {results : α → β → Prop} {call : Call}
    {next : call.Answer → Promise α} {next' : call.Answer → Promise β} (isPlain : call.Plain)
    (continues : ∀ answer, (next answer).Paired Blurs results (next' answer)) :
    (Promise.call call >>= next).Paired Blurs results (Promise.call call >>= next') := by
  refine paired_call_bind (.plain call isPlain) fun answer answer' same => ?_
  subst same
  exact continues answer

theorem paired_getOwned (consumer : GatewayConsumer) (id : String) :
    (Webhooks.getOwned consumer id).Paired Blurs WebhookEndpoint.SameButSecret
      (Webhooks.getOwned consumer id) := by
  refine paired_call_bind (.endpointOwned id consumer.username) fun found found' related => ?_
  cases found <;> cases found'
  · exact paired_throw _
  · cases related
  · cases related
  · exact paired_pure (Option.some.inj related)

theorem paired_finalize (id : String) (status : WebhookDeliveryStatus) (attempts : Nat)
    (responseStatus : Option Nat) (error : Option String) :
    (WebhookDispatcher.finalize id status attempts responseStatus error).Paired Blurs Eq
      (WebhookDispatcher.finalize id status attempts responseStatus error) := by
  refine paired_plain (by trivial) fun lastAttemptAt => ?_
  exact paired_call (Blurs.plain (.write (.update .webhookDelivery id _)) trivial)

/-- The secret signs the POSTs, and the answers to them do not depend on it. -/
theorem paired_attemptLoop (delivery : WebhookDelivery) (body : String)
    (remaining i attempts : Nat) (lastError : Option String) (responseStatus : Option Nat) :
    (WebhookDispatcher.attemptLoop deployment endpoint delivery body remaining i attempts
        lastError responseStatus).Paired Blurs Eq
      (WebhookDispatcher.attemptLoop deployment endpoint' delivery body remaining i attempts
        lastError responseStatus) := by
  induction remaining generalizing i attempts lastError responseStatus with
  | zero => exact paired_finalize _ _ _ _ _
  | succ remaining ih =>
      have again : ∀ lastError responseStatus,
          (do WebhookDispatcher.backoff deployment remaining i
              WebhookDispatcher.attemptLoop deployment endpoint delivery body remaining (i + 1)
                (attempts + 1) lastError responseStatus).Paired Blurs Eq
            (do WebhookDispatcher.backoff deployment remaining i
                WebhookDispatcher.attemptLoop deployment endpoint' delivery body remaining
                  (i + 1) (attempts + 1) lastError responseStatus) := by
        intro lastError responseStatus
        unfold WebhookDispatcher.backoff
        split
        · exact paired_plain (by trivial) fun _ => ih _ _ _ _
        · exact ih _ _ _ _
      refine paired_plain (by trivial) fun now => ?_
      have posts : (tryCatch (.ok <$> Promise.call (.post (WebhookDispatcher.deliveryPost
              deployment endpoint delivery body (now / 1000))))
            fun err => pure (Except.error err.message) : Promise (Except String Nat)).Paired
          Blurs Eq
          (tryCatch (.ok <$> Promise.call (.post (WebhookDispatcher.deliveryPost
              deployment endpoint' delivery body (now / 1000))))
            fun err => pure (Except.error err.message)) :=
        ((paired_call (.post _ _)).map fun _ _ same => by rw [same]).tryCatch
          fun err => paired_pure rfl
      refine posts.bind fun posted posted' samePosted => ?_
      subst samePosted
      cases posted with
      | ok status =>
          simp only
          split
          · exact paired_finalize _ _ _ _ _
          · exact again _ _
      | error message => exact again _ _

theorem paired_redeliver (consumer : GatewayConsumer) (endpointId deliveryId : String) :
    (Webhooks.redeliver deployment consumer endpointId deliveryId).Paired Blurs Eq
      (Webhooks.redeliver deployment consumer endpointId deliveryId) := by
  refine (paired_getOwned consumer endpointId).bind fun _ _ _ => ?_
  refine paired_plain (by trivial) fun found => ?_
  cases found with
  | none => exact paired_throw _
  | some delivery =>
      refine paired_call_bind (.endpoint delivery.endpointId) fun found found' related => ?_
      cases found <;> cases found'
      · exact paired_throw _
      · cases related
      · cases related
      · exact paired_attemptLoop _ _ _ _ _ _ _

theorem paired_ping (consumer : GatewayConsumer) (id : String) :
    (Webhooks.ping deployment consumer id).Paired Blurs Eq
      (Webhooks.ping deployment consumer id) := by
  refine (paired_getOwned consumer id).bind fun endpoint endpoint' _ => ?_
  refine paired_plain (by trivial) fun uuid => paired_plain (by trivial) fun createdAt => ?_
  refine paired_plain (by trivial) fun now => ?_
  refine Paired.tryCatch ?_ fun err => paired_pure rfl
  exact paired_call_bind (.post _ _) fun _ _ same => paired_pure (by rw [same])

/-- A log names the address of an endpoint, and nothing else of it. -/
theorem webhookLog_eq {endpoints endpoints' : List WebhookEndpoint}
    (same : endpoints.map WebhookEndpoint.conceal = endpoints'.map WebhookEndpoint.conceal) :
    Analytics.webhookLog endpoints = Analytics.webhookLog endpoints' := by
  funext delivery
  have found : (endpoints.find? fun endpoint => endpoint.id = delivery.endpointId).map
        WebhookEndpoint.url =
      (endpoints'.find? fun endpoint => endpoint.id = delivery.endpointId).map
        WebhookEndpoint.url := by
    have concealed : (endpoints.find? fun endpoint => endpoint.id = delivery.endpointId).map
          WebhookEndpoint.conceal =
        (endpoints'.find? fun endpoint => endpoint.id = delivery.endpointId).map
          WebhookEndpoint.conceal :=
      find?_blur same fun _ => rfl
    have urls := congrArg (Option.map WebhookEndpoint.url) concealed
    simpa [Option.map_map, Function.comp_def, WebhookEndpoint.conceal] using urls
  simp only [Analytics.webhookLog, found]

theorem paired_webhookLogs (consumer : GatewayConsumer) (take : Nat) :
    (Analytics.webhookLogs consumer take).Paired Blurs Eq
      (Analytics.webhookLogs consumer take) := by
  have resolves : (Analytics.resolveConsumerId consumer).Paired Blurs Eq
      (Analytics.resolveConsumerId consumer) :=
    paired_plain (by trivial) fun owner => paired_pure rfl
  refine resolves.bind fun consumerId _ same => ?_
  subst same
  refine paired_call_bind (.endpointsOf consumerId) fun endpoints endpoints' related => ?_
  have sameIds : endpoints.map WebhookEndpoint.id = endpoints'.map WebhookEndpoint.id := by
    have concealed := congrArg (List.map WebhookEndpoint.id) related
    simpa [Function.comp_def, WebhookEndpoint.conceal] using concealed
  have sameEmpty : endpoints.isEmpty = endpoints'.isEmpty := by
    have lengths := congrArg List.isEmpty sameIds
    simpa using lengths
  rw [sameEmpty, sameIds, webhookLog_eq related]
  split
  · exact paired_pure rfl
  · exact paired_plain (by trivial) fun _ => paired_pure rfl

/-- Requests that neither create an endpoint nor rotate its secret. -/
def Request.hidesSecrets : Request → Bool
  | .webhooks (.create _ _) => false
  | .webhooks (.rotateSecret _ _) => false
  | .webhooks _ => true
  | .analytics (.webhookLogs _ _) => true
  | _ => false

theorem paired_body {request : Request} (hides : request.hidesSecrets = true) :
    (request.body deployment).Paired Blurs Eq (request.body deployment) := by
  -- a reply wraps what the service returns
  have wraps : ∀ {α : Type} {program : Promise α} (reply : α → Reply),
      program.Paired Blurs Eq program →
      (reply <$> program).Paired Blurs Eq (reply <$> program) :=
    fun reply paired => paired.map fun _ _ same => by rw [same]
  cases request with
  | webhooks request =>
      cases request with
      | create consumer dto => cases hides
      | rotateSecret consumer id => cases hides
      | findAll consumer =>
          refine wraps .safeEndpoints ?_
          refine paired_call_bind (.endpointsNamed consumer.username) fun rows rows' related => ?_
          have stripped := congrArg (List.map Webhooks.strip) related
          refine paired_pure ?_
          simpa [Function.comp_def] using stripped
      | findOne consumer id =>
          refine wraps .safeEndpoint ?_
          exact (paired_getOwned consumer id).bind fun _ _ same => paired_pure (strip_eq same)
      | update consumer id dto =>
          refine wraps .safeEndpoint ?_
          refine (paired_getOwned consumer id).bind fun _ _ _ => ?_
          exact paired_call_bind (.updateEndpoint id _) fun _ _ same =>
            paired_pure (strip_eq same)
      | remove consumer id =>
          refine wraps .deleted ?_
          refine (paired_getOwned consumer id).bind fun _ _ _ => ?_
          exact paired_call_bind (.deleteEndpoint id) fun _ _ _ => paired_pure rfl
      | listDeliveries consumer id query =>
          refine wraps .deliveries ?_
          refine (paired_getOwned consumer id).bind fun _ _ _ => ?_
          exact paired_plain (by trivial) fun _ => paired_pure rfl
      | redeliver consumer endpointId deliveryId =>
          exact wraps .delivery (paired_redeliver consumer endpointId deliveryId)
      | ping consumer id => exact wraps .ping (paired_ping consumer id)
  | analytics request =>
      cases request with
      | summary consumer => cases hides
      | balances consumer => cases hides
      | webhookLogs consumer take => exact wraps .webhookLogs (paired_webhookLogs consumer take)
  | _ => cases hides

/-- Time passes for both worlds, and transactions land in both. -/
theorem move_alike (move : World.Move) {world world' : World}
    (same : world.SameButSecrets world') :
    Option.Rel World.SameButSecrets (World.move move world) (World.move move world') := by
  obtain ⟨alike, rest⟩ := same
  obtain ⟨store', ledger, accounts, clock, running⟩ := world'
  obtain ⟨-, rfl, rfl, rfl, rfl⟩ := World.mk.inj rest
  cases move with
  | pass milliseconds => exact .some ⟨alike, rfl⟩
  | land tx =>
      simp only [World.move]
      split
      · exact rel_map (rel_of_eq rfl) fun _ _ sameLedger => ⟨alike, by rw [sameLedger]⟩
      · exact .none
  | fund network account => exact .some ⟨alike, rfl⟩

/-- In worlds that differ only in the secrets of endpoints, every sequence of requests that
neither create endpoints nor rotate secrets returns the same, given the same ids and answers
of the receivers.  It leaves worlds that again differ only in secrets. -/
theorem secrets_hidden {errands : List (Errand (service deployment))}
    (hides : ∀ request, .serve request ∈ errands → Request.hidesSecrets request = true)
    {world world' : World} (same : world.SameButSecrets world') (choices : List Choice) :
    Option.Rel (fun served served' => served.outcomes = served'.outcomes ∧
        World.SameButSecrets served.state served'.state ∧ served.spawned = served'.spawned)
      ((service deployment).serveAll errands choices world)
      ((service deployment).serveAll errands choices world') :=
  serveAll_alike (blurs_lockstep deployment) (fun move _ _ same => move_alike move same) errands
    (fun request member => paired_body (hides request member)) choices same

/-- A consumer lists, tests and disables its endpoint, and reads its logs. -/
def Sample.upkeep : List (Errand (service Sample.deployment)) :=
  [.serve (.webhooks (.findAll (caller "alice"))),
    .serve (.webhooks (.ping (caller "alice") "ep")),
    .serve (.webhooks (.update (caller "alice") "ep"
      ⟨.undefined, .undefined, .value false, .undefined⟩)),
    .serve (.analytics (.webhookLogs (caller "alice") 100))]

def Sample.upkeepChoices : List Choice :=
  [.arrange ["ep"], .serve, .draw "u", .serve, .serve, .respond 200, .serve, .serve, .draw "x",
    .arrange ["ep"], .arrange []]

/-- An endpoint of a consumer. -/
def Sample.registered : World :=
  (after (fun _ _ => true) (register 0 "alice" "c" "ep") start).state

theorem secrets_hidden_of_rotation :
    ∃ store, ((Sample.registered.store.find? .webhookEndpoint "ep").map WebhookEndpoint.secret ≠
        (store.find? .webhookEndpoint "ep").map WebhookEndpoint.secret) ∧
      Option.Rel (fun served served' => served.outcomes = served'.outcomes ∧
          World.SameButSecrets served.state served'.state ∧ served.spawned = served'.spawned)
        ((service Sample.deployment).serveAll Sample.upkeep Sample.upkeepChoices
          Sample.registered)
        ((service Sample.deployment).serveAll Sample.upkeep Sample.upkeepChoices
          { Sample.registered with store }) ∧
      ((service Sample.deployment).serveAll Sample.upkeep Sample.upkeepChoices
        Sample.registered).isSome = true := by
  have rotates : ((Sample.registered.store.update .webhookEndpoint "ep"
      { secret := .value "rotated" }).toOption.map fun result =>
        (result.2.find? .webhookEndpoint "ep").map WebhookEndpoint.secret) =
          some (some "rotated") := by
    decide +kernel
  obtain ⟨⟨row, store⟩, isUpdated, isRotated⟩ := Option.map_eq_some_iff.mp rotates
  have rotated : Sample.registered.store.update .webhookEndpoint "ep"
      { secret := .value "rotated" } = .ok (row, store) := by
    cases updated : Sample.registered.store.update .webhookEndpoint "ep"
        { secret := .value "rotated" } with
    | error err => simp [updated, Except.toOption] at isUpdated
    | ok result =>
        rw [updated] at isUpdated
        rw [Option.some.inj isUpdated]
  refine ⟨store, ?_, ?_, by decide +kernel⟩
  · rw [isRotated]
    decide +kernel
  · refine secrets_hidden (fun request member => ?_)
      ⟨sameButSecrets_of_rotation rotated, rfl⟩ Sample.upkeepChoices
    simp only [Sample.upkeep, List.mem_cons, List.not_mem_nil, or_false] at member
    rcases member with isServed | isServed | isServed | isServed <;> cases isServed <;> rfl

end Requests

end CosmosPay

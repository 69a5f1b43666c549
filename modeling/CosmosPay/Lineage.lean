import CosmosPay.Contracts.Receivers
import CosmosPay.Idempotence
import CosmosPay.Origins
import CosmosPay.Subscribers

/-!
# From a webhook back to its event

Nobody but a client or the timer issues a request.  A delivery is then sent for an event that
was emitted, to an endpoint that subscribed to it, and that endpoint belongs to the consumer
whose intent the event is about.
-/

namespace CosmosPay

open Awaiting Tables

section Lineage

variable {deployment : Deployment} {config config' : Config (service deployment)} {state : World}

/-- Only clients and the timer issue requests. -/
abbrev IssuedRun : Config (service deployment) → Config (service deployment) → Prop :=
  Run fun _ label => issues Request.isForeground label = true

/-! ## What a detached task was started for -/

/-- The request was issued, or a call has started it. -/
def Warranted (trace : List (Entry signature)) (request : Request) : Prop :=
  request.isForeground = true ∨ ∃ entry ∈ trace, request ∈ entry.performed.call.spawns

omit deployment config config' state in
theorem Warranted.mono {trace trace' : List (Entry signature)} {request : Request}
    (warranted : Warranted trace request) (grows : trace ⊆ trace') : Warranted trace' request := by
  rcases warranted with foreground | ⟨entry, member, spawns⟩
  · exact .inl foreground
  · exact .inr ⟨entry, grows member, spawns⟩

/-- Nothing is served that was neither issued nor started by a call. -/
theorem warranted_of_run (run : IssuedRun (.initial state) config) {index : Nat}
    {thread : Thread (service deployment)} (lookup : config.threads[index]? = some thread) :
    Warranted config.trace thread.request := by
  revert index thread
  refine run.keeps (I := fun config : Config (service deployment) =>
    ∀ {index : Nat} {thread : Thread (service deployment)},
      config.threads[index]? = some thread → Warranted config.trace thread.request) ?_ ?_
  · intro index thread lookup
    simp [Config.initial] at lookup
  · intro config config' _ ih step index thread lookup
    have grows := step_trace step
    cases step with
    | issue request allowed =>
        rcases Config.threads_issue lookup with old | ⟨-, rfl⟩
        · exact ih old
        · exact .inl allowed
    | resume resumed choice allowed paused performed =>
        have bound := (List.getElem?_eq_some_iff.mp paused).1
        rcases Config.threads_advance bound lookup with
          ⟨-, rfl⟩ | ⟨-, old⟩ | ⟨-, started, isSpawned, rfl⟩
        · exact (ih paused).mono grows
        · exact (ih old).mono grows
        · rw [World.perform_spawns performed] at isSpawned
          exact .inr ⟨_, List.mem_cons_self, isSpawned⟩
    | move _ _ _ => exact ih lookup

/-- The event was handed over to be delivered. -/
def Emitted (trace : List (Entry signature)) (payload : WebhookEventPayload) : Prop :=
  ∃ thread answer, ⟨thread, .emit payload, answer⟩ ∈ trace

theorem emitted_of_handling (run : IssuedRun (.initial state) config) {index : Nat}
    {payload : WebhookEventPayload} {code : Promise Reply}
    (lookup : config.threads[index]? = some ⟨.background (.handleEvent payload), code⟩) :
    Emitted config.trace payload := by
  rcases warranted_of_run run lookup with foreground | ⟨⟨owner, call, answer⟩, member, spawns⟩
  · cases foreground
  · cases call with
    | emit sent =>
        obtain rfl := BackgroundTask.handleEvent.inj
          (Request.background.inj (List.mem_singleton.mp spawns))
        exact ⟨owner, answer, member⟩
    | start task =>
        obtain ⟨before, after, choice, request, reached, resumes, -, -⟩ :=
          exists_resumes_of_mem run member
        obtain ⟨resume, paused, -⟩ := resumes.paused
        have reports : (Call.start task).Reports := reached.permitted handings_fulfilled paused
        obtain rfl := Request.background.inj (List.mem_singleton.mp spawns)
        exact reports.elim
    | _ => cases spawns

/-- The event was emitted, and the endpoint was among its subscribers when they were listed. -/
structure Occasioned (state : World) (config : Config (service deployment))
    (payload : WebhookEventPayload) (subscriber : WebhookEndpoint) : Prop where
  emitted : Emitted config.trace payload
  subscribed : ∃ moment : Config (service deployment), IssuedRun (.initial state) moment ∧
    IssuedRun moment config ∧ Subscribes moment.state.store payload subscriber

theorem Occasioned.later {payload : WebhookEventPayload} {subscriber : WebhookEndpoint}
    (occasioned : Occasioned state config payload subscriber) (run : IssuedRun config config') :
    Occasioned state config' payload subscriber := by
  obtain ⟨⟨thread, answer, member⟩, moment, reached, passed, subscribes⟩ := occasioned
  exact ⟨⟨thread, answer, trace_subset run member⟩, moment, reached, passed.trans run,
    subscribes⟩

/-- What the handling of an event was shown were the subscribers of that moment. -/
theorem subscribes_of_listing (run : IssuedRun (.initial state) config) {index : Nat}
    {payload : WebhookEventPayload} {code : Promise Reply}
    (lookup : config.threads[index]? = some ⟨.background (.handleEvent payload), code⟩)
    {rows : List WebhookEndpoint} (shown : listing (config.past index) = some rows)
    {endpoint : WebhookEndpoint} (isTarget : endpoint ∈ targetsOf payload rows) :
    Occasioned state config payload endpoint := by
  refine ⟨emitted_of_handling run lookup, ?_⟩
  obtain ⟨performed, member, lists⟩ := List.exists_of_findSome?_eq_some shown
  obtain ⟨before, after, choice, reached, resumes, later⟩ :=
    exists_resumes_of_past run lookup member
  obtain ⟨resume, paused, -⟩ := resumes.paused
  have permitted : permitsHandling payload (before.past index) performed.call :=
    reached.permitted fanOuts_fulfilled paused
  obtain ⟨call, answer⟩ := performed
  cases call with
  | query asked =>
      obtain ⟨rfl, -⟩ := permitted
      cases answer with
      | error err => cases lists
      | ok listed =>
          obtain rfl := Option.some.inj lists
          obtain ⟨-, order, answered⟩ := resumes.performs.of_query
          exact ⟨before, reached, .head resumes.step later,
            ((targets_of_answer answered).1 endpoint).mp isTarget⟩
  | _ => cases lists

/-- A task is started for a subscriber of an emitted event. -/
theorem occasioned_of_task (run : IssuedRun (.initial state) config) {index : Nat}
    {endpoint : WebhookEndpoint} {eventType : WebhookEventType} {eventId : String}
    {data : PaymentIntent} {code : Promise Reply}
    (lookup : config.threads[index]? =
      some ⟨.background (.createAndDeliver endpoint eventType eventId data), code⟩) :
    ∃ payload, Occasioned state config payload endpoint ∧ eventType = payload.type ∧
      data = payload.data := by
  rcases warranted_of_run run lookup with foreground | ⟨⟨owner, call, answer⟩, member, spawns⟩
  · cases foreground
  · cases call with
    | emit sent => cases Request.background.inj (List.mem_singleton.mp spawns)
    | start task =>
        obtain rfl := Request.background.inj (List.mem_singleton.mp spawns)
        obtain ⟨before, after, choice, request, reached, resumes, later, -⟩ :=
          exists_resumes_of_mem run member
        obtain ⟨resume, paused, -⟩ := resumes.paused
        have guarded : permitsDelivery deployment request (before.past owner)
            (.start (.createAndDeliver endpoint eventType eventId data)) :=
          reached.permitted deliveries_fulfilled paused
        obtain ⟨payload, -, rfl, -, -⟩ := guarded.2
        have permitted : permitsHandling payload (before.past owner)
            (.start (.createAndDeliver endpoint eventType eventId data)) :=
          reached.permitted fanOuts_fulfilled paused
        obtain ⟨rows, rest, shown, split⟩ := permitted
        have among : .createAndDeliver endpoint eventType eventId data ∈
            tasksOf payload (drawnUuid (before.past owner)) (targetsOf payload rows) := by
          rw [split]
          exact List.mem_append_right _ List.mem_cons_self
        obtain ⟨target, isTarget, isTask⟩ := List.mem_map.mp among
        obtain ⟨rfl, rfl, -, rfl⟩ := BackgroundTask.createAndDeliver.inj isTask
        exact ⟨payload, (subscribes_of_listing reached paused shown isTarget).later
          (.head resumes.step later), rfl, rfl⟩
    | _ => cases spawns

/-- A delivery is inserted for a subscriber of an emitted event. -/
theorem occasioned_of_inserted (run : IssuedRun (.initial state) config)
    {origin : WebhookDelivery} (inserted : InsertedAs config.trace .webhookDelivery origin) :
    ∃ payload subscriber, Occasioned state config payload subscriber ∧
      origin.endpointId = subscriber.id ∧ origin.eventType = payload.type ∧
      origin.payload.data = payload.data := by
  obtain ⟨thread, new, member⟩ := inserted
  obtain ⟨before, after, choice, request, reached, resumes, later, -⟩ :=
    exists_resumes_of_mem run member
  obtain ⟨resume, paused, -⟩ := resumes.paused
  have permitted : permitsLoop request (before.past thread)
      (.write (.create .webhookDelivery new)) := reached.permitted loops_fulfilled paused
  obtain ⟨endpoint, eventType, eventId, data, createdAt, rfl, rfl⟩ := permitted
  obtain ⟨payload, occasioned, rfl, rfl⟩ := occasioned_of_task reached paused
  obtain ⟨drawn, -, rfl, -⟩ := resumes.performs.of_create
  exact ⟨payload, endpoint, occasioned.later (.head resumes.step later), rfl, rfl, rfl⟩

/-! ## Who receives it -/

/-- The endpoint was stored so at some moment. -/
def WasStored (state : World) (config : Config (service deployment))
    (endpoint : WebhookEndpoint) : Prop :=
  ∃ moment : Config (service deployment), IssuedRun (.initial state) moment ∧
    IssuedRun moment config ∧
    moment.state.store.find? .webhookEndpoint endpoint.id = some endpoint

theorem WasStored.later {endpoint : WebhookEndpoint}
    (stored : WasStored state config endpoint) (run : IssuedRun config config') :
    WasStored state config' endpoint := by
  obtain ⟨moment, reached, passed, found⟩ := stored
  exact ⟨moment, reached, passed.trans run, found⟩

theorem wasStored_of_receiver (run : IssuedRun (.initial state) config) {index : Nat}
    {request : Request} {code : Promise Reply}
    (lookup : config.threads[index]? = some ⟨request, code⟩) {endpoint : WebhookEndpoint}
    (isReceiver : receiver request (config.past index) = some endpoint) :
    WasStored state config endpoint := by
  unfold receiver at isReceiver
  split at isReceiver
  · obtain rfl := Option.some.inj isReceiver
    obtain ⟨payload, occasioned, -, -⟩ := occasioned_of_task run lookup
    obtain ⟨moment, reached, passed, subscribes⟩ := occasioned.subscribed
    exact ⟨moment, reached, passed, subscribes.stored⟩
  · obtain ⟨⟨call, answer⟩, member, finds⟩ := List.exists_of_findSome?_eq_some isReceiver
    obtain ⟨before, after, choice, reached, resumes, later⟩ :=
      exists_resumes_of_past run lookup member
    cases answer with
    | error err => cases finds
    | ok shown =>
        simp only [CosmosPay.finds, Call.finds] at finds
        split at finds
        · obtain ⟨-, order, answered⟩ := resumes.performs.of_query
          have found := Option.some.inj answered
          rw [finds] at found
          have isKey : endpoint.id = _ := Table.key_of_find? found
          exact ⟨before, reached, .head resumes.step later, isKey ▸ found⟩
        · cases finds
  · cases isReceiver

/-- What the updates of an endpoint leave alone. -/
def WebhookEndpoint.identity (row : WebhookEndpoint) : String × String :=
  (row.id, row.consumerId)

/-- Two rows that an endpoint has had belong to one consumer. -/
theorem consumerId_of_wasStored (start : state.store = .empty)
    (run : IssuedRun (.initial state) config) {endpoint endpoint' : WebhookEndpoint}
    (stored : WasStored state config endpoint) (stored' : WasStored state config endpoint')
    (same : endpoint.id = endpoint'.id) : endpoint.consumerId = endpoint'.consumerId := by
  have origin : ∀ {row : WebhookEndpoint}, WasStored state config row →
      @Originates .webhookEndpoint _ config.trace WebhookEndpoint.identity row := by
    rintro row ⟨moment, reached, passed, found⟩
    have originates : @Originates .webhookEndpoint _ moment.trace WebhookEndpoint.identity row :=
      originates_of_run (fun _ _ => rfl) start reached found
    exact originates.mono (trace_subset passed)
  obtain ⟨one, inserted, isOne⟩ := origin stored
  obtain ⟨other, inserted', isOther⟩ := origin stored'
  obtain ⟨oneId, oneOwner⟩ := Prod.mk.inj isOne
  obtain ⟨otherId, otherOwner⟩ := Prod.mk.inj isOther
  have once : DrawnOnce .webhookEndpoint config := drawnOnce_of_run run
  obtain rfl := once.unique one other inserted inserted' (oneId.trans (same.trans otherId.symm))
  exact oneOwner.symm.trans otherOwner

/-! ## The whole way -/

/-- The POST carries a delivery that was inserted for an emitted event, and goes to the
endpoint of that delivery, which had subscribed to the event and whose owner is the owner of
the intent. -/
structure Traced (state : World) (config : Config (service deployment)) (post : WebhookPost)
    (origin : WebhookDelivery) (payload : WebhookEventPayload) (endpoint : WebhookEndpoint) :
    Prop where
  conveys : Conveys deployment origin post
  inserted : InsertedAs config.trace .webhookDelivery origin
  eventType : origin.eventType = payload.type
  data : origin.payload.data = payload.data
  url : post.url = endpoint.url
  signed : ∃ timestamp, post.signature =
    WebhookDispatcher.buildSignatureHeader deployment endpoint.secret post.body timestamp
  stored : WasStored state config endpoint
  receiver : origin.endpointId = endpoint.id
  occasioned : ∃ subscriber, Occasioned state config payload subscriber ∧
    subscriber.id = endpoint.id
  owner : endpoint.consumerId = payload.data.consumerId

/-- Every webhook that leaves the service, by a task or by a redelivery, traces back to an
event about an intent of the endpoint's owner. -/
theorem posts_traced (start : state.store = .empty) (run : IssuedRun (.initial state) config)
    {thread : Nat} {post : WebhookPost} {answer : Except ServiceError Nat}
    (made : ⟨thread, .post post, answer⟩ ∈ config.trace) (isDelivery : post.delivery ≠ none) :
    ∃ origin payload endpoint, Traced state config post origin payload endpoint := by
  obtain ⟨before, after, choice, request, reached, resumes, later, -⟩ :=
    exists_resumes_of_mem run made
  have rest : IssuedRun before config := .head resumes.step later
  obtain ⟨resume, paused, -⟩ := resumes.paused
  obtain ⟨endpoint, row, origin, timestamp, dispatched⟩ :=
    dispatched_of_post start reached paused isDelivery
  have permitted : permitsReceiver request (before.past thread) (.post post) :=
    reached.permitted receivers_fulfilled paused
  obtain ⟨receiver, delivery, isReceiver, isLoaded, matched⟩ := permitted.resolve_left isDelivery
  obtain rfl := Option.some.inj (isReceiver.symm.trans dispatched.receiver)
  obtain rfl := Option.some.inj (isLoaded.symm.trans dispatched.loaded)
  have inserted := dispatched.inserted.mono (trace_subset rest)
  have stored := (wasStored_of_receiver reached paused isReceiver).later rest
  obtain ⟨payload, subscriber, occasioned, isSubscriber, isType, isData⟩ :=
    occasioned_of_inserted run inserted
  have addressee : origin.endpointId = receiver.id :=
    (congrArg DeliveredEvent.endpointId dispatched.event).trans matched
  have sameEndpoint : subscriber.id = receiver.id := isSubscriber.symm.trans addressee
  obtain ⟨moment, passed, onward, subscribes⟩ := occasioned.subscribed
  have owned := (belongsTo_stable _ _).run onward subscribes.owned
  obtain ⟨emitter, result, emitted⟩ := occasioned.emitted
  have owner : receiver.consumerId = payload.data.consumerId := calc
    receiver.consumerId = subscriber.consumerId :=
      consumerId_of_wasStored start run stored ⟨moment, passed, onward, subscribes.stored⟩
        sameEndpoint.symm
    _ = payload.data.consumerId :=
      Store.consumer_unique owned (belongsTo_of_emitted start run emitted)
  exact ⟨origin, payload, receiver, {
    conveys := dispatched.conveys
    inserted := inserted
    eventType := isType
    data := isData
    url := dispatched.isPost ▸ rfl
    signed := ⟨timestamp, dispatched.isPost ▸ rfl⟩
    stored := stored
    receiver := addressee
    occasioned := ⟨subscriber, occasioned, sameEndpoint⟩
    owner := owner }⟩

end Lineage

/-- The POST of a redelivery goes back to the event of the intent. -/
theorem posts_traced_of_redelivered : ∃ post origin payload endpoint,
    post.delivery = some "d" ∧
      Traced Sample.world redelivered post origin payload endpoint := by
  obtain ⟨post, answer, made, isDelivery⟩ : ∃ post answer,
      ⟨4, .post post, answer⟩ ∈ redelivered.trace ∧ post.delivery = some "d" :=
    exists_post_of_any (by decide +kernel)
  have run : IssuedRun Sample.start redelivered := run_after (fun _ _ checked => checked) _ _
  obtain ⟨origin, payload, endpoint, traced⟩ := posts_traced rfl run made (isDelivery ▸ nofun)
  exact ⟨post, origin, payload, endpoint, isDelivery, traced⟩

end CosmosPay

import CosmosPay.Attempts
import CosmosPay.Contracts.FanOut

/-!
# Who is told of an event

The tasks of an event run side by side.  Each endpoint that is to be told of the event has
one of them, no other endpoint has, and none of them touches an endpoint.
-/

namespace CosmosPay

open Awaiting Tables Program WebhookDispatcher

section FanOut

variable {deployment : Deployment} {payload : WebhookEventPayload}
variable {config config' : Config (service deployment)} {state : World}

/-- The event is the only request that is made. -/
def onlyEvent (payload : WebhookEventPayload) (config : Config (service deployment)) :
    Label (service deployment) → Prop
  | .issue request => config.threads = [] ∧ request = .background (.handleEvent payload)
  | _ => True

abbrev EventRun (payload : WebhookEventPayload) :
    Config (service deployment) → Config (service deployment) → Prop :=
  Run (onlyEvent payload)

/-! ## The tasks -/

/-- The requests that are served, in the order in which they came. -/
def requestsOf (config : Config (service deployment)) : List Request :=
  config.threads.map Thread.request

theorem getElem?_requestsOf {index : Nat} {thread : Thread (service deployment)}
    (lookup : config.threads[index]? = some thread) :
    (requestsOf config)[index]? = some thread.request :=
  List.getElem?_map.trans (congrArg (Option.map Thread.request) lookup)

theorem requestsOf_advance {index : Nat} {request : Request} {call : Call}
    {resume : signature.Result call → Promise Reply} {choice : Choice}
    {served : Served signature call World Request}
    (paused : config.threads[index]? = some ⟨request, .await call resume⟩)
    (performed : World.perform call choice config.state = some served) :
    requestsOf (config.advance index request call resume served) =
      requestsOf config ++ call.spawns := by
  rw [← World.perform_spawns performed]
  exact Config.requests_advance served paused

/-- The threads are that of the event and those of the tasks that it has started, and these
are the first tasks of the endpoints that it was shown. -/
structure Spread (payload : WebhookEventPayload) (config : Config (service deployment)) :
    Prop where
  requests : requestsOf config = [] ∨ requestsOf config =
    .background (.handleEvent payload) :: (started (config.past 0)).reverse.map .background
  listed : started (config.past 0) ≠ [] → ∃ rows rest, listing (config.past 0) = some rows ∧
    tasksOf payload (drawnUuid (config.past 0)) (targetsOf payload rows) =
      (started (config.past 0)).reverse ++ rest

/-- The endpoint is among the targets of the listing. -/
def Targeted (payload : WebhookEventPayload) (config : Config (service deployment))
    (endpoint : WebhookEndpoint) : Prop :=
  ∃ rows, listing (config.past 0) = some rows ∧ endpoint ∈ targetsOf payload rows

/-- The task of an endpoint. -/
def taskRequest (payload : WebhookEventPayload) (config : Config (service deployment))
    (endpoint : WebhookEndpoint) : Request :=
  .background (.createAndDeliver endpoint payload.type ("evt_" ++ drawnUuid (config.past 0))
    payload.data)

theorem Spread.task (spread : Spread payload config) {task : BackgroundTask}
    (member : task ∈ started (config.past 0)) : ∃ endpoint, Targeted payload config endpoint ∧
      Request.background task = taskRequest payload config endpoint := by
  obtain ⟨rows, rest, shown, split⟩ := spread.listed (List.ne_nil_of_mem member)
  have among : task ∈ tasksOf payload (drawnUuid (config.past 0)) (targetsOf payload rows) := by
    rw [split]
    exact List.mem_append_left rest (List.mem_reverse.mpr member)
  obtain ⟨endpoint, isTarget, rfl⟩ := List.mem_map.mp among
  exact ⟨endpoint, ⟨rows, shown, isTarget⟩, rfl⟩

theorem Spread.request (spread : Spread payload config) {index : Nat}
    {thread : Thread (service deployment)} (lookup : config.threads[index]? = some thread) :
    index = 0 ∧ thread.request = Request.background (.handleEvent payload) ∨
      ∃ previous endpoint, index = previous + 1 ∧ Targeted payload config endpoint ∧
        thread.request = taskRequest payload config endpoint := by
  have mapped := getElem?_requestsOf lookup
  rcases spread.requests with none | requests
  · rw [none] at mapped
    cases mapped
  · rw [requests] at mapped
    cases index with
    | zero => exact .inl ⟨rfl, (Option.some.inj mapped).symm⟩
    | succ previous =>
        rw [List.getElem?_cons_succ] at mapped
        obtain ⟨task, member, isTask⟩ := List.mem_map.mp (List.mem_of_getElem? mapped)
        obtain ⟨endpoint, targeted, isRequest⟩ := spread.task (List.mem_reverse.mp member)
        exact .inr ⟨previous, endpoint, rfl, targeted, isTask.symm.trans isRequest⟩

/-- What a thread may ask for. -/
theorem permitted_of_paused (run : EventRun payload (.initial state) config) {index : Nat}
    {request : Request} {call : Call} {resume : signature.Result call → Promise Reply}
    (paused : config.threads[index]? = some ⟨request, .await call resume⟩) :
    permitsFanOut request (config.past index) call :=
  run.permitted fanOuts_fulfilled paused

theorem spawns_of_handling {past : History signature} {call : Call}
    (permitted : permitsHandling payload past call) :
    call.spawns = call.starts.toList.map .background := by
  cases call <;> first | rfl | exact permitted.elim

theorem spawns_of_task {endpoint : WebhookEndpoint} {eventType : WebhookEventType}
    {eventId : String} {data : PaymentIntent} {past : History signature} {call : Call}
    (permitted : permitsTask endpoint eventType eventId data past call) : call.spawns = [] := by
  cases call <;> first | rfl | exact permitted.elim

/-- What the thread of the event does next. -/
theorem Spread.handles (spread : Spread payload config) {call : Call}
    {answer : signature.Result call} (permitted : permitsHandling payload (config.past 0) call)
    (past : config'.past 0 = ⟨call, answer⟩ :: config.past 0)
    (requests : requestsOf config' = requestsOf config ++ call.starts.toList.map .background)
    (issued : requestsOf config ≠ []) : Spread payload config' := by
  have asked := spread.requests.resolve_left issued
  cases call with
  | query asked' =>
      obtain ⟨rfl, unused⟩ := permitted
      have nothing : started (config'.past 0) = [] := by rw [past, unused]; rfl
      refine ⟨.inr ?_, fun some => absurd nothing some⟩
      rw [requests, asked, nothing, unused]
      rfl
  | randomUUID =>
      have none : started (config.past 0) = [] := permitted
      have nothing : started (config'.past 0) = [] := by rw [past]; exact none
      refine ⟨.inr ?_, fun some => absurd nothing some⟩
      rw [requests, asked, nothing, none]
      rfl
  | start task =>
      obtain ⟨rows, rest, shown, split⟩ := permitted
      have isNext : started (config'.past 0) = task :: started (config.past 0) := by rw [past]; rfl
      refine ⟨.inr ?_, fun _ => ⟨rows, rest, by rw [past]; exact shown, ?_⟩⟩
      · rw [requests, asked, isNext, List.reverse_cons, List.map_append]
        rfl
      · have sameUuid : drawnUuid (config'.past 0) = drawnUuid (config.past 0) := by
          rw [past]
          rfl
        rw [sameUuid, split, isNext, List.reverse_cons, List.append_assoc]
        rfl
  | _ => exact permitted.elim

theorem Spread.step (spread : Spread payload config)
    (run : EventRun payload (.initial state) config)
    (step : Step (onlyEvent payload) config config') : Spread payload config' := by
  cases step with
  | issue request allowed =>
      obtain ⟨none, rfl⟩ := allowed
      have unused : config.past 0 = [] := run.accounted.past_of_le (by simp [none])
      have same : (config.issue (.background (.handleEvent payload))).past 0 = [] := unused
      refine ⟨.inr ?_, fun some => absurd (congrArg started unused) some⟩
      rw [same]
      simp only [requestsOf, Config.issue, none, List.nil_append]
      rfl
  | resume index choice allowed paused performed =>
      rename_i request call resume served
      have permitted := permitted_of_paused run paused
      have requests := requestsOf_advance paused performed
      have isServed := getElem?_requestsOf paused
      rcases spread.request paused with ⟨rfl, rfl⟩ | ⟨previous, endpoint, rfl, targeted, rfl⟩
      · rw [spawns_of_handling permitted] at requests
        refine spread.handles permitted (Config.past_advance_self ..) requests fun none => ?_
        simp [none] at isServed
      · rw [spawns_of_task permitted, List.append_nil] at requests
        have same := config.past_advance_of_ne (Nat.succ_ne_zero previous)
          (taskRequest payload config endpoint) call resume served
        exact ⟨by rw [requests, same]; exact spread.requests, by rw [same]; exact spread.listed⟩
  | move move allowed moved => exact ⟨spread.requests, spread.listed⟩

theorem spread_of_run (run : EventRun payload (.initial state) config) :
    Spread payload config :=
  run.keeps ⟨.inl rfl, fun some => absurd rfl some⟩ fun _ _ reached spread step =>
    spread.step reached step

/-! ## Subscribers -/

/-- The endpoint is to be told of the event. -/
structure Subscribes (store : Store) (payload : WebhookEventPayload)
    (endpoint : WebhookEndpoint) : Prop where
  stored : store.find? .webhookEndpoint endpoint.id = some endpoint
  enabled : endpoint.enabled = true
  owned : store.belongsTo endpoint.consumerId payload.consumerUsername = true
  subscribed : endpoint.eventTypes = [] ∨ payload.type ∈ endpoint.eventTypes

omit deployment config config' state in
/-- The targets of a listing are the subscribers, each of them once. -/
theorem targets_of_answer {store : Store} {order : List String} {rows : List WebhookEndpoint}
    (answered : (Query.enabledEndpoints payload.consumerUsername).answer order store =
      some rows) :
    (∀ endpoint, endpoint ∈ targetsOf payload rows ↔ Subscribes store payload endpoint) ∧
      (targetsOf payload rows).Nodup := by
  have keys : ((store.tables .webhookEndpoint).rows.map
      (Model.indexes .webhookEndpoint).key).Nodup := Table.nodup_keys
  have distinct : ((store.tables .webhookEndpoint).rows.map WebhookEndpoint.id).Nodup := keys
  have perm := perm_of_arrange? (distinct.sublist (List.filter_sublist.map _)) answered
  constructor
  · intro endpoint
    have stored : endpoint ∈ (store.tables .webhookEndpoint).rows ↔
        store.find? .webhookEndpoint endpoint.id = some endpoint :=
      ⟨Table.find?_key, Table.mem_of_find?⟩
    rw [targetsOf, List.mem_filter, perm.mem_iff, List.mem_filter, stored]
    constructor
    · rintro ⟨⟨isStored, kept⟩, subscribed⟩
      obtain ⟨enabled, owned⟩ := of_decide_eq_true kept
      exact ⟨isStored, enabled, owned, by simpa using subscribed⟩
    · rintro ⟨isStored, enabled, owned, subscribed⟩
      exact ⟨⟨isStored, decide_eq_true ⟨enabled, owned⟩⟩, by simpa using subscribed⟩
  · exact (perm.nodup_iff.mpr (distinct.of_map.sublist List.filter_sublist)).sublist
      List.filter_sublist

/-- The endpoints and their owners are as they were. -/
structure Undisturbing (before after : Store) : Prop where
  endpoints : ∀ id, after.find? .webhookEndpoint id = before.find? .webhookEndpoint id
  consumers : after.consumers = before.consumers

theorem Subscribes.congr {before after : Store} (same : Undisturbing before after)
    {endpoint : WebhookEndpoint} :
    Subscribes after payload endpoint ↔ Subscribes before payload endpoint := by
  have owners : ∀ consumerId username,
      after.belongsTo consumerId username = before.belongsTo consumerId username := by
    intro consumerId username
    rw [Store.belongsTo, same.consumers, Store.belongsTo]
  constructor
  · rintro ⟨stored, enabled, owned, subscribed⟩
    exact ⟨(same.endpoints _).symm.trans stored, enabled, (owners _ _).symm.trans owned, subscribed⟩
  · rintro ⟨stored, enabled, owned, subscribed⟩
    exact ⟨(same.endpoints _).trans stored, enabled, (owners _ _).trans owned, subscribed⟩

/-- A statement about deliveries. -/
def Write.Delivers : Write → Prop
  | .create .webhookDelivery _ => True
  | .update .webhookDelivery _ _ => True
  | _ => False

omit deployment payload config config' state in
theorem Performs.undisturbing {before after : World} {performed : Performed signature}
    (performs : Performs before after performed)
    (delivers : ∀ statement, performed.call = .write statement → statement.Delivers) :
    Undisturbing before.store after.store := by
  by_cases effect : ∃ statement value, performed = ⟨.write statement, .ok value⟩
  · obtain ⟨statement, value, rfl⟩ := effect
    have isDelivery := delivers statement rfl
    cases statement with
    | create model new =>
        cases model with
        | webhookDelivery =>
            obtain ⟨id, -, -, change⟩ := performs.of_create
            exact ⟨change.others .webhookEndpoint nofun, change.consumers⟩
        | _ => exact isDelivery.elim
    | update model id patch =>
        cases model with
        | webhookDelivery =>
            obtain ⟨old, -, change⟩ := performs.of_update
            exact ⟨change.others .webhookEndpoint nofun, change.consumers⟩
        | _ => exact isDelivery.elim
    | _ => exact isDelivery.elim
  · push Not at effect
    rw [performs.store_eq effect]
    exact ⟨fun _ => rfl, rfl⟩

/-- No other statement is made. -/
theorem delivers_of_resumes {allows : Config (service deployment) → Label (service deployment) →
      Prop} (spread : Spread payload config) {index : Nat} {choice : Choice} {request : Request}
    {performed : Performed signature}
    (resumes : Resumes allows config config' index choice request performed)
    (permitted : permitsFanOut request (config.past index) performed.call) (statement : Write)
    (isWrite : performed.call = .write statement) : statement.Delivers := by
  obtain ⟨resume, paused, -⟩ := resumes.paused
  rw [isWrite] at permitted
  rcases spread.request paused with ⟨-, isEvent⟩ | ⟨previous, endpoint, -, -, isTask⟩
  · obtain rfl : request = _ := isEvent
    exact permitted.elim
  · obtain rfl : request = _ := isTask
    cases statement with
    | create model new => cases model <;> trivial
    | update model id patch => cases model <;> trivial
    | _ => exact permitted.elim

theorem undisturbing_of_run (run : EventRun payload (.initial state) config) :
    Undisturbing state.store config.state.store := by
  refine run.keeps (I := fun config : Config (service deployment) =>
    Undisturbing state.store config.state.store) ⟨fun _ => rfl, rfl⟩
    fun config config' reached same step => ?_
  rcases step_cases step with ⟨-, drifts⟩ | ⟨index, choice, request, performed, resumes⟩
  · rw [drifts.store]
    exact same
  · obtain ⟨resume, paused, -⟩ := resumes.paused
    have next := resumes.performs.undisturbing
      (delivers_of_resumes (spread_of_run reached) resumes (permitted_of_paused reached paused))
    exact ⟨fun id => (next.endpoints id).trans (same.endpoints id),
      next.consumers.trans same.consumers⟩

/-- The targets of the event are the subscribers of the start, each of them once. -/
theorem targets_of_run (run : EventRun payload (.initial state) config)
    {rows : List WebhookEndpoint} (shown : listing (config.past 0) = some rows) :
    (∀ endpoint, endpoint ∈ targetsOf payload rows ↔ Subscribes state.store payload endpoint) ∧
      (targetsOf payload rows).Nodup := by
  obtain ⟨performed, member, lists⟩ := List.exists_of_findSome?_eq_some shown
  obtain ⟨before, after, choice, request, passed, resumes, -, -⟩ :=
    exists_resumes_of_mem run (mem_pastOf.mp member)
  obtain ⟨resume, paused, -⟩ := resumes.paused
  have permitted := permitted_of_paused passed paused
  rcases (spread_of_run passed).request paused with ⟨-, isEvent⟩ | ⟨previous, _, isLater, -, -⟩
  · obtain rfl : request = _ := isEvent
    obtain ⟨call, answer⟩ := performed
    cases call with
    | query asked =>
        obtain ⟨rfl, -⟩ := permitted
        cases answer with
        | error err => cases lists
        | ok shown =>
            obtain rfl := Option.some.inj lists
            obtain ⟨-, order, answered⟩ := resumes.performs.of_query
            obtain ⟨isTarget, distinct⟩ := targets_of_answer answered
            refine ⟨fun endpoint => (isTarget endpoint).trans ?_, distinct⟩
            exact Subscribes.congr (undisturbing_of_run passed)
    | _ => cases lists
  · cases isLater

/-! ## One task for each subscriber -/

omit deployment config config' state in
theorem nodup_tasksOf (payload : WebhookEventPayload) (uuid : String)
    {targets : List WebhookEndpoint} (distinct : targets.Nodup) :
    (tasksOf payload uuid targets).Nodup :=
  distinct.map fun _ _ same => (BackgroundTask.createAndDeliver.inj same).1

/-- An endpoint has one task. -/
theorem task_unique (run : EventRun payload (.initial state) config) {index index' : Nat}
    {endpoint : WebhookEndpoint} {code code' : Promise Reply}
    (lookup : config.threads[index]? = some ⟨taskRequest payload config endpoint, code⟩)
    (lookup' : config.threads[index']? = some ⟨taskRequest payload config endpoint, code'⟩) :
    index = index' := by
  have spread := spread_of_run run
  have isServed := getElem?_requestsOf lookup
  have isServed' := getElem?_requestsOf lookup'
  rcases spread.requests with none | requests
  · rw [none] at isServed
    cases isServed
  · have distinct : (started (config.past 0)).Nodup := by
      by_cases idle : started (config.past 0) = []
      · rw [idle]
        exact List.nodup_nil
      · obtain ⟨rows, rest, shown, split⟩ := spread.listed idle
        have tasks := nodup_tasksOf payload (drawnUuid (config.past 0))
          (targets_of_run run shown).2
        rw [split] at tasks
        exact List.nodup_reverse.mp tasks.of_append_left
    have isNodup : (requestsOf config).Nodup := by
      rw [requests, List.nodup_cons]
      refine ⟨fun member => ?_, ?_⟩
      · obtain ⟨task, isStarted, isEvent⟩ := List.mem_map.mp member
        obtain ⟨other, -, isTask⟩ := spread.task (List.mem_reverse.mp isStarted)
        cases isEvent.symm.trans isTask
      · exact (List.nodup_reverse.mpr distinct).map fun _ _ => Request.background.inj
    exact (List.getElem?_inj (List.getElem?_eq_some_iff.mp isServed).1 isNodup).mp
      (isServed.trans isServed'.symm)

omit payload in
theorem done_of_quiet (quiet : config.Quiet) {index : Nat}
    {thread : Thread (service deployment)} (lookup : config.threads[index]? = some thread) :
    ∃ outcome, config.threads[index]? = some ⟨thread.request, .done outcome⟩ := by
  obtain ⟨request, code⟩ := thread
  obtain ⟨outcome, rfl⟩ := (quiet _ (List.mem_of_getElem? lookup)).outcome
  exact ⟨outcome, lookup⟩

/-- When the event has been handled, every subscriber has its task. -/
theorem task_of_subscribes (run : EventRun payload (.initial state) config)
    (quiet : config.Quiet) {rows : List WebhookEndpoint}
    (listed : ⟨0, .query (.enabledEndpoints payload.consumerUsername), .ok rows⟩ ∈ config.trace)
    {endpoint : WebhookEndpoint} (subscribes : Subscribes state.store payload endpoint) :
    ∃ (index : Nat) (outcome : Except ServiceError Reply),
      config.threads[index]? = some ⟨taskRequest payload config endpoint, .done outcome⟩ := by
  have spread := spread_of_run run
  obtain ⟨-, -, -, request, -, -, -, code, first⟩ := exists_resumes_of_mem run listed
  obtain ⟨shown, isShown⟩ : ∃ shown, listing (config.past 0) = some shown :=
    Option.isSome_iff_exists.mp
      (List.findSome?_isSome_iff.mpr ⟨_, mem_pastOf.mpr listed, rfl⟩)
  have isTarget := ((targets_of_run run isShown).1 endpoint).mpr subscribes
  have requests := spread.requests.resolve_left fun none => by
    have isFirst := getElem?_requestsOf first
    rw [none] at isFirst
    cases isFirst
  have isEvent : request = .background (.handleEvent payload) := by
    have isFirst := getElem?_requestsOf first
    rw [requests] at isFirst
    exact (Option.some.inj isFirst).symm
  obtain ⟨outcome, finished⟩ := done_of_quiet quiet first
  have handled : ensuresFanOut deployment request (config.past 0) :=
    run.ensured fanOuts_fulfilled finished
  rw [isEvent] at handled
  have all := handled shown isShown
  have member : taskRequest payload config endpoint ∈ requestsOf config := by
    rw [requests, ← all]
    exact List.mem_cons_of_mem _ (List.mem_map_of_mem (List.mem_map_of_mem isTarget))
  obtain ⟨index, lookup⟩ := List.getElem?_of_mem member
  obtain ⟨thread, isThread, isTask⟩ := Option.map_eq_some_iff.mp
    (List.getElem?_map.symm.trans lookup)
  obtain ⟨outcome, finished⟩ := done_of_quiet quiet isThread
  exact ⟨index, outcome, isTask ▸ finished⟩

/-! ## Every event is handled to its end -/

/-- Any thread can be served to its end.  A task starts nothing on the way. -/
theorem exists_finished (run : EventRun payload (.initial state) config) {index : Nat}
    {thread : Thread (service deployment)} (lookup : config.threads[index]? = some thread) :
    ∃ config' outcome spawned, EventRun payload config config' ∧
      config'.threads = config.threads.set index ⟨thread.request, .done outcome⟩ ++ spawned ∧
      (index ≠ 0 → spawned = []) := by
  obtain ⟨request, code⟩ := thread
  obtain ⟨choices, execution, executed⟩ := exists_execute deployment code config.state
  have free : ∀ (config : Config (service deployment)) choice,
      onlyEvent payload config (.resume index choice) := fun _ _ => trivial
  obtain ⟨config', resumed, threads, trace⟩ := run_of_resumed free lookup executed
  refine ⟨config', _, _, resumed, threads, fun isTask => ?_⟩
  have requests : requestsOf config' = requestsOf config ++ _ :=
    requests_of_resumed lookup threads
  have past : config'.past 0 = config.past 0 := past_of_resumed trace isTask
  have isServed := getElem?_requestsOf lookup
  have before := (spread_of_run run).requests.resolve_left fun none => by
    rw [none] at isServed
    cases isServed
  have after := (spread_of_run (run.trans resumed)).requests.resolve_left fun none => by
    rw [requests, before] at none
    cases none
  rw [requests, past, ← before] at after
  exact congrArg (List.map (service deployment).start) (List.append_right_eq_self.mp after)

/-- The first threads have run to their ends. -/
def Rested (count : Nat) (config : Config (service deployment)) : Prop :=
  ∀ index < count, ∀ thread, config.threads[index]? = some thread → thread.code.Finished

theorem Rested.set {count : Nat} (rested : Rested count config) {request : Request}
    {outcome : Except ServiceError Reply} {spawned : List (Thread (service deployment))}
    (bound : count < config.threads.length)
    (threads : config'.threads = config.threads.set count ⟨request, .done outcome⟩ ++ spawned) :
    Rested (count + 1) config' := by
  intro index below thread lookup
  have inside : index < (config.threads.set count ⟨request, .done outcome⟩).length := by
    rw [List.length_set]
    omega
  rw [threads, List.getElem?_append_left inside] at lookup
  rcases Nat.lt_succ_iff_lt_or_eq.mp below with before | rfl
  · rw [List.getElem?_set_ne (Nat.ne_of_gt before)] at lookup
    exact rested index before thread lookup
  · rw [List.getElem?_set_self bound] at lookup
    obtain rfl := Option.some.inj lookup
    trivial

/-- The tasks can be served one after the other. -/
theorem exists_rested (run : EventRun payload (.initial state) config) (first : Rested 1 config)
    (count : Nat) : ∃ config', EventRun payload config config' ∧
      config'.threads.length = config.threads.length ∧ Rested (count + 1) config' := by
  induction count with
  | zero => exact ⟨config, .refl, rfl, first⟩
  | succ count ih =>
      obtain ⟨middle, reached, length, rested⟩ := ih
      by_cases bound : count + 1 < middle.threads.length
      · obtain ⟨config', outcome, spawned, finishes, threads, childless⟩ :=
          exists_finished (run.trans reached) (List.getElem?_eq_getElem bound)
        refine ⟨config', reached.trans finishes, ?_, rested.set bound threads⟩
        rw [threads, childless (Nat.succ_ne_zero count), List.append_nil, List.length_set, length]
      · refine ⟨middle, reached, length, fun index below thread lookup => ?_⟩
        have inside := (List.getElem?_eq_some_iff.mp lookup).1
        exact rested index (by omega) thread lookup

/-- Every event can be handled to its end. -/
theorem exists_quiet (run : EventRun payload (.initial state) config) :
    ∃ config', EventRun payload config config' ∧ config'.Quiet := by
  by_cases issued : 0 < config.threads.length
  · obtain ⟨middle, outcome, spawned, reached, threads, -⟩ :=
      exists_finished run (List.getElem?_eq_getElem issued)
    have none : Rested 0 config := fun index below => absurd below index.not_lt_zero
    obtain ⟨config', finishes, length, rested⟩ := exists_rested (run.trans reached)
      (none.set issued threads) middle.threads.length
    refine ⟨config', reached.trans finishes, fun thread member => ?_⟩
    obtain ⟨index, lookup⟩ := List.getElem?_of_mem member
    have inside := (List.getElem?_eq_some_iff.mp lookup).1
    exact rested index (by omega) thread lookup
  · refine ⟨config, .refl, fun thread member => ?_⟩
    exact absurd (List.length_pos_of_mem member) issued

end FanOut

end CosmosPay

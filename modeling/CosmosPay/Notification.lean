import CosmosPay.Awaiting.Spawning
import CosmosPay.Contracts.Numberings
import CosmosPay.Lineage
import CosmosPay.Resolution

/-!
# No news is lost and none is told twice

An event is handled once for each time it is emitted, its handling starts one task for each
subscriber, and each task inserts one delivery and works it off.  So once the service is at
rest, whatever has run beside, every subscriber has been told of the event, and told once.
-/

namespace CosmosPay

open Awaiting Tables

section Notification

variable {deployment : Deployment} {config : Config (service deployment)} {state : World}

/-! ## Tasks and their insertions -/

/-- Does the task tell the endpoint of the event of this number? -/
def BackgroundTask.tells (endpointId number : String) : BackgroundTask → Bool
  | .createAndDeliver endpoint _ eventId _ =>
      decide (endpoint.id = endpointId) && decide (eventId = number)
  | _ => false

def Request.tells (endpointId number : String) : Request → Bool
  | .background task => task.tells endpointId number
  | _ => false

/-- Is a delivery of the event for the endpoint inserted, or is its insertion tried? -/
def insertsFor (endpointId number : String) (performed : Performed signature) : Bool :=
  match performed.call with
  | .write (.create .webhookDelivery new) =>
      decide (new.endpointId = endpointId) && decide (new.eventId = number)
  | _ => false

/-- How often a delivery of the event has been inserted for the endpoint. -/
def tellings (endpointId number : String) (trace : List (Entry signature)) : Nat :=
  trace.countP fun entry => insertsFor endpointId number entry.performed

variable {allows : Config (service deployment) → Label (service deployment) → Prop}

/-- Only a task inserts a delivery, and before it has only looked at the clock. -/
theorem inserts_of_split (run : Run allows (Config.initial state) config) {index : Nat}
    {newer older : History signature} {new : NewWebhookDelivery}
    {answer : Except ServiceError WebhookDelivery}
    (split : config.past index =
      newer ++ ⟨.write (.create .webhookDelivery new), answer⟩ :: older) :
    ∃ endpoint eventType eventId data createdAt code, config.threads[index]? =
        some ⟨.background (.createAndDeliver endpoint eventType eventId data), code⟩ ∧
      older = [⟨.now, .ok createdAt⟩] ∧
      new = newDelivery endpoint eventType eventId data createdAt := by
  obtain ⟨recent, earlier, isTrace, -, rfl⟩ := exists_split_of_pastOf split
  obtain ⟨request, code, lookup, inserts⟩ := run.permitted_entry loops_fulfilled isTrace
  obtain ⟨_, _, lookup', permitted⟩ := run.permitted_entry fanOuts_fulfilled isTrace
  obtain ⟨rfl, -⟩ := Thread.mk.inj (Option.some.inj (lookup'.symm.trans lookup))
  obtain ⟨endpoint, eventType, eventId, data, -, rfl, -⟩ := inserts
  obtain ⟨createdAt, isOlder, isNew⟩ := permitted
  exact ⟨endpoint, eventType, eventId, data, createdAt, code, lookup, isOlder, isNew⟩

theorem tells_of_inserts (run : Run allows (Config.initial state) config) {index : Nat}
    {thread : Thread (service deployment)} (lookup : config.threads[index]? = some thread)
    {endpointId number : String} {performed : Performed signature}
    (member : performed ∈ config.past index) (isInsert : insertsFor endpointId number performed) :
    thread.request.tells endpointId number = true := by
  obtain ⟨newer, older, split⟩ := List.append_of_mem member
  obtain ⟨call, answer⟩ := performed
  simp only [insertsFor] at isInsert
  split at isInsert
  · obtain ⟨endpoint, eventType, eventId, data, createdAt, code, isTask, -, rfl⟩ :=
      inserts_of_split run split
    obtain rfl := Option.some.inj (isTask.symm.trans lookup)
    exact isInsert
  · cases isInsert

/-- At its end a task has inserted its delivery, or has tried to, and nothing else. -/
theorem countP_insertsFor (run : Run allows (Config.initial state) config) {index : Nat}
    {request : Request} {outcome : Except ServiceError Reply}
    (lookup : config.threads[index]? = some ⟨request, .done outcome⟩)
    (endpointId number : String) : (config.past index).countP (insertsFor endpointId number) =
      if request.tells endpointId number then 1 else 0 := by
  have rationed : Rationed (insertsFor endpointId number) 1 (config.past index) := by
    intro newer performed older split isInsert
    obtain ⟨call, answer⟩ := performed
    simp only [insertsFor] at isInsert
    split at isInsert
    · obtain ⟨_, _, _, _, createdAt, _, -, rfl, -⟩ := inserts_of_split run split
      exact Nat.zero_lt_one
    · cases isInsert
  split
  · rename_i tells
    refine Nat.le_antisymm rationed.countP_le (List.one_le_countP_iff.mpr ?_)
    have ended : ensuresFanOut deployment request (config.past index) :=
      run.ensured fanOuts_fulfilled lookup
    obtain ⟨task, rfl⟩ : ∃ task, request = .background task := by
      cases request with
      | background task => exact ⟨task, rfl⟩
      | _ => cases tells
    cases task with
    | createAndDeliver endpoint eventType eventId data =>
        obtain ⟨new, answer, made⟩ : ∃ new answer,
            ⟨.write (.create .webhookDelivery new), answer⟩ ∈ config.past index := by
          have isEnded : TaskEnded deployment endpoint (config.past index) := ended
          generalize config.past index = past at isEnded
          cases isEnded with
          | rejected createdAt new err => exact ⟨new, _, List.mem_cons_self⟩
          | delivered new delivery outcome lastAttemptAt created attempted =>
              exact ⟨new, _, created⟩
        refine ⟨_, made, ?_⟩
        obtain ⟨newer, older, split⟩ := List.append_of_mem made
        obtain ⟨_, _, _, _, createdAt, code, lookup', -, rfl⟩ := inserts_of_split run split
        obtain ⟨isRequest, -⟩ := Thread.mk.inj (Option.some.inj (lookup.symm.trans lookup'))
        obtain ⟨rfl, rfl, rfl, rfl⟩ :=
          BackgroundTask.createAndDeliver.inj (Request.background.inj isRequest)
        exact tells
    | _ => cases tells
  · rename_i silent
    exact List.countP_eq_zero.mpr fun performed member isInsert =>
      silent (tells_of_inserts run lookup member isInsert)

/-- At rest every task that tells the endpoint of the event has done so once. -/
theorem tellings_eq_serving (run : Run allows (Config.initial state) config)
    (quiet : config.Quiet) (endpointId number : String) :
    tellings endpointId number config.trace =
      config.serving (Request.tells endpointId number) := by
  have each : ∀ index ∈ Finset.range config.threads.length,
      (config.past index).countP (insertsFor endpointId number) =
        if (config.threads[index]?).any (fun thread => thread.request.tells endpointId number)
          then 1 else 0 := by
    intro index inside
    have lookup := List.getElem?_eq_getElem (Finset.mem_range.mp inside)
    obtain ⟨outcome, finished⟩ := done_of_quiet quiet lookup
    rw [countP_insertsFor run finished, lookup]
    rfl
  calc tellings endpointId number config.trace
    _ = ∑ index ∈ Finset.range config.threads.length,
        (config.past index).countP (insertsFor endpointId number) :=
      countP_trace _ config.trace run.accounted
    _ = config.serving (Request.tells endpointId number) :=
      (Finset.sum_congr rfl each).trans (config.sum_serving _)

/-! ## The handling of an event -/

omit deployment config state allows in
theorem countP_spawned_tells (endpointId number : String) (past : History signature) :
    (spawned Call.spawns past).countP (Request.tells endpointId number) =
      (started past).countP (BackgroundTask.tells endpointId number) := by
  induction past with
  | nil => rfl
  | cons performed past ih =>
      rw [countP_spawned_cons, ih]
      obtain ⟨call, answer⟩ := performed
      cases call with
      | start task =>
          rw [started_start, List.countP_cons, Nat.add_comm]
          exact congrArg (_ + ·) List.countP_singleton
      | _ => exact Nat.zero_add _

/-- A task is started by the handling of its event, under the number that was drawn for it. -/
theorem handling_of_start (run : Run allows (Config.initial state) config) {index : Nat}
    {endpoint : WebhookEndpoint} {eventType : WebhookEventType} {eventId : String}
    {data : PaymentIntent} {answer : Except ServiceError Unit}
    (made : ⟨index, .start (.createAndDeliver endpoint eventType eventId data), answer⟩ ∈
      config.trace) :
    ∃ payload code uuid,
      config.threads[index]? = some ⟨.background (.handleEvent payload), code⟩ ∧
      ⟨index, .randomUUID, .ok uuid⟩ ∈ config.trace ∧ eventId = "evt_" ++ uuid ∧
      eventType = payload.type ∧ data = payload.data := by
  obtain ⟨before, after, choice, request, reached, resumes, later, code, lookup⟩ :=
    exists_resumes_of_mem run made
  obtain ⟨resume, paused, -⟩ := resumes.paused
  have guarded : permitsDelivery deployment request (before.past index)
      (.start (.createAndDeliver endpoint eventType eventId data)) :=
    reached.permitted deliveries_fulfilled paused
  obtain ⟨payload, -, rfl, -, -⟩ := guarded.2
  have permitted : permitsHandling payload (before.past index)
      (.start (.createAndDeliver endpoint eventType eventId data)) :=
    reached.permitted fanOuts_fulfilled paused
  obtain ⟨rows, rest, -, split⟩ := permitted
  have numbered : permitsNumbering (.background (.handleEvent payload)) (before.past index)
      (.start (.createAndDeliver endpoint eventType eventId data)) :=
    reached.permitted numberings_fulfilled paused
  obtain ⟨uuid, drawn⟩ := numbered _ rfl
  have among : .createAndDeliver endpoint eventType eventId data ∈
      tasksOf payload (drawnUuid (before.past index)) (targetsOf payload rows) := by
    rw [split]
    exact List.mem_append_right _ List.mem_cons_self
  obtain ⟨target, -, isTask⟩ := List.mem_map.mp among
  obtain ⟨-, rfl, rfl, rfl⟩ := BackgroundTask.createAndDeliver.inj isTask
  have grows := List.Subset.trans (step_trace resumes.step) (trace_subset later)
  exact ⟨payload, code, _, lookup, grows (mem_pastOf.mp (drawnUuid_mem drawn)), rfl, rfl, rfl⟩

/-- No two threads have drawn the same UUID. -/
def UuidsDiffer (trace : List (Entry signature)) : Prop :=
  ∀ thread thread' uuid, ⟨thread, .randomUUID, .ok uuid⟩ ∈ trace →
    ⟨thread', .randomUUID, .ok uuid⟩ ∈ trace → thread = thread'

/-- The tasks of a number are those that its handling has started. -/
theorem countP_spawned_of_ne (run : Run allows (Config.initial state) config)
    (differ : UuidsDiffer config.trace) {index other : Nat} {uuid : String}
    (drawn : ⟨index, .randomUUID, .ok uuid⟩ ∈ config.trace) (isOther : other ≠ index)
    (endpointId : String) : (spawned Call.spawns (config.past other)).countP
      (Request.tells endpointId ("evt_" ++ uuid)) = 0 := by
  refine countP_spawned_eq_zero fun performed member request isSpawned => ?_
  refine Bool.eq_false_iff.mpr fun tells => isOther ?_
  obtain ⟨call, answer⟩ := performed
  cases call with
  | start task =>
      obtain rfl := List.mem_singleton.mp isSpawned
      cases task with
      | createAndDeliver endpoint eventType eventId data =>
          obtain ⟨payload, code, uuid', -, drawn', rfl, -, -⟩ :=
            handling_of_start run (mem_pastOf.mp member)
          have isNumber := of_decide_eq_true (Bool.and_eq_true_iff.mp tells).2
          obtain rfl : uuid' = uuid := String.append_right_inj _ |>.mp isNumber
          exact differ _ _ _ drawn' drawn
      | _ => cases tells
  | emit payload =>
      obtain rfl := List.mem_singleton.mp isSpawned
      cases tells
  | _ => cases isSpawned

/-- Each start of a task by the handling of the event ends in one insertion. -/
theorem tellings_eq_countP_started (run : IssuedRun (.initial state) config)
    (quiet : config.Quiet) (differ : UuidsDiffer config.trace) {index : Nat} {uuid : String}
    (drawn : ⟨index, .randomUUID, .ok uuid⟩ ∈ config.trace) (endpointId : String) :
    tellings endpointId ("evt_" ++ uuid) config.trace =
      (started (config.past index)).countP
        (BackgroundTask.tells endpointId ("evt_" ++ uuid)) := by
  have unissued : ∀ (config : Config (service deployment)) (request : Request),
      issues Request.isForeground (.issue request : Label (service deployment)) = true →
        request.tells endpointId ("evt_" ++ uuid) = false := by
    intro _ request issued
    cases request with
    | background task => cases issued
    | _ => rfl
  have inside : index ∈ Finset.range config.threads.length :=
    Finset.mem_range.mpr (run.accounted _ drawn)
  calc tellings endpointId ("evt_" ++ uuid) config.trace
    _ = config.serving (Request.tells endpointId ("evt_" ++ uuid)) :=
      tellings_eq_serving run quiet _ _
    _ = ∑ thread ∈ Finset.range config.threads.length,
        (spawned Call.spawns (config.past thread)).countP
          (Request.tells endpointId ("evt_" ++ uuid)) :=
      run.serving_eq_sum World.perform_spawns unissued
    _ = (spawned Call.spawns (config.past index)).countP
        (Request.tells endpointId ("evt_" ++ uuid)) :=
      Finset.sum_eq_single_of_mem index inside fun other _ isOther =>
        countP_spawned_of_ne run differ drawn isOther endpointId
    _ = _ := countP_spawned_tells _ _ _

/-! ## Emissions -/

/-- Does the request handle the event? -/
def Request.handles (payload : WebhookEventPayload) : Request → Bool
  | .background (.handleEvent sent) => sent = payload
  | _ => false

def emits (payload : WebhookEventPayload) (performed : Performed signature) : Bool :=
  match performed.call with
  | .emit sent => sent = payload
  | _ => false

/-- An event is handled once for each time it has been emitted. -/
theorem serving_handles (run : IssuedRun (.initial state) config)
    (payload : WebhookEventPayload) : config.serving (Request.handles payload) =
      config.trace.countP fun entry => emits payload entry.performed := by
  have unissued : ∀ (config : Config (service deployment)) (request : Request),
      issues Request.isForeground (.issue request : Label (service deployment)) = true →
        request.handles payload = false := by
    intro _ request issued
    cases request with
    | background task => cases issued
    | _ => rfl
  have single : ∀ performed ∈ config.trace.map Entry.performed,
      (Call.spawns performed.call).countP (Request.handles payload) =
        if emits payload performed then 1 else 0 := by
    intro performed member
    obtain ⟨⟨index, call, answer⟩, made, rfl⟩ := List.mem_map.mp member
    cases call with
    | emit sent => exact List.countP_singleton
    | start task =>
        obtain ⟨before, after, choice, request, reached, resumes, -, -⟩ :=
          exists_resumes_of_mem run made
        obtain ⟨resume, paused, -⟩ := resumes.paused
        have reports : (Call.start task).Reports := reached.permitted handings_fulfilled paused
        cases task with
        | handleEvent sent => exact reports.elim
        | _ => rfl
    | _ => rfl
  calc config.serving (Request.handles payload)
    _ = (spawned Call.spawns (config.trace.map Entry.performed)).countP
        (Request.handles payload) := run.serving_eq World.perform_spawns unissued
    _ = (config.trace.map Entry.performed).countP (emits payload) :=
      countP_spawned_eq_countP single
    _ = _ := by
      rw [List.countP_map]
      rfl

/-! ## Subscribers -/

/-- The subscribers of the event at the moment at which its handling has listed them. -/
theorem exists_moment_of_listing (run : Run allows (Config.initial state) config) {index : Nat}
    {payload : WebhookEventPayload} {code : Promise Reply}
    (lookup : config.threads[index]? = some ⟨.background (.handleEvent payload), code⟩)
    {rows : List WebhookEndpoint} (shown : listing (config.past index) = some rows) :
    ∃ moment, Run allows (Config.initial state) moment ∧ Run allows moment config ∧
      (∀ endpoint, endpoint ∈ targetsOf payload rows ↔
        Subscribes moment.state.store payload endpoint) ∧ (targetsOf payload rows).Nodup := by
  obtain ⟨performed, member, lists⟩ := List.exists_of_findSome?_eq_some shown
  obtain ⟨before, after, choice, reached, resumes, later⟩ :=
    exists_resumes_of_past run lookup member
  obtain ⟨resume, paused, -⟩ := resumes.paused
  have permitted : permitsHandling payload (before.past index) performed.call :=
    reached.permitted fanOuts_fulfilled paused
  obtain ⟨call, answer⟩ := performed
  cases call with
  | query asked =>
      obtain ⟨rfl, -⟩ := permitted
      cases answer with
      | error err => cases lists
      | ok listed =>
          obtain rfl := Option.some.inj lists
          obtain ⟨-, order, answered⟩ := resumes.performs.of_query
          exact ⟨before, reached, .head resumes.step later, targets_of_answer answered⟩
  | _ => cases lists

omit deployment config state allows in
theorem countP_tasksOf (payload : WebhookEventPayload) (uuid endpointId : String)
    (targets : List WebhookEndpoint) :
    (tasksOf payload uuid targets).countP (BackgroundTask.tells endpointId ("evt_" ++ uuid)) =
      targets.countP fun endpoint => decide (endpoint.id = endpointId) := by
  rw [tasksOf, List.countP_map]
  exact List.countP_congr fun endpoint _ => by simp [BackgroundTask.tells]

omit deployment config state allows in
/-- A subscriber is listed once. -/
theorem countP_target {payload : WebhookEventPayload} {store : Store}
    {targets : List WebhookEndpoint}
    (subscribers : ∀ endpoint, endpoint ∈ targets ↔ Subscribes store payload endpoint)
    (distinct : targets.Nodup) {endpoint : WebhookEndpoint} (member : endpoint ∈ targets) :
    targets.countP (fun other => decide (other.id = endpoint.id)) = 1 := by
  have stored := ((subscribers endpoint).mp member).stored
  calc targets.countP (fun other => decide (other.id = endpoint.id))
    _ = targets.count endpoint := by
      refine List.countP_congr fun other among => ?_
      rw [decide_eq_true_iff, beq_iff_eq]
      refine ⟨fun sameId => ?_, fun same => congrArg WebhookEndpoint.id same⟩
      have found := ((subscribers other).mp among).stored
      rw [sameId, stored] at found
      exact (Option.some.inj found).symm
    _ = 1 := List.count_eq_one_of_mem distinct member

/-- What is inserted under the number of the event is about the event. -/
theorem carries_of_number (run : IssuedRun (.initial state) config)
    (differ : UuidsDiffer config.trace) {index : Nat} {payload : WebhookEventPayload}
    {code : Promise Reply} {uuid : String}
    (lookup : config.threads[index]? = some ⟨.background (.handleEvent payload), code⟩)
    (drawn : ⟨index, .randomUUID, .ok uuid⟩ ∈ config.trace) {thread : Nat}
    {new : NewWebhookDelivery} {answer : Except ServiceError WebhookDelivery}
    (made : ⟨thread, .write (.create .webhookDelivery new), answer⟩ ∈ config.trace)
    (isNumber : new.eventId = "evt_" ++ uuid) :
    new.eventType = payload.type ∧ new.payload.data = payload.data := by
  obtain ⟨newer, older, split⟩ := List.append_of_mem (mem_pastOf.mpr made)
  obtain ⟨endpoint, eventType, eventId, data, createdAt, taskCode, isTask, -, rfl⟩ :=
    inserts_of_split run split
  rcases warranted_of_run run isTask with foreground | ⟨⟨owner, call, started⟩, member, spawns⟩
  · cases foreground
  · cases call with
    | emit sent => cases Request.background.inj (List.mem_singleton.mp spawns)
    | start task =>
        obtain rfl := Request.background.inj (List.mem_singleton.mp spawns)
        obtain ⟨sent, ownerCode, uuid', isOwner, drawn', rfl, rfl, rfl⟩ :=
          handling_of_start run member
        obtain rfl : uuid' = uuid := String.append_right_inj _ |>.mp isNumber
        obtain rfl := differ _ _ _ drawn' drawn
        obtain ⟨isRequest, -⟩ := Thread.mk.inj (Option.some.inj (isOwner.symm.trans lookup))
        obtain rfl := BackgroundTask.handleEvent.inj (Request.background.inj isRequest)
        exact ⟨rfl, rfl⟩
    | _ => cases spawns

/-- Every subscriber of that moment has been told of the event once, and nobody else has. -/
inductive Notified (config : Config (service deployment)) (index : Nat)
    (payload : WebhookEventPayload) (store : Store) : Prop where
  | nobody (unsubscribed : ∀ endpoint, ¬ Subscribes store payload endpoint)
      (silent : started (config.past index) = [])
  | everybody (uuid : String) (drawn : ⟨index, .randomUUID, .ok uuid⟩ ∈ config.trace)
      (told : ∀ endpoint, Subscribes store payload endpoint →
        tellings endpoint.id ("evt_" ++ uuid) config.trace = 1)
      (others : ∀ endpointId, (∀ endpoint, Subscribes store payload endpoint →
        endpoint.id ≠ endpointId) → tellings endpointId ("evt_" ++ uuid) config.trace = 0)
      (carries : ∀ thread (new : NewWebhookDelivery) answer,
        ⟨thread, .write (.create .webhookDelivery new), answer⟩ ∈ config.trace →
          new.eventId = "evt_" ++ uuid →
            new.eventType = payload.type ∧ new.payload.data = payload.data)

theorem notified_of_listing (run : IssuedRun (.initial state) config) (quiet : config.Quiet)
    (differ : UuidsDiffer config.trace) {index : Nat} {payload : WebhookEventPayload}
    {code : Promise Reply}
    (lookup : config.threads[index]? = some ⟨.background (.handleEvent payload), code⟩)
    {rows : List WebhookEndpoint} (shown : listing (config.past index) = some rows) :
    ∃ moment, IssuedRun (.initial state) moment ∧ IssuedRun moment config ∧
      Notified config index payload moment.state.store := by
  obtain ⟨moment, reached, later, subscribers, distinct⟩ :=
    exists_moment_of_listing run lookup shown
  refine ⟨moment, reached, later, ?_⟩
  obtain ⟨outcome, finished⟩ := done_of_quiet quiet lookup
  have handled : ensuresHandling payload (config.past index) :=
    run.ensured fanOuts_fulfilled finished
  have all := handled rows shown
  by_cases isEmpty : targetsOf payload rows = []
  · rw [isEmpty] at all
    refine .nobody (fun endpoint subscribes => ?_) (List.reverse_eq_nil_iff.mp all.symm)
    have member := (subscribers endpoint).mpr subscribes
    rw [isEmpty] at member
    cases member
  · obtain ⟨first, isFirst⟩ := List.exists_mem_of_ne_nil _ isEmpty
    have isStarted : BackgroundTask.createAndDeliver first payload.type
        ("evt_" ++ drawnUuid (config.past index)) payload.data ∈
          started (config.past index) := by
      rw [← List.mem_reverse, ← all]
      exact List.mem_map_of_mem isFirst
    obtain ⟨⟨call, answer⟩, made, starts⟩ := List.mem_filterMap.mp isStarted
    cases call with
    | start task =>
        obtain rfl := Option.some.inj starts
        obtain ⟨_, _, uuid, -, drawn, isNumber, -, -⟩ :=
          handling_of_start run (mem_pastOf.mp made)
        obtain rfl := String.append_right_inj _ |>.mp isNumber
        have once : ∀ endpointId,
            tellings endpointId ("evt_" ++ drawnUuid (config.past index)) config.trace =
              (targetsOf payload rows).countP fun endpoint =>
                decide (endpoint.id = endpointId) := by
          intro endpointId
          rw [tellings_eq_countP_started run quiet differ drawn, ← List.countP_reverse, ← all]
          exact countP_tasksOf payload _ endpointId _
        refine .everybody _ drawn (fun endpoint subscribes => ?_) (fun endpointId others => ?_)
          fun thread new answer inserted => carries_of_number run differ lookup drawn inserted
        · rw [once]
          exact countP_target subscribers distinct ((subscribers endpoint).mpr subscribes)
        · rw [once]
          refine List.countP_eq_zero.mpr fun endpoint member isId => ?_
          exact others endpoint ((subscribers endpoint).mp member) (of_decide_eq_true isId)
    | _ => cases starts

/-! ## The deliveries are worked off -/

/-- A receiver has taken the delivery, or every attempt that a task has was made. -/
def WorkedOff (config : Config (service deployment)) (id : String) : Prop :=
  (∃ thread post answer, ⟨thread, .post post, .ok answer⟩ ∈ config.trace ∧
    post.delivery = some id ∧ 200 ≤ answer ∧ answer < 300) ∨
  deployment.config.maxAttempts ≤ postsOf id config.trace

theorem length_responses_le {endpoint : WebhookEndpoint} {delivery : WebhookDelivery}
    {past : History signature} (carries : Carries deployment endpoint delivery past) :
    (responses past).length ≤ past.countP (isPostOf delivery.id) := by
  rw [responses, List.length_filterMap_eq_countP]
  refine List.countP_mono_left fun performed member isResponse => ?_
  obtain ⟨call, answer⟩ := performed
  cases call with
  | post post =>
      obtain ⟨timestamp, isPost⟩ := carries _ member post rfl
      exact decide_eq_true (isPost ▸ rfl)
  | _ => cases isResponse

theorem countP_past_le (index : Nat) (id : String) :
    (config.past index).countP (isPostOf id) ≤ postsOf id config.trace := by
  rw [Config.past, countP_pastOf]
  exact List.countP_mono_left fun entry _ counted => (Bool.and_eq_true_iff.mp counted).2

/-- At rest the task of every delivery has worked it off. -/
theorem workedOff_of_inserted (run : Run allows (Config.initial state) config)
    (quiet : config.Quiet) {row : WebhookDelivery}
    (inserted : InsertedAs config.trace .webhookDelivery row) : WorkedOff config row.id := by
  obtain ⟨index, new, made⟩ := inserted
  obtain ⟨newer, older, split⟩ := List.append_of_mem (mem_pastOf.mpr made)
  obtain ⟨endpoint, _, _, _, _, code, lookup, -, -⟩ := inserts_of_split run split
  obtain ⟨outcome, finished⟩ := done_of_quiet quiet lookup
  have isEnded : TaskEnded deployment endpoint (config.past index) :=
    run.ensured fanOuts_fulfilled finished
  have isCreated := mem_pastOf.mpr made
  have isLoaded : loaded (config.past index) = some row := loaded_of_inserted run isCreated
  generalize isPast : config.past index = past at isEnded
  cases isEnded with
  | rejected createdAt new err =>
      rw [isPast] at isLoaded
      cases isLoaded
  | delivered insert delivery result lastAttemptAt created attempted =>
      rename_i earlier
      subst isPast
      obtain rfl := Option.some.inj ((loaded_of_inserted run created).symm.trans isLoaded)
      have before : ∀ performed ∈ earlier, ⟨index, performed⟩ ∈ config.trace := by
        intro performed member
        refine mem_pastOf.mp (?_ : performed ∈ config.past index)
        rw [attempted.last]
        exact List.mem_cons_of_mem _ member
      rcases attempted.concludes.ended with success | all
      · obtain ⟨answer, isAnswer, taken⟩ := (Option.any_eq_true _ _).mp success
        obtain ⟨post, isMade, isDelivery⟩ := exists_post_of_response attempted.carries isAnswer
        cases answer with
        | ok status =>
            have isOk : 200 ≤ status ∧ status < 300 := by
              simpa [isSuccess, WebhookDispatcher.isOk] using taken
            exact .inl ⟨index, post, status, before _ isMade, isDelivery, isOk⟩
        | error err => cases taken
      · refine .inr ?_
        calc deployment.config.maxAttempts
          _ = (responses earlier).length := all.symm
          _ ≤ earlier.countP (isPostOf delivery.id) := length_responses_le attempted.carries
          _ ≤ (config.past index).countP (isPostOf delivery.id) := by
            rw [attempted.last, List.countP_cons]
            exact Nat.le_add_right _ _
          _ ≤ postsOf delivery.id config.trace := countP_past_le index _

/-- Once the service is at rest, whatever has run beside, no news is lost and none is told
twice.  Every emitted event has been handled once.  Unless the listing of its subscribers was
rejected, one delivery has been inserted for each of them, or its insertion was rejected, and
none for anybody else.  And every delivery that went in has been sent until a receiver took it
or the attempts were used up. -/
theorem news_told_once (run : IssuedRun (.initial state) config) (quiet : config.Quiet)
    (differ : UuidsDiffer config.trace) :
    (∀ payload, config.serving (Request.handles payload) =
      config.trace.countP fun entry => emits payload entry.performed) ∧
    (∀ index payload code rows,
      config.threads[index]? = some ⟨.background (.handleEvent payload), code⟩ →
        ⟨index, .query (.enabledEndpoints payload.consumerUsername), .ok rows⟩ ∈ config.trace →
          ∃ moment, IssuedRun (.initial state) moment ∧ IssuedRun moment config ∧
            Notified config index payload moment.state.store) ∧
    ∀ row, InsertedAs config.trace .webhookDelivery row → WorkedOff config row.id := by
  refine ⟨serving_handles run, fun index payload code rows lookup listed => ?_,
    fun row inserted => workedOff_of_inserted run quiet inserted⟩
  obtain ⟨shown, isShown⟩ : ∃ shown, listing (config.past index) = some shown :=
    Option.isSome_iff_exists.mp
      (List.findSome?_isSome_iff.mpr ⟨_, mem_pastOf.mpr listed, rfl⟩)
  exact notified_of_listing run quiet differ lookup isShown

end Notification

/-- The UUIDs that were drawn, and by which threads. -/
def uuidsOf (trace : List (Entry signature)) : List (Nat × String) :=
  trace.filterMap fun entry =>
    (entry.performed.call.drawsUuid entry.performed.answer).map fun uuid => (entry.thread, uuid)

/-- The event that a request handles. -/
def event? : Request → Option WebhookEventPayload
  | .background (.handleEvent payload) => some payload
  | _ => none

/-- Whose subscribers the entry has listed. -/
def listed? (entry : Entry signature) : Option String :=
  match entry.performed with
  | ⟨.query (.enabledEndpoints username), .ok _⟩ => some username
  | _ => none

theorem eq_of_event? {request : Request} {payload : WebhookEventPayload}
    (handles : event? request = some payload) : request = .background (.handleEvent payload) := by
  unfold event? at handles
  split at handles
  · rw [Option.some.inj handles]
  · cases handles

theorem eq_of_listed? {entry : Entry signature} {username : String}
    (lists : listed? entry = some username) :
    ∃ rows, entry.performed = ⟨.query (.enabledEndpoints username), .ok rows⟩ := by
  unfold listed? at lists
  split at lists
  · rename_i rows isPerformed
    obtain rfl := Option.some.inj lists
    exact ⟨rows, isPerformed⟩
  · cases lists

theorem uuidsDiffer_of_single {trace : List (Entry signature)} {index : Nat} {number : String}
    (drawn : uuidsOf trace = [(index, number)]) : UuidsDiffer trace := by
  have once : ∀ thread uuid, ⟨thread, .randomUUID, .ok uuid⟩ ∈ trace → thread = index := by
    intro thread uuid made
    have member : (thread, uuid) ∈ uuidsOf trace := List.mem_filterMap.mpr ⟨_, made, rfl⟩
    rw [drawn] at member
    exact (Prod.mk.inj (List.mem_singleton.mp member)).1
  exact fun thread thread' uuid made made' => (once _ _ made).trans (once _ _ made').symm

/-- The one subscriber has been told of the new intent once, whatever is sent again. -/
theorem news_told_once_of_redelivered : ∃ payload moment,
    IssuedRun Sample.start moment ∧ IssuedRun moment redelivered ∧
      Notified redelivered 2 payload moment.state.store ∧
      redelivered.serving (Request.handles payload) = 1 ∧
      tellings "ep" "evt_u" redelivered.trace = 1 ∧ WorkedOff redelivered "d" := by
  have run : IssuedRun Sample.start redelivered := run_after (fun _ _ checked => checked) _ _
  have finished : ∀ thread ∈ redelivered.threads, thread.code.Finished := by
    decide +kernel
  have drawn : uuidsOf redelivered.trace = [(2, "u")] := by
    decide +kernel
  obtain ⟨handled, notified, workedOff⟩ :=
    news_told_once run finished (uuidsDiffer_of_single drawn)
  have shown : (redelivered.threads[2]?).any (fun thread =>
      (event? thread.request).any fun payload =>
        redelivered.trace.any (fun entry => decide (entry.thread = 2) &&
          decide (listed? entry = some payload.consumerUsername)) &&
        decide ((redelivered.trace.countP fun entry => emits payload entry.performed) = 1)) =
          true := by
    decide +kernel
  obtain ⟨⟨request, code⟩, lookup, handles⟩ := (Option.any_eq_true _ _).mp shown
  obtain ⟨payload, isEvent, traced⟩ := (Option.any_eq_true _ _).mp handles
  obtain rfl : request = _ := eq_of_event? isEvent
  obtain ⟨isListed, isEmitted⟩ := Bool.and_eq_true_iff.mp traced
  obtain ⟨⟨owner, performed⟩, member, lists⟩ := List.any_eq_true.mp isListed
  obtain ⟨isOwner, isListing⟩ := Bool.and_eq_true_iff.mp lists
  obtain rfl : owner = 2 := of_decide_eq_true isOwner
  obtain ⟨rows, rfl⟩ := eq_of_listed? (of_decide_eq_true isListing)
  obtain ⟨moment, reached, later, isNotified⟩ := notified 2 payload code rows lookup member
  have stored : (redelivered.state.store.find? .webhookDelivery "d").isSome = true := by
    decide +kernel
  obtain ⟨row, found⟩ := Option.isSome_iff_exists.mp stored
  have originates : @Originates .webhookDelivery _ redelivered.trace WebhookDelivery.event row :=
    originates_of_run (fun _ _ => rfl) rfl run found
  obtain ⟨origin, inserted, same⟩ := originates
  have isRow : row.id = "d" := Table.key_of_find? found
  have isOrigin : origin.id = "d" := (congrArg DeliveredEvent.id same).trans isRow
  exact ⟨payload, moment, reached, later, isNotified,
    (handled payload).trans (of_decide_eq_true isEmitted), by decide +kernel,
    isOrigin ▸ workedOff origin inserted⟩

end CosmosPay

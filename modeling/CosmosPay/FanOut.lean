import CosmosPay.Subscribers

/-!
# One delivery for each subscriber

A task inserts at most one delivery, and the row that is stored in the end follows from what
the task itself was answered, whatever the other tasks have met with.
-/

namespace CosmosPay

open Awaiting Tables Program WebhookDispatcher

section FanOut

variable {deployment : Deployment} {payload : WebhookEventPayload}
variable {config config' : Config (service deployment)} {state : World}

/-! ## The deliveries -/

def Call.patches : (call : Call) → signature.Result call → Option WebhookDeliveryPatch
  | .write (.update .webhookDelivery _ patch), .ok _ => some patch
  | _, _ => none

/-- What the statement of a loop has written, if it went through. -/
def finalPatch (past : History signature) : Option WebhookDeliveryPatch :=
  past.findSome? fun performed => performed.call.patches performed.answer

/-- The row that a thread leaves behind: the delivery that it has inserted, with what its loop
has written. -/
def delivered (past : History signature) : Option WebhookDelivery :=
  (loaded past).map fun row =>
    (finalPatch past).elim row fun patch => Model.apply .webhookDelivery patch row

/-- The deliveries that were not there at the start are those that the threads have left
behind. -/
structure Delivered (state : World) (config : Config (service deployment)) : Prop where
  old : ∀ id ∈ state.store.issued,
    config.state.store.find? .webhookDelivery id = state.store.find? .webhookDelivery id
  new : ∀ id, id ∉ state.store.issued → ∀ row : WebhookDelivery,
    config.state.store.find? .webhookDelivery id = some row ↔
      ∃ index, delivered (config.past index) = some row ∧ row.id = id
  fresh : ∀ index row, loaded (config.past index) = some row →
    row.id ∉ state.store.issued ∧ row.id ∈ config.state.store.issued
  apart : ∀ index index' row row', loaded (config.past index) = some row →
    loaded (config.past index') = some row' → row.id = row'.id → index = index'

omit deployment payload config config' state in
theorem loaded_of_delivered {past : History signature} {row : WebhookDelivery}
    (isDelivered : delivered past = some row) :
    ∃ created, loaded past = some created ∧ created.id = row.id := by
  obtain ⟨created, isLoaded, rfl⟩ := Option.map_eq_some_iff.mp isDelivered
  refine ⟨created, isLoaded, ?_⟩
  cases finalPatch past with
  | none => rfl
  | some patch => exact (Model.key_apply .webhookDelivery patch created).symm

omit deployment payload config config' state in
theorem finalPatch_of_unfinalized {past : History signature}
    (unfinalized : past.any finalizes = false) : finalPatch past = none := by
  refine List.findSome?_eq_none_iff.mpr fun performed member => ?_
  have notFinal : finalizes performed = false := by
    simpa using List.any_eq_false.mp unfinalized performed member
  obtain ⟨call, answer⟩ := performed
  cases patches : call.patches answer with
  | none => rfl
  | some patch =>
      unfold Call.patches at patches
      split at patches
      · cases notFinal
      · cases patches

omit deployment payload config config' state in
theorem delivered_of_unfinalized {past : History signature}
    (unfinalized : past.any finalizes = false) : delivered past = loaded past := by
  rw [delivered, finalPatch_of_unfinalized unfinalized]
  exact Option.map_id'

theorem Delivered.of_frame (isDelivered : Delivered state config)
    (store : config'.state.store = config.state.store)
    (loaded' : ∀ index, loaded (config'.past index) = loaded (config.past index))
    (delivered' : ∀ index, delivered (config'.past index) = delivered (config.past index)) :
    Delivered state config' where
  old := by simpa only [store] using isDelivered.old
  new := by simpa only [store, delivered'] using isDelivered.new
  fresh := by simpa only [store, loaded'] using isDelivered.fresh
  apart := by simpa only [loaded'] using isDelivered.apart

variable {allows : Config (service deployment) → Label (service deployment) → Prop}
variable {thread : Nat} {choice : Choice} {request : Request}

/-- A row is put under the id of the delivery of a thread. -/
theorem Delivered.puts (isDelivered : Delivered state config) {row : WebhookDelivery}
    (isNew : row.id ∉ state.store.issued)
    (lookup : ∀ id, config'.state.store.find? .webhookDelivery id =
      if row.id = id then some row else config.state.store.find? .webhookDelivery id)
    (frame : ∀ index, thread ≠ index → config'.past index = config.past index)
    (left : delivered (config'.past thread) = some row)
    (own : ∀ other, delivered (config.past thread) = some other → other.id = row.id)
    (others : ∀ index other, thread ≠ index → delivered (config.past index) = some other →
      other.id ≠ row.id) :
    (∀ id ∈ state.store.issued,
      config'.state.store.find? .webhookDelivery id = state.store.find? .webhookDelivery id) ∧
      ∀ id, id ∉ state.store.issued → ∀ other : WebhookDelivery,
        config'.state.store.find? .webhookDelivery id = some other ↔
          ∃ index, delivered (config'.past index) = some other ∧ other.id = id := by
  constructor
  · intro id known
    have differ : row.id ≠ id := fun same => isNew (same ▸ known)
    rw [lookup, if_neg differ, isDelivered.old id known]
  · intro id unknown other
    rw [lookup]
    by_cases same : row.id = id
    · rw [if_pos same]
      constructor
      · intro isRow
        obtain rfl := Option.some.inj isRow
        exact ⟨thread, left, same⟩
      · rintro ⟨index, isLeft, otherId⟩
        by_cases isThread : thread = index
        · subst isThread
          exact left.symm.trans isLeft
        · rw [frame index isThread] at isLeft
          exact absurd (otherId.trans same.symm) (others index other isThread isLeft)
    · rw [if_neg same, isDelivered.new id unknown other]
      refine exists_congr fun index => and_congr_left fun otherId => ?_
      have differ : other.id ≠ row.id := fun equal => same (equal.symm.trans otherId)
      by_cases isThread : thread = index
      · subst isThread
        refine iff_of_false (fun isLeft => differ (own other isLeft)) fun isLeft => ?_
        rw [left] at isLeft
        exact differ (congrArg WebhookDelivery.id (Option.some.inj isLeft)).symm
      · rw [frame index isThread]

theorem Delivered.inserts (isDelivered : Delivered state config)
    (known : ∀ id ∈ state.store.issued, id ∈ config.state.store.issued)
    {insert : NewWebhookDelivery} {created : WebhookDelivery}
    (resumes : Resumes allows config config' thread choice request
      ⟨.write (.create .webhookDelivery insert), .ok created⟩)
    (unloaded : loaded (config.past thread) = none)
    (unfinalized : (config.past thread).any finalizes = false) : Delivered state config' := by
  obtain ⟨drawn, isFresh, rfl, change⟩ := resumes.performs.of_create
  generalize isRow : Model.make .webhookDelivery insert drawn config.state.clock = created at *
  obtain rfl : created.id = drawn := by
    rw [← isRow]
    rfl
  have own : loaded (config'.past thread) = some created := by
    rw [resumes.past_self]
    rfl
  have left : delivered (config'.past thread) = some created := by
    rw [delivered_of_unfinalized, own]
    rw [resumes.past_self]
    exact unfinalized
  have nothing : delivered (config.past thread) = none := by
    rw [delivered, unloaded]
    rfl
  -- no other thread has the id that was drawn
  have others : ∀ index row, thread ≠ index → loaded (config'.past index) = some row →
      loaded (config.past index) = some row ∧ row.id ≠ created.id := by
    intro index row differ isLoaded
    rw [resumes.past_of_ne differ] at isLoaded
    exact ⟨isLoaded, fun same => isFresh (same ▸ (isDelivered.fresh index row isLoaded).2)⟩
  obtain ⟨old, new⟩ := isDelivered.puts (fun isOld => isFresh (known _ isOld))
    (fun id => by rw [change.lookup, isRow]) (fun _ differ => resumes.past_of_ne differ) left
    (fun other isLeft => by rw [nothing] at isLeft; cases isLeft)
    fun index other differ isLeft same => by
      obtain ⟨first, isLoaded, firstId⟩ := loaded_of_delivered isLeft
      rw [← resumes.past_of_ne differ] at isLoaded
      exact (others index first differ isLoaded).2 (firstId.trans same)
  refine ⟨old, new, fun index row isLoaded => ?_,
    fun index index' row row' isLoaded isLoaded' same => ?_⟩
  · rw [change.issued]
    by_cases isThread : thread = index
    · subst isThread
      obtain rfl := Option.some.inj (own.symm.trans isLoaded)
      exact ⟨fun isOld => isFresh (known _ isOld), List.mem_cons_self⟩
    · obtain ⟨first, isIssued⟩ :=
        isDelivered.fresh index row (others index row isThread isLoaded).1
      exact ⟨first, List.mem_cons_of_mem _ isIssued⟩
  · by_cases isThread : thread = index <;> by_cases isThread' : thread = index'
    · exact isThread.symm.trans isThread'
    · subst isThread
      obtain rfl := Option.some.inj (own.symm.trans isLoaded)
      exact absurd same.symm (others index' row' isThread' isLoaded').2
    · subst isThread'
      obtain rfl := Option.some.inj (own.symm.trans isLoaded')
      exact absurd same (others index row isThread isLoaded).2
    · exact isDelivered.apart index index' row row' (others index row isThread isLoaded).1
        (others index' row' isThread' isLoaded').1 same

theorem Delivered.finalizes (isDelivered : Delivered state config)
    {key : String} {patch : WebhookDeliveryPatch} {changed : WebhookDelivery}
    (resumes : Resumes allows config config' thread choice request
      ⟨.write (.update .webhookDelivery key patch), .ok changed⟩) {created : WebhookDelivery}
    (isLoaded : loaded (config.past thread) = some created) (isKey : created.id = key)
    (unfinalized : (config.past thread).any finalizes = false) : Delivered state config' := by
  obtain ⟨old, rfl, change⟩ := resumes.performs.of_update
  subst isKey
  obtain ⟨isNew, isIssued⟩ := isDelivered.fresh thread created isLoaded
  have before : delivered (config.past thread) = some created :=
    (delivered_of_unfinalized unfinalized).trans isLoaded
  obtain rfl : old = created := by
    have stored := (isDelivered.new created.id isNew created).mpr ⟨thread, before, rfl⟩
    exact Option.some.inj (change.found.symm.trans stored)
  have loaded' : ∀ index, loaded (config'.past index) = loaded (config.past index) := by
    intro index
    by_cases isThread : thread = index
    · subst isThread
      rw [resumes.past_self]
      rfl
    · rw [resumes.past_of_ne isThread]
  have left : delivered (config'.past thread) =
      some (Model.apply .webhookDelivery patch old) := by
    rw [delivered, loaded', isLoaded, resumes.past_self]
    rfl
  have unknown : (Model.apply .webhookDelivery patch old : WebhookDelivery).id ∉
      state.store.issued := isNew
  obtain ⟨old', new⟩ := isDelivered.puts unknown change.lookup
    (fun _ differ => resumes.past_of_ne differ) left
    (fun other isLeft => by
      rw [before] at isLeft
      exact (congrArg WebhookDelivery.id (Option.some.inj isLeft)).symm)
    fun index other differ isLeft same => by
      obtain ⟨first, isFirst, firstId⟩ := loaded_of_delivered isLeft
      exact differ (isDelivered.apart thread index old first isLoaded isFirst
        (firstId.trans same).symm)
  refine ⟨old', new, fun index row shown => ?_, fun index index' row row' shown shown' => ?_⟩
  · rw [change.issued]
    rw [loaded'] at shown
    exact isDelivered.fresh index row shown
  · rw [loaded'] at shown shown'
    exact isDelivered.apart index index' row row' shown shown'

/-- A call that neither shows nor changes a delivery. -/
theorem Delivered.ignores (isDelivered : Delivered state config)
    {performed : Performed signature}
    (resumes : Resumes allows config config' thread choice request performed)
    (blind : loads performed = none) (unpatched : performed.call.patches performed.answer = none)
    (noEffect : ∀ statement value, performed ≠ ⟨.write statement, .ok value⟩) :
    Delivered state config' := by
  have loaded' : ∀ index, loaded (config'.past index) = loaded (config.past index) := by
    intro index
    by_cases isThread : thread = index
    · subst isThread
      rw [resumes.past_self, loaded_cons blind]
    · rw [resumes.past_of_ne isThread]
  refine isDelivered.of_frame (resumes.performs.store_eq noEffect) loaded' fun index => ?_
  by_cases isThread : thread = index
  · subst isThread
    have patch : finalPatch (config'.past thread) = finalPatch (config.past thread) := by
      rw [resumes.past_self, finalPatch, List.findSome?_cons, unpatched]
      rfl
    rw [delivered, loaded', patch, delivered]
  · rw [resumes.past_of_ne isThread]

theorem Delivered.step (isDelivered : Delivered state config)
    (run : EventRun payload (.initial state) config) {performed : Performed signature}
    (resumes : Resumes (onlyEvent payload) config config' thread choice request performed) :
    Delivered state config' := by
  have known : ∀ id ∈ state.store.issued, id ∈ config.state.store.issued :=
    fun id isIssued => (issued_stable id).run run isIssued
  obtain ⟨resume, paused, -⟩ := resumes.paused
  have guarded : permitsDelivery deployment request (config.past thread) performed.call :=
    run.permitted deliveries_fulfilled paused
  have permitted := permitted_of_paused run paused
  have delivers := delivers_of_resumes (spread_of_run run) resumes permitted
  obtain ⟨call, answer⟩ := performed
  cases call with
  | write statement =>
      have isDelivery := delivers statement rfl
      cases answer with
      | error err =>
          refine isDelivered.ignores resumes rfl ?_ fun _ _ => by rintro ⟨⟩
          cases statement with
          | update model id patch => cases model <;> rfl
          | _ => rfl
      | ok value =>
          cases statement with
          | create model new =>
              cases model with
              | webhookDelivery => exact isDelivered.inserts known resumes guarded.2 guarded.1
              | _ => exact isDelivery.elim
          | update model id patch =>
              cases model with
              | webhookDelivery =>
                  obtain ⟨created, isLoaded, isId, -⟩ := guarded.2.loaded
                  exact isDelivered.finalizes resumes isLoaded isId guarded.1
              | _ => exact isDelivery.elim
          | _ => exact isDelivery.elim
  | query asked =>
      rcases (spread_of_run run).request paused with ⟨-, isEvent⟩ | ⟨_, endpoint, -, -, isTask⟩
      · obtain rfl : request = _ := isEvent
        obtain ⟨rfl, -⟩ := permitted
        exact isDelivered.ignores resumes (by cases answer <;> rfl) rfl fun _ _ => by rintro ⟨⟩
      · obtain rfl : request = _ := isTask
        exact permitted.elim
  | _ => exact isDelivered.ignores resumes (by cases answer <;> rfl) rfl fun _ _ => by rintro ⟨⟩

theorem delivered_of_run (run : EventRun payload (.initial state) config) :
    Delivered state config := by
  refine run.keeps (I := Delivered state) ?_ fun config config' reached isDelivered step => ?_
  · have nothing : ∀ index row,
        loaded ((Config.initial state : Config (service deployment)).past index) ≠ some row :=
      fun _ _ => by rintro ⟨⟩
    refine ⟨fun _ _ => rfl, fun id isNew row => ?_,
      fun index row isLoaded => absurd isLoaded (nothing index row),
      fun index _ row _ isLoaded => absurd isLoaded (nothing index row)⟩
    refine iff_of_false (fun stored => isNew (Store.issued_of_find? stored)) ?_
    rintro ⟨index, isLeft, -⟩
    cases isLeft
  · rcases step_cases step with ⟨sameTrace, drifts⟩ | ⟨thread, choice, request, _, resumes⟩
    · have past : ∀ index, config'.past index = config.past index := by
        intro index
        rw [Config.past, sameTrace, Config.past]
      exact isDelivered.of_frame drifts.store (fun index => by rw [past]) fun index => by rw [past]
    · exact isDelivered.step reached resumes

/-- What a task has inserted. -/
theorem created_of_loaded (run : EventRun payload (.initial state) config) {index : Nat}
    {created : WebhookDelivery} (isLoaded : loaded (config.past index) = some created) :
    ∃ endpoint createdAt drawn now code, Targeted payload config endpoint ∧
      config.threads[index]? = some ⟨taskRequest payload config endpoint, code⟩ ∧
      created = Model.make .webhookDelivery (newDelivery endpoint payload.type
        ("evt_" ++ drawnUuid (config.past 0)) payload.data createdAt) drawn now := by
  obtain ⟨performed, member, shows⟩ := List.exists_of_findSome?_eq_some isLoaded
  obtain ⟨before, after, choice, request, passed, resumes, -, code, lookup⟩ :=
    exists_resumes_of_mem run (mem_pastOf.mp member)
  obtain ⟨resume, paused, -⟩ := resumes.paused
  have permitted := permitted_of_paused passed paused
  obtain ⟨call, answer⟩ := performed
  rcases (spread_of_run run).request lookup with ⟨-, isEvent⟩ | ⟨_, endpoint, -, targeted, isTask⟩
  · obtain rfl : request = _ := isEvent
    cases call with
    | query asked =>
        obtain ⟨rfl, -⟩ := permitted
        cases answer <;> cases shows
    | write statement => exact permitted.elim
    | _ => cases answer <;> cases shows
  · obtain rfl : request = _ := isTask
    cases call with
    | write statement =>
        cases answer with
        | error err => cases shows
        | ok value =>
            cases statement with
            | create model new =>
                cases model with
                | webhookDelivery =>
                    obtain rfl := Option.some.inj shows
                    obtain ⟨createdAt, -, rfl⟩ := permitted
                    obtain ⟨drawn, -, isRow, -⟩ := resumes.performs.of_create
                    exact ⟨endpoint, createdAt, drawn, _, code, targeted, lookup, isRow⟩
                | _ => cases shows
            | _ => cases shows
    | query asked => exact permitted.elim
    | _ => cases answer <;> cases shows

/-- A delivery that was not there at the start. -/
def NewRow (state : World) (config : Config (service deployment)) (row : WebhookDelivery) : Prop :=
  row.id ∉ state.store.issued ∧ config.state.store.find? .webhookDelivery row.id = some row

/-- The row that a loop leaves of the delivery it was given. -/
def finalRow (created : WebhookDelivery) (outcome : Except ServiceError WebhookDelivery)
    (patch : WebhookDeliveryPatch) : WebhookDelivery :=
  match outcome with
  | .ok _ => Model.apply .webhookDelivery patch created
  | .error _ => created

/-- The delivery carries the event to the endpoint. -/
structure Carried (payload : WebhookEventPayload) (number : String) (endpoint : WebhookEndpoint)
    (row : WebhookDelivery) : Prop where
  endpointId : row.endpointId = endpoint.id
  eventId : row.eventId = number
  eventType : row.eventType = payload.type
  bodyId : row.payload.id = number
  bodyType : row.payload.type = payload.type
  bodyData : row.payload.data = payload.data

omit deployment config config' state in
theorem carried_new (payload : WebhookEventPayload) (endpoint : WebhookEndpoint)
    (number drawn : String) (createdAt now : Nat) :
    Carried payload number endpoint (Model.make .webhookDelivery
      (newDelivery endpoint payload.type number payload.data createdAt) drawn now) :=
  ⟨rfl, rfl, rfl, rfl, rfl, rfl⟩

omit deployment config config' state in
theorem Carried.apply {number : String} {endpoint : WebhookEndpoint} {row : WebhookDelivery}
    (carried : Carried payload number endpoint row) (patch : WebhookDeliveryPatch) :
    Carried payload number endpoint (Model.apply .webhookDelivery patch row) :=
  ⟨carried.endpointId, carried.eventId, carried.eventType, carried.bodyId, carried.bodyType,
    carried.bodyData⟩

/-- The number of the event. -/
def eventIdOf (config : Config (service deployment)) : String :=
  "evt_" ++ drawnUuid (config.past 0)

/-- Whatever a thread has left behind, it is the task of a subscriber. -/
theorem carried_of_delivered (run : EventRun payload (.initial state) config) {index : Nat}
    {row : WebhookDelivery} (left : delivered (config.past index) = some row) :
    ∃ endpoint code, Subscribes state.store payload endpoint ∧
      config.threads[index]? = some ⟨taskRequest payload config endpoint, code⟩ ∧
      Carried payload (eventIdOf config) endpoint row := by
  obtain ⟨created, isLoaded, rfl⟩ := Option.map_eq_some_iff.mp left
  obtain ⟨endpoint, createdAt, drawn, now, code, ⟨rows, shown, isTarget⟩, lookup, rfl⟩ :=
    created_of_loaded run isLoaded
  have carried := carried_new payload endpoint (eventIdOf config) drawn createdAt now
  refine ⟨endpoint, code, ((targets_of_run run shown).1 endpoint).mp isTarget, lookup, ?_⟩
  cases finalPatch (config.past index) with
  | none => exact carried
  | some patch => exact carried.apply patch

/-- The deliveries of an endpoint are what its task has left behind. -/
theorem newRow_iff (run : EventRun payload (.initial state) config) {index : Nat}
    {endpoint : WebhookEndpoint} {code : Promise Reply}
    (subscribes : Subscribes state.store payload endpoint)
    (lookup : config.threads[index]? = some ⟨taskRequest payload config endpoint, code⟩)
    (row : WebhookDelivery) :
    NewRow state config row ∧ row.endpointId = endpoint.id ↔
      delivered (config.past index) = some row := by
  have isDelivered := delivered_of_run run
  constructor
  · rintro ⟨⟨isNew, stored⟩, isOwn⟩
    obtain ⟨other, left, -⟩ := (isDelivered.new row.id isNew row).mp stored
    obtain ⟨endpoint', code', subscribes', lookup', carried⟩ := carried_of_delivered run left
    have sameId : endpoint'.id = endpoint.id := carried.endpointId.symm.trans isOwn
    obtain rfl : endpoint' = endpoint := by
      have stored' := subscribes'.stored
      rw [sameId] at stored'
      exact Option.some.inj (stored'.symm.trans subscribes.stored)
    obtain rfl := task_unique run lookup lookup'
    exact left
  · intro left
    obtain ⟨endpoint', code', -, lookup', carried⟩ := carried_of_delivered run left
    have sameTask : taskRequest payload config endpoint = taskRequest payload config endpoint' :=
      congrArg Thread.request (Option.some.inj (lookup.symm.trans lookup'))
    obtain rfl : endpoint = endpoint' :=
      (BackgroundTask.createAndDeliver.inj (Request.background.inj sameTask)).1
    obtain ⟨created, isLoaded, sameId⟩ := loaded_of_delivered left
    have isNew : row.id ∉ state.store.issued := sameId ▸ (isDelivered.fresh index _ isLoaded).1
    exact ⟨⟨isNew, (isDelivered.new row.id isNew row).mpr ⟨index, left, rfl⟩⟩,
      carried.endpointId⟩

omit payload config config' state in
/-- What a finished task has left behind. -/
theorem delivered_of_attempted {endpoint : WebhookEndpoint} {created : WebhookDelivery}
    {past earlier : History signature} {outcome : Except ServiceError WebhookDelivery}
    {lastAttemptAt : Nat}
    (attempted : Attempted deployment endpoint created past outcome lastAttemptAt earlier)
    (isLoaded : loaded past = some created) :
    delivered past =
      some (finalRow created outcome (conclusion created (responses earlier) lastAttemptAt)) := by
  rw [delivered, isLoaded]
  cases outcome with
  | ok row =>
      have written : finalPatch past =
          some (conclusion created (responses earlier) lastAttemptAt) := by
        rw [attempted.last]
        rfl
      rw [written]
      rfl
  | error err =>
      have unwritten : finalPatch past = none := by
        rw [attempted.last, finalPatch, List.findSome?_cons]
        exact finalPatch_of_unfinalized attempted.unfinalized
      rw [unwritten]
      rfl

/-- A thread works on the delivery that it has inserted. -/
theorem loaded_of_created (run : EventRun payload (.initial state) config) {index : Nat}
    {new : NewWebhookDelivery} {created : WebhookDelivery}
    (inserted : ⟨.write (.create .webhookDelivery new), .ok created⟩ ∈ config.past index) :
    loaded (config.past index) = some created := by
  obtain ⟨newer, older, split⟩ := List.append_of_mem inserted
  have whole : config.past index =
      [] ++ (newer ++ ⟨.write (.create .webhookDelivery new), .ok created⟩ :: older) := split
  rw [whole]
  exact loaded_append run whole rfl

/-- How the task of an endpoint has ended: without a delivery, as its insertion was rejected,
or with one, which the task itself has worked off. -/
inductive Informed (deployment : Deployment) (state : World) (config : Config (service deployment))
    (endpoint : WebhookEndpoint) (past : History signature) : Prop
  | rejected (createdAt : Nat) (new : NewWebhookDelivery) (err : ServiceError)
      (refused : past =
        [⟨.write (.create .webhookDelivery new), .error err⟩, ⟨.now, .ok createdAt⟩])
      (none : ∀ row, NewRow state config row → row.endpointId ≠ endpoint.id)
  | delivered (new : NewWebhookDelivery) (created : WebhookDelivery)
      (outcome : Except ServiceError WebhookDelivery) (lastAttemptAt : Nat)
      (earlier : History signature)
      (inserted : ⟨.write (.create .webhookDelivery new), .ok created⟩ ∈ past)
      (attempted : Attempted deployment endpoint created past outcome lastAttemptAt earlier)
      (only : ∀ row, NewRow state config row ∧ row.endpointId = endpoint.id ↔
        row = finalRow created outcome (conclusion created (responses earlier) lastAttemptAt))

theorem informed_of_ended (run : EventRun payload (.initial state) config) {index : Nat}
    {endpoint : WebhookEndpoint} {code : Promise Reply}
    (subscribes : Subscribes state.store payload endpoint)
    (lookup : config.threads[index]? = some ⟨taskRequest payload config endpoint, code⟩)
    (ended : TaskEnded deployment endpoint (config.past index)) :
    Informed deployment state config endpoint (config.past index) := by
  have left := newRow_iff run subscribes lookup
  generalize isPast : config.past index = past at ended left
  cases ended with
  | rejected createdAt new err =>
      refine .rejected createdAt new err rfl fun row isNew isOwn => ?_
      cases (left row).mp ⟨isNew, isOwn⟩
  | delivered new created outcome lastAttemptAt inserted attempted =>
      have isLoaded : loaded past = some created := by
        rw [← isPast] at inserted ⊢
        exact loaded_of_created run inserted
      refine .delivered new created outcome lastAttemptAt _ inserted attempted fun row => ?_
      rw [left, delivered_of_attempted attempted isLoaded]
      exact ⟨fun isRow => (Option.some.inj isRow).symm, fun isRow => congrArg some isRow.symm⟩

/-- Whatever fails on the way and however the tasks take turns, an event is told once to each
subscriber and to nobody else. -/
theorem event_fans_out (run : EventRun payload (.initial state) config) :
    (∃ config', EventRun payload config config' ∧ config'.Quiet) ∧ ∃ number,
      (∀ row, NewRow state config row → ∃ endpoint,
        Subscribes state.store payload endpoint ∧ Carried payload number endpoint row) ∧
      (∀ row row', NewRow state config row → NewRow state config row' →
        row.endpointId = row'.endpointId → row = row') ∧
      (config.Quiet → ∀ rows,
        ⟨0, .query (.enabledEndpoints payload.consumerUsername), .ok rows⟩ ∈ config.trace →
        ∀ endpoint, Subscribes state.store payload endpoint →
          ∃ (index : Nat) (outcome : Except ServiceError Reply),
            config.threads[index]? = some ⟨.background
              (.createAndDeliver endpoint payload.type number payload.data), .done outcome⟩ ∧
            Informed deployment state config endpoint (config.past index)) := by
  have isDelivered := delivered_of_run run
  refine ⟨exists_quiet run, eventIdOf config, fun row isNew => ?_,
    fun row row' isNew isNew' same => ?_, fun quiet rows listed endpoint subscribes => ?_⟩
  · obtain ⟨index, left, -⟩ := (isDelivered.new row.id isNew.1 row).mp isNew.2
    obtain ⟨endpoint, code, subscribes, -, carried⟩ := carried_of_delivered run left
    exact ⟨endpoint, subscribes, carried⟩
  · obtain ⟨index, left, -⟩ := (isDelivered.new row.id isNew.1 row).mp isNew.2
    obtain ⟨endpoint, code, subscribes, lookup, carried⟩ := carried_of_delivered run left
    have left' := (newRow_iff run subscribes lookup row').mp
      ⟨isNew', same.symm.trans carried.endpointId⟩
    exact Option.some.inj (left.symm.trans left')
  · obtain ⟨index, outcome, lookup⟩ := task_of_subscribes run quiet listed subscribes
    have ended : ensuresFanOut deployment (taskRequest payload config endpoint)
      (config.past index) := run.ensured fanOuts_fulfilled lookup
    exact ⟨index, outcome, lookup, informed_of_ended run subscribes lookup ended⟩

end FanOut

/-- No further request is made. -/
def uninterrupted : Config (service Sample.deployment) → Label (service Sample.deployment) → Bool
  | _, .issue _ => false
  | _, _ => true

theorem onlyEvent_of_uninterrupted (payload : WebhookEventPayload)
    (config : Config (service Sample.deployment)) (label : Label (service Sample.deployment))
    (checked : uninterrupted config label = true) : onlyEvent payload config label := by
  cases label with
  | issue request => cases checked
  | _ => trivial

def Sample.event : WebhookEventPayload where
  type := .paymentIntentCreated
  consumerUsername := "alice"
  data := intent

/-- A consumer with two endpoints. -/
def subscribed : Config (service Sample.deployment) :=
  after (fun _ _ => true)
    (Sample.register 0 "alice" "c" "ep" ++ Sample.register 1 "alice" "c'" "ep'") Sample.start

/-- The insertion for the second endpoint is rejected while the first one is being told. -/
def fannedOut : Config (service Sample.deployment) :=
  after uninterrupted
    ([.resume 0 (.arrange ["ep", "ep'"]), .resume 0 (.draw "u")] ++ Sample.serve 0 2 ++
      [.resume 1 .serve, .resume 2 .serve, .resume 1 (.draw "d"), .resume 2 .reject] ++
      Sample.post 1 200 ++ Sample.serve 1 2)
    ((Config.initial subscribed.state).issue (.background (.handleEvent Sample.event)))

theorem event_fans_out_of_fannedOut :
    (∀ thread ∈ fannedOut.threads, thread.code.Finished) ∧
      ∃ row, fannedOut.state.store.find? .webhookDelivery "d" = some row ∧
        row.status = .succeeded ∧
        ∃ number endpoint, Subscribes subscribed.state.store Sample.event endpoint ∧
          Carried Sample.event number endpoint row ∧
          ∀ other, NewRow subscribed.state fannedOut other → other.endpointId = row.endpointId →
            other = row := by
  have finished : ∀ thread ∈ fannedOut.threads, thread.code.Finished := by
    decide +kernel
  have told : (fannedOut.state.store.find? .webhookDelivery "d").any
      (fun row => row.id = "d" ∧ row.status = .succeeded) = true := by
    decide +kernel
  have unknown : "d" ∉ subscribed.state.store.issued := by
    decide +kernel
  obtain ⟨row, found, isRow⟩ := (Option.any_eq_true _ _).mp told
  obtain ⟨isId, succeeded⟩ := of_decide_eq_true isRow
  have isNew : NewRow subscribed.state fannedOut row :=
    ⟨by rwa [isId], by rwa [isId]⟩
  obtain ⟨-, number, carried, once, -⟩ := event_fans_out (.head (.issue _ ⟨rfl, rfl⟩)
    (run_after (onlyEvent_of_uninterrupted Sample.event) _ _))
  obtain ⟨endpoint, subscribes, isCarried⟩ := carried row isNew
  exact ⟨finished, row, found, succeeded, number, endpoint, subscribes, isCarried,
    fun other isOther same => once other row isOther isNew same⟩

end CosmosPay

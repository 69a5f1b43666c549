import CosmosPay.Retries

/-!
# The tasks of an event

`handleEvent` starts one task for each target, in the order of the listing that it was
shown.  A task inserts one delivery and works it off; no other statement is among its calls,
and it starts nothing itself.
-/

namespace CosmosPay

open Awaiting Program WebhookDispatcher

/-- Calls that no choice makes fail. -/
def Call.Unfailing : Call → Prop
  | .now => True
  | .sleep _ => True
  | .randomUUID => True
  | .start _ => True
  | _ => False

def Steady (performed : Performed signature) : Prop :=
  performed.call.Unfailing → ∃ value, performed.answer = .ok value

theorem Steady.timed {performed : Performed signature} (steady : Steady performed) :
    Timed performed := by
  obtain ⟨call, answer⟩ := performed
  intro isTimer
  refine steady ?_
  cases call <;> first | exact isTimer.elim | trivial

/-! ## What is started -/

/-- The endpoints of a listing that the event goes to. -/
def targetsOf (payload : WebhookEventPayload) (rows : List WebhookEndpoint) :
    List WebhookEndpoint :=
  rows.filter fun endpoint =>
    endpoint.eventTypes.isEmpty || endpoint.eventTypes.contains payload.type

def tasksOf (payload : WebhookEventPayload) (uuid : String) (targets : List WebhookEndpoint) :
    List BackgroundTask :=
  targets.map fun endpoint =>
    .createAndDeliver endpoint payload.type ("evt_" ++ uuid) payload.data

def Call.starts : Call → Option BackgroundTask
  | .start task => some task
  | _ => none

/-- The tasks that a thread has started, the newest first. -/
def started (past : History signature) : List BackgroundTask :=
  past.filterMap fun performed => performed.call.starts

def Call.lists : (call : Call) → signature.Result call → Option (List WebhookEndpoint)
  | .query (.enabledEndpoints _), .ok rows => some rows
  | _, _ => none

/-- The endpoints that a thread was shown. -/
def listing (past : History signature) : Option (List WebhookEndpoint) :=
  past.findSome? fun performed => performed.call.lists performed.answer

def Call.drawsUuid : (call : Call) → signature.Result call → Option String
  | .randomUUID, .ok uuid => some uuid
  | _, _ => none

/-- The number of the event, once it has been drawn. -/
def drawnUuid (past : History signature) : String :=
  (past.findSome? fun performed => performed.call.drawsUuid performed.answer).getD ""

/-! ## The contract -/

def permitsHandling (payload : WebhookEventPayload) (past : History signature) : Call → Prop
  | .query asked => asked = .enabledEndpoints payload.consumerUsername ∧ past = []
  | .randomUUID => started past = []
  | .start task => ∃ rows rest, listing past = some rows ∧
      tasksOf payload (drawnUuid past) (targetsOf payload rows) =
        (started past).reverse ++ task :: rest
  | _ => False

/-- Every target of the listing has its task. -/
def ensuresHandling (payload : WebhookEventPayload) (past : History signature) : Prop :=
  ∀ rows, listing past = some rows →
    tasksOf payload (drawnUuid past) (targetsOf payload rows) = (started past).reverse

/-- The delivery of a task. -/
def newDelivery (endpoint : WebhookEndpoint) (eventType : WebhookEventType) (eventId : String)
    (data : PaymentIntent) (createdAt : Nat) : NewWebhookDelivery where
  endpointId := endpoint.id
  eventType := eventType
  eventId := eventId
  payload := { id := eventId, type := eventType, createdAt, data }
  status := .pending

def permitsTask (endpoint : WebhookEndpoint) (eventType : WebhookEventType) (eventId : String)
    (data : PaymentIntent) (past : History signature) : Call → Prop
  | .write (.create .webhookDelivery new) => ∃ createdAt,
      past = [⟨.now, .ok createdAt⟩] ∧ new = newDelivery endpoint eventType eventId data createdAt
  | call => call.Attempts

/-- The insertion was rejected, or the delivery has been worked off. -/
inductive TaskEnded (deployment : Deployment) (endpoint : WebhookEndpoint) :
    History signature → Prop
  | rejected (createdAt : Nat) (new : NewWebhookDelivery) (err : ServiceError) :
      TaskEnded deployment endpoint
        [⟨.write (.create .webhookDelivery new), .error err⟩, ⟨.now, .ok createdAt⟩]
  | delivered {past earlier : History signature} (new : NewWebhookDelivery)
      (delivery : WebhookDelivery) (outcome : Except ServiceError WebhookDelivery)
      (lastAttemptAt : Nat) (created : ⟨.write (.create .webhookDelivery new), .ok delivery⟩ ∈ past)
      (attempted : Attempted deployment endpoint delivery past outcome lastAttemptAt earlier) :
      TaskEnded deployment endpoint past

def permitsFanOut (request : Request) (past : History signature) (call : Call) : Prop :=
  match request with
  | .background (.handleEvent payload) => permitsHandling payload past call
  | .background (.createAndDeliver endpoint eventType eventId data) =>
      permitsTask endpoint eventType eventId data past call
  | _ => True

def ensuresFanOut (deployment : Deployment) (request : Request) (past : History signature) :
    Prop :=
  match request with
  | .background (.handleEvent payload) => ensuresHandling payload past
  | .background (.createAndDeliver endpoint _ _ _) => TaskEnded deployment endpoint past
  | _ => True

def fanOuts (deployment : Deployment) : Contract (service deployment) where
  relies := Steady
  permits := permitsFanOut
  ensures request past _ := ensuresFanOut deployment request past

section Contract

variable {deployment : Deployment} {past : History signature}

theorem started_start (task : BackgroundTask) (answer : Except ServiceError Unit) :
    started (⟨.start task, answer⟩ :: past) = task :: started past :=
  rfl

theorem permitsTask_of_attempts {endpoint : WebhookEndpoint} {eventType : WebhookEventType}
    {eventId : String} {data : PaymentIntent} {call : Call} (attempts : call.Attempts) :
    permitsTask endpoint eventType eventId data past call := by
  unfold permitsTask
  split
  · exact attempts.elim
  · exact attempts

theorem fansOut_handleEvent (payload : WebhookEventPayload) :
    (handleEvent payload).Conforms Steady (permitsHandling payload)
      (fun past _ => ensuresHandling payload past) [] := by
  refine conforms_call_bind.mpr ⟨⟨rfl, rfl⟩, fun err _ rows shown => ?_, fun rows _ => ?_⟩
  · cases shown
  change (if (targetsOf payload rows).isEmpty then pure () else _ : Promise Unit).Conforms _ _ _ _
  split
  · rename_i nobody
    intro shown isShown
    obtain rfl := Option.some.inj isShown
    rw [tasksOf, List.isEmpty_iff.mp nobody]
    rfl
  · refine conforms_call_bind.mpr ⟨rfl, fun err steady => ?_, fun uuid _ => ?_⟩
    · obtain ⟨value, isOk⟩ := steady trivial
      cases isOk
    · refine conforms_forM (fun targets past => listing past = some rows ∧
          drawnUuid past = uuid ∧ tasksOf payload uuid (targetsOf payload rows) =
            (started past).reverse ++ tasksOf payload uuid targets)
        _ ?_ (fun past handled shown isShown => ?_) _ ⟨rfl, rfl, rfl⟩
      · rintro endpoint rest past ⟨shown, isUuid, split⟩
        refine ⟨⟨rows, tasksOf payload uuid rest, shown, isUuid ▸ split⟩, fun answer steady => ?_⟩
        cases answer with
        | error err =>
            obtain ⟨value, isOk⟩ := steady trivial
            cases isOk
        | ok value =>
            refine ⟨shown, isUuid, ?_⟩
            rw [started_start, List.reverse_cons, List.append_assoc]
            exact split
      · obtain ⟨known, isUuid, split⟩ := handled
        obtain rfl := Option.some.inj (known.symm.trans isShown)
        rw [isUuid, split]
        exact List.append_nil _

theorem fansOut_createAndDeliver (endpoint : WebhookEndpoint) (eventType : WebhookEventType)
    (eventId : String) (data : PaymentIntent) :
    (createAndDeliver deployment endpoint eventType eventId data).Conforms Steady
      (permitsTask endpoint eventType eventId data)
      (fun past _ => TaskEnded deployment endpoint past) [] := by
  refine conforms_call_bind.mpr ⟨trivial, fun err steady => ?_, fun now _ => ?_⟩
  · obtain ⟨value, isOk⟩ := steady trivial
    cases isOk
  refine conforms_call_bind.mpr ⟨⟨now, rfl, rfl⟩, fun err _ => .rejected now _ err,
    fun delivery _ => ?_⟩
  rw [conforms_bind]
  have attempts := (@attempts_attempt deployment endpoint delivery
    [⟨.write (.create .webhookDelivery (newDelivery endpoint eventType eventId data now)),
      .ok delivery⟩, ⟨.now, .ok now⟩] rfl (by simp)).relying fun _ => Steady.timed
  refine attempts.grows.mono (fun past call => permitsTask_of_attempts)
    fun past outcome ended => ?_
  · obtain ⟨known, lastAttemptAt, earlier, attempted⟩ := ended
    have isEnded : TaskEnded deployment endpoint past :=
      .delivered _ delivery outcome lastAttemptAt (known List.mem_cons_self) attempted
    cases outcome <;> exact isEnded

theorem fanOuts_fulfilled : (fanOuts deployment).Fulfilled where
  answers performed := by
    rename_i call choice world served
    intro unfailing
    cases call with
    | now => exact ⟨world.clock, by rw [World.perform_now performed]; rfl⟩
    | sleep milliseconds | start task =>
        cases choice with
        | serve => exact ⟨(), (congrArg Served.answer (Option.some.inj performed)).symm⟩
        | _ => cases performed
    | randomUUID =>
        cases choice with
        | draw id => exact ⟨id, (congrArg Served.answer (Option.some.inj performed)).symm⟩
        | _ => cases performed
    | _ => exact unfailing.elim
  bodies request := by
    cases request with
    | background task =>
        cases task with
        | handleEvent payload => exact (conforms_map _ _).mpr (fansOut_handleEvent payload)
        | createAndDeliver endpoint eventType eventId data =>
            exact (conforms_map _ _).mpr
              (fansOut_createAndDeliver endpoint eventType eventId data)
        | _ => exact conforms_of_forall _ (fun _ _ => trivial) fun _ _ => trivial
    | _ => exact conforms_of_forall _ (fun _ _ => trivial) fun _ _ => trivial

end Contract

end CosmosPay

import CosmosPay.Answers
import CosmosPay.Contracts.Kinds

/-!
# The attempt loop

A thread delivers at most one delivery, which it has created or loaded.  It POSTs it to the
endpoint that it was given or has found, as long as no receiver answer was a 2xx and attempts
are left, and ends with one statement that adds its POSTs to the attempts it has loaded.
Nothing in the contract says that the loaded row and the endpoint are still the stored ones.
-/

namespace CosmosPay

open Awaiting Program WebhookDispatcher

/-! ## Requests that deliver nothing -/

def Call.Undelivering : Call → Prop
  | .post request => request.delivery = none
  | .write (.create .webhookDelivery _) => False
  | .write (.update .webhookDelivery _ _) => False
  | .query (.deliveryOf _ _) => False
  | .start (.createAndDeliver _ _ _ _) => False
  | _ => True

theorem Call.Catalogs.undelivering {call : Call} (catalogs : call.Catalogs) :
    call.Undelivering := by
  unfold Call.Undelivering
  split <;> first | exact catalogs.elim | trivial

theorem Call.Aggregates.undelivering {call : Call} (aggregates : call.Aggregates) :
    call.Undelivering := by
  unfold Call.Undelivering
  split <;> first | exact aggregates.elim | trivial

theorem Call.Manages.undelivering {call : Call} (manages : call.Manages) :
    call.Undelivering := by
  unfold Call.Undelivering
  split <;> first | exact manages | exact manages.elim | trivial

theorem Call.Intends.undelivering {call : Call} (intends : call.Intends) :
    call.Undelivering := by
  unfold Call.Undelivering
  split <;> first | exact intends.elim | trivial

theorem Call.Passes.undelivering {call : Call} (passes : call.Passes) : call.Undelivering := by
  unfold Call.Undelivering
  split <;> first | exact passes.elim | trivial

section Undelivering

open PaymentIntents

variable {deployment : Deployment}

theorem undelivering_tick (node : Nat) :
    (StellarObserver.tick deployment node).Calls Call.Undelivering := by
  refine Calls.call_bind (by trivial) fun entered => ?_
  split
  · have cycle := (@passes_cycle deployment).mono fun _ => Call.Passes.undelivering
    exact Calls.bind (Calls.tryCatch cycle fun _ => calls_pure _) fun _ => calls_call (by trivial)
  · exact calls_pure _

/-- Requests that neither deliver nor start a delivery. -/
def Request.Undelivering : Request → Prop
  | .webhooks (.redeliver _ _ _) => False
  | .background (.handleEvent _) => False
  | .background (.createAndDeliver _ _ _ _) => False
  | _ => True

theorem calls_undelivering {request : Request} (undelivering : request.Undelivering) :
    (request.body deployment).Calls Call.Undelivering := by
  cases request with
  | paymentIntents request =>
      exact (handles_paymentIntents request).mono fun _ handles => handles.intends.undelivering
  | webhooks request =>
      refine (manages_webhooks fun redelivers => ?_).mono fun _ => Call.Manages.undelivering
      cases request with
      | redeliver consumer endpointId deliveryId => exact undelivering
      | _ => exact redelivers
  | customers request =>
      exact (catalogs_customers request).mono fun _ => Call.Catalogs.undelivering
  | products request =>
      exact (catalogs_products request).mono fun _ => Call.Catalogs.undelivering
  | analytics request =>
      exact (aggregates_analytics request).mono fun _ => Call.Aggregates.undelivering
  | tick node => exact (undelivering_tick node).map _
  | background task =>
      cases task with
      | upsertCustomerFromPayment intent payer =>
          exact ((intends_upsertCustomerFromPayment intent payer).mono
            fun _ => Call.Intends.undelivering).map _
      | _ => exact undelivering.elim

end Undelivering

/-! ## The contract -/

/-- The delivery that a call has created or loaded. -/
def Call.loads : (call : Call) → call.Answer → Option WebhookDelivery
  | .query (.deliveryOf _ _), found => found
  | .write (.create .webhookDelivery _), row => some row
  | _, _ => none

def loads (performed : Performed signature) : Option WebhookDelivery :=
  match performed.answer with
  | .ok answer => performed.call.loads answer
  | .error _ => none

/-- The delivery that a thread works on. -/
def loaded (past : History signature) : Option WebhookDelivery :=
  past.findSome? loads

def Call.finds : (call : Call) → call.Answer → Option WebhookEndpoint
  | .query (.endpoint _), found => found
  | _, _ => none

def finds (performed : Performed signature) : Option WebhookEndpoint :=
  match performed.answer with
  | .ok answer => performed.call.finds answer
  | .error _ => none

/-- The endpoint that a thread sends its delivery to, as the thread knows it. -/
def receiver (request : Request) (past : History signature) : Option WebhookEndpoint :=
  match request with
  | .background (.createAndDeliver endpoint _ _ _) => some endpoint
  | .webhooks (.redeliver _ _ _) => past.findSome? finds
  | _ => none

/-- Is the call a POST of a delivery? -/
def isDeliveryPost (performed : Performed signature) : Bool :=
  match performed.call with
  | .post request => request.delivery.isSome
  | _ => false

/-- How many POSTs a thread has made. -/
def posted (past : History signature) : Nat :=
  past.countP isDeliveryPost

def Call.acknowledges : (call : Call) → call.Answer → Bool
  | .post request, status => request.delivery.isSome && isOk status
  | _, _ => false

/-- Is the call a POST of a delivery that was answered with a 2xx? -/
def acknowledges (performed : Performed signature) : Bool :=
  match performed.answer with
  | .ok answer => performed.call.acknowledges answer
  | .error _ => false

def acknowledged (past : History signature) : Bool :=
  past.any acknowledges

/-- Is the call the one that ends a loop? -/
def finalizes (performed : Performed signature) : Bool :=
  match performed.call with
  | .write (.update .webhookDelivery _ _) => true
  | _ => false

/-- The statement that ends a loop. -/
structure Finalizes (past : History signature) (id : String) (patch : WebhookDeliveryPatch) :
    Prop where
  loaded : ∃ delivery, CosmosPay.loaded past = some delivery ∧ delivery.id = id ∧
    patch.attempts = delivery.attempts + posted past
  status : patch.status = if acknowledged past then .succeeded else .failed

section Contract

variable (deployment : Deployment)

/-- The POST of a loop that goes on. -/
structure Sends (request : Request) (past : History signature) (post : WebhookPost) : Prop where
  signed : ∃ endpoint delivery timestamp, receiver request past = some endpoint ∧
    loaded past = some delivery ∧ post = deliveryPost deployment endpoint delivery
      (deployment.libraries.stringify delivery.payload) timestamp
  unacknowledged : acknowledged past = false
  remaining : posted past < deployment.config.maxAttempts

/-- A task is started for an endpoint of the listing that `handleEvent` was shown. -/
def StartsListed (request : Request) (past : History signature) (endpoint : WebhookEndpoint) :
    Prop :=
  ∃ payload rows, request = .background (.handleEvent payload) ∧
    ⟨.query (.enabledEndpoints payload.consumerUsername), .ok rows⟩ ∈ past ∧ endpoint ∈ rows

def permitsDeliveryCall (request : Request) (past : History signature) : Call → Prop
  | .post post => post.delivery = none ∨ Sends deployment request past post
  | .write (.create .webhookDelivery _) => loaded past = none
  | .write (.update .webhookDelivery id patch) => Finalizes past id patch
  | .query (.deliveryOf _ _) => loaded past = none
  | .start (.createAndDeliver endpoint _ _ _) => StartsListed request past endpoint
  | _ => True

/-- Nothing follows the statement that ends a loop. -/
def permitsDelivery (request : Request) (past : History signature) (call : Call) : Prop :=
  past.any finalizes = false ∧ permitsDeliveryCall deployment request past call

/-- A loop that has made a POST ends with its statement. -/
def ensuresDelivery {α : Type} (past : History signature) (_ : Except ServiceError α) : Prop :=
  past.any finalizes = true ∨ posted past = 0

/-- The clock and the timer answer. -/
def Call.IsTimer : Call → Prop
  | .now => True
  | .sleep _ => True
  | _ => False

def Reliable (performed : Performed signature) : Prop :=
  Believable performed ∧ (performed.call.IsTimer → ∃ value, performed.answer = .ok value)

def deliveries : Contract (service deployment) where
  relies := Reliable
  permits := permitsDelivery deployment
  ensures _ := ensuresDelivery

end Contract

/-! ## The loop -/

section Loop

variable {deployment : Deployment} {request : Request} {past : History signature}

/-- What a thread has delivered so far. -/
structure Counting (delivery : WebhookDelivery) (attempts : Nat) (past : History signature) :
    Prop where
  loaded : CosmosPay.loaded past = some delivery
  unfinalized : past.any finalizes = false
  attempts : attempts = delivery.attempts + posted past

/-- Where a loop stands. -/
structure Looping (deployment : Deployment) (request : Request) (endpoint : WebhookEndpoint)
    (delivery : WebhookDelivery) (remaining attempts : Nat) (past : History signature) :
    Prop extends Counting delivery attempts past where
  receiver : CosmosPay.receiver request past = some endpoint
  unacknowledged : acknowledged past = false
  remaining : posted past + remaining = deployment.config.maxAttempts

variable {endpoint : WebhookEndpoint} {delivery : WebhookDelivery} {remaining attempts : Nat}

theorem receiver_cons {performed : Performed signature} (blind : finds performed = none) :
    receiver request (performed :: past) = receiver request past := by
  unfold receiver
  split
  · rfl
  · rw [List.findSome?_cons, blind]
  · rfl

theorem loaded_cons {performed : Performed signature} (blind : loads performed = none) :
    loaded (performed :: past) = loaded past := by
  rw [loaded, List.findSome?_cons, blind]
  rfl

/-- The clock and the timer tell nothing about deliveries. -/
structure Blind (performed : Performed signature) : Prop where
  loads : CosmosPay.loads performed = none
  finds : CosmosPay.finds performed = none
  acknowledges : CosmosPay.acknowledges performed = false
  finalizes : CosmosPay.finalizes performed = false
  post : isDeliveryPost performed = false

theorem Call.IsTimer.blind (call : Call) (isTimer : call.IsTimer)
    (answer : Except ServiceError call.Answer) : Blind ⟨call, answer⟩ := by
  cases call <;>
    first | exact isTimer.elim | (cases answer <;> exact ⟨rfl, rfl, rfl, rfl, rfl⟩)

theorem Counting.cons (counting : Counting delivery attempts past)
    {performed : Performed signature} (blind : Blind performed) :
    Counting delivery attempts (performed :: past) where
  loaded := (loaded_cons blind.loads).trans counting.loaded
  unfinalized := by simpa [blind.finalizes] using counting.unfinalized
  attempts := by simpa [posted, blind.post] using counting.attempts

theorem acknowledged_cons {performed : Performed signature} (blind : Blind performed) :
    acknowledged (performed :: past) = acknowledged past := by
  simp [acknowledged, blind.acknowledges]

theorem Looping.cons (looping : Looping deployment request endpoint delivery remaining attempts
    past) {performed : Performed signature} (blind : Blind performed) :
    Looping deployment request endpoint delivery remaining attempts (performed :: past) where
  toCounting := looping.toCounting.cons blind
  receiver := (receiver_cons blind.finds).trans looping.receiver
  unacknowledged := (acknowledged_cons blind).trans looping.unacknowledged
  remaining := by simpa [posted, blind.post] using looping.remaining

theorem delivers_finalize {status : WebhookDeliveryStatus} {responseStatus : Option Nat}
    {error : Option String} (counting : Counting delivery attempts past)
    (isStatus : status = if acknowledged past then .succeeded else .failed) :
    (finalize delivery.id status attempts responseStatus error).Conforms Reliable
      (permitsDelivery deployment request) ensuresDelivery past := by
  refine conforms_call_bind.mpr ⟨⟨counting.unfinalized, trivial⟩, fun err relied => ?_,
    fun now _ => ?_⟩
  · obtain ⟨value, isOk⟩ := relied.2 trivial
    cases isOk
  · have blind := Call.IsTimer.blind .now trivial (.ok now)
    have later := counting.cons blind
    refine ⟨⟨later.unfinalized, ⟨delivery, later.loaded, rfl, later.attempts⟩, ?_⟩,
      fun answer _ => .inl ?_⟩
    · rw [acknowledged_cons blind]
      exact isStatus
    · simp [finalizes]

/-- A POST of the loop, whatever comes back. -/
theorem Counting.post (counting : Counting delivery attempts past) {post : WebhookPost}
    (isDelivery : post.delivery = some delivery.id) (answer : Except ServiceError Nat) :
    Counting delivery (attempts + 1) (⟨.post post, answer⟩ :: past) where
  loaded := (loaded_cons (by cases answer <;> rfl)).trans counting.loaded
  unfinalized := by simpa [finalizes] using counting.unfinalized
  attempts := by
    have isPost : isDeliveryPost ⟨.post post, answer⟩ = true := by
      simp [isDeliveryPost, isDelivery]
    rw [counting.attempts, posted, posted, List.countP_cons_of_pos isPost]
    omega

theorem Looping.post
    (looping : Looping deployment request endpoint delivery (remaining + 1) attempts past)
    {post : WebhookPost} (isDelivery : post.delivery = some delivery.id)
    {answer : Except ServiceError Nat}
    (unacknowledged : acknowledged (⟨.post post, answer⟩ :: past) = false) :
    Looping deployment request endpoint delivery remaining (attempts + 1)
      (⟨.post post, answer⟩ :: past) where
  toCounting := looping.toCounting.post isDelivery answer
  receiver := (receiver_cons (by cases answer <;> rfl)).trans looping.receiver
  unacknowledged := unacknowledged
  remaining := by
    have before := looping.attempts
    have after := (looping.toCounting.post isDelivery answer).attempts
    have bound := looping.remaining
    omega

theorem acknowledged_post {post : WebhookPost} (isDelivery : post.delivery = some delivery.id)
    (status : Nat) (unacknowledged : acknowledged past = false) :
    acknowledged (⟨.post post, .ok status⟩ :: past) = isOk status := by
  have rest : past.any acknowledges = false := unacknowledged
  simp [acknowledged, rest, acknowledges, Call.acknowledges, isDelivery]

theorem delivers_backoff {i : Nat} {next : Promise WebhookDelivery}
    (looping : Looping deployment request endpoint delivery remaining attempts past)
    (rest : ∀ later, Looping deployment request endpoint delivery remaining attempts later →
      next.Conforms Reliable (permitsDelivery deployment request) ensuresDelivery later) :
    (do backoff deployment remaining i
        next : Promise WebhookDelivery).Conforms Reliable (permitsDelivery deployment request)
      ensuresDelivery past := by
  unfold backoff
  split
  · refine conforms_call_bind.mpr ⟨⟨looping.unfinalized, trivial⟩, fun err relied => ?_,
      fun _ _ => ?_⟩
    · obtain ⟨value, isOk⟩ := relied.2 trivial
      cases isOk
    · exact rest _ (looping.cons (Call.IsTimer.blind (.sleep _) trivial _))
  · exact rest past looping

/-- The loop counts its POSTs and ends with their total. -/
theorem delivers_attemptLoop {i : Nat} {lastError : Option String} {responseStatus : Option Nat}
    (looping : Looping deployment request endpoint delivery remaining attempts past) :
    (attemptLoop deployment endpoint delivery
      (deployment.libraries.stringify delivery.payload) remaining i attempts lastError
      responseStatus).Conforms Reliable (permitsDelivery deployment request) ensuresDelivery
      past := by
  induction remaining generalizing i attempts lastError responseStatus past with
  | zero =>
      refine delivers_finalize looping.toCounting ?_
      rw [looping.unacknowledged]
      rfl
  | succ remaining ih =>
      refine conforms_call_bind.mpr ⟨⟨looping.unfinalized, trivial⟩, fun err relied => ?_,
        fun now _ => ?_⟩
      · obtain ⟨value, isOk⟩ := relied.2 trivial
        cases isOk
      have looping := looping.cons (Call.IsTimer.blind .now trivial (.ok now))
      generalize (⟨.now, .ok now⟩ :: past : History signature) = past at looping ⊢
      let post := deliveryPost deployment endpoint delivery
        (deployment.libraries.stringify delivery.payload) (now / 1000)
      have isDelivery : post.delivery = some delivery.id := rfl
      rw [conforms_bind]
      refine conforms_call_tryCatch.mpr ⟨?_, fun err _ => ?_, fun status _ => ?_⟩
      · refine ⟨looping.unfinalized, .inr ⟨⟨endpoint, delivery, _, looping.receiver,
          looping.loaded, rfl⟩, looping.unacknowledged, ?_⟩⟩
        have bound := looping.remaining
        omega
      · have unacknowledged : acknowledged (⟨.post post, .error err⟩ :: past) = false := by
          simpa [acknowledged, acknowledges] using looping.unacknowledged
        exact delivers_backoff (looping.post isDelivery unacknowledged) fun later looping =>
          ih looping
      · have answered := acknowledged_post isDelivery status looping.unacknowledged
        refine (andThen_ok _ _).mpr ?_
        simp only
        split
        · rename_i isTwoHundred
          refine delivers_finalize (looping.toCounting.post isDelivery (.ok status)) ?_
          rw [answered, isTwoHundred]
          rfl
        · rename_i notOk
          have unacknowledged := answered.trans (Bool.eq_false_iff.mpr notOk)
          exact delivers_backoff (looping.post isDelivery unacknowledged) fun later looping =>
            ih looping

end Loop

/-! ## The requests -/

section Requests

variable {deployment : Deployment} {request : Request} {past : History signature}

theorem Call.Undelivering.quiet {performed : Performed signature}
    (undelivering : performed.call.Undelivering) :
    finalizes performed = false ∧ isDeliveryPost performed = false := by
  obtain ⟨call, answer⟩ := performed
  constructor
  · simp only [finalizes]
    split <;> first | exact undelivering.elim | rfl
  · cases call with
    | post post =>
        have isPing : post.delivery = none := undelivering
        simp [isDeliveryPost, isPing]
    | _ => rfl

theorem permitsDeliveryCall_of_undelivering {call : Call} (undelivering : call.Undelivering) :
    permitsDeliveryCall deployment request past call := by
  unfold permitsDeliveryCall
  split <;> first | exact .inl undelivering | exact undelivering.elim | trivial

/-- Nothing has been delivered yet. -/
structure Idle (past : History signature) : Prop where
  unfinalized : past.any finalizes = false
  unposted : posted past = 0

theorem idle_nil : Idle [] :=
  ⟨rfl, rfl⟩

theorem Idle.cons (idle : Idle past) {performed : Performed signature}
    (notFinal : finalizes performed = false) (notPost : isDeliveryPost performed = false) :
    Idle (performed :: past) :=
  ⟨by simpa [notFinal] using idle.unfinalized, by simpa [posted, notPost] using idle.unposted⟩

theorem Idle.append (idle : Idle past) {recent : History signature}
    (kinds : ∀ performed ∈ recent, performed.call.Undelivering) : Idle (recent ++ past) := by
  induction recent with
  | nil => exact idle
  | cons performed recent ih =>
      obtain ⟨notFinal, notPost⟩ := (kinds performed List.mem_cons_self).quiet
      exact (ih fun other member => kinds other (List.mem_cons_of_mem performed member)).cons
        notFinal notPost

theorem delivers_undelivering {program : Promise Reply}
    (calls : program.Calls Call.Undelivering) :
    program.Conforms Reliable (permitsDelivery deployment request) ensuresDelivery [] := by
  refine calls.conforms (fun recent call kinds undelivering => ?_) fun recent outcome kinds => ?_
  · exact ⟨(idle_nil.append kinds).unfinalized,
      permitsDeliveryCall_of_undelivering undelivering⟩
  · exact .inr (idle_nil.append kinds).unposted

theorem delivers_createAndDeliver (endpoint : WebhookEndpoint) (eventType : WebhookEventType)
    (eventId : String) (data : PaymentIntent) :
    (createAndDeliver deployment endpoint eventType eventId data).Conforms Reliable
      (permitsDelivery deployment
        (.background (.createAndDeliver endpoint eventType eventId data)))
      ensuresDelivery [] := by
  refine conforms_call_bind.mpr ⟨⟨rfl, trivial⟩, fun err _ => .inr rfl, fun now _ => ?_⟩
  refine conforms_call_bind.mpr ⟨⟨rfl, rfl⟩, fun err _ => .inr rfl, fun delivery _ => ?_⟩
  rw [conforms_bind]
  refine (delivers_attemptLoop ?_).ensuring fun later outcome ended => ?_
  · exact {
      loaded := rfl
      unfinalized := rfl
      attempts := rfl
      receiver := rfl
      unacknowledged := rfl
      remaining := Nat.zero_add _ }
  · cases outcome <;> exact ended

theorem delivers_redeliver (consumer : GatewayConsumer) (endpointId deliveryId : String) :
    (Webhooks.redeliver deployment consumer endpointId deliveryId).Conforms Reliable
      (permitsDelivery deployment (.webhooks (.redeliver consumer endpointId deliveryId)))
      ensuresDelivery [] := by
  unfold Webhooks.redeliver Webhooks.getOwned
  rw [conforms_bind]
  refine conforms_call_bind.mpr ⟨⟨rfl, trivial⟩, fun err _ => .inr rfl, fun owned _ => ?_⟩
  cases owned with
  | none => exact .inr rfl
  | some found =>
      refine (andThen_ok _ _).mpr ?_
      refine conforms_call_bind.mpr ⟨⟨rfl, rfl⟩, fun err _ => .inr rfl, fun lookup _ => ?_⟩
      cases lookup with
      | none => exact .inr rfl
      | some delivery =>
          refine conforms_call_bind.mpr ⟨⟨rfl, trivial⟩, fun err _ => .inr rfl,
            fun receiver _ => ?_⟩
          cases receiver with
          | none => exact .inr rfl
          | some endpoint =>
              exact delivers_attemptLoop {
                loaded := rfl
                unfinalized := rfl
                attempts := rfl
                receiver := rfl
                unacknowledged := rfl
                remaining := Nat.zero_add _ }

theorem delivers_handleEvent (payload : WebhookEventPayload) :
    (handleEvent payload).Conforms Reliable
      (permitsDelivery deployment (.background (.handleEvent payload))) ensuresDelivery [] := by
  refine conforms_call_bind.mpr ⟨⟨rfl, trivial⟩, fun err _ => .inr rfl, fun rows _ => ?_⟩
  simp only
  split
  · exact .inr rfl
  · refine conforms_call_bind.mpr ⟨⟨rfl, trivial⟩, fun err _ => .inr rfl, fun uuid _ => ?_⟩
    refine conforms_forM
      (fun targets later => (∀ endpoint ∈ targets, endpoint ∈ rows) ∧ Idle later ∧
        ⟨.query (.enabledEndpoints payload.consumerUsername), .ok rows⟩ ∈ later)
      _ ?_ (fun later started => .inr started.2.1.unposted) _
      ⟨fun endpoint member => (List.mem_filter.mp member).1, ⟨rfl, rfl⟩,
        List.mem_cons_of_mem _ List.mem_cons_self⟩
    rintro endpoint rest later ⟨listed, idle, shown⟩
    refine ⟨⟨idle.unfinalized, ⟨payload, rows, rfl, shown, listed _ List.mem_cons_self⟩⟩,
      fun answer _ => ?_⟩
    have goesOn : Idle (⟨.start (.createAndDeliver endpoint payload.type ("evt_" ++ uuid)
        payload.data), answer⟩ :: later) :=
      idle.cons rfl rfl
    cases answer with
    | error err => exact .inr goesOn.unposted
    | ok value =>
        exact ⟨fun other member => listed other (List.mem_cons_of_mem _ member), goesOn,
          List.mem_cons_of_mem _ shown⟩

theorem deliveries_fulfilled : (deliveries deployment).Fulfilled where
  answers performed := by
    refine ⟨Performs.believable ⟨_, _, performed, rfl, rfl⟩, fun isTimer => ?_⟩
    rename_i call choice world served
    cases call with
    | now => exact ⟨world.clock, by rw [World.perform_now performed]; rfl⟩
    | sleep milliseconds =>
        cases choice with
        | serve => exact ⟨(), by rw [← Option.some.inj performed]; rfl⟩
        | _ => cases performed
    | _ => exact isTimer.elim
  bodies request := by
    by_cases undelivering : request.Undelivering
    · exact delivers_undelivering (calls_undelivering undelivering)
    · cases request with
      | webhooks request =>
          cases request with
          | redeliver consumer endpointId deliveryId =>
              exact (conforms_map _ _).mpr
                (delivers_redeliver consumer endpointId deliveryId)
          | _ => exact absurd trivial undelivering
      | background task =>
          cases task with
          | upsertCustomerFromPayment intent payer => exact absurd trivial undelivering
          | handleEvent payload => exact (conforms_map _ _).mpr (delivers_handleEvent payload)
          | createAndDeliver endpoint eventType eventId data =>
              exact (conforms_map _ _).mpr
                (delivers_createAndDeliver endpoint eventType eventId data)
      | _ => exact absurd trivial undelivering

end Requests

end CosmosPay

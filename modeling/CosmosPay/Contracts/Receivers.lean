import CosmosPay.Contracts.Deliveries

/-!
# Where a delivery is sent

A loop works on a delivery of the endpoint that it sends to: a task inserts it for that
endpoint, and a redelivery looks the endpoint up by the column of the row.  An event is
handled because it was emitted, and for no other reason.
-/

namespace CosmosPay

open Awaiting Program WebhookDispatcher

section Receivers

variable {deployment : Deployment} {request : Request} {past : History signature}

/-! ## Endpoints -/

/-- The endpoint that a thread sends to is the one that its delivery belongs to. -/
def Matched (request : Request) (past : History signature) : Prop :=
  ∃ endpoint delivery, receiver request past = some endpoint ∧ loaded past = some delivery ∧
    delivery.endpointId = endpoint.id

/-- Does the request redeliver this delivery? -/
def Request.redelivers (id : String) : Request → Bool
  | .webhooks (.redeliver _ _ deliveryId) => deliveryId = id
  | _ => false

def permitsReceiver (request : Request) (past : History signature) : Call → Prop
  | .post sent => sent.delivery = none ∨ Matched request past
  | .query (.deliveryOf id _) => request.redelivers id = true
  | _ => True

def receivers (deployment : Deployment) : Contract (service deployment) where
  relies := Believable
  permits := permitsReceiver
  ensures _ _ _ := True

/-- A call that neither sends a delivery nor looks one up. -/
def Call.Withholds : Call → Prop
  | .post sent => sent.delivery = none
  | .query (.deliveryOf _ _) => False
  | _ => True

theorem Call.Undelivering.withholds {call : Call} (undelivering : call.Undelivering) :
    call.Withholds := by
  unfold Call.Withholds
  split
  · exact undelivering
  · exact undelivering
  · trivial

theorem receives_of_withholds {program : Promise Reply} (calls : program.Calls Call.Withholds) :
    program.Conforms Believable (permitsReceiver request) (fun _ _ => True) [] := by
  refine calls.conforms (fun _ call _ withholds => ?_) fun _ _ _ => trivial
  unfold permitsReceiver
  split
  · exact .inl withholds
  · exact withholds.elim
  · trivial

theorem Call.Transmits.unread {performed : Performed signature}
    (transmits : performed.call.Transmits) :
    CosmosPay.loads performed = none ∧ CosmosPay.finds performed = none := by
  obtain ⟨call, answer⟩ := performed
  cases answer with
  | error err => exact ⟨rfl, rfl⟩
  | ok value =>
      cases call with
      | query asked => exact transmits.elim
      | write statement =>
          cases statement with
          | create model new => exact transmits.elim
          | _ => exact ⟨rfl, rfl⟩
      | _ => exact ⟨rfl, rfl⟩

theorem Matched.extend {recent : History signature}
    (kinds : ∀ performed ∈ recent, performed.call.Transmits) (matched : Matched request past) :
    Matched request (recent ++ past) := by
  induction recent with
  | nil => exact matched
  | cons performed recent ih =>
      obtain ⟨isFirst, others⟩ := List.forall_mem_cons.mp kinds
      obtain ⟨endpoint, delivery, isReceiver, isLoaded, same⟩ := ih others
      obtain ⟨unloaded, unfound⟩ := isFirst.unread
      exact ⟨endpoint, delivery, (receiver_cons unfound).trans isReceiver,
        (loaded_cons unloaded).trans isLoaded, same⟩

theorem receives_attempt {endpoint : WebhookEndpoint} {delivery : WebhookDelivery}
    (matched : Matched request past) :
    (attempt deployment endpoint delivery).Conforms Believable (permitsReceiver request)
      (fun _ _ => True) past := by
  refine (transmits_attemptLoop _ _ _ _ _ _ _ _).conforms (fun recent call kinds transmits => ?_)
    fun _ _ _ => trivial
  unfold permitsReceiver
  split
  · exact .inr (matched.extend kinds)
  · exact transmits.elim
  · trivial

theorem receives_createAndDeliver (endpoint : WebhookEndpoint) (eventType : WebhookEventType)
    (eventId : String) (data : PaymentIntent) :
    (createAndDeliver deployment endpoint eventType eventId data).Conforms Believable
      (permitsReceiver (.background (.createAndDeliver endpoint eventType eventId data)))
      (fun _ _ => True) [] := by
  refine conforms_call_bind.mpr ⟨trivial, fun _ _ => trivial, fun now _ => ?_⟩
  refine conforms_call_bind.mpr ⟨trivial, fun _ _ => trivial, fun delivery believable => ?_⟩
  obtain ⟨id, createdAt, rfl⟩ := believable delivery rfl
  rw [conforms_bind]
  refine (receives_attempt ⟨endpoint, _, rfl, rfl, rfl⟩).mono (fun _ _ permitted => permitted)
    fun _ outcome _ => ?_
  cases outcome <;> trivial

theorem receives_redeliver (consumer : GatewayConsumer) (endpointId deliveryId : String) :
    (Webhooks.redeliver deployment consumer endpointId deliveryId).Conforms Believable
      (permitsReceiver (.webhooks (.redeliver consumer endpointId deliveryId)))
      (fun _ _ => True) [] := by
  unfold Webhooks.redeliver Webhooks.getOwned
  rw [conforms_bind]
  refine conforms_call_bind.mpr ⟨trivial, fun _ _ => trivial, fun owned _ => ?_⟩
  cases owned with
  | none => trivial
  | some found =>
      refine (andThen_ok _ _).mpr ?_
      refine conforms_call_bind.mpr ⟨decide_eq_true rfl, fun _ _ => trivial, fun lookup _ => ?_⟩
      cases lookup with
      | none => trivial
      | some delivery =>
          refine conforms_call_bind.mpr ⟨trivial, fun _ _ => trivial, fun shown believable => ?_⟩
          cases shown with
          | none => trivial
          | some endpoint =>
              have same : endpoint.id = delivery.endpointId := believable _ rfl endpoint rfl
              exact receives_attempt ⟨endpoint, delivery, rfl, rfl, same.symm⟩

theorem receivers_fulfilled : (receivers deployment).Fulfilled where
  answers performed := Performs.believable ⟨_, _, performed, rfl, rfl⟩
  bodies request := by
    by_cases undelivering : request.Undelivering
    · exact receives_of_withholds ((calls_undelivering undelivering).mono
        fun _ => Call.Undelivering.withholds)
    · cases request with
      | webhooks request =>
          cases request with
          | redeliver consumer endpointId deliveryId =>
              exact (conforms_map _ _).mpr (receives_redeliver consumer endpointId deliveryId)
          | _ => exact absurd trivial undelivering
      | background task =>
          cases task with
          | upsertCustomerFromPayment intent payer => exact absurd trivial undelivering
          | handleEvent payload =>
              exact receives_of_withholds ((calls_handleEvent (fun _ => trivial) trivial
                (fun _ _ _ _ => trivial) payload).map _)
          | createAndDeliver endpoint eventType eventId data =>
              exact (conforms_map _ _).mpr
                (receives_createAndDeliver endpoint eventType eventId data)
      | _ => exact absurd trivial undelivering

/-! ## Events -/

/-- A call that hands no event over. -/
def Call.Reports : Call → Prop
  | .start (.handleEvent _) => False
  | _ => True

theorem reports_body (request : Request) : (request.body deployment).Calls Call.Reports := by
  refine calls_body (fun call isKind => ?_) (fun call isKind => ?_) (fun call isKind => ?_)
    (fun call isKind => ?_) (fun call isKind => ?_) (fun _ => trivial) (fun _ => trivial) request
  all_goals
    unfold Call.Reports
    split <;> first | exact isKind.elim | trivial

def handings (deployment : Deployment) : Contract (service deployment) where
  relies _ := True
  permits _ _ call := call.Reports
  ensures _ _ _ := True

theorem handings_fulfilled : (handings deployment).Fulfilled where
  answers _ := trivial
  bodies request := reports_body request []

end Receivers

end CosmosPay

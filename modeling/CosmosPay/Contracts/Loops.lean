import CosmosPay.Contracts.FanOut

/-!
# Deliveries and their loops

Only a task inserts a delivery, with the event that it was started for.  A loop that has
written its statement, in a task or a redelivery, has written the conclusion of its own
answers.
-/

namespace CosmosPay

open Awaiting Program WebhookDispatcher

/-- The delivery is the one that the task was started to insert. -/
def InsertedBy (request : Request) (new : NewWebhookDelivery) : Prop :=
  ∃ endpoint eventType eventId data createdAt,
    request = .background (.createAndDeliver endpoint eventType eventId data) ∧
      new = newDelivery endpoint eventType eventId data createdAt

def permitsLoop (request : Request) (_ : History signature) : Call → Prop
  | .write (.create .webhookDelivery new) => InsertedBy request new
  | _ => True

/-- A thread that has written its statement has ended a loop with it. -/
def ensuresLoop (deployment : Deployment) (past : History signature) : Prop :=
  past.any finalizes = true → ∃ endpoint delivery outcome lastAttemptAt earlier,
    Attempted deployment endpoint delivery past outcome lastAttemptAt earlier

def loops (deployment : Deployment) : Contract (service deployment) where
  relies := Steady
  permits := permitsLoop
  ensures _ past _ := ensuresLoop deployment past

variable {deployment : Deployment} {request : Request} {past : History signature}

theorem ensuresLoop_of_unfinalized (unfinalized : past.any finalizes = false) :
    ensuresLoop deployment past := by
  intro finalized
  rw [unfinalized] at finalized
  cases finalized

/-- A call that neither inserts a delivery nor ends a loop. -/
def Call.Abstains : Call → Prop
  | .write (.create .webhookDelivery _) => False
  | .write (.update .webhookDelivery _ _) => False
  | _ => True

theorem Call.Undelivering.abstains {call : Call} (undelivering : call.Undelivering) :
    call.Abstains := by
  unfold Call.Abstains
  split <;> first | exact undelivering | trivial

theorem unfinalized_of_abstains {recent : History signature}
    (kinds : ∀ performed ∈ recent, performed.call.Abstains)
    (before : past.any finalizes = false) : (recent ++ past).any finalizes = false := by
  induction recent with
  | nil => exact before
  | cons performed recent ih =>
      obtain ⟨isFirst, others⟩ := List.forall_mem_cons.mp kinds
      have notFinal : finalizes performed = false := by
        obtain ⟨call, answer⟩ := performed
        simp only [finalizes]
        split
        · exact isFirst.elim
        · rfl
      rw [List.cons_append, List.any_cons, notFinal, ih others]
      rfl

theorem permitsLoop_of_abstains {call : Call} (abstains : call.Abstains) :
    permitsLoop request past call := by
  unfold permitsLoop
  split
  · exact abstains.elim
  · trivial

theorem loops_of_abstains {program : Promise Reply} (calls : program.Calls Call.Abstains) :
    program.Conforms Steady (permitsLoop request) (fun past _ => ensuresLoop deployment past) [] :=
  calls.conforms (fun _ _ _ => permitsLoop_of_abstains) fun _ _ kinds =>
    ensuresLoop_of_unfinalized (unfinalized_of_abstains kinds rfl)

theorem permitsLoop_of_attempts {call : Call} (attempts : call.Attempts) :
    permitsLoop request past call := by
  unfold permitsLoop
  split
  · exact attempts.elim
  · trivial

theorem loops_redeliver (consumer : GatewayConsumer) (endpointId deliveryId : String) :
    (Webhooks.redeliver deployment consumer endpointId deliveryId).Conforms Steady
      (permitsLoop request) (fun past _ => ensuresLoop deployment past) [] := by
  have refused : ∀ {past : History signature}, past.any finalizes = false →
      ensuresLoop deployment past := ensuresLoop_of_unfinalized
  unfold Webhooks.redeliver Webhooks.getOwned
  rw [conforms_bind]
  refine conforms_call_bind.mpr ⟨trivial, fun err _ => refused rfl, fun owned _ => ?_⟩
  cases owned with
  | none => exact refused rfl
  | some found =>
      refine (andThen_ok _ _).mpr ?_
      refine conforms_call_bind.mpr ⟨trivial, fun err _ => refused rfl, fun lookup _ => ?_⟩
      cases lookup with
      | none => exact refused rfl
      | some delivery =>
          refine conforms_call_bind.mpr ⟨trivial, fun err _ => refused rfl, fun receiver _ => ?_⟩
          cases receiver with
          | none => exact refused rfl
          | some endpoint =>
              refine ((attempts_attempt rfl (by simp)).relying fun _ => Steady.timed).mono
                (fun _ _ => permitsLoop_of_attempts) ?_
              rintro later outcome ⟨lastAttemptAt, earlier, attempted⟩ -
              exact ⟨endpoint, delivery, outcome, lastAttemptAt, earlier, attempted⟩

theorem permitsLoop_of_permitsTask {endpoint : WebhookEndpoint} {eventType : WebhookEventType}
    {eventId : String} {data : PaymentIntent} {call : Call}
    (permitted : permitsTask endpoint eventType eventId data past call) :
    permitsLoop (.background (.createAndDeliver endpoint eventType eventId data)) past call := by
  unfold permitsLoop
  split
  · obtain ⟨createdAt, -, rfl⟩ := permitted
    exact ⟨endpoint, eventType, eventId, data, createdAt, rfl, rfl⟩
  · trivial

theorem TaskEnded.ensuresLoop {endpoint : WebhookEndpoint}
    (ended : TaskEnded deployment endpoint past) : ensuresLoop deployment past := by
  cases ended with
  | rejected createdAt new err => exact ensuresLoop_of_unfinalized rfl
  | delivered new delivery outcome lastAttemptAt created attempted =>
      exact fun _ => ⟨endpoint, delivery, outcome, lastAttemptAt, _, attempted⟩

theorem loops_fulfilled : (loops deployment).Fulfilled where
  answers := (@fanOuts_fulfilled deployment).answers
  bodies request := by
    by_cases undelivering : request.Undelivering
    · exact loops_of_abstains ((calls_undelivering undelivering).mono
        fun _ => Call.Undelivering.abstains)
    · cases request with
      | webhooks request =>
          cases request with
          | redeliver consumer endpointId deliveryId =>
              exact (conforms_map _ _).mpr (loops_redeliver consumer endpointId deliveryId)
          | _ => exact absurd trivial undelivering
      | background task =>
          cases task with
          | upsertCustomerFromPayment intent payer => exact absurd trivial undelivering
          | handleEvent payload =>
              exact loops_of_abstains ((calls_handleEvent (fun _ => trivial) trivial
                (fun _ _ _ _ => trivial) payload).map _)
          | createAndDeliver endpoint eventType eventId data =>
              refine (conforms_map _ _).mpr ?_
              exact (fansOut_createAndDeliver endpoint eventType eventId data).mono
                (fun past call => permitsLoop_of_permitsTask) fun past outcome ended =>
                  ended.ensuresLoop
      | _ => exact absurd trivial undelivering

end CosmosPay

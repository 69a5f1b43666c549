import CosmosPay.Contracts.Kinds

/-!
# What a settlement hands over

`markSucceeded` starts the task that looks after the customer last of all, with the row that it
has written and the payer.  So the task belongs to the update and to the source that was read
for it.  A task fails only where a call of it does, and ends as soon as it has created a customer.
-/

namespace CosmosPay

open Awaiting Program PaymentIntents

/-- A call that does not start the task of a settlement. -/
def Call.StartsNoEnrollment : Call → Prop
  | .start (.upsertCustomerFromPayment _ _) => False
  | _ => True

theorem Call.Serves.startsNoEnrollment {call : Call} (serves : call.Serves) :
    call.StartsNoEnrollment := by
  unfold Call.StartsNoEnrollment
  split <;> first | exact serves.elim | trivial

theorem Call.Dispatches.startsNoEnrollment {call : Call} (dispatches : call.Dispatches) :
    call.StartsNoEnrollment := by
  unfold Call.StartsNoEnrollment
  split <;> first | exact dispatches.elim | trivial

theorem Call.Manages.startsNoEnrollment {call : Call} (manages : call.Manages) :
    call.StartsNoEnrollment := by
  unfold Call.StartsNoEnrollment
  split <;> first | exact manages.elim | trivial

theorem Call.Catalogs.startsNoEnrollment {call : Call} (catalogs : call.Catalogs) :
    call.StartsNoEnrollment := by
  unfold Call.StartsNoEnrollment
  split <;> first | exact catalogs.elim | trivial

theorem Call.Aggregates.startsNoEnrollment {call : Call} (aggregates : call.Aggregates) :
    call.StartsNoEnrollment := by
  unfold Call.StartsNoEnrollment
  split <;> first | exact aggregates.elim | trivial

/-- The calls of `markSucceeded`, up to the start of the task. -/
def Settling (intent : PaymentIntent) (payer : Option String) (past : History signature) : Prop :=
  ∃ username id hash current older, past =
    ⟨.emit ⟨username, .paymentIntentSucceeded, intent⟩, .ok ()⟩ ::
      ⟨.write (.update .paymentIntent id (succeededPatch hash payer current)), .ok intent⟩ ::
      ⟨.query (.intentSource id), .ok current⟩ :: older

def permitsHandover (past : History signature) : Call → Prop
  | .start (.upsertCustomerFromPayment intent payer) => Settling intent payer past
  | _ => True

/-- No call has failed. -/
def Answered (past : History signature) : Prop :=
  ∀ performed ∈ past, performed.answer.isOk = true

def ensuresHandover (request : Request) (past : History signature)
    (outcome : Except ServiceError Reply) : Prop :=
  match request with
  | .background (.upsertCustomerFromPayment _ _) =>
      (Answered past → outcome.isOk) ∧
        ((∃ new row, ⟨.write (.create .customer new), .ok row⟩ ∈ past) → Answered past)
  | _ => True

def handovers (deployment : Deployment) : Contract (service deployment) where
  relies _ := True
  permits _ := permitsHandover
  ensures := ensuresHandover

/-! ## Rules -/

section Rules

variable {α β : Type}

/-- Whatever has happened before, the tasks that the program starts are those of settlements. -/
def HandsOver (program : Promise α) : Prop :=
  ∀ past, program.Conforms (fun _ => True) permitsHandover (fun _ _ => True) past

theorem handsOver_of_calls {program : Promise α} (calls : program.Calls Call.StartsNoEnrollment) :
    HandsOver program := by
  intro past
  refine calls.conforms (fun recent call _ startsNone => ?_) fun _ _ _ => trivial
  unfold permitsHandover
  split
  · exact startsNone.elim
  · trivial

theorem handsOver_call {call : Call} (startsNone : call.StartsNoEnrollment) :
    HandsOver (Promise.call call) :=
  handsOver_of_calls (calls_call startsNone)

theorem HandsOver.bind {program : Promise α} {next : α → Promise β} (first : HandsOver program)
    (second : ∀ value, HandsOver (next value)) : HandsOver (program >>= next) := by
  intro past
  rw [conforms_bind]
  refine (first past).ensuring fun later outcome _ => ?_
  cases outcome with
  | ok value => exact second value later
  | error err => trivial

theorem HandsOver.map {program : Promise α} (handsOver : HandsOver program) (convert : α → β) :
    HandsOver (convert <$> program) :=
  fun past => (conforms_map convert program).mpr (handsOver past)

theorem HandsOver.logged {task : Promise Unit} (handsOver : HandsOver task) :
    HandsOver (StellarObserver.logged task) :=
  fun past => conforms_logged (handsOver past)

theorem handsOver_forM {iteration : β → Promise Unit}
    (iterates : ∀ item, HandsOver (iteration item)) (items : List β) :
    HandsOver (items.forM iteration) := by
  intro past
  refine conforms_forM (fun _ _ => True) iteration (fun item rest later _ => ?_)
    (fun _ _ => trivial) items trivial
  refine (iterates item later).ensuring fun latest outcome _ => ?_
  cases outcome <;> trivial

end Rules

/-! ## The requests -/

section Requests

variable {deployment : Deployment}

theorem handsOver_horizon {α : Type} {program : Promise α}
    (calls : program.Calls Call.IsHorizon) : HandsOver program :=
  handsOver_of_calls (calls.mono fun _ isHorizon => isHorizon.serves.startsNoEnrollment)

theorem handsOver_markSucceeded (id username hash : String) (payer : Option String) :
    HandsOver (markSucceeded id username hash payer) := by
  intro past
  refine conforms_call_bind.mpr ⟨trivial, fun _ _ => trivial, fun current _ => ?_⟩
  refine conforms_call_bind.mpr ⟨trivial, fun _ _ => trivial, fun updated _ => ?_⟩
  refine conforms_call_bind.mpr ⟨trivial, fun _ _ => trivial, fun _ _ => ?_⟩
  exact conforms_call_bind.mpr ⟨⟨username, id, hash, current, past, rfl⟩, fun _ _ => trivial,
    fun _ _ => trivial⟩

theorem handsOver_validate (consumer : GatewayConsumer) (id txHash : String) :
    HandsOver (validate deployment consumer id txHash) := by
  have views : ∀ (updated : PaymentIntent) (outcome : PaymentIntentView → ValidationOutcome),
      HandsOver (do let view ← withQr deployment updated
                    pure (outcome view) : Promise ValidationOutcome) :=
    fun updated outcome => handsOver_of_calls
      (Calls.bind (calls_withQr updated) fun _ => calls_pure _)
  refine (handsOver_call (by trivial)).bind fun found => ?_
  split
  · exact handsOver_of_calls (calls_throw _)
  · rename_i intent
    split
    · exact views _ _
    · refine (handsOver_horizon (calls_verifyByHash intent txHash)).bind fun result => ?_
      unfold settle
      split
      · exact (handsOver_markSucceeded _ _ _ _).bind fun updated => views _ _
      · split
        · refine (handsOver_of_calls ?_).bind fun updated => views _ _
          exact Calls.call_bind (by trivial) fun _ =>
            Calls.call_bind (by trivial) fun _ => calls_pure _
        · exact handsOver_of_calls (calls_pure _)

theorem handsOver_tick (node : Nat) : HandsOver (StellarObserver.tick deployment node) := by
  have expires : ∀ row, HandsOver (StellarObserver.expire row) := fun row =>
    HandsOver.logged (handsOver_of_calls (Calls.bind
      (Calls.call_bind (by trivial) fun _ => Calls.call_bind (by trivial) fun _ => calls_pure _)
      fun _ => calls_pure _))
  have reconciles : ∀ row, HandsOver (StellarObserver.reconcile row) := by
    intro row
    refine (handsOver_horizon (calls_verify row.1)).bind fun result => ?_
    split
    · exact (handsOver_markSucceeded _ _ _ _).bind fun _ => handsOver_of_calls (calls_pure _)
    · exact handsOver_of_calls (calls_pure _)
  refine (handsOver_call (by trivial)).bind fun entered => ?_
  split
  · refine (HandsOver.logged ?_).bind fun _ => handsOver_call (by trivial)
    refine HandsOver.bind ?_ fun _ => ?_
    · exact (handsOver_call (by trivial)).bind fun _ =>
        (handsOver_call (by trivial)).bind fun rows => handsOver_forM expires rows
    · exact (handsOver_call (by trivial)).bind fun rows =>
        handsOver_forM (fun row => (reconciles row).logged) rows
  · exact handsOver_of_calls (calls_pure _)

theorem calls_startsNoEnrollment (task : BackgroundTask) :
    (task.body deployment).Calls Call.StartsNoEnrollment :=
  calls_task (fun _ _ => trivial) (fun _ => trivial)
    (fun _ => Call.Dispatches.startsNoEnrollment) task

theorem handsOver_webhooks (request : WebhooksRequest) : HandsOver (request.body deployment) := by
  cases request with
  | redeliver consumer endpointId deliveryId =>
      exact handsOver_of_calls (((dispatches_redeliver consumer endpointId deliveryId).mono
        fun _ => Call.Dispatches.startsNoEnrollment).map _)
  | _ =>
      exact handsOver_of_calls
        ((manages_webhooks id).mono fun _ => Call.Manages.startsNoEnrollment)

theorem handsOver_body (request : Request) : HandsOver (request.body deployment) := by
  cases request with
  | paymentIntents request =>
      by_cases isValidation : ∃ consumer id txHash, request = .validate consumer id txHash
      · obtain ⟨consumer, id, txHash, rfl⟩ := isValidation
        exact (handsOver_validate consumer id txHash).map _
      · have calls : (request.body deployment).Calls Call.Serves :=
          serves_paymentIntents fun consumer id txHash same =>
            isValidation ⟨consumer, id, txHash, same⟩
        exact handsOver_of_calls (calls.mono fun _ => Call.Serves.startsNoEnrollment)
  | webhooks request => exact handsOver_webhooks request
  | customers request =>
      exact handsOver_of_calls
        ((catalogs_customers request).mono fun _ => Call.Catalogs.startsNoEnrollment)
  | products request =>
      exact handsOver_of_calls
        ((catalogs_products request).mono fun _ => Call.Catalogs.startsNoEnrollment)
  | analytics request =>
      exact handsOver_of_calls
        ((aggregates_analytics request).mono fun _ => Call.Aggregates.startsNoEnrollment)
  | tick node => exact (handsOver_tick node).map _
  | background task => exact handsOver_of_calls ((calls_startsNoEnrollment task).map _)

theorem ends_upsertCustomerFromPayment (intent : PaymentIntent) (payer : Option String) :
    (upsertCustomerFromPayment intent payer).Conforms (fun _ => True) permitsHandover
      (fun past outcome => (Answered past → outcome.isOk) ∧
        ((∃ new row, ⟨.write (.create .customer new), .ok row⟩ ∈ past) → Answered past)) [] := by
  have isError : ∀ {call : Call} {err : ServiceError} {past : History signature},
      ¬ Answered (⟨call, .error err⟩ :: past) :=
    fun answered => absurd (answered _ List.mem_cons_self) Bool.false_ne_true
  unfold upsertCustomerFromPayment
  split
  · exact ⟨fun _ => rfl, by simp⟩
  · refine conforms_call_bind.mpr ⟨trivial, fun err _ => ⟨fun answered => ?_, by simp⟩,
      fun found _ => ?_⟩
    · exact absurd answered isError
    · split
      · exact ⟨fun _ => rfl, by simp⟩
      · refine conforms_call_bind.mpr ⟨trivial, fun err _ => ⟨fun answered => ?_, by simp⟩,
          fun row _ => ⟨fun _ => rfl, fun _ => ?_⟩⟩
        · exact absurd answered isError
        · intro performed member
          simp only [List.mem_cons, List.not_mem_nil, or_false] at member
          rcases member with rfl | rfl <;> rfl

theorem ensuresHandover_of_ne {request : Request}
    (other : ∀ intent payer, request ≠ .background (.upsertCustomerFromPayment intent payer))
    (past : History signature) (outcome : Except ServiceError Reply) :
    ensuresHandover request past outcome := by
  unfold ensuresHandover
  split
  · exact absurd rfl (other _ _)
  · trivial

theorem handovers_fulfilled : (handovers deployment).Fulfilled where
  answers _ := trivial
  bodies request := by
    by_cases isTask : ∃ intent payer,
        request = .background (.upsertCustomerFromPayment intent payer)
    · obtain ⟨intent, payer, rfl⟩ := isTask
      refine (conforms_map _ _).mpr ?_
      refine (ends_upsertCustomerFromPayment intent payer).ensuring fun past outcome ends => ?_
      cases outcome with
      | ok value => exact ends
      | error err => exact ends
    · exact (handsOver_body request []).ensuring fun past outcome _ =>
        ensuresHandover_of_ne (fun intent payer same => isTask ⟨intent, payer, same⟩) past outcome

end Requests

end CosmosPay

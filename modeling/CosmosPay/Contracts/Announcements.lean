import CosmosPay.Answers
import CosmosPay.Awaiting.Counting
import CosmosPay.Contracts.Kinds

/-!
# Announcements

Every committed statement on an intent is announced by the very next call of the
same thread, with the row as it was written and the event type of the statement,
and nothing else is announced.
-/

namespace CosmosPay

open Awaiting Program PaymentIntents

/-- The event type of a patch. -/
def patchEvent (patch : PaymentIntentPatch) : WebhookEventType :=
  match patch.status with
  | .value status => statusEvent status
  | _ => .paymentIntentUpdated

/-- The event that a successful call has to be announced with. -/
def Call.announcement : (call : Call) → call.Answer → Option (WebhookEventType × PaymentIntent)
  | .write (.create .paymentIntent _), row => some (.paymentIntentCreated, row)
  | .write (.update .paymentIntent _ patch), row => some (patchEvent patch, row)
  | .write (.delete .paymentIntent _), row => some (.paymentIntentDeleted, row)
  | _, _ => none

def announcement (performed : Performed signature) : Option (WebhookEventType × PaymentIntent) :=
  match performed.answer with
  | .ok answer => performed.call.announcement answer
  | .error _ => none

/-- The announcement that is due after a history. -/
def due (past : History signature) : Option (WebhookEventType × PaymentIntent) :=
  past.head?.bind announcement

/-- What is due is announced at once, and nothing else is announced. -/
def permitsAnnouncement (past : History signature) (call : Call) : Prop :=
  match due past with
  | some (type, row) => ∃ username, call = .emit ⟨username, type, row⟩
  | none => ∀ payload, call ≠ .emit payload

/-- No request ends with an announcement due. -/
def announcements (deployment : Deployment) : Contract (service deployment) where
  relies := Believable
  permits _ := permitsAnnouncement
  ensures _ past _ := due past = none

theorem announcement_of_peripheral {performed : Performed signature}
    (peripheral : performed.call.Peripheral) : announcement performed = none := by
  obtain ⟨call, answer⟩ := performed
  cases answer with
  | error err => rfl
  | ok value =>
      simp only [announcement, Call.announcement]
      split <;> first | exact peripheral.elim | rfl

theorem due_append {recent past : History signature}
    (peripheral : ∀ performed ∈ recent, performed.call.Peripheral) (none : due past = none) :
    due (recent ++ past) = .none := by
  cases recent with
  | nil => exact none
  | cons performed recent =>
      exact announcement_of_peripheral (peripheral performed List.mem_cons_self)

theorem permitsAnnouncement_of_peripheral {past : History signature} {call : Call}
    (none : due past = none) (peripheral : call.Peripheral) :
    permitsAnnouncement past call := by
  simp only [permitsAnnouncement, none]
  rintro payload rfl
  exact peripheral

section Rules

variable {α β : Type} {past : History signature}
variable {relies : Performed signature → Prop}

/-- Peripheral programs leave nothing due. -/
theorem announces_peripheral {program : Promise α} (calls : program.Calls Call.Peripheral)
    (none : due past = none) :
    program.Conforms relies permitsAnnouncement (fun later _ => due later = .none) past :=
  calls.conforms
    (fun _ _ kinds peripheral =>
      permitsAnnouncement_of_peripheral (due_append kinds none) peripheral)
    fun _ _ kinds => due_append kinds none

theorem announces_call {call : Call} {next : call.Answer → Promise β}
    (peripheral : call.Peripheral) (none : due past = none)
    (rest : ∀ value later, due later = .none → (next value).Conforms relies permitsAnnouncement
      (fun latest _ => due latest = .none) later) :
    (Promise.call call >>= next).Conforms relies permitsAnnouncement
      (fun later _ => due later = .none) past := by
  have quiet : ∀ answer, due (⟨call, answer⟩ :: past) = .none :=
    fun _ => announcement_of_peripheral peripheral
  exact conforms_call_bind.mpr ⟨permitsAnnouncement_of_peripheral none peripheral,
    fun err _ => quiet _, fun value _ => rest value _ (quiet _)⟩

theorem announces_bind {program : Promise α} {next : α → Promise β}
    (first : program.Conforms relies permitsAnnouncement (fun later _ => due later = none) past)
    (second : ∀ value later, due later = none →
      (next value).Conforms relies permitsAnnouncement (fun latest _ => due latest = none) later) :
    (program >>= next).Conforms relies permitsAnnouncement (fun later _ => due later = none)
      past := by
  rw [conforms_bind]
  refine first.ensuring fun later outcome none => ?_
  cases outcome with
  | ok value => exact second value later none
  | error err => exact none

/-- Announcing what is due. -/
theorem announces_emit {username : String} {type : WebhookEventType} {row : PaymentIntent}
    (isDue : due past = some (type, row)) {next : Unit → Promise β}
    (rest : ∀ later, due later = none → (next ()).Conforms relies permitsAnnouncement
      (fun latest _ => due latest = none) later) :
    (emit username type row >>= next).Conforms relies permitsAnnouncement
      (fun later _ => due later = none) past := by
  refine conforms_call_bind.mpr ⟨?_, fun err _ => rfl, fun _ _ => rest _ rfl⟩
  rw [permitsAnnouncement, isDue]
  exact ⟨username, rfl⟩

/-- A statement that is followed by its announcement. -/
theorem announces_write (statement : Write) (row : statement.Answer → PaymentIntent)
    {type : WebhookEventType} {username : String}
    {next : statement.Answer → Unit → Promise β} (none : due past = none)
    (announced : ∀ value,
      (Call.write statement).announcement value = some (type, row value))
    (rest : ∀ value later, due later = .none → (next value ()).Conforms relies permitsAnnouncement
      (fun latest _ => due latest = .none) later) :
    (Promise.write statement >>= fun value => emit username type (row value) >>=
      next value).Conforms relies permitsAnnouncement (fun later _ => due later = .none) past := by
  refine conforms_call_bind.mpr ⟨?_, fun err _ => rfl, fun value _ => ?_⟩
  · simp only [permitsAnnouncement, none]
    rintro payload ⟨⟩
  · have isDue : due (⟨.write statement, .ok value⟩ :: past) = some (type, row value) :=
      announced value
    exact announces_emit isDue (rest value)

theorem announces_logged {task : Promise Unit}
    (conforms : task.Conforms relies permitsAnnouncement (fun later _ => due later = none) past) :
    (StellarObserver.logged task).Conforms relies permitsAnnouncement
      (fun later _ => due later = none) past := by
  unfold StellarObserver.logged
  rw [conforms_tryCatch]
  refine conforms.ensuring fun later outcome none => ?_
  cases outcome <;> exact none

theorem announces_forM {items : List β} {iteration : β → Promise Unit}
    (iterates : ∀ item later, due later = none → (iteration item).Conforms relies
      permitsAnnouncement (fun latest _ => due latest = none) later) (none : due past = none) :
    (items.forM iteration).Conforms relies permitsAnnouncement
      (fun later _ => due later = .none) past := by
  refine conforms_forM (fun _ later => due later = .none) iteration
    (fun item rest later none => (iterates item later none).ensuring fun latest outcome none => ?_)
    (fun later none => none) items none
  cases outcome <;> exact none

end Rules

/-! ## The requests -/

section Requests

variable {deployment : Deployment} {past : History signature}

theorem announces_persist {data : NewPaymentIntent} (none : due past = none) :
    (persist deployment data).Conforms Believable permitsAnnouncement
      (fun later outcome =>
        match outcome with
        | .ok (some row) => due later = some (.paymentIntentCreated, row)
        | _ => due later = .none) past := by
  refine conforms_call_bind.mpr ⟨permitsAnnouncement_of_peripheral none trivial,
    fun err _ => rfl, fun now _ => ?_⟩
  refine conforms_call_tryCatch.mpr ⟨?_, fun err _ => ?_, fun row _ => rfl⟩
  · rintro payload ⟨⟩
  · split <;> rfl

theorem announces_finishCreate {consumer : GatewayConsumer} {data : NewPaymentIntent}
    (none : due past = none) :
    (finishCreate deployment consumer data).Conforms Believable permitsAnnouncement
      (fun later _ => due later = .none) past := by
  unfold finishCreate
  rw [conforms_bind]
  refine (announces_persist none).ensuring fun later outcome isDue => ?_
  cases outcome with
  | error err => exact isDue
  | ok persisted =>
      cases persisted with
      | none => exact announces_peripheral (calls_existingView _ _) isDue
      | some row => exact announces_emit isDue fun latest none =>
          announces_peripheral (calls_withQr row) none

theorem announces_createTx (consumer : GatewayConsumer) (dto : CreateTxPaymentIntentDto) :
    (createTx deployment consumer dto).Conforms Believable permitsAnnouncement
      (fun later _ => due later = none) [] := by
  refine announces_call (by trivial) rfl fun owner later none => ?_
  refine announces_bind (announces_peripheral (calls_ofExcept _) none) fun asset later none => ?_
  refine announces_bind (announces_peripheral (calls_resolveMemo trivial _) none)
    fun memo later none => ?_
  refine announces_call (by trivial) none fun found later none => ?_
  split
  · exact announces_peripheral (calls_withQr _) none
  · refine announces_bind (announces_peripheral
      ((calls_loadAccount _ _).mono fun _ => Call.IsHorizon.peripheral) none)
      fun account later none => ?_
    refine announces_call (by trivial) none fun now later none => ?_
    refine announces_bind (announces_peripheral (calls_ofExcept _) none) fun xdr later none => ?_
    exact announces_finishCreate none

theorem announces_createPay (consumer : GatewayConsumer) (dto : CreatePayPaymentIntentDto) :
    (createPay deployment consumer dto).Conforms Believable permitsAnnouncement
      (fun later _ => due later = none) [] := by
  refine announces_call (by trivial) rfl fun owner later none => ?_
  refine announces_bind (announces_peripheral (calls_ofExcept _) none) fun asset later none => ?_
  refine announces_bind (announces_peripheral (calls_resolveMemo trivial _) none)
    fun memo later none => ?_
  refine announces_call (by trivial) none fun found later none => ?_
  split
  · exact announces_peripheral (calls_withQr _) none
  · exact announces_finishCreate none

theorem calls_assertOwned (consumer : GatewayConsumer) (id : String) :
    (assertOwned consumer id).Calls Call.Peripheral := by
  refine Calls.call_bind (by trivial) fun found => ?_
  split
  · exact calls_throw _
  · exact calls_pure _

theorem announces_update (consumer : GatewayConsumer) (id : String)
    (dto : UpdatePaymentIntentDto) :
    (update deployment consumer id dto).Conforms Believable permitsAnnouncement
      (fun later _ => due later = none) [] := by
  have sameType : patchEvent (patchOf dto) = updateEvent dto := by
    simp only [patchEvent, patchOf, updateEvent]
    cases dto.status <;> rfl
  refine announces_bind (announces_peripheral (calls_assertOwned consumer id) rfl)
    fun _ later none => ?_
  refine announces_write (.update .paymentIntent id (patchOf dto)) (fun row => row) none ?_ ?_
  · intro row
    simp only [Call.announcement, sameType]
  · intro row later none
    exact announces_peripheral (calls_withQr row) none

theorem announces_remove (consumer : GatewayConsumer) (id : String) :
    (remove consumer id).Conforms Believable permitsAnnouncement
      (fun later _ => due later = none) [] := by
  refine announces_bind (announces_peripheral (calls_assertOwned consumer id) rfl)
    fun _ later none => ?_
  refine announces_call (by trivial) none fun status later none => ?_
  split
  · exact none
  · exact announces_write (.delete .paymentIntent id) (fun row => row) none (fun _ => rfl)
      fun _ _ none => none

theorem announces_markSucceeded {id username hash : String} {payer : Option String}
    (none : due past = none) :
    (markSucceeded id username hash payer).Conforms Believable permitsAnnouncement
      (fun later _ => due later = .none) past := by
  refine announces_call (by trivial) none fun current later none => ?_
  refine announces_write (.update .paymentIntent id (succeededPatch hash payer current))
    (fun row => row) none (fun row => rfl) fun row later none => ?_
  exact announces_peripheral (Calls.call_bind (by trivial) fun _ => calls_pure _) none

theorem announces_markFailed {id username : String} {hash : Option String}
    (none : due past = none) :
    (markFailed id username hash).Conforms Believable permitsAnnouncement
      (fun later _ => due later = .none) past :=
  announces_write (.update .paymentIntent id (failedPatch hash)) (fun row => row) none
    (fun _ => rfl) fun _ _ none => none

theorem announces_markExpired {id username : String} (none : due past = none) :
    (markExpired id username).Conforms Believable permitsAnnouncement
      (fun later _ => due later = .none) past :=
  announces_write (.update .paymentIntent id expiredPatch) (fun row => row) none
    (fun _ => rfl) fun _ _ none => none

theorem announces_validate (consumer : GatewayConsumer) (id txHash : String) :
    (validate deployment consumer id txHash).Conforms Believable permitsAnnouncement
      (fun later _ => due later = none) [] := by
  have view : ∀ (intent : PaymentIntent) (outcome : PaymentIntentView → ValidationOutcome),
      ∀ later, due later = none → (withQr deployment intent >>= fun view => pure (outcome view) :
        Promise ValidationOutcome).Conforms Believable permitsAnnouncement
          (fun latest _ => due latest = none) later :=
    fun intent outcome later none =>
      announces_peripheral (Calls.bind (calls_withQr intent) fun _ => calls_pure _) none
  refine announces_call (by trivial) rfl fun found later none => ?_
  split
  · exact none
  · rename_i intent
    split
    · exact view intent _ later none
    · refine announces_bind (announces_peripheral
        ((calls_verifyByHash intent txHash).mono fun _ => Call.IsHorizon.peripheral) none)
        fun result later none => ?_
      unfold settle
      split
      · exact announces_bind (announces_markSucceeded none) fun updated later none =>
          view updated _ later none
      · split
        · exact announces_bind (announces_markFailed none) fun updated later none =>
            view updated _ later none
        · exact none

theorem announces_expire (row : PaymentIntent × String) (none : due past = none) :
    (StellarObserver.expire row).Conforms Believable permitsAnnouncement
      (fun later _ => due later = .none) past :=
  announces_logged (announces_bind (announces_markExpired none) fun _ _ none => none)

theorem announces_reconcile (row : PaymentIntent × String) (none : due past = none) :
    (StellarObserver.reconcile row).Conforms Believable permitsAnnouncement
      (fun later _ => due later = .none) past := by
  refine announces_bind (announces_peripheral
    ((calls_verify row.1).mono fun _ => Call.IsHorizon.peripheral) none)
    fun result later none => ?_
  split
  · exact announces_bind (announces_markSucceeded none) fun _ _ none => none
  · exact none

theorem announces_tick (node : Nat) :
    (StellarObserver.tick deployment node).Conforms Believable permitsAnnouncement
      (fun later _ => due later = none) [] := by
  refine announces_call (by trivial) rfl fun entered later none => ?_
  split
  · refine announces_bind (announces_logged (announces_bind ?_ fun _ later none => ?_))
      fun _ later none => announces_peripheral (calls_call (by trivial)) none
    · refine announces_call (by trivial) none fun now later none => ?_
      refine announces_call (by trivial) none fun rows later none => ?_
      exact announces_forM (fun row _ none => announces_expire row none) none
    · refine announces_call (by trivial) none fun rows later none => ?_
      exact announces_forM (fun row _ none => announces_logged (announces_reconcile row none)) none
  · exact none

theorem announcements_fulfilled : (announcements deployment).Fulfilled where
  answers performed := Performs.believable ⟨_, _, performed, rfl, rfl⟩
  bodies request := by
    by_cases isPeripheral : request.Peripheral
    · exact announces_peripheral (calls_peripheral isPeripheral) rfl
    · cases request with
      | paymentIntents request =>
          cases request with
          | createTx consumer dto => exact (conforms_map _ _).mpr (announces_createTx consumer dto)
          | createPay consumer dto =>
              exact (conforms_map _ _).mpr (announces_createPay consumer dto)
          | findAll consumer query => exact absurd trivial isPeripheral
          | findOne consumer id => exact absurd trivial isPeripheral
          | update consumer id dto =>
              exact (conforms_map _ _).mpr (announces_update consumer id dto)
          | remove consumer id => exact (conforms_map _ _).mpr (announces_remove consumer id)
          | validate consumer id txHash =>
              exact (conforms_map _ _).mpr (announces_validate consumer id txHash)
      | tick node => exact (conforms_map _ _).mpr (announces_tick node)
      | _ => exact absurd trivial isPeripheral

end Requests

/-! ## Counting announcements -/

/-- Does the call announce the intent with an event of the type? -/
def isAnnouncement (type : WebhookEventType) (id : String) (performed : Performed signature) :
    Bool :=
  match performed.call with
  | .emit payload => payload.type = type ∧ payload.data.id = id
  | _ => false

/-- Does the call have to be announced like that? -/
def needsAnnouncement (type : WebhookEventType) (id : String) (performed : Performed signature) :
    Bool :=
  match announcement performed with
  | some (isDue, row) => isDue = type ∧ row.id = id
  | none => false

section Counts

variable {deployment : Deployment}
variable {allows : Config (service deployment) → Label (service deployment) → Prop}
variable {config : Config (service deployment)} {state : World}

theorem needsAnnouncement_iff {type : WebhookEventType} {id : String}
    {performed : Performed signature} :
    needsAnnouncement type id performed = true ↔
      ∃ row, announcement performed = some (type, row) ∧ row.id = id := by
  unfold needsAnnouncement
  split
  · rename_i isDue row announced
    simp [announced, and_comm]
  · rename_i quiet
    simp [quiet]

/-- What is due after a history is needed by its latest call. -/
theorem pending_needsAnnouncement {past : History signature} {type : WebhookEventType}
    {id : String} :
    pending (needsAnnouncement type id) past = 1 ↔
      ∃ row, due past = some (type, row) ∧ row.id = id := by
  cases past with
  | nil => simp [pending, due]
  | cons latest past =>
      have isDue : due (latest :: past) = announcement latest := rfl
      simp [pending, needsAnnouncement_iff, isDue]

/-- Nothing is announced that no call needs announced. -/
theorem countP_isAnnouncement_le (run : Run allows (Config.initial state) config)
    (type : WebhookEventType) (id : String) :
    config.trace.countP (fun entry => isAnnouncement type id entry.performed) ≤
      config.trace.countP fun entry => needsAnnouncement type id entry.performed := by
  refine run.countP_effect_le announcements_fulfilled ?_ ?_
  · rintro ⟨call, answer⟩ announces
    cases call with
    | emit payload => cases answer <;> rfl
    | _ => cases announces
  · rintro request past ⟨call, answer⟩ permitted announces
    cases call with
    | emit payload =>
        have isDue : permitsAnnouncement past (.emit payload) := permitted
        simp only [permitsAnnouncement] at isDue
        split at isDue
        · rename_i other row due
          obtain ⟨username, isPayload⟩ := isDue
          obtain rfl := Call.emit.inj isPayload
          simp only [isAnnouncement, Bool.decide_and, Bool.and_eq_true,
            decide_eq_true_eq] at announces
          obtain ⟨rfl, isId⟩ := announces
          exact pending_needsAnnouncement.mpr ⟨row, due, isId⟩
        · exact absurd rfl (isDue payload)
    | _ => cases announces

/-- Where no thread has an announcement due, whatever needs one has been announced. -/
theorem le_countP_isAnnouncement (run : Run allows (Config.initial state) config)
    {type : WebhookEventType} {id : String}
    (settled : ∀ thread, pending (needsAnnouncement type id) (config.past thread) = 0) :
    config.trace.countP (fun entry => needsAnnouncement type id entry.performed) ≤
      config.trace.countP fun entry => isAnnouncement type id entry.performed := by
  refine run.countP_cause_le announcements_fulfilled ?_ settled
  rintro request past ⟨call, answer⟩ permitted isPending
  obtain ⟨row, isDue, isId⟩ := pending_needsAnnouncement.mp isPending
  have announces : permitsAnnouncement past call := permitted
  rw [permitsAnnouncement, isDue] at announces
  obtain ⟨username, rfl⟩ := announces
  simp [isAnnouncement, isId]

end Counts

end CosmosPay

import CosmosPay.Contracts.Kinds

/-!
# Who may write customers

Besides the `customers` endpoints only the detached task of a settlement writes a
customer: it looks the payer's account up, and creates one when it has found none.
-/

namespace CosmosPay

open Awaiting Program PaymentIntents

/-! ## Requests that write no customer -/

def Call.SparesCustomers : Call → Prop
  | .write (.create .customer _) => False
  | .write (.update .customer _ _) => False
  | .write (.delete .customer _) => False
  | _ => True

theorem Call.Handles.sparesCustomers {call : Call} (handles : call.Handles) :
    call.SparesCustomers := by
  unfold Call.SparesCustomers
  split <;> first | exact handles.elim | trivial

theorem Call.Dispatches.sparesCustomers {call : Call} (dispatches : call.Dispatches) :
    call.SparesCustomers := by
  unfold Call.SparesCustomers
  split <;> first | exact dispatches.elim | trivial

theorem Call.Manages.sparesCustomers {call : Call} (manages : call.Manages) :
    call.SparesCustomers := by
  unfold Call.SparesCustomers
  split <;> first | exact manages.elim | trivial

theorem Call.Stocks.sparesCustomers {call : Call} (stocks : call.Stocks) :
    call.SparesCustomers := by
  unfold Call.SparesCustomers
  split <;> first | exact stocks.elim | trivial

theorem Call.Aggregates.sparesCustomers {call : Call} (aggregates : call.Aggregates) :
    call.SparesCustomers := by
  unfold Call.SparesCustomers
  split <;> first | exact aggregates.elim | trivial

/-- A request by which a caller writes customers. -/
def Request.writesCustomers : Request → Bool
  | .customers (.create _ _) => true
  | .customers (.update _ _ _) => true
  | .customers (.remove _ _) => true
  | _ => false

variable {deployment : Deployment}

theorem sparesCustomers_tick (node : Nat) :
    (StellarObserver.tick deployment node).Calls Call.SparesCustomers := by
  have expiry : (StellarObserver.expiryPass deployment).Calls Call.SparesCustomers :=
    Calls.call_bind (by trivial) fun _ => Calls.call_bind (by trivial) fun rows =>
      (calls_forM handles_expire rows).mono fun _ => Call.Handles.sparesCustomers
  have reconciliation : (StellarObserver.reconcilePass deployment).Calls Call.SparesCustomers :=
    Calls.call_bind (by trivial) fun rows =>
      (calls_forM (fun row => handles_logged (handles_reconcile row)) rows).mono
        fun _ => Call.Handles.sparesCustomers
  refine Calls.call_bind (by trivial) fun entered => ?_
  split
  · exact Calls.bind (Calls.tryCatch (Calls.bind expiry fun _ => reconciliation)
      fun _ => calls_pure _) fun _ => calls_call (by trivial)
  · exact calls_pure _

theorem sparesCustomers_webhooks (request : WebhooksRequest) :
    (request.body deployment).Calls Call.SparesCustomers := by
  cases request with
  | redeliver consumer endpointId deliveryId =>
      exact ((dispatches_redeliver consumer endpointId deliveryId).mono
        fun _ => Call.Dispatches.sparesCustomers).map _
  | _ => exact (manages_webhooks id).mono fun _ => Call.Manages.sparesCustomers

theorem calls_sparesCustomers {request : Request} (reads : request.writesCustomers = false)
    (other : ∀ intent payer, request ≠ .background (.upsertCustomerFromPayment intent payer)) :
    (request.body deployment).Calls Call.SparesCustomers := by
  cases request with
  | paymentIntents request =>
      exact (handles_paymentIntents request).mono fun _ => Call.Handles.sparesCustomers
  | webhooks request => exact sparesCustomers_webhooks request
  | customers request =>
      cases request with
      | findAll consumer =>
          refine Calls.map (Calls.call_bind (by trivial) fun _ => ?_) _
          exact Calls.call_bind (by trivial) fun _ => Calls.call_bind (by trivial) fun _ =>
            calls_pure _
      | findOne consumer id =>
          refine Calls.map (Calls.call_bind (by trivial) fun _ =>
            Calls.call_bind (by trivial) fun found => ?_) _
          split
          · exact calls_throw _
          · exact calls_pure _
      | _ => cases reads
  | products request =>
      exact (stocks_products request).mono fun _ => Call.Stocks.sparesCustomers
  | analytics request =>
      exact (aggregates_analytics request).mono fun _ => Call.Aggregates.sparesCustomers
  | tick node => exact (sparesCustomers_tick node).map _
  | background task =>
      cases task with
      | upsertCustomerFromPayment intent payer => exact absurd rfl (other intent payer)
      | handleEvent payload =>
          exact ((dispatches_handleEvent payload).mono
            fun _ => Call.Dispatches.sparesCustomers).map _
      | createAndDeliver endpoint eventType eventId data =>
          exact ((dispatches_createAndDeliver endpoint eventType eventId data).mono
            fun _ => Call.Dispatches.sparesCustomers).map _

/-! ## The contract -/

/-- The customer that a settlement creates for an account. -/
def automatic (intent : PaymentIntent) (account : String) : NewCustomer where
  consumerId := intent.consumerId
  name := shortName account
  account := account
  reference := "auto"

/-- The account that a settlement keeps a customer for. -/
def payerAccount (intent : PaymentIntent) (payer : Option String) : Option String :=
  truthy (payer <|> intent.source)

/-- The history shows that the consumer has a customer with this account. -/
def KnowsCustomer (past : History signature) (intent : PaymentIntent) (account : String) : Prop :=
  (∃ id, ⟨.query (.customerIdByAccount intent.consumerId account), .ok (some id)⟩ ∈ past) ∨
    ∃ row, ⟨.write (.create .customer (automatic intent account)), .ok row⟩ ∈ past

/-- The statements on customers that a request may send. -/
def permitsEnrollment (request : Request) (past : History signature) : Call → Prop
  | .write (.create .customer new) =>
      match request with
      | .background (.upsertCustomerFromPayment intent payer) =>
          ∃ account ∈ payerAccount intent payer, new = automatic intent account ∧
            past = [⟨.query (.customerIdByAccount intent.consumerId account), .ok none⟩]
      | request => request.writesCustomers = true
  | .write (.update .customer _ _) => request.writesCustomers = true
  | .write (.delete .customer _) => request.writesCustomers = true
  | _ => True

/-- The task of a settlement ends well only when the customer is there. -/
def ensuresEnrollment (request : Request) (past : History signature)
    (outcome : Except ServiceError Reply) : Prop :=
  match request with
  | .background (.upsertCustomerFromPayment intent payer) =>
      outcome.isOk → ∀ account ∈ payerAccount intent payer, KnowsCustomer past intent account
  | _ => True

def enrollments (deployment : Deployment) : Contract (service deployment) where
  relies _ := True
  permits := permitsEnrollment
  ensures := ensuresEnrollment

theorem permitsEnrollment_of_spares {request : Request} {past : History signature} {call : Call}
    (spares : call.SparesCustomers) : permitsEnrollment request past call := by
  unfold permitsEnrollment
  split <;> first | exact spares.elim | trivial

theorem enrolls_upsertCustomerFromPayment (intent : PaymentIntent) (payer : Option String) :
    (upsertCustomerFromPayment intent payer).Conforms (fun _ => True)
      (permitsEnrollment (.background (.upsertCustomerFromPayment intent payer)))
      (fun past outcome => outcome.isOk → ∀ account ∈ payerAccount intent payer,
        KnowsCustomer past intent account) [] := by
  unfold upsertCustomerFromPayment
  cases isAccount : payerAccount intent payer with
  | none =>
      rw [show truthy (payer <|> intent.source) = none from isAccount]
      exact (conforms_pure _).mpr (by simp)
  | some account =>
      rw [show truthy (payer <|> intent.source) = some account from isAccount]
      simp only [Option.mem_def, Option.some.injEq, forall_eq']
      refine conforms_call_bind.mpr ⟨trivial, fun err _ => by simp [Except.isOk, Except.toBool],
        fun found _ => ?_⟩
      cases found with
      | some id =>
          exact (conforms_pure _).mpr fun _ => .inl ⟨id, List.mem_cons_self⟩
      | none =>
          refine conforms_call_bind.mpr ⟨⟨account, isAccount, rfl, rfl⟩,
            fun err _ => by simp [Except.isOk, Except.toBool], fun row _ => ?_⟩
          exact (conforms_pure _).mpr fun _ => .inr ⟨row, List.mem_cons_self⟩

theorem permitsEnrollment_of_writes {request : Request} (writes : request.writesCustomers = true)
    (past : History signature) (call : Call) : permitsEnrollment request past call := by
  unfold permitsEnrollment
  split
  · split
    · cases writes
    · exact writes
  · exact writes
  · exact writes
  · trivial

theorem ensuresEnrollment_of_ne {request : Request}
    (other : ∀ intent payer, request ≠ .background (.upsertCustomerFromPayment intent payer))
    (past : History signature) (outcome : Except ServiceError Reply) :
    ensuresEnrollment request past outcome := by
  unfold ensuresEnrollment
  split
  · exact absurd rfl (other _ _)
  · trivial

theorem enrollments_fulfilled : (enrollments deployment).Fulfilled where
  answers _ := trivial
  bodies request := by
    by_cases isTask : ∃ intent payer,
        request = .background (.upsertCustomerFromPayment intent payer)
    · obtain ⟨intent, payer, rfl⟩ := isTask
      refine (conforms_map _ _).mpr ?_
      refine (enrolls_upsertCustomerFromPayment intent payer).ensuring
        fun past outcome enrolled => ?_
      cases outcome with
      | ok value => exact enrolled
      | error err => exact enrolled
    · have other : ∀ intent payer,
          request ≠ .background (.upsertCustomerFromPayment intent payer) :=
        fun intent payer same => isTask ⟨intent, payer, same⟩
      by_cases writes : Request.writesCustomers request = true
      · exact conforms_of_forall _ (fun past call => permitsEnrollment_of_writes writes past call)
          fun past outcome => ensuresEnrollment_of_ne other past outcome
      · exact (calls_sparesCustomers (Bool.eq_false_iff.mpr writes) other).conforms
          (fun _ _ _ spares => permitsEnrollment_of_spares spares)
          fun later outcome _ => ensuresEnrollment_of_ne other _ outcome

end CosmosPay

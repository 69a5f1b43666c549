import CosmosPay.Awaiting.Heeding
import CosmosPay.Contracts.Transitions

/-!
# What is read before it is acted on

Horizon is asked about an intent that has been read, on its network and for its destination.
A settlement reads the source of the intent right before it writes.
-/

namespace CosmosPay

open Awaiting Program PaymentIntents

/-- The lookup is about payments of the intent. -/
def HorizonCall.Concerns (intent : PaymentIntent) : HorizonCall → Prop
  | .loadAccount _ _ => False
  | .transaction network _ => network = intent.network
  | .paymentsForTransaction network _ => network = intent.network
  | .paymentsForAccount network account _ =>
      network = intent.network ∧ account = intent.destination

def Call.Concerns (intent : PaymentIntent) : Call → Prop
  | .horizon lookup => lookup.Concerns intent
  | _ => False

/-- What a request on stored intents reads before it writes or asks. -/
def ReadsFirst (past : History signature) : Call → Prop
  | .horizon lookup => ∃ intent, HasRead past intent ∧ lookup.Concerns intent
  | .write (.update .paymentIntent id patch) => patch.source = .undefined ∨
      ∃ hash payer current older, patch = succeededPatch hash payer current ∧
        past = ⟨.query (.intentSource id), .ok current⟩ :: older
  | _ => True

def permitsReading (deployment : Deployment) (request : Request) (past : History signature)
    (call : Call) : Prop :=
  match request with
  | .paymentIntents (.createTx consumer dto) => ∀ lookup, call = .horizon lookup →
      lookup = .loadAccount (resolveNetwork deployment consumer) dto.source
  | .paymentIntents (.validate _ _ _) => ReadsFirst past call
  | .tick _ => ReadsFirst past call
  | _ => True

/-- Validations and ticks read first; a creation asks for its source account only. -/
def readings (deployment : Deployment) : Contract (service deployment) where
  relies _ := True
  permits := permitsReading deployment
  ensures _ _ _ := True

/-! ## The verifier -/

section Verifier

variable {intent : PaymentIntent}

theorem concerns_orNotFound {lookup : HorizonCall} (concerns : lookup.Concerns intent) :
    (StellarVerifier.orNotFound lookup).Calls (Call.Concerns intent) := by
  refine Calls.tryCatch (Calls.map (calls_call concerns) _) fun err => ?_
  split
  · exact calls_pure _
  · exact calls_throw _

theorem concerns_verifyByHash (txHash : String) :
    (StellarVerifier.verifyByHash intent txHash).Calls (Call.Concerns intent) := by
  refine Calls.bind (concerns_orNotFound rfl) fun found => ?_
  split
  · exact calls_pure _
  · split
    · exact calls_pure _
    · split
      · exact calls_pure _
      · refine Calls.call_bind rfl fun payments => ?_
        split <;> exact calls_pure _

theorem concerns_scan (page : List OperationRecord) :
    (StellarVerifier.scan intent page).Calls (Call.Concerns intent) := by
  induction page with
  | nil => exact calls_pure _
  | cons op page ih =>
      unfold StellarVerifier.scan
      split
      · exact ih
      · refine Calls.call_bind rfl fun tx => ?_
        split
        · exact ih
        · split
          · exact ih
          · exact calls_pure _

theorem concerns_verify :
    (StellarObserver.verify intent).Calls (Call.Concerns intent) := by
  unfold StellarObserver.verify
  split
  · exact concerns_verifyByHash _
  · refine Calls.bind (concerns_orNotFound ⟨rfl, rfl⟩) fun found => ?_
    split
    · exact calls_pure _
    · exact concerns_scan _

end Verifier

/-! ## The requests -/

section Requests

variable {deployment : Deployment} {known : History signature → Prop} {α : Type}

/-- The program reads first, from where that is known on. -/
abbrev ReadsFrom (known : History signature → Prop) (program : Promise α) : Prop :=
  program.Heeds (fun _ => True) ReadsFirst known

/-- A call that needs no reading. -/
def Call.Unread : Call → Prop
  | .horizon _ => False
  | .write (.update .paymentIntent _ patch) => patch.source = .undefined
  | _ => True

theorem readsFirst_of_unread {past : History signature} {call : Call} (unread : call.Unread) :
    ReadsFirst past call := by
  unfold ReadsFirst
  split
  · exact unread.elim
  · exact .inl unread
  · trivial

theorem readsFrom_of_unread (lasting : Lasting known) {program : Promise α}
    (calls : program.Calls Call.Unread) : ReadsFrom known program :=
  heeds_of_calls calls lasting fun _ _ _ => readsFirst_of_unread

theorem readsFrom_of_concerns (lasting : Lasting known) {intent : PaymentIntent}
    (reads : ∀ past, known past → HasRead past intent) {program : Promise α}
    (calls : program.Calls (Call.Concerns intent)) : ReadsFrom known program := by
  refine heeds_of_calls calls lasting fun past call isKnown concerns => ?_
  cases call with
  | horizon lookup => exact ⟨intent, reads past isKnown, concerns⟩
  | _ => exact concerns.elim

theorem readsFrom_markSucceeded (lasting : Lasting known) (id username hash : String)
    (payer : Option String) : ReadsFrom known (markSucceeded id username hash payer) := by
  intro past isKnown
  have isLater : ∀ performed, known (performed :: past) := fun _ => lasting _ _ isKnown
  refine conforms_call_bind.mpr ⟨trivial, fun _ _ => isLater _, fun current _ => ?_⟩
  refine conforms_call_bind.mpr ⟨.inr ⟨hash, payer, current, past, rfl, rfl⟩,
    fun _ _ => lasting _ _ (isLater _), fun updated _ => ?_⟩
  refine (readsFrom_of_unread lasting ?_) _ (lasting _ _ (isLater _))
  exact Calls.call_bind (by trivial) fun _ => Calls.call_bind (by trivial) fun _ => calls_pure _

theorem unread_markFailed (id username : String) (hash : Option String) :
    (markFailed id username hash).Calls Call.Unread :=
  Calls.call_bind rfl fun _ => Calls.call_bind (by trivial) fun _ => calls_pure _

theorem unread_expire (row : PaymentIntent × String) :
    (StellarObserver.expire row).Calls Call.Unread :=
  Calls.tryCatch (Calls.bind (Calls.call_bind rfl fun _ => Calls.call_bind (by trivial)
    fun _ => calls_pure _) fun _ => calls_pure _) fun _ => calls_pure _

theorem readsFrom_validate (consumer : GatewayConsumer) (id txHash : String) :
    ReadsFrom (fun _ => True) (validate deployment consumer id txHash) := by
  have views : ∀ {known : History signature → Prop}, Lasting known →
      ∀ (updated : PaymentIntent) (outcome : PaymentIntentView → ValidationOutcome),
        ReadsFrom known (do let view ← withQr deployment updated
                            pure (outcome view) : Promise ValidationOutcome) :=
    fun lasting updated outcome => readsFrom_of_unread lasting
      (Calls.bind (calls_withQr updated) fun _ => calls_pure _)
  refine heeds_call_bind lasting_true (fun _ _ => trivial) fun found => ?_
  have lasting := lasting_true.and (lasting_mem
    (⟨.query (.intentOwned id consumer.username), .ok found⟩ : Performed signature))
  split
  · exact readsFrom_of_unread lasting (calls_throw _)
  · rename_i intent
    split
    · exact views lasting _ _
    · have reads : ∀ past : History signature, True ∧
          ⟨.query (.intentOwned id consumer.username), .ok (some intent)⟩ ∈ past →
            HasRead past intent :=
        fun past isKnown => ⟨_, isKnown.2, List.mem_singleton_self intent⟩
      refine Heeds.bind (readsFrom_of_concerns lasting reads (concerns_verifyByHash txHash))
        fun result => ?_
      unfold settle
      split
      · exact (readsFrom_markSucceeded lasting _ _ _ _).bind fun updated => views lasting _ _
      · split
        · exact (readsFrom_of_unread lasting (unread_markFailed _ _ _)).bind
            fun updated => views lasting _ _
        · exact readsFrom_of_unread lasting (calls_pure _)

theorem readsFrom_reconcilePass :
    ReadsFrom (fun _ => True) (StellarObserver.reconcilePass deployment) := by
  refine heeds_call_bind lasting_true (fun _ _ => trivial) fun rows => heeds_forM ?_
  intro row member
  have lasting := lasting_true.and (lasting_mem
    (⟨.query (.pendingIntents deployment.config.batchSize), .ok rows⟩ : Performed signature))
  have reads : ∀ past : History signature, True ∧
      ⟨.query (.pendingIntents deployment.config.batchSize), .ok rows⟩ ∈ past →
        HasRead past row.1 :=
    fun past isKnown => ⟨_, isKnown.2, List.mem_map_of_mem member⟩
  refine Heeds.tryCatch ?_ fun _ => heeds_pure _
  refine Heeds.bind (readsFrom_of_concerns lasting reads concerns_verify) fun result => ?_
  split
  · exact (readsFrom_markSucceeded lasting _ _ _ _).bind fun _ => heeds_pure _
  · exact heeds_pure _

theorem readsFrom_tick (node : Nat) :
    ReadsFrom (fun _ => True) (StellarObserver.tick deployment node) := by
  have expires : (StellarObserver.expiryPass deployment).Calls Call.Unread :=
    Calls.call_bind (by trivial) fun _ => Calls.call_bind (by trivial) fun rows =>
      calls_forM unread_expire rows
  refine Heeds.bind (heeds_call lasting_true fun _ _ => trivial) fun entered => ?_
  split
  · refine Heeds.bind (Heeds.tryCatch ?_ fun _ => heeds_pure _)
      fun _ => heeds_call lasting_true fun _ _ => trivial
    exact (readsFrom_of_unread lasting_true expires).bind fun _ => readsFrom_reconcilePass
  · exact heeds_pure _

/-- A creation asks Horizon for the account of its source and for nothing else. -/
def Call.Loads (network : StellarNetwork) (source : String) (call : Call) : Prop :=
  ∀ lookup, call = .horizon lookup → lookup = .loadAccount network source

theorem loads_createTx (consumer : GatewayConsumer) (dto : CreateTxPaymentIntentDto) :
    (createTx deployment consumer dto).Calls
      (Call.Loads (resolveNetwork deployment consumer) dto.source) := by
  have finishes : ∀ data, (finishCreate deployment consumer data).Calls
      (Call.Loads (resolveNetwork deployment consumer) dto.source) := by
    intro data
    refine Calls.bind (Calls.call_bind nofun fun now => ?_) fun persisted => ?_
    · refine Calls.tryCatch (Calls.map (calls_call nofun) _) fun err => ?_
      split
      · exact calls_pure _
      · exact calls_throw _
    · split
      · refine Calls.call_bind nofun fun found => ?_
        split
        · exact calls_withQr _
        · exact calls_throw _
      · exact Calls.call_bind nofun fun _ => calls_withQr _
  refine Calls.call_bind nofun fun owner => Calls.bind (calls_ofExcept _) fun asset => ?_
  refine Calls.bind (calls_resolveMemo nofun _) fun memo => Calls.call_bind nofun fun found => ?_
  split
  · exact calls_withQr _
  · refine Calls.bind (Calls.tryCatch (calls_call ?_) fun err => ?_) fun account => ?_
    · rintro lookup ⟨⟩
      rfl
    · split <;> exact calls_throw _
    · exact Calls.call_bind nofun fun now => Calls.bind (calls_ofExcept _) fun xdr => finishes _

theorem readings_fulfilled : (readings deployment).Fulfilled where
  answers _ := trivial
  bodies request := by
    cases request with
    | paymentIntents request =>
        cases request with
        | createTx consumer dto =>
            exact ((loads_createTx consumer dto).map _).conforms (fun _ _ _ loads => loads)
              fun _ _ _ => trivial
        | validate consumer id txHash =>
            exact (Heeds.map (readsFrom_validate consumer id txHash) _) [] trivial
        | _ => exact conforms_of_forall _ (fun _ _ => trivial) fun _ _ => trivial
    | tick node => exact (Heeds.map (readsFrom_tick node) _) [] trivial
    | _ => exact conforms_of_forall _ (fun _ _ => trivial) fun _ _ => trivial

end Requests

end CosmosPay

import CosmosPay.Amounts
import CosmosPay.WellFormed

/-!
# What the create endpoints insert, column by column

An inserted intent is made of the fields of the request, the asset and the memo that were
resolved, and for a TX intent the envelope that the SDK built.
-/

namespace CosmosPay

open Awaiting Tables Program PaymentIntents

/-! ## Admitted requests -/

/-- The validation pipe lets the body of the request through. -/
def Request.Admitted (libraries : Libraries) : Request → Prop
  | .paymentIntents (.createTx _ dto) => dto.Admitted libraries
  | .paymentIntents (.createPay _ dto) => dto.Admitted libraries
  | .paymentIntents (.update _ _ dto) => dto.Admitted
  | _ => True

/-- Only admitted requests are issued. -/
def IssuesAdmitted {deployment : Deployment} : Label (service deployment) → Prop
  | .issue request => Request.Admitted deployment.libraries request
  | _ => True

section Decisions

instance : DecidablePred IsAmount :=
  fun _ => decidable_of_iff _ isAmount_iff.symm

instance : DecidablePred IsAssetCode :=
  fun text => @instDecidableAnd _ _ (List.decidableBAll _ text.toList) inferInstance

instance {α : Type} {check : α → Prop} [DecidablePred check] (field : Field α) :
    Decidable (field.Admits check) :=
  match field with
  | .value given => inferInstanceAs (Decidable (check given))
  | .undefined => .isTrue trivial
  | .null => .isTrue trivial

instance Request.decidableAdmitted (libraries : Libraries) (request : Request) :
    Decidable (request.Admitted libraries) :=
  match request with
  | .paymentIntents (.createTx _ dto) => inferInstanceAs (Decidable (
      libraries.isValidEd25519PublicKey dto.source = true ∧ _ ∧ _ ∧ _ ∧ _ ∧ _ ∧ _ ∧ _))
  | .paymentIntents (.createPay _ dto) => inferInstanceAs (Decidable (
      libraries.isValidEd25519PublicKey dto.destination = true ∧ _ ∧ _ ∧ _ ∧ _ ∧ _ ∧ _))
  | .paymentIntents (.update _ _ dto) => inferInstanceAs (Decidable (
      dto.txHash.Admits (String.length · ≤ 128) ∧ _))
  | .paymentIntents (.findAll _ _) | .paymentIntents (.findOne _ _)
  | .paymentIntents (.remove _ _) | .paymentIntents (.validate _ _ _) | .webhooks _
  | .customers _ | .products _ | .analytics _ | .tick _ | .background _ => .isTrue trivial

instance {deployment : Deployment} (label : Label (service deployment)) :
    Decidable (IssuesAdmitted label) :=
  match label with
  | .issue request => Request.decidableAdmitted deployment.libraries request
  | .resume _ _ => .isTrue trivial
  | .move _ => .isTrue trivial

end Decisions

/-- A run with all requests and ticks, each request admitted by the validation pipe. -/
abbrev AdmittedRun {deployment : Deployment} (config config' : Config (service deployment)) :
    Prop :=
  Run (fun _ label => IssuesAdmitted label) config config'

theorem AdmittedRun.admitted {deployment : Deployment} {state : World}
    {config : Config (service deployment)} (run : AdmittedRun (Config.initial state) config)
    {index : Nat} {thread : Thread (service deployment)}
    (lookup : config.threads[index]? = some thread) :
    Request.Admitted deployment.libraries thread.request := by
  refine @Run.requests _ (service deployment) _ _ _ (Request.Admitted deployment.libraries) run
    (fun _ _ admitted => admitted) (fun performed => ?_) _ _ lookup
  intro request member
  obtain ⟨task, rfl⟩ := World.perform_spawned performed request member
  trivial

/-! ## Rows of the endpoints -/

section Rows

variable (deployment : Deployment) (consumer : GatewayConsumer) (owner : Consumer)
variable (asset : ResolvedAsset) (memo : String) (expiresAt : Option Nat)

def txIntent (dto : CreateTxPaymentIntentDto) (xdr : String) : NewPaymentIntent where
  consumerId := owner.id
  kind := .tx
  source := dto.source
  destination := dto.destination
  amount := dto.amount
  asset := asset.code
  assetIssuer := asset.issuer
  memo := memo
  msg := dto.msg
  callback := dto.callback
  network := resolveNetwork deployment consumer
  status := .pending
  xdr := xdr
  uri := "web+stellar:tx?" ++
    (appendSep7Extras [("xdr", xdr)] dto.msg dto.callback).serialize
  expiresAt := expiresAt

def payIntent (dto : CreatePayPaymentIntentDto) : NewPaymentIntent where
  consumerId := owner.id
  kind := .pay
  source := none
  destination := dto.destination
  amount := dto.amount.toOption
  asset := asset.code
  assetIssuer := asset.issuer
  memo := memo
  msg := dto.msg
  callback := dto.callback
  network := resolveNetwork deployment consumer
  status := .pending
  xdr := none
  uri := "web+stellar:pay?" ++ (payParams dto asset memo).serialize
  expiresAt := expiresAt

end Rows

/-- The rows that a request may insert. -/
inductive Composes (deployment : Deployment) : Request → NewPaymentIntent → Prop where
  | tx (consumer : GatewayConsumer) (dto : CreateTxPaymentIntentDto) (owner : Consumer)
      (asset : ResolvedAsset) (memo xdr : String) (expiresAt : Option Nat)
      (envelope : EnvelopeRequest)
      (resolved : resolveAsset deployment dto.assetCode dto.assetIssuer = .ok asset)
      (amount : envelope.amount = dto.amount)
      (built : deployment.libraries.buildEnvelope envelope = .ok xdr) :
      Composes deployment (.paymentIntents (.createTx consumer dto))
        (txIntent deployment consumer owner asset memo expiresAt dto xdr)
  | pay (consumer : GatewayConsumer) (dto : CreatePayPaymentIntentDto) (owner : Consumer)
      (asset : ResolvedAsset) (memo : String) (expiresAt : Option Nat)
      (resolved : resolveAsset deployment dto.assetCode dto.assetIssuer = .ok asset) :
      Composes deployment (.paymentIntents (.createPay consumer dto))
        (payIntent deployment consumer owner asset memo expiresAt dto)

def Call.InsertsFor (deployment : Deployment) (request : Request) : Call → Prop
  | .write (.create .paymentIntent new) => Composes deployment request new
  | _ => True

theorem Call.Peripheral.insertsFor {deployment : Deployment} {request : Request} {call : Call}
    (peripheral : call.Peripheral) : call.InsertsFor deployment request := by
  unfold Call.InsertsFor
  split
  · exact peripheral.elim
  · trivial

/-- The rows of the create endpoints; nothing else inserts intents. -/
def compositions (deployment : Deployment) : Contract (service deployment) where
  relies _ := True
  permits request _ call :=
    (Request.creation? request).isSome → Call.InsertsFor deployment request call
  ensures _ _ _ := True

section Endpoints

variable {deployment : Deployment} {request : Request}

theorem insertsFor_finishCreate (consumer : GatewayConsumer) {data : NewPaymentIntent}
    (composes : ∀ expiresAt, Composes deployment request { data with expiresAt }) :
    (finishCreate deployment consumer data).Calls (Call.InsertsFor deployment request) := by
  refine Calls.bind (Calls.call_bind (by trivial) fun now => ?_) fun persisted => ?_
  · refine Calls.tryCatch (Calls.map (calls_call (composes _)) _) fun err => ?_
    split
    · exact calls_pure _
    · exact calls_throw _
  · split
    · exact (calls_existingView _ _).mono fun _ => Call.Peripheral.insertsFor
    · exact Calls.call_bind (by trivial) fun _ => calls_withQr _

theorem insertsFor_createTx (consumer : GatewayConsumer) (dto : CreateTxPaymentIntentDto) :
    (createTx deployment consumer dto).Calls
      (Call.InsertsFor deployment (.paymentIntents (.createTx consumer dto))) := by
  refine Calls.call_bind (by trivial) fun owner => calls_ofExcept_bind fun asset resolved => ?_
  refine Calls.bind (calls_resolveMemo trivial _) fun memo => ?_
  refine Calls.call_bind (by trivial) fun found => ?_
  split
  · exact calls_withQr _
  · refine Calls.bind ((calls_loadAccount _ _).mono fun _ isHorizon =>
      isHorizon.peripheral.insertsFor) fun account => ?_
    refine Calls.call_bind (by trivial) fun now => calls_ofExcept_bind fun xdr built => ?_
    exact insertsFor_finishCreate consumer fun expiresAt =>
      .tx consumer dto owner asset memo xdr expiresAt _ resolved rfl built

theorem insertsFor_createPay (consumer : GatewayConsumer) (dto : CreatePayPaymentIntentDto) :
    (createPay deployment consumer dto).Calls
      (Call.InsertsFor deployment (.paymentIntents (.createPay consumer dto))) := by
  refine Calls.call_bind (by trivial) fun owner => calls_ofExcept_bind fun asset resolved => ?_
  refine Calls.bind (calls_resolveMemo trivial _) fun memo => ?_
  refine Calls.call_bind (by trivial) fun found => ?_
  split
  · exact calls_withQr _
  · exact insertsFor_finishCreate consumer fun expiresAt =>
      .pay consumer dto owner asset memo expiresAt resolved

theorem compositions_fulfilled : (compositions deployment).Fulfilled where
  answers _ := trivial
  bodies request := by
    have free : Request.creation? request = none →
        (request.body deployment).Conforms (fun _ => True)
          (fun _ call => (Request.creation? request).isSome →
            Call.InsertsFor deployment request call)
          (fun _ _ => True) [] := by
      intro isNone
      refine conforms_of_forall _ (fun _ _ isSome => ?_) fun _ _ => trivial
      rw [isNone] at isSome
      cases isSome
    cases request with
    | paymentIntents request =>
        cases request with
        | createTx consumer dto =>
            exact (((insertsFor_createTx consumer dto).map _) []).mono
              (fun _ _ inserts _ => inserts) fun _ _ done => done
        | createPay consumer dto =>
            exact (((insertsFor_createPay consumer dto).map _) []).mono
              (fun _ _ inserts _ => inserts) fun _ _ done => done
        | _ => exact free rfl
    | _ => exact free rfl

end Endpoints

/-! ## Stored rows -/

section Runs

variable {deployment : Deployment}
variable {allows : Config (service deployment) → Label (service deployment) → Prop}
variable {config : Config (service deployment)} {state : World}

/-- An intent is inserted by a create request that composes it. -/
theorem composes_of_paused (run : Run allows (Config.initial state) config) {thread : Nat}
    {request : Request} {new : NewPaymentIntent}
    {resume : signature.Result (.write (.create .paymentIntent new)) → Promise Reply}
    (paused : config.threads[thread]? =
      some ⟨request, .await (.write (.create .paymentIntent new)) resume⟩) :
    Composes deployment request new := by
  have transits : permitsTransition request (config.past thread)
      (.write (.create .paymentIntent new)) := run.permitted transitions_fulfilled paused
  have composes := run.permitted compositions_fulfilled paused
  simp only [permitsTransition] at transits
  split at transits
  · exact composes rfl
  · exact composes rfl
  · exact transits.elim

/-- The thread's request composed the intent, and its insertion succeeded. -/
theorem Inserted.composed (run : Run allows (Config.initial state) config) {maker : Nat}
    {row : PaymentIntent} (inserted : Inserted config maker row) :
    ∃ request code new id createdAt, config.threads[maker]? = some ⟨request, code⟩ ∧
      Composes deployment request new ∧
        PaymentIntent.terms (Model.make .paymentIntent new id createdAt) = row.terms := by
  obtain ⟨new, original, member, sameTerms⟩ := inserted
  obtain ⟨before, after, choice, request, reached, resumes, -, code, lookup⟩ :=
    exists_resumes_of_mem run member
  obtain ⟨resume, paused, -⟩ := resumes.paused
  obtain ⟨id, -, rfl, -⟩ := resumes.performs.of_create
  exact ⟨request, code, new, id, _, lookup, composes_of_paused reached paused, sameTerms⟩

end Runs

end CosmosPay

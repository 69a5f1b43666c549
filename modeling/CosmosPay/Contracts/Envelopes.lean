import CosmosPay.Contracts.Compositions

/-!
# The envelope of a TX intent

The SDK is asked for an envelope before the intent is inserted, with the account that Horizon
has just returned for the source.  The inserted row repeats what the envelope was built from.
-/

namespace CosmosPay

open Awaiting Program PaymentIntents

/-- The SDK's asset for the asset that the columns of an intent name. -/
inductive Denotes (deployment : Deployment) : String → Option String → Asset → Prop where
  | native : Denotes deployment "native" none .native
  | issued (code issuer : String) (asset : Asset)
      (made : deployment.libraries.newAsset code issuer = .ok asset) :
      Denotes deployment code issuer asset

/-- The row is inserted with this envelope. -/
structure Encloses (deployment : Deployment) (past : History signature) (new : NewPaymentIntent)
    (envelope : EnvelopeRequest) : Prop where
  built : ∃ xdr, deployment.libraries.buildEnvelope envelope = .ok xdr ∧ new.xdr = some xdr
  loaded : ∃ source, new.source = some source ∧
    ⟨.horizon (.loadAccount new.network source), .ok envelope.account⟩ ∈ past
  fee : envelope.fee = deployment.config.baseFee
  passphrase : envelope.networkPassphrase = new.network.passphrase
  destination : envelope.destination = new.destination
  amount : new.amount = some envelope.amount
  asset : Denotes deployment new.asset new.assetIssuer envelope.asset
  memo : envelope.memo = new.memo
  timeout : envelope.timeoutSeconds = deployment.config.timeoutSeconds

def permitsEnvelope (deployment : Deployment) (request : Request) (past : History signature) :
    Call → Prop
  | .write (.create .paymentIntent new) =>
      (Request.creation? request).isSome → new.kind = .tx →
        ∃ envelope, Encloses deployment past new envelope
  | _ => True

/-- TX intents are inserted with their envelopes. -/
def envelopes (deployment : Deployment) : Contract (service deployment) where
  relies _ := True
  permits := permitsEnvelope deployment
  ensures _ _ _ := True

section Endpoints

variable {deployment : Deployment} {request : Request} {past : History signature}

theorem permitsEnvelope_of_peripheral {call : Call} (peripheral : call.Peripheral) :
    permitsEnvelope deployment request past call := by
  unfold permitsEnvelope
  split
  · exact peripheral.elim
  · trivial

theorem denotes_of_resolveAsset {assetCode assetIssuer : Field String} {asset : ResolvedAsset}
    (resolved : resolveAsset deployment assetCode assetIssuer = .ok asset) :
    Denotes deployment asset.code asset.issuer asset.asset := by
  simp only [resolveAsset] at resolved
  split at resolved
  · obtain rfl := Except.ok.inj resolved
    exact .native
  · split at resolved
    · obtain rfl := Except.ok.inj resolved
      exact .native
    · split at resolved
      · cases resolved
      · rename_i code _ _ _ issuer _
        cases made : deployment.libraries.newAsset code issuer with
        | error err =>
            rw [made] at resolved
            cases resolved
        | ok asset =>
            rw [made] at resolved
            obtain rfl := Except.ok.inj resolved
            exact .issued code issuer asset made

/-- A program that inserts nothing. -/
theorem encloses_of_peripheral {α : Type} {program : Promise α}
    (calls : program.Calls Call.Peripheral) :
    program.Conforms (fun _ => True) (permitsEnvelope deployment request) (fun _ _ => True) past :=
  calls.conforms (fun _ _ _ => permitsEnvelope_of_peripheral) fun _ _ _ => trivial

/-- An account that `loadAccount` returns is Horizon's answer. -/
theorem loads_loadAccount (network : StellarNetwork) (source : String) :
    (loadAccount network source).Conforms (fun _ => True) (permitsEnvelope deployment request)
      (fun later outcome => ∀ account, outcome = .ok account →
        ⟨.horizon (.loadAccount network source), .ok account⟩ ∈ later) past := by
  refine (conforms_tryCatch _ _).mpr ⟨trivial, fun answer _ => ?_⟩
  cases answer with
  | ok account =>
      rintro _ ⟨⟩
      exact List.mem_cons_self
  | error err =>
      refine (orElse_error _ _).mpr ?_
      split <;> rintro account ⟨⟩

theorem encloses_finishCreate (consumer : GatewayConsumer) {data : NewPaymentIntent}
    (encloses : ∀ expiresAt later, past ⊆ later → data.kind = .tx →
      ∃ envelope, Encloses deployment later { data with expiresAt } envelope) :
    (finishCreate deployment consumer data).Conforms (fun _ => True)
      (permitsEnvelope deployment request) (fun _ _ => True) past := by
  unfold finishCreate
  rw [conforms_bind]
  refine conforms_call_bind.mpr ⟨trivial, fun _ _ => trivial, fun now _ => ?_⟩
  refine conforms_call_tryCatch.mpr ⟨fun _ isTx => ?_, fun err _ => ?_, fun row _ => ?_⟩
  · exact encloses _ _ (List.subset_cons_self _ _) isTx
  · split
    · exact (andThen_ok _ _).mpr (encloses_of_peripheral (calls_existingView _ _))
    · trivial
  · refine (andThen_ok _ _).mpr ?_
    exact conforms_call_bind.mpr ⟨trivial, fun _ _ => trivial, fun _ _ =>
      encloses_of_peripheral (calls_withQr _)⟩

theorem encloses_createTx (consumer : GatewayConsumer) (dto : CreateTxPaymentIntentDto) :
    (createTx deployment consumer dto).Conforms (fun _ => True)
      (permitsEnvelope deployment request) (fun _ _ => True) past := by
  refine conforms_call_bind.mpr ⟨trivial, fun _ _ => trivial, fun owner _ => ?_⟩
  rw [conforms_bind, conforms_ofExcept]
  cases resolved : resolveAsset deployment dto.assetCode dto.assetIssuer with
  | error err => trivial
  | ok asset =>
      refine (andThen_ok _ _).mpr ?_
      rw [conforms_bind]
      refine (encloses_of_peripheral (calls_resolveMemo trivial _)).ensuring
        fun later outcome _ => ?_
      cases outcome with
      | error err => trivial
      | ok memo =>
          refine (andThen_ok _ _).mpr ?_
          refine conforms_call_bind.mpr ⟨trivial, fun _ _ => trivial, fun found _ => ?_⟩
          split
          · exact encloses_of_peripheral (calls_withQr _)
          rw [conforms_bind]
          refine (loads_loadAccount _ _).ensuring fun later outcome loaded => ?_
          cases outcome with
          | error err => trivial
          | ok account =>
              refine (andThen_ok _ _).mpr ?_
              refine conforms_call_bind.mpr ⟨trivial, fun _ _ => trivial, fun now _ => ?_⟩
              rw [conforms_bind, conforms_ofExcept]
              cases built : deployment.libraries.buildEnvelope _ with
              | error err => trivial
              | ok xdr =>
                  exact encloses_finishCreate consumer fun expiresAt latest grows _ => ⟨_, {
                    built := ⟨xdr, built, rfl⟩
                    loaded := ⟨dto.source, rfl,
                      grows (List.mem_cons_of_mem _ (loaded account rfl))⟩
                    fee := rfl
                    passphrase := rfl
                    destination := rfl
                    amount := rfl
                    asset := denotes_of_resolveAsset resolved
                    memo := rfl
                    timeout := rfl }⟩

theorem encloses_createPay (consumer : GatewayConsumer) (dto : CreatePayPaymentIntentDto) :
    (createPay deployment consumer dto).Conforms (fun _ => True)
      (permitsEnvelope deployment request) (fun _ _ => True) past := by
  refine conforms_call_bind.mpr ⟨trivial, fun _ _ => trivial, fun owner _ => ?_⟩
  rw [conforms_bind, conforms_ofExcept]
  cases resolveAsset deployment dto.assetCode dto.assetIssuer with
  | error err => trivial
  | ok asset =>
      refine (andThen_ok _ _).mpr ?_
      rw [conforms_bind]
      refine (encloses_of_peripheral (calls_resolveMemo trivial _)).ensuring
        fun later outcome _ => ?_
      cases outcome with
      | error err => trivial
      | ok memo =>
          refine (andThen_ok _ _).mpr ?_
          refine conforms_call_bind.mpr ⟨trivial, fun _ _ => trivial, fun found _ => ?_⟩
          split
          · exact encloses_of_peripheral (calls_withQr _)
          · refine encloses_finishCreate consumer fun expiresAt later grows isTx => ?_
            cases isTx

theorem envelopes_fulfilled : (envelopes deployment).Fulfilled where
  answers _ := trivial
  bodies request := by
    have free : Request.creation? request = none →
        (request.body deployment).Conforms (fun _ => True) (permitsEnvelope deployment request)
          (fun _ _ => True) [] := by
      intro isNone
      refine conforms_of_forall _ (fun past call => ?_) fun _ _ => trivial
      unfold permitsEnvelope
      split
      · intro isSome
        rw [isNone] at isSome
        cases isSome
      · trivial
    cases request with
    | paymentIntents request =>
        cases request with
        | createTx consumer dto =>
            exact (conforms_map _ _).mpr (encloses_createTx consumer dto)
        | createPay consumer dto =>
            exact (conforms_map _ _).mpr (encloses_createPay consumer dto)
        | _ => exact free rfl
    | _ => exact free rfl

end Endpoints

end CosmosPay

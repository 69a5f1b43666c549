import CosmosPay.Contracts.Creations

/-!
# The fallback of the create endpoints

After an insertion that the unique key refuses, a create request reads the row under that
key and returns it.  It does nothing in between and nothing afterwards.
-/

namespace CosmosPay

open Awaiting Program PaymentIntents

/-! ## Refused insertions -/

/-- The consumer and the memo of an insertion that the unique key refused. -/
def Call.refusal : (call : Call) → Except ServiceError call.Answer → Option (String × String)
  | .write (.create .paymentIntent new), .error err =>
      if isUniqueViolation err then some (new.consumerId, new.memo) else none
  | _, _ => none

/-- What a lookup by memo has found. -/
def Call.byMemo : (call : Call) → Except ServiceError call.Answer → Option (Option PaymentIntent)
  | .query (.intentByMemo _ _), .ok found => some found
  | _, _ => none

/-- What the last call was refused. -/
def refused? (past : History signature) : Option (String × String) :=
  past.head?.bind fun performed => performed.call.refusal performed.answer

/-- What the last call has read, right after a refusal. -/
def reread? (past : History signature) : Option (Option PaymentIntent) :=
  past.head?.bind fun performed => (performed.call.byMemo performed.answer).bind fun found =>
    (refused? past.tail).map fun _ => found

/-- Neither a refusal nor a second read is the last that happened. -/
structure Untroubled (past : History signature) : Prop where
  accepted : refused? past = none
  unread : reread? past = none

theorem untroubled_nil : Untroubled [] :=
  ⟨rfl, rfl⟩

/-- A call that inserts no intent and looks none up by its memo. -/
def Call.Harmless : Call → Prop
  | .write (.create .paymentIntent _) => False
  | .query (.intentByMemo _ _) => False
  | _ => True

theorem untroubled_cons {performed : Performed signature} (harmless : performed.call.Harmless)
    (past : History signature) : Untroubled (performed :: past) := by
  obtain ⟨call, answer⟩ := performed
  constructor
  · simp only [refused?, List.head?_cons, Option.bind_some, Call.refusal]
    split
    · exact harmless.elim
    · rfl
  · simp only [reread?, List.head?_cons, Option.bind_some, Call.byMemo]
    split
    · exact harmless.elim
    · rfl

/-- A lookup by memo that follows no refusal. -/
theorem untroubled_lookup {past : History signature} (untroubled : Untroubled past)
    {consumerId memo : String} (answer : Except ServiceError (Option PaymentIntent)) :
    Untroubled (⟨.query (.intentByMemo consumerId memo), answer⟩ :: past) := by
  constructor
  · cases answer <;> rfl
  · cases answer with
    | error err => rfl
    | ok found => simp [reread?, Call.byMemo, untroubled.accepted]

theorem Untroubled.append {recent past : History signature} (untroubled : Untroubled past)
    (harmless : ∀ performed ∈ recent, performed.call.Harmless) : Untroubled (recent ++ past) := by
  cases recent with
  | nil => exact untroubled
  | cons performed recent => exact untroubled_cons (harmless performed List.mem_cons_self) _

/-! ## The contract -/

/-- After a refusal the row is looked up under the refused key, and after that nothing. -/
structure PermitsFallback (past : History signature) (call : Call) : Prop where
  unread : reread? past = none
  lookup : ∀ key ∈ refused? past, call = .query (.intentByMemo key.1 key.2)

section Contract

variable (deployment : Deployment)

/-- What comes of the row that was read after a refusal. -/
def existingOutcome : Option PaymentIntent → Except ServiceError PaymentIntentView
  | some existing => (deployment.libraries.toDataURL existing.uri).map (⟨existing, ·⟩)
  | none => .error (.other "Cannot read properties of null (reading 'uri')")

/-- The view of a create endpoint after a fallback. -/
structure EnsuresFallback (past : History signature)
    (outcome : Except ServiceError PaymentIntentView) : Prop where
  answered : refused? past = none
  existing : ∀ found ∈ reread? past, outcome = existingOutcome deployment found

/-- The fallback of the create endpoints; other requests are left open. -/
def fallbacks : Contract (service deployment) where
  relies _ := True
  permits request past call := (Request.creation? request).isSome → PermitsFallback past call
  ensures request past outcome := (Request.creation? request).isSome →
    refused? past = none ∧
      ∀ found ∈ reread? past, outcome = (existingOutcome deployment found).map .intent

end Contract

section Endpoints

variable {deployment : Deployment} {past : History signature}

theorem Untroubled.permits (untroubled : Untroubled past) (call : Call) :
    PermitsFallback past call :=
  ⟨untroubled.unread, by simp [untroubled.accepted]⟩

theorem Untroubled.ensures (untroubled : Untroubled past)
    (outcome : Except ServiceError PaymentIntentView) :
    EnsuresFallback deployment past outcome :=
  ⟨untroubled.accepted, by simp [untroubled.unread]⟩

/-- A program of harmless calls leaves no refusal behind. -/
theorem Untroubled.conforms {α : Type} {program : Promise α} (untroubled : Untroubled past)
    (calls : program.Calls Call.Harmless) :
    program.Conforms (fun _ => True) PermitsFallback (fun later _ => Untroubled later) past :=
  calls.conforms
    (fun _ call harmless _ => (untroubled.append harmless).permits call)
    fun _ _ harmless => untroubled.append harmless

/-- What follows an untroubled part of a create endpoint. -/
theorem Untroubled.bind {α : Type} {program : Promise α} {next : α → Promise PaymentIntentView}
    (untroubled : Untroubled past) (calls : program.Calls Call.Harmless)
    (continues : ∀ later value, Untroubled later →
      (next value).Conforms (fun _ => True) PermitsFallback (EnsuresFallback deployment) later) :
    (program >>= next).Conforms (fun _ => True) PermitsFallback (EnsuresFallback deployment)
      past := by
  rw [conforms_bind]
  refine (untroubled.conforms calls).ensuring fun later outcome calm => ?_
  cases outcome with
  | error err => exact calm.ensures _
  | ok value => exact continues later value calm

theorem fallback_withQr (intent : PaymentIntent) (untroubled : Untroubled past) :
    (withQr deployment intent).Conforms (fun _ => True) PermitsFallback
      (EnsuresFallback deployment) past :=
  untroubled.ensures _

theorem fallback_existingView {consumerId memo : String} (unread : reread? past = none)
    (refused : refused? past = some (consumerId, memo)) :
    (existingView deployment consumerId memo).Conforms (fun _ => True) PermitsFallback
      (EnsuresFallback deployment) past := by
  refine conforms_call_bind.mpr ⟨⟨unread, ?_⟩, fun err _ => ⟨rfl, ?_⟩, fun found _ => ?_⟩
  · intro key isKey
    obtain rfl := Option.some.inj (refused.symm.trans isKey)
    rfl
  · rintro found ⟨⟩
  · have read : reread? (⟨.query (.intentByMemo consumerId memo), .ok found⟩ :: past) =
        some found := by
      simp [reread?, Call.byMemo, refused]
    have ends : EnsuresFallback deployment
        (⟨.query (.intentByMemo consumerId memo), .ok found⟩ :: past)
        (existingOutcome deployment found) := by
      refine ⟨rfl, fun shown isShown => ?_⟩
      rw [Option.some.inj (read.symm.trans isShown)]
    cases found with
    | none => exact ends
    | some existing => exact ends

theorem fallback_finishCreate (consumer : GatewayConsumer) (data : NewPaymentIntent)
    (untroubled : Untroubled past) :
    (finishCreate deployment consumer data).Conforms (fun _ => True) PermitsFallback
      (EnsuresFallback deployment) past := by
  unfold finishCreate
  rw [conforms_bind]
  have calm : ∀ answer : Except ServiceError Nat, Untroubled (⟨.now, answer⟩ :: past) :=
    fun _ => ⟨rfl, rfl⟩
  refine conforms_call_bind.mpr ⟨untroubled.permits _, fun err _ => (calm _).ensures _,
    fun now _ => ?_⟩
  refine conforms_call_tryCatch.mpr ⟨(calm _).permits _, fun err _ => ?_, fun row _ => ?_⟩
  · split
    · rename_i violation
      refine (andThen_ok _ _).mpr (fallback_existingView rfl ?_)
      simp [refused?, Call.refusal, violation]
    · rename_i other
      have accepted : refused? (⟨.write (.create .paymentIntent { data with
          expiresAt := some (data.expiresAt.getD (now + deployment.config.ttlSeconds * 1000)) }),
          .error err⟩ :: ⟨.now, .ok now⟩ :: past) = none := by
        simp [refused?, Call.refusal, other]
      exact ⟨accepted, by rintro found ⟨⟩⟩
  · refine (andThen_ok _ _).mpr ?_
    have stored : Untroubled (⟨.write (.create .paymentIntent { data with
        expiresAt := some (data.expiresAt.getD (now + deployment.config.ttlSeconds * 1000)) }),
        .ok row⟩ :: ⟨.now, .ok now⟩ :: past) := ⟨rfl, rfl⟩
    exact stored.bind (calls_call trivial) fun later _ calm => fallback_withQr row calm

theorem Call.IsHorizon.harmless {call : Call} (isHorizon : call.IsHorizon) : call.Harmless := by
  cases call <;> first | exact isHorizon.elim | trivial

/-- The steps that both endpoints begin with. -/
theorem fallback_prepare {consumer : GatewayConsumer} {assetCode assetIssuer memo : Field String}
    {next : Consumer → ResolvedAsset → String → Promise PaymentIntentView}
    (missed : ∀ later owner asset memo, Untroubled later →
      (next owner asset memo).Conforms (fun _ => True) PermitsFallback
        (EnsuresFallback deployment) later) :
    (do let localConsumer ← resolveConsumer consumer
        let asset ← Promise.ofExcept (resolveAsset deployment assetCode assetIssuer)
        let memo ← resolveMemo memo
        match ← findByMemo localConsumer.id memo with
        | some existing => withQr deployment existing
        | none => next localConsumer asset memo : Promise PaymentIntentView).Conforms
      (fun _ => True) PermitsFallback (EnsuresFallback deployment) [] := by
  refine untroubled_nil.bind (calls_call trivial) fun later owner calm => ?_
  refine calm.bind (calls_ofExcept _) fun later asset calm => ?_
  refine calm.bind (calls_resolveMemo trivial memo) fun later memo calm => ?_
  refine conforms_call_bind.mpr ⟨calm.permits _,
    fun err _ => (untroubled_lookup calm _).ensures _, fun found _ => ?_⟩
  have looked : Untroubled (⟨.query (.intentByMemo owner.id memo), .ok found⟩ :: later) :=
    untroubled_lookup calm (.ok found)
  split
  · exact fallback_withQr _ looked
  · exact missed _ owner asset memo looked

theorem fallback_createTx (consumer : GatewayConsumer) (dto : CreateTxPaymentIntentDto) :
    (createTx deployment consumer dto).Conforms (fun _ => True) PermitsFallback
      (EnsuresFallback deployment) [] := by
  refine fallback_prepare fun later owner asset memo calm => ?_
  refine calm.bind ((calls_loadAccount _ _).mono fun _ => Call.IsHorizon.harmless)
    fun later account calm => ?_
  refine calm.bind (calls_call trivial) fun later now calm => ?_
  refine calm.bind (calls_ofExcept _) fun later xdr calm => ?_
  exact fallback_finishCreate consumer _ calm

theorem fallback_createPay (consumer : GatewayConsumer) (dto : CreatePayPaymentIntentDto) :
    (createPay deployment consumer dto).Conforms (fun _ => True) PermitsFallback
      (EnsuresFallback deployment) [] :=
  fallback_prepare fun _ _ _ _ calm => fallback_finishCreate consumer _ calm

theorem fallbacks_fulfilled : (fallbacks deployment).Fulfilled where
  answers _ := trivial
  bodies request := by
    have view : ∀ program : Promise PaymentIntentView,
        program.Conforms (fun _ => True) PermitsFallback (EnsuresFallback deployment) [] →
        (Reply.intent <$> program).Conforms (fun _ => True)
          (fun past call => (Request.creation? request).isSome → PermitsFallback past call)
          (fun past outcome => (Request.creation? request).isSome → refused? past = none ∧
            ∀ found ∈ reread? past, outcome = (existingOutcome deployment found).map .intent)
          [] := by
      intro program conforms
      rw [conforms_map]
      refine conforms.mono (fun _ _ permitted _ => permitted) fun past outcome ensured _ => ?_
      refine ⟨ensured.answered, fun found isFound => ?_⟩
      rw [ensured.existing found isFound]
    have free : Request.creation? request = none →
        (request.body deployment).Conforms (fun _ => True)
          (fun past call => (Request.creation? request).isSome → PermitsFallback past call)
          (fun past outcome => (Request.creation? request).isSome → refused? past = none ∧
            ∀ found ∈ reread? past, outcome = (existingOutcome deployment found).map .intent)
          [] := by
      intro isNone
      refine conforms_of_forall _ (fun _ _ isSome => ?_) fun _ _ isSome => ?_
      · rw [isNone] at isSome
        cases isSome
      · rw [isNone] at isSome
        cases isSome
    cases request with
    | paymentIntents request =>
        cases request with
        | createTx consumer dto => exact view _ (fallback_createTx consumer dto)
        | createPay consumer dto => exact view _ (fallback_createPay consumer dto)
        | _ => exact free rfl
    | _ => exact free rfl

end Endpoints

end CosmosPay

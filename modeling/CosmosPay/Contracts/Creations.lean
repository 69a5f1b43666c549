import CosmosPay.Answers
import CosmosPay.Contracts.Kinds

/-!
# What a create request inserts and returns

A create request inserts at most one intent: pending, of its own kind and network,
for the consumer row and under the memo that its history resolved.  It returns that
intent or one that a lookup of the same consumer and memo found.
-/

namespace CosmosPay

open Awaiting Program PaymentIntents

/-- What the two create endpoints have in common. -/
structure Creation where
  kind : PaymentIntentKind
  consumer : GatewayConsumer
  memo : Field String

def Request.creation? : Request → Option Creation
  | .paymentIntents (.createTx consumer dto) => some ⟨.tx, consumer, dto.memo⟩
  | .paymentIntents (.createPay consumer dto) => some ⟨.pay, consumer, dto.memo⟩
  | _ => none

/-- The history upserted the caller as this row. -/
def Upserted (past : History signature) (consumer : GatewayConsumer) (owner : Consumer) : Prop :=
  ⟨.write (.upsertConsumer consumer.username consumer.credentialId), .ok owner⟩ ∈ past

/-- A memo that both create endpoints accept. -/
def AcceptedMemo (memo : String) : Prop :=
  Text.IsNumeral memo ∧ Text.numeralValue memo ≤ maxMemoId

/-- The memo that `resolveMemo` settles on: the given one, or eight random bytes. -/
def ResolvesMemo (past : History signature) : (provided : Field String) → (memo : String) → Prop
  | .value provided, memo => memo = provided ∧ AcceptedMemo memo
  | .null, _ => False
  | .undefined, memo => ∃ bytes, ⟨.randomBytes 8, .ok bytes⟩ ∈ past ∧ memo = (bigEndian bytes).repr

/-- The consumer row and the memo that a create request works with. -/
structure Prepared (past : History signature) (creation : Creation) (owner : Consumer)
    (memo : String) : Prop where
  upserted : Upserted past creation.consumer owner
  resolved : ResolvesMemo past creation.memo memo

/-- The row that a create request may insert. -/
structure Inserts (deployment : Deployment) (past : History signature) (creation : Creation)
    (new : NewPaymentIntent) : Prop where
  prepared : ∃ owner, Prepared past creation owner new.memo ∧ new.consumerId = owner.id
  kind : new.kind = creation.kind
  network : new.network = resolveNetwork deployment creation.consumer
  pending : new.status = .pending

/-- Where a returned intent comes from. -/
inductive Returned (past : History signature) (consumerId memo : String) (intent : PaymentIntent) :
    Prop where
  | found (lookup : ⟨.query (.intentByMemo consumerId memo), .ok (some intent)⟩ ∈ past)
  | inserted (new : NewPaymentIntent)
      (insertion : ⟨.write (.create .paymentIntent new), .ok intent⟩ ∈ past)
      (owner : new.consumerId = consumerId) (isMemo : new.memo = memo)

section Contract

variable (deployment : Deployment)

def permitsCreation (request : Request) (past : History signature) : Call → Prop
  | .write (.create .paymentIntent new) =>
      ∀ creation ∈ request.creation?, Inserts deployment past creation new
  | _ => True

def ensuresCreation (request : Request) (past : History signature)
    (outcome : Except ServiceError Reply) : Prop :=
  ∀ creation ∈ request.creation?, ∀ reply, outcome = .ok reply →
    ∃ view owner memo, reply = .intent view ∧ Prepared past creation owner memo ∧
      Returned past owner.id memo view.intent

/-- Insertions and returned intents of the create endpoints; other requests are left
open. -/
def creations : Contract (service deployment) where
  relies := Believable
  permits := permitsCreation deployment
  ensures := ensuresCreation

end Contract

/-! ## Growing histories -/

section Growth

variable {past later : History signature} (grows : past ⊆ later)

include grows

theorem ResolvesMemo.mono {provided : Field String} {memo : String}
    (resolves : ResolvesMemo past provided memo) : ResolvesMemo later provided memo := by
  cases provided with
  | undefined =>
      obtain ⟨bytes, drawn, isMemo⟩ := resolves
      exact ⟨bytes, grows drawn, isMemo⟩
  | null => exact resolves
  | value provided => exact resolves

theorem Prepared.mono {creation : Creation} {owner : Consumer} {memo : String}
    (prepared : Prepared past creation owner memo) : Prepared later creation owner memo :=
  ⟨grows prepared.upserted, prepared.resolved.mono grows⟩

theorem Returned.mono {consumerId memo : String} {intent : PaymentIntent}
    (returned : Returned past consumerId memo intent) :
    Returned later consumerId memo intent := by
  cases returned with
  | found lookup => exact .found (grows lookup)
  | inserted new insertion owner isMemo => exact .inserted new (grows insertion) owner isMemo

end Growth

/-! ## The endpoints -/

section Endpoints

variable {deployment : Deployment} {past : History signature} {request : Request}
variable {creation : Creation} {owner : Consumer} {memo : String}

theorem permitsCreation_of_peripheral {call : Call} (peripheral : call.Peripheral) :
    permitsCreation deployment request past call := by
  unfold permitsCreation
  split
  · exact peripheral.elim
  · trivial

theorem conforms_ofExcept {α : Type} {outcome : Except ServiceError α}
    {relies : Performed signature → Prop} {permits : History signature → Call → Prop}
    {ensures : History signature → Except ServiceError α → Prop} :
    (Promise.ofExcept outcome).Conforms relies permits ensures past ↔ ensures past outcome :=
  Iff.rfl

/-- What both endpoints ensure of the view that they return. -/
def ensuresView (creation : Creation) (past : History signature)
    (outcome : Except ServiceError PaymentIntentView) : Prop :=
  ∀ view, outcome = .ok view →
    ∃ owner memo, Prepared past creation owner memo ∧ Returned past owner.id memo view.intent

theorem ensuresView_error {err : ServiceError} : ensuresView creation past (.error err) := by
  rintro view ⟨⟩

theorem creates_withQr {intent : PaymentIntent} (prepared : Prepared past creation owner memo)
    (returned : Returned past owner.id memo intent) :
    (withQr deployment intent).Conforms Believable (permitsCreation deployment request)
      (ensuresView creation) past := by
  rw [withQr, conforms_ofExcept]
  intro view isView
  cases drawn : deployment.libraries.toDataURL intent.uri with
  | error err =>
      rw [drawn] at isView
      cases isView
  | ok qr =>
      rw [drawn] at isView
      obtain rfl := Except.ok.inj isView
      exact ⟨owner, memo, prepared, returned⟩

theorem creates_resolveMemo (provided : Field String) :
    (resolveMemo provided).Conforms Believable (permitsCreation deployment request)
      (fun later outcome => past ⊆ later ∧
        ∀ memo, outcome = .ok memo → ResolvesMemo later provided memo) past := by
  cases provided with
  | undefined =>
      refine conforms_call_bind.mpr ⟨trivial, fun err _ => ?_, fun bytes _ => ?_⟩
      · exact ⟨List.subset_cons_self _ _, by rintro memo ⟨⟩⟩
      · refine ⟨List.subset_cons_self _ _, ?_⟩
        rintro memo ⟨⟩
        exact ⟨bytes, List.mem_cons_self, rfl⟩
  | null => exact ⟨List.Subset.refl past, by rintro memo ⟨⟩⟩
  | value provided =>
      simp only [resolveMemo]
      split
      · rename_i accepted
        refine ⟨List.Subset.refl past, ?_⟩
        rintro memo ⟨⟩
        exact ⟨rfl, accepted⟩
      · exact ⟨List.Subset.refl past, by rintro memo ⟨⟩⟩

theorem creates_existingView (prepared : Prepared past creation owner memo) :
    (existingView deployment owner.id memo).Conforms Believable
      (permitsCreation deployment request) (ensuresView creation) past := by
  refine conforms_call_bind.mpr ⟨trivial, fun err _ => ensuresView_error, fun found _ => ?_⟩
  split
  · exact creates_withQr (prepared.mono (List.subset_cons_self _ _)) (.found List.mem_cons_self)
  · exact ensuresView_error

theorem creates_finishCreate (isCreation : request.creation? = some creation)
    {data : NewPaymentIntent} (prepared : Prepared past creation owner data.memo)
    (isOwner : data.consumerId = owner.id) (kind : data.kind = creation.kind)
    (network : data.network = resolveNetwork deployment creation.consumer)
    (pending : data.status = .pending) :
    (finishCreate deployment creation.consumer data).Conforms Believable
      (permitsCreation deployment request) (ensuresView creation) past := by
  unfold finishCreate
  rw [conforms_bind]
  refine conforms_call_bind.mpr ⟨trivial, fun err _ => ensuresView_error, fun now _ => ?_⟩
  have afterNow := prepared.mono (List.subset_cons_self ⟨.now, .ok now⟩ past)
  refine conforms_call_tryCatch.mpr ⟨?_, fun err _ => ?_, fun row _ => ?_⟩
  · intro other isOther
    obtain rfl : creation = other := Option.some.inj (isCreation.symm.trans isOther)
    exact ⟨⟨owner, afterNow, isOwner⟩, kind, network, pending⟩
  · split
    · refine (andThen_ok _ _).mpr ?_
      rw [isOwner]
      exact creates_existingView (afterNow.mono (List.subset_cons_self _ _))
    · exact ensuresView_error
  · refine (andThen_ok _ _).mpr ?_
    refine conforms_call_bind.mpr ⟨trivial, fun err _ => ensuresView_error, fun _ _ => ?_⟩
    refine creates_withQr (afterNow.mono ?_)
      (.inserted _ (List.mem_cons_of_mem _ List.mem_cons_self) isOwner rfl)
    exact fun performed member => List.mem_cons_of_mem _ (List.mem_cons_of_mem _ member)

/-- The steps that both endpoints begin with. -/
theorem creates_prepare {next : Consumer → ResolvedAsset → String → Promise PaymentIntentView}
    {assetCode assetIssuer : Field String}
    (continues : ∀ later owner asset memo, Prepared later creation owner memo →
      (next owner asset memo).Conforms Believable (permitsCreation deployment request)
        (ensuresView creation) later) :
    (do let localConsumer ← resolveConsumer creation.consumer
        let asset ← Promise.ofExcept (resolveAsset deployment assetCode assetIssuer)
        let memo ← resolveMemo creation.memo
        next localConsumer asset memo : Promise PaymentIntentView).Conforms Believable
      (permitsCreation deployment request) (ensuresView creation) [] := by
  refine conforms_call_bind.mpr ⟨trivial, fun err _ => ensuresView_error, fun owner _ => ?_⟩
  rw [conforms_bind, conforms_ofExcept]
  cases resolveAsset deployment assetCode assetIssuer with
  | error err => exact ensuresView_error
  | ok asset =>
      refine (andThen_ok _ _).mpr ?_
      rw [conforms_bind]
      refine (creates_resolveMemo creation.memo).ensuring fun later outcome holds => ?_
      obtain ⟨grows, resolved⟩ := holds
      cases outcome with
      | error err => exact ensuresView_error
      | ok memo =>
          exact continues later owner asset memo ⟨grows List.mem_cons_self, resolved memo rfl⟩

/-- The idempotency lookup. -/
theorem creates_findByMemo {next : Promise PaymentIntentView}
    (prepared : Prepared past creation owner memo)
    (missed : ∀ later, Prepared later creation owner memo →
      next.Conforms Believable (permitsCreation deployment request) (ensuresView creation)
        later) :
    (do match ← findByMemo owner.id memo with
        | some existing => withQr deployment existing
        | none => next : Promise PaymentIntentView).Conforms Believable
      (permitsCreation deployment request) (ensuresView creation) past := by
  refine conforms_call_bind.mpr ⟨trivial, fun err _ => ensuresView_error, fun found _ => ?_⟩
  have afterLookup := prepared.mono (List.subset_cons_self
    ⟨.query (.intentByMemo owner.id memo), .ok found⟩ past)
  split
  · exact creates_withQr afterLookup (.found List.mem_cons_self)
  · exact missed _ afterLookup

theorem creates_createTx (consumer : GatewayConsumer) (dto : CreateTxPaymentIntentDto) :
    (createTx deployment consumer dto).Conforms Believable
      (permitsCreation deployment (.paymentIntents (.createTx consumer dto)))
      (ensuresView ⟨.tx, consumer, dto.memo⟩) [] := by
  refine creates_prepare fun later owner asset memo prepared => ?_
  refine creates_findByMemo prepared fun later prepared => ?_
  rw [conforms_bind]
  refine (calls_loadAccount _ _).conforms
    (fun _ _ _ isHorizon => permitsCreation_of_peripheral isHorizon.peripheral)
    fun recent outcome _ => ?_
  have afterAccount := prepared.mono (List.subset_append_right recent later)
  cases outcome with
  | error err => exact ensuresView_error
  | ok account =>
      refine (andThen_ok _ _).mpr ?_
      refine conforms_call_bind.mpr ⟨trivial, fun err _ => ensuresView_error, fun now _ => ?_⟩
      have afterNow := afterAccount.mono (List.subset_cons_self ⟨.now, .ok now⟩ _)
      rw [conforms_bind, conforms_ofExcept]
      cases deployment.libraries.buildEnvelope _ with
      | error err => exact ensuresView_error
      | ok xdr => exact creates_finishCreate rfl afterNow rfl rfl rfl rfl

theorem creates_createPay (consumer : GatewayConsumer) (dto : CreatePayPaymentIntentDto) :
    (createPay deployment consumer dto).Conforms Believable
      (permitsCreation deployment (.paymentIntents (.createPay consumer dto)))
      (ensuresView ⟨.pay, consumer, dto.memo⟩) [] := by
  refine creates_prepare fun later owner asset memo prepared => ?_
  refine creates_findByMemo prepared fun later prepared => ?_
  exact creates_finishCreate rfl prepared rfl rfl rfl rfl

/-- The create endpoints insert and return what the contract says. -/
theorem creations_fulfilled : (creations deployment).Fulfilled where
  answers performed := Performs.believable ⟨_, _, performed, rfl, rfl⟩
  bodies request := by
    have view : ∀ (creation : Creation) (program : Promise PaymentIntentView),
        request.creation? = some creation →
        program.Conforms Believable (permitsCreation deployment request)
          (ensuresView creation) [] →
        (Reply.intent <$> program).Conforms Believable (permitsCreation deployment request)
          (ensuresCreation request) [] := by
      intro creation program isCreation conforms
      rw [conforms_map]
      refine conforms.ensuring fun past outcome holds => ?_
      intro other isOther reply isReply
      obtain rfl : creation = other := Option.some.inj (isCreation.symm.trans isOther)
      cases outcome with
      | error err => cases isReply
      | ok view =>
          obtain ⟨owner, memo, prepared, returned⟩ := holds view rfl
          exact ⟨view, owner, memo, (Except.ok.inj isReply).symm, prepared, returned⟩
    have free : request.creation? = none →
        (request.body deployment).Conforms Believable (permitsCreation deployment request)
          (ensuresCreation request) [] := by
      intro isNone
      refine conforms_of_forall _ (fun past call => ?_) fun past outcome => ?_
      · unfold permitsCreation
        split
        · intro creation isCreation
          simp [isNone] at isCreation
        · trivial
      · intro creation isCreation
        simp [isNone] at isCreation
    cases request with
    | paymentIntents request =>
        cases request with
        | createTx consumer dto => exact view _ _ rfl (creates_createTx consumer dto)
        | createPay consumer dto => exact view _ _ rfl (creates_createPay consumer dto)
        | _ => exact free rfl
    | _ => exact free rfl

end Endpoints

end CosmosPay

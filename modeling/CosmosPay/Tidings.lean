import CosmosPay.Lifecycle
import CosmosPay.Lineage

/-!
# What subscribers are told

Every event is about a statement that was committed, with the row as it was written, and what
the statement says of the intent rests on the ledger, on the clock or on the word of its owner.
A webhook carries nothing else, however late it is sent.
-/

namespace CosmosPay

open Awaiting Tables PaymentIntents

section Tidings

variable {deployment : Deployment}
variable {allows : Config (service deployment) → Label (service deployment) → Prop}
variable {config config' : Config (service deployment)} {state : World}

/-- The statement that an event is about. -/
inductive Grounded (config : Config (service deployment)) (payload : WebhookEventPayload) :
    Prop where
  | created (thread : Nat) (request : Request) (creation : Creation) (new : NewPaymentIntent)
      (made : ⟨thread, .write (.create .paymentIntent new), .ok payload.data⟩ ∈ config.trace)
      (serves : ∃ code, config.threads[thread]? = some ⟨request, code⟩)
      (isCreation : request.creation? = some creation)
      (owned : config.state.store.Owner creation.consumer.username payload.data)
      (isType : payload.type = .paymentIntentCreated) (isPending : payload.data.status = .pending)
  | changed (thread : Nat) (request : Request) (patch : PaymentIntentPatch)
      (made : ⟨thread, .write (.update .paymentIntent payload.data.id patch), .ok payload.data⟩ ∈
        config.trace)
      (patched : Patched config payload.data thread request patch)
      (isType : payload.type = patchEvent patch)
      (gives : ∀ status, patch.status = .value status → payload.data.status = status)
  | deleted (thread : Nat) (consumer : GatewayConsumer)
      (made : ⟨thread, .write (.delete .paymentIntent payload.data.id), .ok payload.data⟩ ∈
        config.trace)
      (serves : ∃ code, config.threads[thread]? =
        some ⟨.paymentIntents (.remove consumer payload.data.id), code⟩)
      (owned : config.state.store.Owner consumer.username payload.data)
      (isType : payload.type = .paymentIntentDeleted)

/-- Only create requests insert intents, for the consumer row that they have upserted. -/
theorem creation_of_create (run : Run allows (Config.initial state) config) {thread : Nat}
    {request : Request} {new : NewPaymentIntent}
    {resume : signature.Result (.write (.create .paymentIntent new)) → Promise Reply}
    (paused : config.threads[thread]? =
      some ⟨request, .await (.write (.create .paymentIntent new)) resume⟩) :
    ∃ creation, request.creation? = some creation ∧
      config.state.store.belongsTo new.consumerId creation.consumer.username = true := by
  have creates : permitsCreation deployment request (config.past thread)
      (.write (.create .paymentIntent new)) := run.permitted creations_fulfilled paused
  have transits : permitsTransition request (config.past thread)
      (.write (.create .paymentIntent new)) := run.permitted transitions_fulfilled paused
  obtain ⟨creation, isCreation⟩ : ∃ creation, request.creation? = some creation := by
    simp only [permitsTransition] at transits
    split at transits
    · exact ⟨_, rfl⟩
    · exact ⟨_, rfl⟩
    · exact transits.elim
  obtain ⟨⟨owner, prepared, isOwner⟩, -⟩ := creates creation isCreation
  refine ⟨creation, isCreation, ?_⟩
  rw [isOwner]
  exact belongsTo_of_upserted run prepared.upserted

/-- Only a request of the owner deletes an intent. -/
theorem grounded_of_delete (run : Run allows (Config.initial state) config) {thread : Nat}
    {id username : String} {row : PaymentIntent}
    (member : ⟨thread, .write (.delete .paymentIntent id), .ok row⟩ ∈ config.trace) :
    Grounded config ⟨username, .paymentIntentDeleted, row⟩ := by
  obtain ⟨before, after, choice, request, reached, resumes, later, serves⟩ :=
    exists_resumes_of_mem run member
  obtain ⟨resume, paused, -⟩ := resumes.paused
  have found := resumes.performs.of_delete.found
  obtain rfl : row.id = id := Table.key_of_find? found
  have transits : permitsTransition request (before.past thread)
      (.write (.delete .paymentIntent row.id)) := reached.permitted transitions_fulfilled paused
  simp only [permitsTransition] at transits
  split at transits
  · rename_i consumer removed
    obtain ⟨rfl, -, -⟩ := transits
    have owns := reached.permitted tenancy_fulfilled paused _ rfl
    exact .deleted thread consumer member serves
      ((belongsTo_stable _ _).run (.head resumes.step later)
        (owner_of_owns reached paused rfl owns found)) rfl
  · exact transits.elim

/-- What a thread has announced is what it has written. -/
theorem grounded_of_announcement (run : Run allows (Config.initial state) config) {thread : Nat}
    {performed : Performed signature} {payload : WebhookEventPayload}
    (member : ⟨thread, performed⟩ ∈ config.trace)
    (announced : announcement performed = some (payload.type, payload.data)) :
    Grounded config payload := by
  obtain ⟨before, after, choice, request, reached, resumes, later, serves⟩ :=
    exists_resumes_of_mem run member
  have rest : Run allows before config := .head resumes.step later
  obtain ⟨resume, paused, -⟩ := resumes.paused
  obtain ⟨call, result⟩ := performed
  obtain ⟨username, type, data⟩ := payload
  cases result with
  | error err => cases announced
  | ok answer =>
      cases call with
      | write statement =>
          cases statement with
          | upsertConsumer username credentialId => cases announced
          | create model new =>
              cases model with
              | paymentIntent =>
                  obtain ⟨rfl, rfl⟩ := Prod.mk.inj (Option.some.inj announced)
                  obtain ⟨creation, isCreation, owned⟩ := creation_of_create reached paused
                  have isPending := pending_of_create reached paused
                  obtain ⟨drawn, -, rfl, -⟩ := resumes.performs.of_create
                  exact .created thread request creation new member serves isCreation
                    ((belongsTo_stable _ _).run rest owned) rfl isPending
              | _ => cases announced
          | update model id patch =>
              cases model with
              | paymentIntent =>
                  obtain ⟨rfl, rfl⟩ := Prod.mk.inj (Option.some.inj announced)
                  obtain ⟨old, rfl, change⟩ := resumes.performs.of_update
                  obtain rfl : old.id = id := Table.key_of_find? change.found
                  have patched := (patched_of_update reached resumes change.found).of_terms_eq
                    (terms_apply patch old).symm
                  refine .changed thread request patch member (patched.run later) rfl ?_
                  intro status isStatus
                  simp [Model.apply, isStatus, Field.setRequired, Field.toOption]
              | _ => cases announced
          | delete model id =>
              cases model with
              | paymentIntent =>
                  obtain ⟨rfl, rfl⟩ := Prod.mk.inj (Option.some.inj announced)
                  exact grounded_of_delete run member
              | _ => cases announced
      | _ => cases announced

/-- Every event that is emitted is grounded. -/
theorem grounded_of_emitted (run : Run allows (Config.initial state) config) {thread : Nat}
    {payload : WebhookEventPayload} {answer : Except ServiceError Unit}
    (emitted : ⟨thread, .emit payload, answer⟩ ∈ config.trace) : Grounded config payload := by
  obtain ⟨newer, older, split⟩ := List.append_of_mem emitted
  obtain ⟨performed, earlier, isPast, announced, -⟩ := announces_of_emitted run split
  have member : performed ∈ pastOf thread older := isPast ▸ List.mem_cons_self
  have recorded : ⟨thread, performed⟩ ∈ config.trace := by
    rw [split]
    exact List.mem_append_right _ (List.mem_cons_of_mem _ (mem_pastOf.mp member))
  exact grounded_of_announcement run recorded announced

/-- The owner of the intent has reported that it has succeeded. -/
def ReportedPaid (config : Config (service deployment)) (row : PaymentIntent) : Prop :=
  ∃ thread consumer dto, dto.status = .value .succeeded ∧
    Patched config row thread (.paymentIntents (.update consumer row.id dto)) (patchOf dto) ∧
    config.state.store.Owner consumer.username row

theorem status_of_patchEvent {patch : PaymentIntentPatch}
    (isType : patchEvent patch = .paymentIntentSucceeded) : patch.status = .value .succeeded := by
  unfold patchEvent at isType
  split at isType
  · rename_i status isStatus
    cases status <;> first | exact isStatus | cases isType
  · cases isType

/-- The event of a success is about a payment on the ledger, or it repeats a report. -/
theorem paid_of_grounded {payload : WebhookEventPayload} (grounded : Grounded config payload)
    (isType : payload.type = .paymentIntentSucceeded) : payload.data.status = .succeeded ∧
      ((∃ hash, PaidBy config.state.ledger payload.data hash) ∨
        ReportedPaid config payload.data) := by
  cases grounded with
  | created thread request creation new made serves isCreation owned isCreated isPending =>
      rw [isType] at isCreated
      cases isCreated
  | changed thread request patch made patched isPatch gives =>
      have isStatus := status_of_patchEvent (isPatch.symm.trans isType)
      refine ⟨gives .succeeded isStatus, ?_⟩
      cases patched.supports with
      | reported consumer dto owned =>
          right
          refine ⟨thread, consumer, dto, ?_, patched, owned⟩
          cases given : dto.status with
          | value status => simpa [patchOf, given] using isStatus
          | _ => simp [patchOf, given] at isStatus
      | settled _ hash payer current paid => exact .inl ⟨hash, paid⟩
      | failed consumer hash written tx owned found unsuccessful => cases isStatus
      | expired node expiresAt isExpiry ended => cases isStatus
  | deleted thread consumer made serves owned isDeleted =>
      rw [isType] at isDeleted
      cases isDeleted

/-- What a webhook says of an intent rests on the ledger, on the clock or on the word of its
owner, however late it is sent and whatever has been committed since.  No subscriber is told of
a success without a payment on the ledger, unless the owner has reported it. -/
theorem posts_grounded (start : state.store = .empty) (run : IssuedRun (.initial state) config)
    {thread : Nat} {post : WebhookPost} {answer : Except ServiceError Nat}
    (made : ⟨thread, .post post, answer⟩ ∈ config.trace) (isDelivery : post.delivery ≠ none) :
    ∃ origin payload, Conveys deployment origin post ∧ origin.eventType = payload.type ∧
      origin.payload.data = payload.data ∧ Grounded config payload ∧
      (origin.eventType = .paymentIntentSucceeded → payload.data.status = .succeeded ∧
        ((∃ hash, PaidBy config.state.ledger payload.data hash) ∨
          ReportedPaid config payload.data)) := by
  obtain ⟨before, after, choice, request, reached, resumes, later, -⟩ :=
    exists_resumes_of_mem run made
  have rest : IssuedRun before config := .head resumes.step later
  obtain ⟨resume, paused, -⟩ := resumes.paused
  obtain ⟨endpoint, row, origin, timestamp, dispatched⟩ :=
    dispatched_of_post start reached paused isDelivery
  have inserted := dispatched.inserted.mono (trace_subset rest)
  obtain ⟨payload, subscriber, occasioned, -, isType, isData⟩ :=
    occasioned_of_inserted run inserted
  obtain ⟨emitter, result, emitted⟩ := occasioned.emitted
  have grounded := grounded_of_emitted run emitted
  exact ⟨origin, payload, dispatched.conveys, isType, isData, grounded,
    fun succeeded => paid_of_grounded grounded (isType.symm.trans succeeded)⟩

end Tidings

/-- An intent is paid, validated and announced to its endpoint. -/
def toldOfPayment : Config (service Sample.deployment) :=
  after (fun _ label => issues Request.isForeground label)
    (Sample.register 0 "alice" "c" "ep" ++ Sample.create 1 "alice" "7" "c'" "pi" ++
      Sample.validate "alice" "pi" '1' :: Sample.serve 3 6 ++ Sample.fanOut 4 "ep" "d" ++
      Sample.post 5 200)
    Sample.start

theorem name_injective : Function.Injective WebhookEventType.name := by
  intro first second same
  cases first <;> cases second <;> first | rfl | exact absurd same (by decide)

/-- Is the call a POST of a delivery of this event type? -/
def isPostFor (type : WebhookEventType) : Performed signature → Bool
  | ⟨.post post, _⟩ => post.delivery.isSome && decide (post.event = type.name)
  | _ => false

theorem exists_postFor_of_any {trace : List (Entry signature)} {type : WebhookEventType}
    (among : trace.any (fun entry => isPostFor type entry.performed) = true) :
    ∃ thread post answer, ⟨thread, .post post, answer⟩ ∈ trace ∧ post.delivery ≠ none ∧
      post.event = type.name := by
  obtain ⟨⟨thread, call, answer⟩, member, isPost⟩ := List.any_eq_true.mp among
  cases call with
  | post post =>
      obtain ⟨isDelivery, isEvent⟩ := Bool.and_eq_true_iff.mp isPost
      exact ⟨thread, post, answer, member, Option.isSome_iff_ne_none.mp isDelivery,
        of_decide_eq_true isEvent⟩
  | _ => cases isPost

theorem posts_grounded_of_toldOfPayment : ∃ post origin payload,
    Conveys Sample.deployment origin post ∧ payload.data = origin.payload.data ∧
      Grounded toldOfPayment payload ∧ payload.data.status = .succeeded ∧
      ((∃ hash, PaidBy toldOfPayment.state.ledger payload.data hash) ∨
        ReportedPaid toldOfPayment payload.data) := by
  obtain ⟨thread, post, answer, made, isDelivery, isEvent⟩ :=
    @exists_postFor_of_any toldOfPayment.trace .paymentIntentSucceeded (by decide +kernel)
  have run : IssuedRun Sample.start toldOfPayment := run_after (fun _ _ checked => checked) _ _
  obtain ⟨origin, payload, conveys, -, isData, grounded, paid⟩ :=
    posts_grounded rfl run made isDelivery
  have sameName : origin.eventType.name = WebhookEventType.paymentIntentSucceeded.name :=
    conveys.event.symm.trans isEvent
  have isType : origin.eventType = .paymentIntentSucceeded := name_injective sameName
  obtain ⟨isSucceeded, rests⟩ := paid isType
  exact ⟨post, origin, payload, conveys, isData.symm, grounded, isSucceeded, rests⟩

end CosmosPay

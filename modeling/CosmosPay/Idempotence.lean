import CosmosPay.Contracts.Announcements
import CosmosPay.Provenance

/-!
# Idempotent creation

The database accepts one intent for each consumer and memo.  Without deletions that
intent stays, so every create request with this memo returns it, no matter which request
has inserted it, and the one insertion is announced by the one request that made it.
-/

namespace CosmosPay

open Awaiting Tables PaymentIntents

/-! ## The key of an intent -/

/-- The intent `id` is stored for the consumer under the memo. -/
def StoredUnder (world : World) (username memo id : String) : Prop :=
  ∃ row, world.store.find? .paymentIntent id = some row ∧
    world.store.belongsTo row.consumerId username = true ∧ row.memo = memo

/-- A username has one consumer row. -/
theorem Store.consumer_unique {store : Store} {first second username : String}
    (one : store.belongsTo first username = true)
    (two : store.belongsTo second username = true) : first = second := by
  obtain ⟨owner, found, named⟩ := belongsTo_iff.mp one
  obtain ⟨other, otherFound, otherNamed⟩ := belongsTo_iff.mp two
  have same : owner = other :=
    Table.eq_of_clash (Table.mem_of_find? found) (Table.mem_of_find? otherFound)
      (by simp [consumerIndexes, named, otherNamed])
  rw [← Table.key_of_find? found, ← Table.key_of_find? otherFound, same]

/-- `@@unique([consumerId, memo])` -/
theorem StoredUnder.unique {world : World} {username memo first second : String}
    (one : StoredUnder world username memo first) (two : StoredUnder world username memo second) :
    first = second := by
  obtain ⟨row, found, owned, isMemo⟩ := one
  obtain ⟨other, otherFound, otherOwned, otherMemo⟩ := two
  have owners := Store.consumer_unique owned otherOwned
  have same : row = other :=
    Table.eq_of_clash (Table.mem_of_find? found) (Table.mem_of_find? otherFound)
      (by simp [Model.indexes, intentIndexes, owners, isMemo, otherMemo])
  rw [← Table.key_of_find? found, ← Table.key_of_find? otherFound, same]

/-! ## Runs without deletions -/

/-- Does the request delete an intent? -/
def Request.deletes : Request → Bool
  | .paymentIntents (.remove _ _) => true
  | _ => false

section Runs

variable {deployment : Deployment}

/-- Runs in which nobody deletes an intent. -/
abbrev UndeletedRun : Config (service deployment) → Config (service deployment) → Prop :=
  Run fun _ label => issues (fun request => !request.deletes) label = true

variable {allows : Config (service deployment) → Label (service deployment) → Prop}
variable {config config' : Config (service deployment)} {state : World}

/-- Without deletions an intent stays, with its terms. -/
theorem exists_stored_of_step (run : UndeletedRun (.initial state) config)
    (step : Step (fun _ label => issues (fun request => !Request.deletes request) label = true)
      config config') {id : String} {row : PaymentIntent}
    (found : config.state.store.find? .paymentIntent id = some row) :
    ∃ row', config'.state.store.find? .paymentIntent id = some row' ∧ row'.terms = row.terms := by
  rcases step_cases step with ⟨-, drifts⟩ | ⟨thread, choice, request, performed, resumes⟩
  · exact ⟨row, by rw [drifts.store, found], rfl⟩
  obtain ⟨resume, paused, -⟩ := resumes.paused
  refine resumes.performs.intent_kept (I := fun row' => row'.terms = row.terms) found rfl
    (fun patch _ => terms_apply patch row) ?_
  rintro rfl
  have permitted : permitsTransition request (config.past thread)
      (.write (.delete .paymentIntent id)) := run.permitted transitions_fulfilled paused
  have undeleted := request_admitted (fun _ => rfl) run paused
  simp only [permitsTransition] at permitted
  split at permitted
  · cases undeleted
  · exact permitted.elim

theorem exists_stored_of_run (before : UndeletedRun (.initial state) config)
    (later : UndeletedRun config config') {id : String} {row : PaymentIntent}
    (found : config.state.store.find? .paymentIntent id = some row) :
    ∃ row', config'.state.store.find? .paymentIntent id = some row' ∧ row'.terms = row.terms := by
  refine later.keeps (I := fun latest : Config (service deployment) =>
    ∃ row', latest.state.store.find? .paymentIntent id = some row' ∧ row'.terms = row.terms)
    ⟨row, found, rfl⟩ ?_
  rintro middle latest passed ⟨row', found', same⟩ step
  obtain ⟨row'', found'', same'⟩ := exists_stored_of_step (before.trans passed) step found'
  exact ⟨row'', found'', same'.trans same⟩

theorem StoredUnder.run (before : UndeletedRun (.initial state) config)
    (later : UndeletedRun config config') {username memo id : String}
    (stored : StoredUnder config.state username memo id) :
    StoredUnder config'.state username memo id := by
  obtain ⟨row, found, owned, rfl⟩ := stored
  obtain ⟨row', found', same⟩ := exists_stored_of_run before later found
  obtain ⟨sameOwner, sameMemo⟩ := key_of_terms_eq same
  refine ⟨row', found', ?_, sameMemo⟩
  rw [sameOwner]
  exact (belongsTo_stable row.consumerId username).run later owned

/-- What a thread has read of an intent is still stored, with the terms that it has read. -/
theorem exists_stored_of_read (run : UndeletedRun (.initial state) config) {thread : Nat}
    {intent : PaymentIntent} (read : HasRead (config.past thread) intent) :
    ∃ row, config.state.store.find? .paymentIntent intent.id = some row ∧
      row.terms = intent.terms := by
  obtain ⟨performed, member, returned⟩ := read
  obtain ⟨before, after, choice, request, reached, resumes, later, -⟩ :=
    exists_resumes_of_mem run (mem_pastOf.mp member)
  exact exists_stored_of_run (reached.tail resumes.step) later
    (resumes.performs.find?_of_returned returned)

/-- What a create request returns is stored for its consumer. -/
theorem storedUnder_of_answer (run : UndeletedRun (.initial state) config) {index : Nat}
    {creation : Creation} {view : PaymentIntentView}
    (answered : answer? config index = some (creation, view)) :
    StoredUnder config.state creation.consumer.username view.intent.memo view.intent.id := by
  obtain ⟨request, finished, isCreation⟩ := thread_of_answer? answered
  obtain ⟨shown, owner, memo, isReply, prepared, returned⟩ :=
    run.ensured creations_fulfilled finished creation isCreation _ rfl
  obtain rfl := Reply.intent.inj isReply
  obtain ⟨isOwner, -⟩ := key_of_returned run returned
  have owned := belongsTo_of_upserted run prepared.upserted
  have read : HasRead (config.past index) view.intent := by
    cases returned with
    | found lookup => exact ⟨_, lookup, List.mem_cons_self⟩
    | inserted new insertion => exact ⟨_, insertion, List.mem_cons_self⟩
  obtain ⟨row, found, same⟩ := exists_stored_of_read run read
  obtain ⟨sameOwner, sameMemo⟩ := key_of_terms_eq same
  exact ⟨row, found, by rwa [sameOwner, isOwner], sameMemo⟩

/-! ## One announcement -/

/-- Only an insertion has to be announced as a creation. -/
theorem eq_create_of_needsAnnouncement {performed : Performed signature} {id : String}
    (needs : needsAnnouncement .paymentIntentCreated id performed = true) :
    ∃ new row, performed = ⟨.write (.create .paymentIntent new), .ok row⟩ ∧ row.id = id := by
  obtain ⟨row, announced, isId⟩ := needsAnnouncement_iff.mp needs
  obtain ⟨call, answer⟩ := performed
  cases answer with
  | error err => cases announced
  | ok value =>
      simp only [announcement, Call.announcement] at announced
      split at announced
      · rename_i new written
        obtain ⟨-, rfl⟩ := Prod.mk.inj (Option.some.inj announced)
        exact ⟨new, _, rfl, isId⟩
      · rename_i key patch written
        obtain ⟨isType, -⟩ := Prod.mk.inj (Option.some.inj announced)
        unfold patchEvent at isType
        split at isType
        · rename_i status _
          cases status <;> cases isType
        · cases isType
      · simp at announced
      · cases announced

/-- The intent has been inserted at most once. -/
structure InsertedOnce (config : Config (service deployment)) (id : String) : Prop where
  once : config.trace.countP
    (fun entry => needsAnnouncement .paymentIntentCreated id entry.performed) ≤ 1
  issued : 0 < config.trace.countP
    (fun entry => needsAnnouncement .paymentIntentCreated id entry.performed) →
      id ∈ config.state.store.issued

/-- No id is drawn twice. -/
theorem InsertedOnce.step {id : String} (before : InsertedOnce config id)
    (step : Step allows config config') : InsertedOnce config' id := by
  have issuedLater := step_issued step
  rcases step_cases step with ⟨sameTrace, -⟩ | ⟨thread, choice, request, performed, resumes⟩
  · constructor
    · rw [sameTrace]
      exact before.once
    · rw [sameTrace]
      exact fun inserted => issuedLater id (before.issued inserted)
  · have count := List.countP_cons
      (p := fun entry => needsAnnouncement .paymentIntentCreated id (Entry.performed entry))
      (a := ⟨thread, performed⟩) (l := config.trace)
    rw [← resumes.trace] at count
    by_cases needs : needsAnnouncement .paymentIntentCreated id performed = true
    · obtain ⟨new, row, rfl, isId⟩ := eq_create_of_needsAnnouncement needs
      obtain ⟨drawn, fresh, rfl, change⟩ := resumes.performs.of_create
      have isDrawn : drawn = id := isId
      subst isDrawn
      have none : config.trace.countP
          (fun entry => needsAnnouncement .paymentIntentCreated drawn entry.performed) = 0 := by
        by_contra some
        exact fresh (before.issued (Nat.pos_of_ne_zero some))
      rw [if_pos needs, none] at count
      refine ⟨by omega, fun _ => ?_⟩
      rw [change.issued]
      exact List.mem_cons_self
    · rw [if_neg needs, Nat.add_zero] at count
      refine ⟨by rw [count]; exact before.once, ?_⟩
      rw [count]
      exact fun inserted => issuedLater id (before.issued inserted)

theorem insertedOnce (run : Run allows (Config.initial state) config) (id : String) :
    InsertedOnce config id := by
  refine run.keeps (I := fun config : Config (service deployment) => InsertedOnce config id) ?_
    fun _ _ _ once step => once.step step
  constructor <;> simp [Config.initial]

/-- Have all create requests run to their end? -/
def CreatesFinished (config : Config (service deployment)) : Prop :=
  ∀ thread ∈ config.threads, (Request.creation? thread.request).isSome = true →
    thread.code.Finished

instance (config : Config (service deployment)) : Decidable (CreatesFinished config) :=
  inferInstanceAs (Decidable (∀ thread ∈ config.threads, _))

/-- A thread of which an announcement of a creation is due serves a create request that
has not finished. -/
theorem pending_of_createsFinished (run : Run allows (Config.initial state) config)
    (finished : CreatesFinished config) (id : String) (thread : Nat) :
    pending (needsAnnouncement .paymentIntentCreated id) (config.past thread) = 0 := by
  by_contra isPending
  have bound := pending_le_one (needsAnnouncement .paymentIntentCreated id) (config.past thread)
  obtain ⟨row, isDue, isId⟩ := pending_needsAnnouncement.mp
    (show pending (needsAnnouncement .paymentIntentCreated id) (config.past thread) = 1 by omega)
  obtain ⟨latest, isLatest, announced⟩ := Option.bind_eq_some_iff.mp isDue
  have needs : needsAnnouncement .paymentIntentCreated id latest = true :=
    needsAnnouncement_iff.mpr ⟨row, announced, isId⟩
  obtain ⟨new, inserted, rfl, -⟩ := eq_create_of_needsAnnouncement needs
  have member := mem_pastOf.mp (List.mem_of_head? isLatest)
  have isInserted : Inserted config thread inserted := ⟨new, inserted, member, rfl⟩
  obtain ⟨creation, made⟩ := isInserted.madeBy run
  obtain ⟨request, code, lookup, isCreation⟩ := made.request
  obtain ⟨outcome, rfl⟩ :=
    (finished _ (List.mem_of_getElem? lookup) (by rw [isCreation]; rfl)).outcome
  have quiet : due (config.past thread) = none := run.ensured announcements_fulfilled lookup
  rw [quiet] at isDue
  cases isDue

/-- When all create requests have finished, an intent that was not there at the start has
been announced once. -/
theorem countP_creation_eq_one (run : Run allows (Config.initial state) config)
    (finished : CreatesFinished config) {id : String} {row : PaymentIntent}
    (unknown : id ∉ state.store.issued)
    (found : config.state.store.find? .paymentIntent id = some row) :
    config.trace.countP
      (fun entry => isAnnouncement .paymentIntentCreated id entry.performed) = 1 := by
  have most := (countP_isAnnouncement_le run .paymentIntentCreated id).trans
    (insertedOnce run id).once
  have least := le_countP_isAnnouncement run (pending_of_createsFinished run finished id)
  obtain ⟨maker, new, original, member, same⟩ := inserted_of_stored run unknown found
  have isId : original.id = id :=
    (congrArg PaymentIntent.id same).trans (Table.key_of_find? found)
  have some : 0 < config.trace.countP
      (fun entry => needsAnnouncement .paymentIntentCreated id entry.performed) :=
    List.countP_pos_iff.mpr ⟨_, member, needsAnnouncement_iff.mpr ⟨original, rfl, isId⟩⟩
  omega

/-- Creation is idempotent: without deletions one intent is ever stored for a consumer under
a memo, every create request with this memo returns it, and it is announced once by the time
that they have all finished. -/
theorem creation_idempotent (before : UndeletedRun (.initial state) config)
    (later : UndeletedRun config config') (username memo : String) :
    (∀ first second, StoredUnder config.state username memo first →
      StoredUnder config'.state username memo second → first = second) ∧
    (∀ index creation view, answer? config' index = some (creation, view) →
      creation.consumer.username = username → creation.memo = .value memo →
      StoredUnder config'.state username memo view.intent.id) ∧
    (CreatesFinished config' → ∀ id, StoredUnder config'.state username memo id →
      id ∉ state.store.issued → config'.trace.countP
        (fun entry => isAnnouncement .paymentIntentCreated id entry.performed) = 1) := by
  have run : UndeletedRun (.initial state) config' := before.trans later
  refine ⟨?_, ?_, ?_⟩
  · intro first second stored storedLater
    exact (stored.run before later).unique storedLater
  · rintro index creation view answered rfl isMemo
    have stored := storedUnder_of_answer run answered
    rwa [memo_of_answer run answered isMemo] at stored
  · rintro finished id ⟨row, found, -⟩ unknown
    exact countP_creation_eq_one run finished unknown found

/-- Two create requests whose lookups both miss; the second insertion is refused. -/
def racingCreations : Config (service Sample.deployment) :=
  after (fun _ label => issues (fun request => !request.deletes) label)
    ([.issue (.paymentIntents (.createPay (Sample.caller "alice") (Sample.payDto "7"))),
      .issue (.paymentIntents (.createPay (Sample.caller "alice") (Sample.payDto "7"))),
      .resume 0 (.draw "c"), .resume 1 (.draw "d")] ++
      Sample.serve 0 2 ++ Sample.serve 1 2 ++
      [.resume 0 (.draw "pi"), .resume 1 (.draw "pj"), .resume 0 .serve, .resume 1 .serve])
    Sample.start

theorem creation_idempotent_of_racingCreations :
    StoredUnder racingCreations.state "alice" "7" "pi" ∧
    (∃ creation view, answer? racingCreations 1 = some (creation, view) ∧
      view.intent.id = "pi") ∧
    racingCreations.trace.countP
      (fun entry => isAnnouncement .paymentIntentCreated "pi" entry.performed) = 1 := by
  obtain ⟨unique, returned, announced⟩ := @creation_idempotent Sample.deployment racingCreations
    racingCreations Sample.world (run_after (fun _ _ checked => checked) _ _) .refl "alice" "7"
  have answers : ∀ index ∈ [0, 1], (answer? racingCreations index).map (fun answered =>
      (answered.1.consumer.username, answered.1.memo)) = some ("alice", .value "7") := by
    decide +kernel
  have isFirst : (answer? racingCreations 0).map (fun answered => answered.2.intent.id) =
      some "pi" := by
    decide +kernel
  have stored : ∀ index ∈ [0, 1], ∃ creation view,
      answer? racingCreations index = some (creation, view) ∧
        StoredUnder racingCreations.state "alice" "7" view.intent.id := by
    intro index member
    obtain ⟨⟨creation, view⟩, answered, isKey⟩ := Option.map_eq_some_iff.mp (answers index member)
    obtain ⟨named, isMemo⟩ := Prod.mk.inj isKey
    exact ⟨creation, view, answered, returned index creation view answered named isMemo⟩
  obtain ⟨creation, view, answered, storedFirst⟩ := stored 0 (by simp)
  obtain ⟨creation', view', answered', storedSecond⟩ := stored 1 (by simp)
  rw [answered] at isFirst
  have isPi : view.intent.id = "pi" := Option.some.inj isFirst
  rw [isPi] at storedFirst
  refine ⟨storedFirst, ⟨creation', view', answered', unique _ _ storedSecond storedFirst⟩, ?_⟩
  exact announced (by decide +kernel) "pi" storedFirst (by simp [Sample.world, Store.empty])

end Runs

end CosmosPay

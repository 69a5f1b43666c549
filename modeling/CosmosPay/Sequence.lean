import CosmosPay.Contracts.Transitions

/-!
# One operation after the other

When an operation starts only after the one before has finished, nobody writes an
intent between the sighting that an operation acts on and its write.  The guards of
`validate`, `remove` and the observer then protect a settled intent; a patch has none.
-/

namespace CosmosPay

open Awaiting Tables PaymentIntents

/-- Does somebody wait for the request? -/
def Request.isForeground : Request → Bool
  | .background _ => false
  | _ => true

section Sequence

variable {deployment : Deployment}

/-- A request of a client or the timer starts when no other is in flight. -/
def sequential (config : Config (service deployment)) : Label (service deployment) → Bool
  | .issue _ => config.threads.all fun thread =>
      !Request.isForeground thread.request || decide thread.code.Finished
  | _ => true

abbrev SequentialRun : Config (service deployment) → Config (service deployment) → Prop :=
  Run fun config label => sequential config label = true

variable {allows : Config (service deployment) → Label (service deployment) → Prop}
variable {config config' : Config (service deployment)} {state : World}

/-- A thread that somebody waits for and that has not finished. -/
def InFlight (config : Config (service deployment)) (index : Nat)
    (thread : Thread (service deployment)) : Prop :=
  config.threads[index]? = some thread ∧ Request.isForeground thread.request = true ∧
    ¬ thread.code.Finished

/-- At most one operation is in flight, and what it has seen last of an intent is how
the intent is. -/
structure OneAtATime (config : Config (service deployment)) : Prop where
  single : ∀ {index other : Nat} {thread second : Thread (service deployment)},
    InFlight config index thread → InFlight config other second → index = other
  current : ∀ {index : Nat} {thread : Thread (service deployment)}, InFlight config index thread →
    ∀ {id : String} {seen : Option PaymentIntentStatus},
      lastSighting id (config.past index) = some seen →
      (config.state.store.find? .paymentIntent id).map PaymentIntent.status = seen

/-- A call that does not sight an intent leaves it as it is. -/
theorem Performs.find?_of_blind {before after : World} {performed : Performed signature}
    (performs : Performs before after performed) {id : String}
    (blind : sighting id performed = none) :
    after.store.find? .paymentIntent id = before.store.find? .paymentIntent id := by
  cases performs.rows .paymentIntent with
  | kept same => exact same id
  | created new drawn createdAt isCreate _ change =>
      subst isCreate
      refine (change.lookup id).trans (if_neg fun isId => ?_)
      have isRow : (Model.make .paymentIntent new drawn createdAt).id = id := isId
      simp [sighting, Call.sights, isRow] at blind
  | updated key patch old isUpdate change =>
      subst isUpdate
      refine (change.lookup id).trans (if_neg fun isId => ?_)
      simp [sighting, Call.sights, isId] at blind
  | deleted key old isDelete change =>
      subst isDelete
      refine (change.lookup id).trans (if_neg fun isId => ?_)
      simp [sighting, Call.sights, isId] at blind
  | cascaded key old isDelivery => cases isDelivery

/-- A detached task writes no intent. -/
theorem find?_of_background (run : Run allows (Config.initial state) config) {thread : Nat}
    {choice : Choice} {request : Request} {performed : Performed signature}
    (resumes : Resumes allows config config' thread choice request performed)
    (background : Request.isForeground request = false) (id : String) :
    config'.state.store.find? .paymentIntent id = config.state.store.find? .paymentIntent id := by
  obtain ⟨resume, paused, -⟩ := resumes.paused
  have permitted : permitsTransition request (config.past thread) performed.call :=
    run.permitted transitions_fulfilled paused
  obtain ⟨task, rfl⟩ : ∃ task, request = .background task := by
    cases request <;> first | exact ⟨_, rfl⟩ | cases background
  cases resumes.performs.rows .paymentIntent with
  | kept same => exact same id
  | created new drawn createdAt isCreate =>
      subst isCreate
      exact permitted.elim
  | updated key patch old isUpdate =>
      subst isUpdate
      exact permitted.elim
  | deleted key old isDelete =>
      subst isDelete
      exact permitted.elim
  | cascaded key old isDelivery => cases isDelivery

theorem OneAtATime.issue {request : Request} (accounted : Accounted config)
    (allowed : sequential config (.issue request) = true) :
    OneAtATime (config.issue request) := by
  -- only the new operation is in flight
  have isNew : ∀ {index : Nat} {thread : Thread (service deployment)},
      InFlight (config.issue request) index thread → config.threads.length = index := by
    rintro index thread ⟨lookup, foreground, unfinished⟩
    have bound := (List.getElem?_eq_some_iff.mp lookup).1
    rcases Config.threads_issue lookup with old | ⟨later, -⟩
    · simp only [sequential, List.all_eq_true] at allowed
      have finished := allowed thread (List.mem_of_getElem? old)
      simp [foreground, unfinished] at finished
    · simp only [Config.issue, List.length_append, List.length_singleton] at bound
      omega
  constructor
  · intro index other thread second first next
    rw [← isNew first, ← isNew next]
  · intro index thread inFlight id seen sighted
    have fresh : config.past index = [] := accounted.past_of_le (Nat.le_of_eq (isNew inFlight))
    change lastSighting id (config.past index) = some seen at sighted
    rw [fresh] at sighted
    cases sighted

theorem OneAtATime.resume (run : Run allows (Config.initial state) config)
    (before : OneAtATime config) {resumed : Nat} {choice : Choice} {request : Request}
    {performed : Performed signature}
    (resumes : Resumes allows config config' resumed choice request performed) :
    OneAtATime config' := by
  obtain ⟨resume, paused, isResumed⟩ := resumes.paused
  -- what is in flight now was in flight before
  have wasInFlight : ∀ {index : Nat} {thread : Thread (service deployment)},
      InFlight config' index thread → ∃ old, InFlight config index old := by
    rintro index thread ⟨lookup, foreground, unfinished⟩
    rcases resumes.others lookup with rfl | old | ⟨task, isTask⟩
    · obtain rfl := Option.some.inj (isResumed.symm.trans lookup)
      exact ⟨_, paused, foreground, Program.not_finished_await _ _⟩
    · exact ⟨thread, old, foreground, unfinished⟩
    · rw [isTask] at foreground
      cases foreground
  constructor
  · intro index other thread second first next
    obtain ⟨old, oldFlight⟩ := wasInFlight first
    obtain ⟨oldSecond, oldSecondFlight⟩ := wasInFlight next
    exact before.single oldFlight oldSecondFlight
  · intro index thread inFlight id seen sighted
    obtain ⟨old, oldFlight⟩ := wasInFlight inFlight
    by_cases isIndex : resumed = index
    · subst isIndex
      rw [resumes.past_self, lastSighting_cons] at sighted
      cases isSight : sighting id performed with
      | some shown =>
          rw [isSight] at sighted
          obtain rfl := Option.some.inj sighted
          exact resumes.performs.sighting_eq isSight
      | none =>
          rw [isSight, Option.none_or] at sighted
          rw [resumes.performs.find?_of_blind isSight]
          exact before.current oldFlight sighted
    · -- another thread went on: a detached task
      have background : Request.isForeground request = false := by
        cases isForeground : Request.isForeground request with
        | false => rfl
        | true =>
            have resumedFlight : InFlight config resumed ⟨request, .await performed.call resume⟩ :=
              ⟨paused, isForeground, Program.not_finished_await _ _⟩
            exact absurd (before.single resumedFlight oldFlight) isIndex
      rw [resumes.past_of_ne isIndex] at sighted
      rw [find?_of_background run resumes background]
      exact before.current oldFlight sighted

theorem OneAtATime.step (run : Run allows (Config.initial state) config)
    (isSequential : ∀ label, allows config label → sequential config label = true)
    (before : OneAtATime config) (step : Step allows config config') : OneAtATime config' := by
  cases step with
  | issue request allowed => exact .issue run.accounted (isSequential _ allowed)
  | resume resumed choice allowed paused performed =>
      exact before.resume run (.of_resume allowed paused performed)
  | move move _ moved =>
      have drifts := Drifts.of_move moved
      refine ⟨before.single, fun inFlight id seen sighted => ?_⟩
      rw [drifts.store]
      exact before.current inFlight sighted

/-- Every configuration of a sequential run. -/
theorem SequentialRun.oneAtATime (run : SequentialRun (.initial state) config) :
    OneAtATime config := by
  refine run.keeps (I := fun config : Config (service deployment) => OneAtATime config) ?_ ?_
  · constructor
    · rintro index other thread second ⟨lookup, -⟩
      simp [Config.initial] at lookup
    · rintro index thread ⟨lookup, -⟩
      simp [Config.initial] at lookup
  · intro config config' before oneAtATime step
    exact oneAtATime.step before (fun _ allowed => allowed) step

/-! ## Paid intents -/

/-- The patch request that a step brings to its statement. -/
def patching (config : Config (service deployment)) :
    Label (service deployment) → Option (String × UpdatePaymentIntentDto)
  | .resume thread _ =>
      match config.threads[thread]? with
      | some ⟨.paymentIntents (.update _ id dto), .await (.write _) _⟩ => some (id, dto)
      | _ => none
  | _ => none

/-- The patch leaves a settled intent settled, and its hash as it is. -/
def KeepsSettlement (dto : UpdatePaymentIntentDto) (row : PaymentIntent) : Prop :=
  dto.status.toOption ∈ [none, some .succeeded] ∧
    (dto.txHash = .undefined ∨ dto.txHash.toOption = row.txHash)

instance (dto : UpdatePaymentIntentDto) (row : PaymentIntent) :
    Decidable (KeepsSettlement dto row) :=
  inferInstanceAs (Decidable (_ ∧ _))

/-- No patch request gives a settled intent another status or hash. -/
def Considerate (config : Config (service deployment)) (label : Label (service deployment)) :
    Prop :=
  ∀ patch ∈ patching config label, ∀ row ∈ config.state.store.find? .paymentIntent patch.1,
    row.status = .succeeded → KeepsSettlement patch.2 row

instance (config : Config (service deployment)) (label : Label (service deployment)) :
    Decidable (Considerate config label) :=
  inferInstanceAs (Decidable (∀ patch ∈ patching config label, _))

/-- Sequential runs in which no patch request gives a settled intent another status or
hash. -/
abbrev ConsiderateRun : Config (service deployment) → Config (service deployment) → Prop :=
  Run fun config label => sequential config label = true ∧ Considerate config label

theorem KeepsSettlement.apply {dto : UpdatePaymentIntentDto} {row : PaymentIntent}
    (keeps : KeepsSettlement dto row) (settled : row.status = .succeeded) :
    (Model.apply .paymentIntent (patchOf dto) row).status = .succeeded ∧
      (Model.apply .paymentIntent (patchOf dto) row).txHash = row.txHash := by
  obtain ⟨status, hash⟩ := keeps
  constructor
  · simp only [Model.apply, patchOf, Field.setRequired]
    cases isStatus : dto.status with
    | value given => simpa [isStatus, Field.toOption] using status
    | undefined => simpa [Field.toOption] using settled
    | null => simpa [Field.toOption] using settled
  · simp only [Model.apply, patchOf]
    cases isHash : dto.txHash with
    | value given => simpa [isHash, Field.toOption, Field.set] using hash
    | undefined => rfl
    | null => simpa [isHash, Field.toOption, Field.set] using hash

/-- In a sequential run a guard holds when the guarded statement is sent. -/
theorem OneAtATime.unsettled_of_guarded (oneAtATime : OneAtATime config) {index : Nat}
    {thread : Thread (service deployment)} (inFlight : InFlight config index thread)
    {id : String} (guarded : Guarded (config.past index) id) {row : PaymentIntent}
    (found : config.state.store.find? .paymentIntent id = some row) :
    row.status ≠ .succeeded := by
  obtain ⟨seen, last, unsettled⟩ := guarded
  have current := oneAtATime.current inFlight last
  rw [found] at current
  intro settled
  exact unsettled (by rw [← current, Option.map_some, settled])

theorem paid_step (run : ConsiderateRun (.initial state) config)
    (step : Step (fun config label => sequential config label = true ∧ Considerate config label)
      config config') {id : String} {row : PaymentIntent}
    (found : config.state.store.find? .paymentIntent id = some row)
    (settled : row.status = .succeeded) :
    ∃ row', config'.state.store.find? .paymentIntent id = some row' ∧
      row'.status = .succeeded ∧ row'.txHash = row.txHash := by
  have sequentialRun : SequentialRun (.initial state) config := run.mono fun _ _ => And.left
  have oneAtATime := sequentialRun.oneAtATime
  rcases step_cases step with ⟨-, drifts⟩ | ⟨thread, choice, request, performed, resumes⟩
  · exact ⟨row, by rw [drifts.store, found], settled, rfl⟩
  obtain ⟨resume, paused, -⟩ := resumes.paused
  have inFlight : Request.isForeground request = true →
      InFlight config thread ⟨request, .await performed.call resume⟩ :=
    fun foreground => ⟨paused, foreground, Program.not_finished_await _ _⟩
  refine resumes.performs.intent_kept
    (I := fun row' => row'.status = .succeeded ∧ row'.txHash = row.txHash) found
    ⟨settled, rfl⟩ ?_ ?_
  · rintro patch rfl
    have permitted : permitsTransition request (config.past thread)
        (.write (.update .paymentIntent id patch)) := run.permitted transitions_fulfilled paused
    simp only [permitsTransition] at permitted
    split at permitted
    · obtain ⟨rfl, rfl, -⟩ := permitted
      refine KeepsSettlement.apply (resumes.allowed.2 (id, _) ?_ row found settled) settled
      simp only [patching, paused]
      rfl
    · exact absurd settled (oneAtATime.unsettled_of_guarded (inFlight rfl) permitted.2.1 found)
    · exact absurd settled (oneAtATime.unsettled_of_guarded (inFlight rfl) permitted.1 found)
    · exact permitted.elim
  · rintro rfl
    have permitted : permitsTransition request (config.past thread)
        (.write (.delete .paymentIntent id)) := run.permitted transitions_fulfilled paused
    simp only [permitsTransition] at permitted
    split at permitted
    · exact absurd settled (oneAtATime.unsettled_of_guarded (inFlight rfl) permitted.2.1 found)
    · exact permitted.elim

/-- A paid intent is an immutable record of its payment: in a sequential run in which no
patch request gives a settled intent another status or hash, a settled intent keeps both
and is never deleted. -/
theorem paid_immutable (before : ConsiderateRun (.initial state) config)
    (later : ConsiderateRun config config') {id : String} {row : PaymentIntent}
    (found : config.state.store.find? .paymentIntent id = some row)
    (settled : row.status = .succeeded) :
    ∃ row', config'.state.store.find? .paymentIntent id = some row' ∧
      row'.status = .succeeded ∧ row'.txHash = row.txHash := by
  refine later.keeps (I := fun latest : Config (service deployment) =>
    ∃ row', latest.state.store.find? .paymentIntent id = some row' ∧
      row'.status = .succeeded ∧ row'.txHash = row.txHash) ⟨row, found, settled, rfl⟩ ?_
  rintro middle latest passed ⟨row', found', settled', sameHash⟩ step
  obtain ⟨row'', found'', settled'', sameHash'⟩ :=
    paid_step (before.trans passed) step found' settled'
  exact ⟨row'', found'', settled'', sameHash'.trans sameHash⟩

/-- An intent that is created and then paid. -/
def paidIntent : Config (service Sample.deployment) :=
  after (fun config label => sequential config label ∧ Considerate config label)
    (Sample.create 0 "alice" "7" "c" "pi" ++
      Sample.validate "alice" "pi" '1' :: Sample.serve 2 7)
    Sample.start

theorem paid_immutable_of_paidIntent :
    ∃ row', (after (fun config label => sequential config label ∧ Considerate config label)
        (Sample.patch "alice" "pi" .undefined (.value "order_1234") :: Sample.serve 5 3)
        paidIntent).state.store.find? .paymentIntent "pi" = some row' ∧
      row'.status = .succeeded ∧ row'.txHash = some (Sample.hash '1') := by
  have shown : (paidIntent.state.store.find? .paymentIntent "pi").map
      (fun row => (row.status, row.txHash)) = some (.succeeded, some (Sample.hash '1')) := by
    decide +kernel
  obtain ⟨row, found, isShown⟩ := Option.map_eq_some_iff.mp shown
  obtain ⟨settled, hashed⟩ := Prod.mk.inj isShown
  rw [← hashed]
  exact paid_immutable (run_after (fun _ _ checked => of_decide_eq_true checked) _ _)
    (run_after (fun _ _ checked => of_decide_eq_true checked) _ _) found settled

/-- The paid intent is patched back to pending. -/
def reopenedIntent : Config (service Sample.deployment) :=
  after (fun config label => sequential config label)
    (Sample.patch "alice" "pi" (.value .pending) .undefined :: Sample.serve 5 3) paidIntent

/-- In general a patch request undoes a settlement. -/
theorem not_paid_immutable :
    ¬ ∀ (deployment : Deployment) (state : World) (config config' : Config (service deployment)),
      SequentialRun (.initial state) config → SequentialRun config config' →
      ∀ (id : String) (row : PaymentIntent),
        config.state.store.find? .paymentIntent id = some row → row.status = .succeeded →
        ∃ row', config'.state.store.find? .paymentIntent id = some row' ∧
          row'.status = .succeeded ∧ row'.txHash = row.txHash := by
  intro immutable
  have shown : (paidIntent.state.store.find? .paymentIntent "pi").map PaymentIntent.status =
      some .succeeded := by
    decide +kernel
  obtain ⟨row, found, settled⟩ := Option.map_eq_some_iff.mp shown
  obtain ⟨row', found', settled', -⟩ := immutable Sample.deployment Sample.world paidIntent
    reopenedIntent
    (run_after (fun _ _ checked => (of_decide_eq_true checked).1) _ _)
    (run_after (fun _ _ checked => checked) _ _) "pi" row found settled
  have reopened : (reopenedIntent.state.store.find? .paymentIntent "pi").map
      PaymentIntent.status = some .pending := by
    decide +kernel
  rw [found', Option.map_some, settled'] at reopened
  cases reopened

end Sequence

end CosmosPay

import CosmosPay.Contracts.Fallbacks
import CosmosPay.Removal

/-!
# Looking up what an insertion collided with

A refused insertion has met a row with its consumer and its memo, and the row is looked up
in the next round trip.  It is still there unless a `remove` has deleted it in between.
-/

namespace CosmosPay

open Awaiting Tables PaymentIntents

/-! ## The colliding row -/

/-- An intent of this consumer with this memo is stored. -/
def Store.HasKey (store : Store) (key : String × String) : Prop :=
  ∃ id row, store.find? .paymentIntent id = some row ∧ (row.consumerId, row.memo) = key

/-- An insertion is refused for a row with its consumer and its memo, and changes nothing. -/
theorem Performs.of_refusal {before after : World} {new : NewPaymentIntent} {err : ServiceError}
    (performs : Performs before after ⟨.write (.create .paymentIntent new), .error err⟩)
    (violation : isUniqueViolation err = true) :
    after = before ∧ before.store.HasKey (new.consumerId, new.memo) := by
  obtain ⟨choice, served, made, isAnswer, isAfter⟩ := performs
  obtain rfl : err = .prisma "P2002" := of_decide_eq_true violation
  rcases World.perform_write made with rfl | ⟨id, fresh, rfl⟩
  · have isPrisma := Except.error.inj isAnswer
    simp [disconnected] at isPrisma
  rcases before.commit_cases (.create .paymentIntent new)
      (before.store.create .paymentIntent new id before.clock) with
    ⟨err, failed, committed⟩ | ⟨row, store, -, committed⟩
  · have kept : World.commit before (.create .paymentIntent new)
        (Write.execute (.create .paymentIntent new) before.store id before.clock) =
          before.reply (.error err) := committed
    rw [kept] at isAnswer isAfter
    obtain rfl := Except.error.inj isAnswer
    refine ⟨isAfter.symm, ?_⟩
    simp only [Store.create] at failed
    split at failed
    · rename_i refused
      obtain ⟨old, member, clash⟩ := Table.insert?_eq_none refused
      refine ⟨old.id, old, Table.find?_key member, ?_⟩
      -- the id is fresh, and a new intent has no hash
      have known : old.id ∈ before.store.issued := before.store.rowsIssued .paymentIntent old member
      have differ : old.id ≠ id := fun same => fresh rfl (same ▸ known)
      simpa [Model.indexes, intentIndexes, Model.make, differ] using clash
    · split at failed <;> simp at failed
  · have kept : World.commit before (.create .paymentIntent new)
        (Write.execute (.create .paymentIntent new) before.store id before.clock) =
          ⟨.ok row, { before with store }, []⟩ := committed
    rw [kept] at isAnswer
    cases isAnswer

/-- A row under a key stays, unless it is deleted. -/
theorem Store.HasKey.performs {before after : World} {performed : Performed signature}
    {key : String × String} (performs : Performs before after performed)
    (hasKey : before.store.HasKey key)
    (spared : ∀ id row, performed = ⟨.write (.delete .paymentIntent id), .ok row⟩ →
      (row.consumerId, row.memo) ≠ key) : after.store.HasKey key := by
  obtain ⟨id, row, found, isKey⟩ := hasKey
  obtain ⟨row', found', isKey'⟩ := performs.intent_kept
    (I := fun row => (row.consumerId, row.memo) = key) found isKey (fun _ _ => isKey)
    fun isDelete => spared id row isDelete isKey
  exact ⟨id, row', found', isKey'⟩

section Runs

variable {deployment : Deployment}

/-- The intent that a step deletes. -/
def removed (config : Config (service deployment)) :
    Label (service deployment) → Option PaymentIntent
  | .resume thread Choice.serve =>
      (removal config (.resume thread Choice.serve)).bind fun sent =>
        (World.store config.state).find? .paymentIntent sent.2
  | _ => none

/-- No deletion of an intent that a refused insertion is about to look up. -/
def Spares (config : Config (service deployment)) (label : Label (service deployment)) : Prop :=
  ∀ row ∈ removed config label, ∀ thread < config.threads.length,
    refused? (config.past thread) ≠ some (row.consumerId, row.memo)

instance (config : Config (service deployment)) (label : Label (service deployment)) :
    Decidable (Spares config label) :=
  inferInstanceAs (Decidable (∀ row ∈ removed config label, _))

/-- Runs in which no intent is deleted between an insertion that it has refused and the
lookup that follows. -/
abbrev SparingRun : Config (service deployment) → Config (service deployment) → Prop :=
  Run Spares

variable {config config' : Config (service deployment)} {state : World}

theorem Resumes.choice_of_delete
    {allows : Config (service deployment) → Label (service deployment) → Prop} {thread : Nat}
    {choice : Choice} {request : Request} {id : String} {row : PaymentIntent}
    (resumes : Resumes allows config config' thread choice request
      ⟨.write (.delete .paymentIntent id), .ok row⟩) : choice = .serve := by
  obtain ⟨served, performed, isAnswer, -⟩ := resumes.answered
  cases choice with
  | serve => rfl
  | reject =>
      obtain rfl := Option.some.inj performed
      cases isAnswer
  | _ => cases performed

/-- What refused an insertion is stored as long as it has not been looked up. -/
def KeepsRefused (config : Config (service deployment)) : Prop :=
  ∀ thread key, refused? (config.past thread) = some key →
    (World.store config.state).HasKey key

theorem KeepsRefused.step (accounted : Accounted config) (keeps : KeepsRefused config)
    (step : Step Spares config config') : KeepsRefused config' := by
  intro thread key refused
  rcases step_cases step with ⟨sameTrace, drifts⟩ | ⟨resumed, choice, request, performed, resumes⟩
  · rw [Config.past, sameTrace] at refused
    rw [drifts.store]
    exact keeps thread key refused
  have performs := resumes.performs
  by_cases same : resumed = thread
  · subst same
    rw [resumes.past_self] at refused
    obtain ⟨call, answer⟩ := performed
    have isRefusal : call.refusal answer = some key := refused
    unfold Call.refusal at isRefusal
    split at isRefusal
    · rename_i new err
      split at isRefusal
      · rename_i violation
        obtain rfl := Option.some.inj isRefusal
        obtain ⟨unchanged, hasKey⟩ := performs.of_refusal violation
        rw [unchanged]
        exact hasKey
      · cases isRefusal
    · cases isRefusal
  · rw [resumes.past_of_ne same] at refused
    have inside : thread < config.threads.length := by
      by_contra outside
      rw [accounted.past_of_le (Nat.le_of_not_lt outside)] at refused
      cases refused
    refine (keeps thread key refused).performs performs fun id row isDelete isKey => ?_
    subst isDelete
    have found := performs.of_delete.found
    obtain rfl : choice = Choice.serve := resumes.choice_of_delete
    have isRemoved : removed config (.resume resumed Choice.serve) = some row := by
      simp only [removed, resumes.removal_eq]
      exact found
    exact resumes.allowed row isRemoved thread inside (isKey ▸ refused)

theorem SparingRun.keepsRefused (run : SparingRun (.initial state) config) :
    KeepsRefused config := by
  refine run.keeps (I := fun config : Config (service deployment) => KeepsRefused config) ?_
    fun _ _ reached keeps step => keeps.step reached.accounted step
  intro thread key refused
  cases refused

/-- Only a create request is refused an insertion. -/
theorem creation_of_refused
    {allows : Config (service deployment) → Label (service deployment) → Prop}
    (run : Run allows (.initial state) config) {thread : Nat} {key : String × String}
    (refused : refused? (config.past thread) = some key) :
    ∃ request code, config.threads[thread]? = some ⟨request, code⟩ ∧
      (Request.creation? request).isSome := by
  obtain ⟨⟨call, answer⟩, isLast, isRefusal⟩ := Option.bind_eq_some_iff.mp refused
  simp only [Call.refusal] at isRefusal
  split at isRefusal
  · rename_i new err
    obtain ⟨before, after, choice, request, reached, resumes, -, code, lookup⟩ :=
      exists_resumes_of_mem run (mem_pastOf.mp (List.mem_of_head? isLast))
    obtain ⟨resume, paused, -⟩ := resumes.paused
    have transits : permitsTransition request (before.past thread)
        (.write (.create .paymentIntent new)) := reached.permitted transitions_fulfilled paused
    refine ⟨request, code, lookup, ?_⟩
    simp only [permitsTransition] at transits
    split at transits
    · rfl
    · rfl
    · exact transits.elim
  · cases isRefusal

/-- A lookup under the key of a stored row finds a row. -/
theorem Performs.isSome_of_byMemo {before after : World} {key : String × String}
    {found : Option PaymentIntent} (hasKey : before.store.HasKey key)
    (performs : Performs before after ⟨.query (.intentByMemo key.1 key.2), .ok found⟩) :
    found.isSome := by
  obtain ⟨id, row, stored, rfl⟩ := hasKey
  obtain ⟨-, order, answered⟩ := performs.of_query
  rw [← Option.some.inj answered, List.find?_isSome]
  exact ⟨row, Table.mem_of_find? stored, by simp⟩

/-- The lookup after a refusal finds a row. -/
def FindsRefused (config : Config (service deployment)) : Prop :=
  ∀ thread found, reread? (config.past thread) = some found → found.isSome

theorem FindsRefused.step (run : SparingRun (.initial state) config)
    (finds : FindsRefused config) (step : Step Spares config config') : FindsRefused config' := by
  intro thread found read
  rcases step_cases step with ⟨sameTrace, -⟩ | ⟨resumed, choice, request, performed, resumes⟩
  · rw [Config.past, sameTrace] at read
    exact finds thread found read
  by_cases same : resumed = thread
  · subst same
    rw [resumes.past_self] at read
    obtain ⟨call, answer⟩ := performed
    obtain ⟨last, isLast, reads⟩ := Option.bind_eq_some_iff.mp read
    obtain rfl := Option.some.inj isLast
    obtain ⟨shown, isShown, refused⟩ := Option.bind_eq_some_iff.mp reads
    obtain ⟨key, isKey, rfl⟩ := Option.map_eq_some_iff.mp refused
    have isRefused : refused? (config.past resumed) = some key := isKey
    obtain ⟨request', code, lookup, isCreation⟩ := creation_of_refused run isRefused
    obtain ⟨resume, paused, -⟩ := resumes.paused
    obtain ⟨rfl, -⟩ := Thread.mk.inj (Option.some.inj (paused.symm.trans lookup))
    obtain ⟨-, isLookup⟩ := run.permitted fallbacks_fulfilled paused isCreation
    obtain rfl : call = .query (.intentByMemo key.1 key.2) := isLookup key isRefused
    cases answer with
    | error err => cases isShown
    | ok value =>
        obtain rfl : value = shown := Option.some.inj isShown
        exact resumes.performs.isSome_of_byMemo (run.keepsRefused resumed key isRefused)
  · rw [resumes.past_of_ne same] at read
    exact finds thread found read

theorem SparingRun.findsRefused (run : SparingRun (.initial state) config) :
    FindsRefused config := by
  refine run.keeps (I := fun config : Config (service deployment) => FindsRefused config) ?_
    fun _ _ reached finds step => finds.step reached step
  intro thread found read
  cases read

/-- A create request whose insertion the unique key refuses goes on to look the row up, which
is stored; and once it has looked, it has found a row and answers with it. -/
theorem refused_insert_finds (run : SparingRun (.initial state) config) {thread : Nat}
    {request : Request} {code : Program signature Reply}
    (lookup : config.threads[thread]? = some ⟨request, code⟩)
    (isCreation : (Request.creation? request).isSome) :
    (∀ key, refused? (config.past thread) = some key →
      (∃ resume, code = .await (.query (.intentByMemo key.1 key.2)) resume) ∧
        (World.store config.state).HasKey key) ∧
    ∀ found, reread? (config.past thread) = some found → ∃ row, found = some row ∧
      code = .done ((deployment.libraries.toDataURL row.uri).map fun qr => .intent ⟨row, qr⟩) := by
  have conforms := run.conforms fallbacks_fulfilled lookup
  constructor
  · intro key refused
    refine ⟨?_, run.keepsRefused thread key refused⟩
    cases code with
    | done outcome =>
        have answered : refused? (config.past thread) = none := (conforms isCreation).1
        rw [answered] at refused
        cases refused
    | await call resume =>
        obtain rfl : call = .query (.intentByMemo key.1 key.2) :=
          (conforms.1 isCreation).lookup key refused
        exact ⟨resume, rfl⟩
  · intro found read
    obtain ⟨row, rfl⟩ := Option.isSome_iff_exists.mp (run.findsRefused thread found read)
    refine ⟨row, rfl, ?_⟩
    cases code with
    | done outcome =>
        have ended : outcome = (existingOutcome deployment (some row)).map Reply.intent :=
          (conforms isCreation).2 (some row) read
        rw [ended, existingOutcome]
        cases deployment.libraries.toDataURL row.uri <;> rfl
    | await call resume =>
        have unread : reread? (config.past thread) = none := (conforms.1 isCreation).unread
        rw [unread] at read
        cases read

end Runs

/-! ## Two requests for one memo -/

/-- A create or a delete request of the consumer. -/
def Request.competes (username : String) : Request → Bool
  | .paymentIntents (.createTx consumer _) => consumer.username = username
  | .paymentIntents (.createPay consumer _) => consumer.username = username
  | .paymentIntents (.remove consumer _) => consumer.username = username
  | _ => false

/-- Two `createPay` requests with the same memo look it up, and the first one inserts. -/
def twoCreations : List (Label (service Sample.deployment)) :=
  [.issue (.paymentIntents (.createPay (Sample.caller "alice") (Sample.payDto "7"))),
    .issue (.paymentIntents (.createPay (Sample.caller "alice") (Sample.payDto "7"))),
    .resume 0 (.draw "c"), .resume 0 .serve, .resume 1 (.draw "d"), .resume 1 .serve,
    .resume 0 .serve, .resume 0 (.draw "pi")]

/-- The insertion of the second one is refused, and it looks the row up. -/
def lookedUp : Config (service Sample.deployment) :=
  after (fun config label => decide (Spares config label))
    (twoCreations ++ [.resume 1 .serve, .resume 1 (.draw "pj"), .resume 1 .serve]) Sample.start

theorem refused_insert_finds_of_lookedUp :
    ∃ row request code, lookedUp.threads[1]? = some ⟨request, code⟩ ∧
      reread? (lookedUp.past 1) = some (some row) ∧ row.id = "pi" ∧
      code = .done ((Sample.libraries.toDataURL row.uri).map fun qr => .intent ⟨row, qr⟩) := by
  have run : SparingRun Sample.start lookedUp :=
    run_after (fun _ _ spared => of_decide_eq_true spared) _ _
  have issued : (lookedUp.threads[1]?).map (fun thread =>
      (Request.creation? thread.request).isSome) = some true := by
    decide +kernel
  obtain ⟨⟨request, code⟩, lookup, isCreation⟩ := Option.map_eq_some_iff.mp issued
  have shown : (reread? (lookedUp.past 1)).map (Option.map PaymentIntent.id) =
      some (some "pi") := by
    decide +kernel
  obtain ⟨found, read, isRow⟩ := Option.map_eq_some_iff.mp shown
  obtain ⟨row, rfl, ended⟩ := (refused_insert_finds run lookup isCreation).2 found read
  exact ⟨row, request, code, lookup, read, Option.some.inj isRow, ended⟩

/-- In general the row is deleted before it is looked up, and the request fails. -/
theorem not_refused_insert_finds :
    ¬ ∀ (deployment : Deployment) (state : World) (config : Config (service deployment))
      (username : String), state.store = .empty →
      Run (fun _ label => issues (Request.competes username) label = true) (.initial state)
        config →
      ∀ thread, (∀ found, reread? (config.past thread) = some found → found.isSome) ∧
        ∀ request, config.threads[thread]? ≠
          some ⟨request, .done (.error (.other
            "Cannot read properties of null (reading 'uri')"))⟩ := by
  intro finds
  have missed : reread? ((after (fun _ label => issues (Request.competes "alice") label)
      (twoCreations ++ [.issue (.paymentIntents (.remove (Sample.caller "alice") "pi")),
        .resume 2 .serve, .resume 2 .serve, .resume 1 .serve, .resume 1 (.draw "pj"),
        .resume 2 .serve, .resume 1 .serve]) Sample.start).past 1) = some none := by
    decide +kernel
  have found := (finds Sample.deployment Sample.world _ "alice" rfl
    (run_after (fun _ _ checked => checked) _ _) 1).1 none missed
  cases found

end CosmosPay

import CosmosPay.Budget

/-!
# Nothing stays pending

A delivery is inserted PENDING by a task that goes on to attempt it.  As long as the
statements that end the loops go through, a delivery that is still PENDING has its task at
work, so nothing is PENDING once the service is at rest.
-/

namespace CosmosPay

open Awaiting Tables

section Resolution

variable {deployment : Deployment} {config config' : Config (service deployment)} {state : World}

/-- Does the label lose the connection under the statement that ends a loop? -/
def interrupts (config : Config (service deployment)) : Label (service deployment) → Bool
  | .resume thread choice =>
      match config.threads[thread]? with
      | some ⟨_, .await (.write (.update .webhookDelivery _ _)) _⟩ => choice.rejects
      | _ => false
  | _ => false

abbrev UninterruptedRun : Config (service deployment) → Config (service deployment) → Prop :=
  Run fun config label => interrupts config label = false

/-- The delivery is not PENDING, or has been deleted. -/
structure Concluded (id : String) (store : Store) : Prop where
  issued : id ∈ store.issued
  status : ∀ row, store.find? .webhookDelivery id = some row → row.status ≠ .pending

variable {allows : Config (service deployment) → Label (service deployment) → Prop}

theorem Finalizes.status_ne {past : History signature} {id : String}
    {patch : WebhookDeliveryPatch} (finalizes : Finalizes past id patch) :
    patch.status ≠ .pending := by
  rw [finalizes.status]
  split <;> nofun

/-- No statement makes a delivery PENDING again. -/
theorem Concluded.resume {id : String} (run : Run allows (Config.initial state) config)
    (before : Concluded id config.state.store) {thread : Nat} {choice : Choice}
    {request : Request} {performed : Performed signature}
    (resumes : Resumes allows config config' thread choice request performed) :
    Concluded id config'.state.store := by
  refine ⟨step_issued resumes.step id before.issued, fun row found => ?_⟩
  cases resumes.performs.rows .webhookDelivery with
  | kept same => exact before.status row ((same id).symm.trans found)
  | created new drawn createdAt _ fresh change =>
      rw [change.lookup] at found
      split at found
      · rename_i isId
        exact absurd (isId ▸ before.issued) fresh
      · exact before.status row found
  | updated key patch old isUpdate change =>
      rw [change.lookup] at found
      split at found
      · obtain rfl := Option.some.inj found
        obtain ⟨resume, paused, -⟩ := resumes.paused
        have permitted : permitsDelivery deployment request (config.past thread)
            performed.call := run.permitted deliveries_fulfilled paused
        rw [isUpdate] at permitted
        exact Finalizes.status_ne permitted.2
      · exact before.status row found
  | deleted key old _ change =>
      rw [change.lookup] at found
      split at found
      · cases found
      · exact before.status row found
  | cascaded key old _ _ change =>
      rw [change.deliveries rfl] at found
      exact before.status row (Option.filter_eq_some_iff.mp found).1

theorem Concluded.later {id : String} (reached : Run allows (Config.initial state) config)
    (concluded : Concluded id config.state.store) (run : Run allows config config') :
    Concluded id config'.state.store := by
  refine run.keeps (I := fun latest : Config (service deployment) =>
    Concluded id latest.state.store) concluded fun middle latest passed before step => ?_
  rcases step_cases step with ⟨-, drifts⟩ | ⟨_, _, _, _, resumes⟩
  · rw [drifts.store]
    exact before
  · exact before.resume (reached.trans passed) resumes

/-- The statement that ends a loop concludes its delivery, also when it finds it deleted. -/
theorem concluded_of_final (run : UninterruptedRun (.initial state) config) {thread : Nat}
    {choice : Choice} {request : Request} {id : String} {patch : WebhookDeliveryPatch}
    {answer : Except ServiceError WebhookDelivery}
    (resumes : Resumes (fun config label => interrupts config label = false) config config' thread
      choice request ⟨.write (.update .webhookDelivery id patch), answer⟩)
    (issued : id ∈ config.state.store.issued) : Concluded id config'.state.store := by
  obtain ⟨resume, paused, -⟩ := resumes.paused
  have permitted : permitsDelivery deployment request (config.past thread)
      (.write (.update .webhookDelivery id patch)) :=
    run.permitted deliveries_fulfilled paused
  refine ⟨step_issued resumes.step id issued, fun row found => ?_⟩
  cases answer with
  | ok changed =>
      obtain ⟨old, -, change⟩ := resumes.performs.of_update
      rw [change.lookup, if_pos rfl] at found
      obtain rfl := Option.some.inj found
      exact Finalizes.status_ne permitted.2
  | error err =>
      obtain ⟨served, performed, failed, isState⟩ := resumes.answered
      have accepted : choice.rejects = false := by
        have allowed := resumes.allowed
        simpa only [interrupts, paused] using allowed
      have absent := Performs.absent_of_failed performed accepted failed
      have same : config'.state.store = config.state.store :=
        resumes.performs.store_eq fun _ _ => by rintro ⟨⟩
      rw [same, absent] at found
      cases found

/-- What a task has inserted it has loaded, and keeps. -/
theorem loaded_of_inserted (run : Run allows (Config.initial state) config) {thread : Nat}
    {new : NewWebhookDelivery} {row : WebhookDelivery}
    (made : ⟨.write (.create .webhookDelivery new), .ok row⟩ ∈ config.past thread) :
    loaded (config.past thread) = some row := by
  obtain ⟨newer, older, split⟩ := List.append_of_mem made
  have front : config.past thread =
      [] ++ (newer ++ ⟨.write (.create .webhookDelivery new), .ok row⟩ :: older) := split
  have atCreation :
      loaded (⟨.write (.create .webhookDelivery new), .ok row⟩ :: older) = some row := rfl
  rw [split]
  exact loaded_append run front atCreation

/-- The task of a delivery that is not concluded is still at work. -/
theorem concluded_of_finished (run : UninterruptedRun (.initial state) config) {thread : Nat}
    {new : NewWebhookDelivery} {origin : WebhookDelivery}
    (made : ⟨thread, .write (.create .webhookDelivery new), .ok origin⟩ ∈ config.trace)
    {found : Thread (service deployment)} (lookup : config.threads[thread]? = some found)
    (isFinished : found.code.Finished) : Concluded origin.id config.state.store := by
  obtain ⟨before, after, choice, request, reached, resumes, later, code, isThread⟩ :=
    exists_resumes_of_mem run made
  obtain rfl := Option.some.inj (isThread.symm.trans lookup)
  obtain ⟨resume, paused, -⟩ := resumes.paused
  have inserts : permitsLoop request (before.past thread)
      (.write (.create .webhookDelivery new)) := reached.permitted loops_fulfilled paused
  obtain ⟨endpoint, eventType, eventId, data, createdAt, rfl, -⟩ := inserts
  obtain ⟨outcome, rfl⟩ := isFinished.outcome
  have isCreated := mem_pastOf.mpr made
  have isLoaded : loaded (config.past thread) = some origin := loaded_of_inserted run isCreated
  have ended : TaskEnded deployment endpoint (config.past thread) :=
    run.ensured fanOuts_fulfilled lookup
  generalize isPast : config.past thread = past at ended
  cases ended with
  | rejected createdAt new err =>
      rw [isPast] at isLoaded
      cases isLoaded
  | delivered insert delivery result lastAttemptAt created attempted =>
      rename_i earlier
      subst isPast
      obtain rfl := Option.some.inj ((loaded_of_inserted run created).symm.trans isLoaded)
      have front : config.past thread = [] ++ _ :: earlier := attempted.last
      obtain ⟨newer, older, split, -, isEarlier⟩ := exists_split_of_pastOf front
      obtain ⟨moment, next, pick, served, passed, rfl, ends, onward, -⟩ :=
        exists_resumes_of_split run split
      have wasCreated : ⟨.write (.create .webhookDelivery insert), .ok delivery⟩ ∈ earlier := by
        rw [attempted.last] at created
        exact (List.mem_cons.mp created).resolve_left nofun
      rw [← isEarlier] at wasCreated
      have once : DrawnOnce .webhookDelivery moment := drawnOnce_of_run passed
      have issued := once.issued delivery ⟨thread, _, mem_pastOf.mp wasCreated⟩
      exact (concluded_of_final passed ends issued).later (passed.tail ends.step) onward

/-- A PENDING delivery is being worked on, so at rest each is SUCCEEDED or FAILED. -/
theorem pending_delivering (start : state.store = .empty)
    (run : UninterruptedRun (.initial state) config) :
    (∀ id row, config.state.store.find? .webhookDelivery id = some row →
      row.status = .pending → Delivering config id) ∧
      (config.Quiet → ∀ id row, config.state.store.find? .webhookDelivery id = some row →
        row.status = .succeeded ∨ row.status = .failed) := by
  have working : ∀ id row, config.state.store.find? .webhookDelivery id = some row →
      row.status = .pending → Delivering config id := by
    intro id row found isPending
    have originates : @Originates .webhookDelivery _ config.trace WebhookDelivery.event row :=
      originates_of_run (fun _ _ => rfl) start run found
    obtain ⟨origin, ⟨thread, new, made⟩, same⟩ := originates
    have isId : row.id = id := Table.key_of_find? found
    have isOrigin : origin.id = id := (congrArg DeliveredEvent.id same).trans isId
    have bound := run.accounted _ made
    have lookup := List.getElem?_eq_getElem bound
    refine ⟨thread, _, origin, lookup, fun isFinished => ?_,
      loaded_of_inserted run (mem_pastOf.mpr made), isOrigin⟩
    have concluded := concluded_of_finished run made lookup isFinished
    exact concluded.status row (isOrigin ▸ found) isPending
  refine ⟨working, fun quiet id row found => ?_⟩
  cases isStatus : row.status with
  | succeeded => exact .inl rfl
  | failed => exact .inr rfl
  | pending =>
      obtain ⟨index, thread, -, lookup, unfinished, -⟩ := working id row found isStatus
      exact absurd (quiet _ (List.mem_of_getElem? lookup)) unfinished

end Resolution

/-- The first loop over a delivery has not made a POST yet. -/
def underway : Config (service Sample.deployment) :=
  after (fun config label => !interrupts config label) Sample.delivery Sample.start

theorem pending_delivering_of_underway :
    ∃ row, underway.state.store.find? .webhookDelivery "d" = some row ∧
      row.status = .pending ∧ Delivering underway "d" := by
  have stored : (underway.state.store.find? .webhookDelivery "d").map (·.status) =
      some .pending := by
    decide +kernel
  obtain ⟨row, found, isPending⟩ := Option.map_eq_some_iff.mp stored
  have run : UninterruptedRun Sample.start underway :=
    run_after (fun _ _ checked => by simpa using checked) _ _
  exact ⟨row, found, isPending, (pending_delivering rfl run).1 "d" row found isPending⟩

end CosmosPay

import CosmosPay.Attempts

/-!
# Acknowledged deliveries

A loop ends with the outcome of its own POSTs, whatever the row says by then.  So an
acknowledged delivery stays acknowledged as long as no loop that has got no 2xx ends over it.
-/

namespace CosmosPay

open Awaiting Tables

section Acknowledgement

variable {deployment : Deployment}
variable {config config' : Config (service deployment)} {state : World}

/-- A loop that has got no 2xx does not end over a delivery that is SUCCEEDED. -/
def respects (config : Config (service deployment)) : Label (service deployment) → Bool
  | .resume thread choice =>
      match config.threads[thread]? with
      | some ⟨_, .await (.write (.update .webhookDelivery id _)) _⟩ =>
          choice.rejects || acknowledged (config.past thread) ||
            (config.state.store.find? .webhookDelivery id).all fun row =>
              decide (row.status ≠ .succeeded)
      | _ => true
  | _ => true

abbrev RespectfulRun :
    Config (service deployment) → Config (service deployment) → Prop :=
  Run fun config label => respects config label = true

/-- The delivery is SUCCEEDED, unless it has been deleted. -/
structure Acknowledged (id : String) (store : Store) : Prop where
  issued : id ∈ store.issued
  status : ∀ row, store.find? .webhookDelivery id = some row → row.status = .succeeded

omit deployment config config' state in
theorem not_rejects_of_ok {world : World} {choice : Choice} {statement : Write}
    {served : Served signature (.write statement) World Request} {value : statement.Answer}
    (performed : World.perform (.write statement) choice world = some served)
    (answered : served.answer = .ok value) : choice.rejects = false := by
  cases choice with
  | reject =>
      obtain rfl := Option.some.inj performed
      cases answered
  | _ => rfl

/-- The statement that ends a loop keeps the delivery acknowledged. -/
theorem Acknowledged.of_final {id : String} (run : RespectfulRun (.initial state) config)
    (before : Acknowledged id config.state.store) {thread : Nat} {choice : Choice}
    {request : Request} {key : String} {patch : WebhookDeliveryPatch} {row : WebhookDelivery}
    (resumes : Resumes (fun config label => respects config label = true) config config' thread
      choice request ⟨.write (.update .webhookDelivery key patch), .ok row⟩)
    {found : WebhookDelivery}
    (isFound : config'.state.store.find? .webhookDelivery id = some found) :
    found.status = .succeeded := by
  obtain ⟨old, isRow, change⟩ := resumes.performs.of_update
  obtain ⟨resume, paused, -⟩ := resumes.paused
  obtain ⟨served, performed, answered, -⟩ := resumes.answered
  rw [change.lookup] at isFound
  by_cases isKey : key = id
  · subst isKey
    rw [if_pos rfl] at isFound
    obtain rfl := Option.some.inj isFound
    have permitted : permitsDelivery deployment request (config.past thread)
        (.write (.update .webhookDelivery key patch)) := run.permitted deliveries_fulfilled paused
    have succeeded : old.status = .succeeded := before.status old change.found
    have allowed := resumes.allowed
    simp only [respects, paused, not_rejects_of_ok performed answered, change.found,
      Option.all_some, succeeded] at allowed
    have own : acknowledged (config.past thread) = true := by simpa using allowed
    have written : patch.status = .succeeded := by
      rw [permitted.2.status, if_pos own]
    exact written
  · rw [if_neg isKey] at isFound
    exact before.status found isFound

/-- What a single step preserves. -/
theorem Acknowledged.step {id : String} (run : RespectfulRun (.initial state) config)
    (before : Acknowledged id config.state.store)
    (step : Step (fun config label => respects config label = true) config config') :
    Acknowledged id config'.state.store := by
  refine ⟨step_issued step id before.issued, fun found isFound => ?_⟩
  rcases step_cases step with ⟨-, drifts⟩ | ⟨thread, choice, request, performed, resumes⟩
  · rw [drifts.store] at isFound
    exact before.status found isFound
  · cases resumes.performs.rows .webhookDelivery with
    | kept same => exact before.status found ((same id).symm.trans isFound)
    | created new drawn createdAt _ fresh change =>
        have differ : drawn ≠ id := fun same => fresh (same ▸ before.issued)
        rw [change.lookup, if_neg differ] at isFound
        exact before.status found isFound
    | updated key patch old isUpdate =>
        subst isUpdate
        exact before.of_final run resumes isFound
    | deleted key old _ change =>
        rw [change.lookup] at isFound
        split at isFound
        · cases isFound
        · exact before.status found isFound
    | cascaded key old _ _ change =>
        rw [change.deliveries rfl] at isFound
        exact before.status found (Option.filter_eq_some_iff.mp isFound).1

/-- An acknowledged delivery stays acknowledged: in a run in which no loop without a 2xx ends
over a delivery that is SUCCEEDED, a delivery that is SUCCEEDED is SUCCEEDED ever after. -/
theorem acknowledgement_final (run : RespectfulRun (.initial state) config)
    (later : RespectfulRun config config') {id : String} {row row' : WebhookDelivery}
    (found : config.state.store.find? .webhookDelivery id = some row)
    (succeeded : row.status = .succeeded)
    (found' : config'.state.store.find? .webhookDelivery id = some row') :
    row'.status = .succeeded := by
  have start : Acknowledged id config.state.store := by
    refine ⟨Store.issued_of_find? found, fun other isOther => ?_⟩
    obtain rfl := Option.some.inj (found.symm.trans isOther)
    exact succeeded
  have kept : Acknowledged id config'.state.store :=
    later.keeps (I := fun latest : Config (service deployment) =>
      Acknowledged id latest.state.store) start
      fun _ _ reached before step => before.step (run.trans reached) step
  exact kept.status row' found'

end Acknowledgement

/-- The status and the attempts of the delivery of the samples. -/
def Sample.outcome (config : Config (service deployment)) :
    Option (WebhookDeliveryStatus × Nat) :=
  (config.state.store.find? .webhookDelivery "d").map fun row => (row.status, row.attempts)

/-- The first loop gets a 2xx at once. -/
def acknowledgedDelivery : Config (service Sample.deployment) :=
  after respects (Sample.delivery ++ Sample.post 3 200 ++ Sample.serve 3 2) Sample.start

/-- A redelivery of it that gets a 2xx in its second round. -/
def acknowledgedAgain : Config (service Sample.deployment) :=
  after respects
    (Sample.redeliver 4 "alice" "ep" "d" ++ Sample.post 4 500 ++ Sample.serve 4 1 ++
      Sample.post 4 200 ++ Sample.serve 4 2)
    acknowledgedDelivery

theorem acknowledgement_final_of_acknowledgedAgain :
    Sample.outcome acknowledgedAgain = some (.succeeded, 3) ∧
      ∀ row, acknowledgedAgain.state.store.find? .webhookDelivery "d" = some row →
        row.status = .succeeded := by
  refine ⟨by decide +kernel, fun row' found' => ?_⟩
  have succeeded : Sample.outcome acknowledgedDelivery = some (.succeeded, 1) := by
    decide +kernel
  obtain ⟨row, found, isOutcome⟩ := Option.map_eq_some_iff.mp succeeded
  exact acknowledgement_final (run_after (fun _ _ checked => checked) _ _)
    (run_after (fun _ _ checked => checked) _ _) found (Prod.mk.inj isOutcome).1 found'

/-- A redelivery of an acknowledged delivery that gets no 2xx in any of its rounds. -/
def rejectedAgain : Config (service Sample.deployment) :=
  after (fun _ _ => true)
    (Sample.redeliver 4 "alice" "ep" "d" ++
      (List.replicate 4 (Sample.post 4 500 ++ Sample.serve 4 1)).flatten ++ Sample.post 4 500 ++
      Sample.serve 4 2)
    acknowledgedDelivery

/-- In general an acknowledged delivery may be FAILED later. -/
theorem not_acknowledgement_final :
    ¬ ∀ (state : World) (config config' : Config (service Sample.deployment)),
      Run (fun _ _ => True) (.initial state) config →
      Run (fun _ _ => True) config config' →
      ∀ id row row', config.state.store.find? .webhookDelivery id = some row →
        row.status = .succeeded → config'.state.store.find? .webhookDelivery id = some row' →
        row'.status ≠ .failed := by
  intro final
  have succeeded : Sample.outcome acknowledgedDelivery = some (.succeeded, 1) := by
    decide +kernel
  have failed : Sample.outcome rejectedAgain = some (.failed, 6) := by
    decide +kernel
  obtain ⟨row, found, isOutcome⟩ := Option.map_eq_some_iff.mp succeeded
  obtain ⟨row', found', isOutcome'⟩ := Option.map_eq_some_iff.mp failed
  exact final Sample.world acknowledgedDelivery rejectedAgain
    (run_after (fun _ _ _ => trivial) _ _) (run_after (fun _ _ _ => trivial) _ _)
    "d" row row' found (Prod.mk.inj isOutcome).1 found' (Prod.mk.inj isOutcome').1

end CosmosPay

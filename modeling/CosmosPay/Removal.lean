import CosmosPay.Settlement

/-!
# Deleting an intent

`remove` looks up the owner, reads the status and deletes, in three round trips.  The
status that it reads is not `SUCCEEDED`; the intent is paid when it goes only if it was
settled between the last two.
-/

namespace CosmosPay

open Awaiting Tables PaymentIntents

section Removal

variable {deployment : Deployment}

/-- The thread and the intent of the delete that a step sends. -/
def removal (config : Config (service deployment)) :
    Label (service deployment) → Option (Nat × String)
  | .resume thread _ =>
      match config.threads[thread]? with
      | some ⟨_, .await (.write (.delete .paymentIntent id)) _⟩ => some (thread, id)
      | _ => none
  | _ => none

/-- An intent that is to be deleted was not settled since the thread last saw it. -/
def Undisturbed (config : Config (service deployment)) (label : Label (service deployment)) :
    Prop :=
  ∀ sent ∈ removal config label, settledSince config sent.1 sent.2 = []

instance (config : Config (service deployment)) (label : Label (service deployment)) :
    Decidable (Undisturbed config label) :=
  inferInstanceAs (Decidable (∀ sent ∈ removal config label, _))

/-- Runs without patches in which no intent is settled between the status check of a
`remove` and its delete. -/
abbrev UndisturbedRun : Config (service deployment) → Config (service deployment) → Prop :=
  Run fun config label => unpatched label = true ∧ Undisturbed config label

variable {allows : Config (service deployment) → Label (service deployment) → Prop}
variable {config config' : Config (service deployment)} {state : World}

theorem Resumes.removal_eq {thread : Nat} {choice : Choice} {request : Request} {id : String}
    {answer : signature.Result (.write (.delete .paymentIntent id))}
    (resumes : Resumes allows config config' thread choice request
      ⟨.write (.delete .paymentIntent id), answer⟩) :
    removal config (.resume thread choice) = some (thread, id) := by
  obtain ⟨resume, paused, -⟩ := resumes.paused
  simp only [removal, paused]

/-- Only `remove` deletes an intent, and not one that it has seen paid. -/
theorem guarded_of_delete (run : Run allows (.initial state) config) {index : Nat}
    {request : Request} {id : String}
    {resume : signature.Result (.write (.delete .paymentIntent id)) → Promise Reply}
    (paused : config.threads[index]? =
      some ⟨request, .await (.write (.delete .paymentIntent id)) resume⟩) :
    Guarded (config.past index) id := by
  have permitted : permitsTransition request (config.past index)
      (.write (.delete .paymentIntent id)) := run.permitted transitions_fulfilled paused
  simp only [permitsTransition] at permitted
  split at permitted
  · exact permitted.2.1
  · exact permitted.elim

/-- No paid intent is deleted, in a run in which no intent is settled between the status
check of a `remove` and its delete. -/
theorem removed_unpaid (run : UndisturbedRun (.initial state) config) {thread : Nat}
    {choice : Choice} {request : Request} {id : String}
    {answer : signature.Result (.write (.delete .paymentIntent id))}
    (resumes : Resumes (fun config label => unpatched label = true ∧ Undisturbed config label)
      config config' thread choice request ⟨.write (.delete .paymentIntent id), answer⟩)
    {row : PaymentIntent} (found : config.state.store.find? .paymentIntent id = some row) :
    row.status ≠ .succeeded := by
  intro settled
  obtain ⟨resume, paused, -⟩ := resumes.paused
  have guarded := guarded_of_delete run paused
  have member := mem_settledSince run guarded found settled
  have none : settledSince config thread id = [] := resumes.allowed.2 _ resumes.removal_eq
  rw [none] at member
  cases member

/-- `remove`, paused at its delete; `validate` of the same intent has read it. -/
def pausedRemoval : List (Label (service Sample.deployment)) :=
  Sample.create 0 "alice" "7" "c" "pi" ++
    [.issue (.paymentIntents (.remove (Sample.caller "alice") "pi")),
      Sample.validate "alice" "pi" '1'] ++
    Sample.serve 2 2 ++ Sample.serve 3 3

/-- The delete that comes next, and the row that it takes away. -/
theorem exists_resumes_of_removal {config : Config (service Sample.deployment)}
    (allows : Config (service Sample.deployment) → Label (service Sample.deployment) → Prop)
    (thread : Nat) {id : String} (allowed : allows config (.resume thread .serve))
    (sent : removal config (.resume thread .serve) = some (thread, id))
    {row : PaymentIntent} (found : config.state.store.find? .paymentIntent id = some row) :
    ∃ config' request answer, Resumes allows config config' thread .serve request
      ⟨.write (.delete .paymentIntent id), .ok answer⟩ := by
  simp only [removal] at sent
  split at sent
  · rename_i request key resume paused
    obtain ⟨-, rfl⟩ := Prod.mk.inj (Option.some.inj sent)
    have lookup : (World.store config.state).find? .paymentIntent key = some row := found
    have deletes : ∃ store, (World.store config.state).delete .paymentIntent key =
        .ok (row, store) := by
      unfold Store.find? at lookup
      unfold Store.delete
      rw [lookup]
      exact ⟨_, rfl⟩
    obtain ⟨store, deleted⟩ := deletes
    have performed : (service Sample.deployment).perform (.write (.delete .paymentIntent key))
        Choice.serve config.state = some ⟨.ok row, { config.state with store }, []⟩ :=
      perform_write_ok rfl deleted
    exact ⟨_, request, row, .of_resume allowed paused performed⟩
  · cases sent

theorem removed_unpaid_of_pausedRemoval :
    ∃ row, (after (fun config label => unpatched label ∧ Undisturbed config label) pausedRemoval
        Sample.start).state.store.find? .paymentIntent "pi" = some row ∧
      row.status ≠ .succeeded := by
  obtain ⟨row, found⟩ := Option.isSome_iff_exists.mp (show
    ((after (fun config label => unpatched label ∧ Undisturbed config label) pausedRemoval
      Sample.start).state.store.find? .paymentIntent "pi").isSome = true by decide +kernel)
  obtain ⟨config', request, answer, resumes⟩ := exists_resumes_of_removal
    (fun config label => unpatched label = true ∧ Undisturbed config label) 2
    (by decide +kernel) (by decide +kernel) found
  exact ⟨row, found,
    removed_unpaid (run_after (fun _ _ checked => of_decide_eq_true checked) _ _) resumes found⟩

/-- In general `remove` deletes an intent that was paid after it had read the status. -/
theorem not_removed_unpaid :
    ¬ ∀ (deployment : Deployment) (state : World) (config config' : Config (service deployment))
      (thread : Nat) (choice : Choice) (request : Request) (id : String)
      (deleted row : PaymentIntent), state.store = .empty →
      UnpatchedRun (.initial state) config →
      Resumes (fun _ label => unpatched label = true) config config' thread choice request
        ⟨.write (.delete .paymentIntent id), .ok deleted⟩ →
      config.state.store.find? .paymentIntent id = some row → row.status ≠ .succeeded := by
  intro unpaid
  have shown : ((after (fun _ label => unpatched label) (pausedRemoval ++ Sample.serve 3 2)
      Sample.start).state.store.find? .paymentIntent "pi").map PaymentIntent.status =
      some .succeeded := by
    decide +kernel
  obtain ⟨row, found, settled⟩ := Option.map_eq_some_iff.mp shown
  obtain ⟨config', request, answer, resumes⟩ := exists_resumes_of_removal
    (fun _ label => unpatched label = true) 2 rfl (by decide +kernel) found
  exact unpaid Sample.deployment Sample.world _ config' 2 .serve request "pi" answer row rfl
    (run_after (fun _ _ checked => checked) _ _) resumes found settled

end Removal

end CosmosPay

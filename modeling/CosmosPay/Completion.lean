import CosmosPay.Awaiting.Draining
import CosmosPay.Reentrancy

/-!
# The service comes to rest

Requests and ticks announce events, an announced event starts one task for each subscriber,
and those tasks start nothing.  So without new requests the service comes to rest under every
scheduler, with every detached task at its end and every `running` flag free.
-/

namespace CosmosPay

open Awaiting Program

/-- Requests start only requests of a lower rank. -/
def Request.rank : Request → Nat
  | .background (.handleEvent _) => 1
  | .background _ => 0
  | _ => 2

def Call.StartsBelow (bound : Nat) (call : Call) : Prop :=
  ∀ started ∈ call.spawns, started.rank < bound

theorem Call.startsBelow_two (call : Call) : call.StartsBelow 2 := by
  intro started member
  cases call with
  | emit payload =>
      obtain rfl := List.mem_singleton.mp member
      exact Nat.lt_succ_self 1
  | start task =>
      obtain rfl := List.mem_singleton.mp member
      cases task <;> simp [Request.rank]
  | _ => cases member

theorem Call.Dispatches.startsBelow {call : Call} (dispatches : call.Dispatches) :
    call.StartsBelow 1 := by
  intro started member
  cases call with
  | emit payload => exact dispatches.elim
  | start task =>
      obtain rfl := List.mem_singleton.mp member
      cases task with
      | createAndDeliver endpoint eventType eventId data => exact Nat.zero_lt_one
      | _ => exact dispatches.elim
  | _ => cases member

theorem Call.Transmits.startsBelow {call : Call} (transmits : call.Transmits) :
    call.StartsBelow 0 := by
  intro started member
  cases call with
  | emit payload => exact transmits.elim
  | start task => exact transmits.elim
  | _ => cases member

variable {deployment : Deployment}

theorem startsBelow_body (request : Request) :
    (request.body deployment).Calls (Call.StartsBelow request.rank) := by
  cases request with
  | background task =>
      refine Calls.map ?_ _
      cases task with
      | upsertCustomerFromPayment intent payer =>
          refine calls_upsertCustomerFromPayment (fun _ _ => ?_) (fun _ => ?_) intent payer
          · rintro started ⟨⟩
          · rintro started ⟨⟩
      | handleEvent payload =>
          exact (dispatches_handleEvent payload).mono fun _ => Call.Dispatches.startsBelow
      | createAndDeliver endpoint eventType eventId data =>
          refine calls_createAndDeliver (fun _ => ?_) (fun _ => Call.Transmits.startsBelow)
            endpoint eventType eventId data
          rintro started ⟨⟩
  | _ => exact fun past => conforms_of_forall _ (fun _ => Call.startsBelow_two) fun _ _ => trivial

def ranks (deployment : Deployment) : Contract (service deployment) where
  relies _ := True
  permits request _ call := call.StartsBelow request.rank
  ensures _ _ _ := True

theorem ranks_fulfilled : (ranks deployment).Fulfilled where
  answers _ := trivial
  bodies request := startsBelow_body request []

variable {state : World} {config config' : Config (service deployment)}

/-- Without a new request no schedule goes on forever. -/
theorem acc_of_run (run : Run (fun _ _ => True) (.initial state) config) :
    Acc (fun later earlier : Config (service deployment) => Goes earlier later) config := by
  refine acc_goes Request.rank ranks_fulfilled (fun below => ?_) run
  intro choice world served performed
  rw [World.perform_spawns performed]
  exact below

/-- When every thread is at its end, no instance has its flag set. -/
theorem running_of_quiet (free : state.running = [])
    (run : Run (fun _ _ => True) (.initial state) config) (quiet : config.Quiet) :
    config.state.running = [] := by
  refine List.eq_nil_iff_forall_not_mem.mpr fun node member => ?_
  obtain ⟨thread, inside⟩ := ((flagged_run free run).taken node).mp member
  obtain ⟨performed, made, -⟩ := List.any_eq_true.mp inside.entered
  have bound := run.accounted _ (mem_pastOf.mp made)
  rcases isThread : config.threads[thread] with ⟨request, code⟩
  have lookup := List.getElem?_eq_some_iff.mpr ⟨bound, isThread⟩
  obtain ⟨outcome, rfl⟩ := (quiet _ (List.mem_of_getElem? lookup)).outcome
  have left : ∀ node, ¬ Inside node (config.past thread) := run.ensured flags_fulfilled lookup
  exact left node inside

/-- Without new requests the service comes to rest, whatever is scheduled. -/
structure ComesToRest (config : Config (service deployment)) : Prop where
  ends : ∀ path : Nat → Config (service deployment), path 0 = config →
    ¬ ∀ index, Goes (path index) (path (index + 1))
  reaches : ∃ config', Relation.ReflTransGen Goes config config' ∧ config'.Quiet
  rests : ∀ config', Relation.ReflTransGen Goes config config' → (∀ later, ¬ Goes config' later) →
    config'.Quiet ∧ config'.state.running = []

/-- Whatever state a run has reached, every request in flight, every event and every detached
task is served to its end, and then no instance is kept from its next tick. -/
theorem comes_to_rest {allows : Config (service deployment) → Label (service deployment) → Prop}
    (free : state.running = []) (run : Run allows (.initial state) config) :
    ComesToRest config := by
  have reached : Run (fun _ _ => True) (.initial state) config :=
    run.mono fun _ _ _ => trivial
  have accessible := acc_of_run reached
  have answers := exists_perform deployment
  refine ⟨fun path start => not_forever_of_acc accessible start,
    exists_quiet_of_acc answers accessible, fun config' goes stuck => ?_⟩
  have quiet : config'.Quiet := by
    by_contra busy
    obtain ⟨later, next⟩ := exists_goes answers busy
    exact stuck later next
  have later : Run (fun _ _ => True) config config' :=
    Run.mono goes fun _ _ _ => trivial
  exact ⟨quiet, running_of_quiet free (reached.trans later) quiet⟩

/-- A created intent whose event has not been handled yet. -/
def announced : Config (service Sample.deployment) :=
  after (fun _ _ => true) (Sample.create 0 "alice" "7" "c" "pi") Sample.start

theorem comes_to_rest_of_announced :
    ComesToRest announced ∧ announced.threads.length = 2 ∧ ¬ announced.Quiet := by
  have run : Run (fun _ _ => True) Sample.start announced :=
    run_after (fun _ _ _ => trivial) _ _
  refine ⟨comes_to_rest rfl run, by decide +kernel, ?_⟩
  unfold Config.Quiet
  decide +kernel

end CosmosPay

import CosmosPay.Awaiting.Counting

/-!
# Spawned requests

A machine may start requests of its own: each call spawns some.  None of them is lost and none
is served twice, so a request that the scheduler never issues is served exactly as often as
calls have spawned it.
-/

namespace Awaiting

variable {sig : Signature} {Request : Type}

/-- The requests that these calls have spawned. -/
def spawned (spawns : sig.Call → List Request) (past : History sig) : List Request :=
  past.flatMap fun performed => spawns performed.call

section Histories

variable {spawns : sig.Call → List Request} {counts : Request → Bool}

theorem countP_spawned_cons (performed : Performed sig) (past : History sig) :
    (spawned spawns (performed :: past)).countP counts =
      (spawns performed.call).countP counts + (spawned spawns past).countP counts := by
  rw [spawned, List.flatMap_cons, List.countP_append]
  rfl

theorem countP_spawned_eq_zero {past : History sig}
    (none : ∀ performed ∈ past, ∀ request ∈ spawns performed.call, counts request = false) :
    (spawned spawns past).countP counts = 0 := by
  refine List.countP_eq_zero.mpr fun request member isCounted => ?_
  obtain ⟨performed, made, isSpawned⟩ := List.mem_flatMap.mp member
  rw [none performed made request isSpawned] at isCounted
  cases isCounted

/-- Where a call spawns a request that counts, it spawns one. -/
theorem countP_spawned_eq_countP {makes : Performed sig → Bool} {past : History sig}
    (single : ∀ performed ∈ past,
      (spawns performed.call).countP counts = if makes performed then 1 else 0) :
    (spawned spawns past).countP counts = past.countP makes := by
  induction past with
  | nil => rfl
  | cons performed past ih =>
      obtain ⟨isSingle, rest⟩ := List.forall_mem_cons.mp single
      rw [countP_spawned_cons, isSingle, ih rest, List.countP_cons, Nat.add_comm]

/-- What the trace has spawned, every thread has spawned its part of. -/
theorem countP_spawned_trace (trace : List (Entry sig)) {threads : Nat}
    (accounted : ∀ entry ∈ trace, entry.thread < threads) :
    (spawned spawns (trace.map Entry.performed)).countP counts =
      ∑ thread ∈ Finset.range threads, (spawned spawns (pastOf thread trace)).countP counts := by
  induction trace with
  | nil => simp [spawned]
  | cons entry trace ih =>
      have bound := accounted entry List.mem_cons_self
      have single : ∀ thread, (spawned spawns (pastOf thread (entry :: trace))).countP counts =
          (spawned spawns (pastOf thread trace)).countP counts +
            if thread = entry.thread then (spawns entry.performed.call).countP counts else 0 := by
        intro thread
        by_cases same : thread = entry.thread
        · subst same
          rw [pastOf_cons_self, countP_spawned_cons, if_pos rfl, Nat.add_comm]
        · rw [pastOf_cons_of_ne (Ne.symm same), if_neg same, Nat.add_zero]
      rw [List.map_cons, countP_spawned_cons,
        ih fun other member => accounted other (List.mem_cons_of_mem _ member),
        Finset.sum_congr rfl fun thread _ => single thread, Finset.sum_add_distrib,
        Finset.sum_ite_eq', if_pos (Finset.mem_range.mpr bound), Nat.add_comm]

end Histories

/-- One for each element that counts. -/
theorem sum_range_any {α : Type} (counts : α → Bool) (items : List α) :
    ∑ index ∈ Finset.range items.length, (if (items[index]?).any counts then 1 else 0) =
      items.countP counts := by
  induction items with
  | nil => rfl
  | cons item items ih =>
      rw [List.length_cons, Finset.sum_range_succ', List.countP_cons]
      exact congrArg (· + _) ih

section Runs

variable {machine : Machine sig} {allows : Config machine → Label machine → Prop}
variable {state : machine.State} {config : Config machine}
variable {spawns : sig.Call → List machine.Request} {counts : machine.Request → Bool}

/-- How many threads serve a request that counts. -/
def Config.serving (config : Config machine) (counts : machine.Request → Bool) : Nat :=
  (config.threads.map Thread.request).countP counts

theorem Config.sum_serving (config : Config machine) (counts : machine.Request → Bool) :
    ∑ index ∈ Finset.range config.threads.length,
      (if (config.threads[index]?).any (fun thread => counts thread.request) then 1 else 0) =
        config.serving counts := by
  rw [sum_range_any, serving, List.countP_map]
  rfl

/-- Requests that are never issued are served as often as calls have spawned them. -/
theorem Run.serving_eq (run : Run allows (Config.initial state) config)
    (spawning : ∀ {call choice state} {served : Served sig call machine.State machine.Request},
      machine.perform call choice state = some served → served.spawned = spawns call)
    (unissued : ∀ config request, allows config (.issue request) → counts request = false) :
    config.serving counts = (spawned spawns (config.trace.map Entry.performed)).countP counts := by
  refine run.keeps (I := fun config : Config machine => config.serving counts =
    (spawned spawns (config.trace.map Entry.performed)).countP counts) rfl ?_
  intro config config' _ ih step
  cases step with
  | issue request allowed =>
      rw [Config.serving, Config.issue, List.map_append, List.countP_append]
      have none : ([machine.start request].map Thread.request).countP counts = 0 := by
        simp [Machine.start, unissued config request allowed]
      rw [none]
      exact ih
  | resume thread choice allowed paused performed =>
      rw [Config.serving, Config.requests_advance _ paused, List.countP_append, spawning performed]
      rw [Config.advance, List.map_cons, countP_spawned_cons, Nat.add_comm]
      exact congrArg (_ + ·) ih
  | move move allowed moved => exact ih

/-- As long as no such request is issued, each is served for one of the calls that its thread
has made. -/
theorem Run.serving_eq_sum (run : Run allows (Config.initial state) config)
    (spawning : ∀ {call choice state} {served : Served sig call machine.State machine.Request},
      machine.perform call choice state = some served → served.spawned = spawns call)
    (unissued : ∀ config request, allows config (.issue request) → counts request = false) :
    config.serving counts = ∑ thread ∈ Finset.range config.threads.length,
      (spawned spawns (config.past thread)).countP counts :=
  (run.serving_eq spawning unissued).trans (countP_spawned_trace config.trace run.accounted)

end Runs

end Awaiting

import CosmosPay.Awaiting.Counting

/-!
# Calls that are rationed

Where a call is permitted only while its thread has made few of its kind, the whole trace has
at most as many of them as its threads have rations.
-/

namespace Awaiting

variable {sig : Signature} {counts : Performed sig → Bool} {bound : Nat}

/-- A call that counts is made only while fewer than `bound` of them have been made. -/
def Rationed (counts : Performed sig → Bool) (bound : Nat) (past : History sig) : Prop :=
  ∀ newer performed older, past = newer ++ performed :: older → counts performed = true →
    older.countP counts < bound

theorem Rationed.tail {performed : Performed sig} {past : History sig}
    (rationed : Rationed counts bound (performed :: past)) : Rationed counts bound past :=
  fun newer other older split => rationed (performed :: newer) other older (by rw [split]; rfl)

theorem Rationed.countP_le {past : History sig} (rationed : Rationed counts bound past) :
    past.countP counts ≤ bound := by
  induction past with
  | nil => exact Nat.zero_le bound
  | cons performed past ih =>
      by_cases isCounted : counts performed = true
      · have before := rationed [] performed past rfl isCounted
        rw [List.countP_cons_of_pos isCounted]
        omega
      · rw [List.countP_cons_of_neg isCounted]
        exact ih rationed.tail

section Runs

variable {machine : Machine sig} {allows : Config machine → Label machine → Prop}
variable {contract : Contract machine} {state : machine.State} {config : Config machine}

theorem Run.rationed (run : Run allows (Config.initial state) config)
    (fulfilled : contract.Fulfilled)
    (limits : ∀ request past performed, contract.permits request past performed.call →
      counts performed = true → past.countP counts < bound) (thread : Nat) :
    Rationed counts bound (config.past thread) := by
  intro newer performed older split isCounted
  obtain ⟨request, permitted⟩ := run.permitted_past fulfilled split
  exact limits request older performed permitted isCounted

/-- The threads that have made a call that counts. -/
def Config.makers (config : Config machine) (counts : Performed sig → Bool) : Finset Nat :=
  (Finset.range config.threads.length).filter fun thread => (config.past thread).any counts

theorem Config.mem_makers {thread : Nat} : thread ∈ config.makers counts ↔
    thread < config.threads.length ∧ ∃ performed ∈ config.past thread, counts performed = true := by
  rw [makers, Finset.mem_filter, Finset.mem_range, List.any_eq_true]

/-- A ration for each of these threads. -/
theorem Run.countP_le_card_makers (run : Run allows (Config.initial state) config)
    (each : ∀ thread, (config.past thread).countP counts ≤ bound) :
    config.trace.countP (fun entry => counts entry.performed) ≤
      bound * (config.makers counts).card := by
  have idle : ∀ thread, (config.past thread).any counts = false →
      (config.past thread).countP counts = 0 := by
    intro thread none
    refine List.countP_eq_zero.mpr fun performed member isCounted => ?_
    rw [List.any_eq_true.mpr ⟨performed, member, isCounted⟩] at none
    cases none
  calc config.trace.countP (fun entry => counts entry.performed)
    _ = ∑ thread ∈ Finset.range config.threads.length, (config.past thread).countP counts :=
      countP_trace counts config.trace run.accounted
    _ = ∑ thread ∈ config.makers counts, (config.past thread).countP counts := by
      rw [Config.makers, Finset.sum_filter]
      refine Finset.sum_congr rfl fun thread _ => ?_
      split
      · rfl
      · rename_i none
        exact idle thread (Bool.eq_false_iff.mpr none)
    _ ≤ ∑ thread ∈ config.makers counts, bound := Finset.sum_le_sum fun thread _ => each thread
    _ = bound * (config.makers counts).card := by
      rw [Finset.sum_const, Nat.mul_comm]
      rfl

end Runs

end Awaiting

import CosmosPay.Awaiting.Rationing
import Mathlib.Algebra.BigOperators.Fin

/-!
# How many calls a program makes

A program is charged for some of its calls.  What it is charged at most is found along its
construction, as long as the answers that it loops over are not too long, and no thread of a
run is ever charged more.
-/

namespace Awaiting

namespace Program

variable {sig : Signature} {α β : Type} {relies : Performed sig → Prop} {charged : sig.Call → Bool}

/-- The program makes at most `budget` charged calls, whatever it is answered. -/
def Affords (relies : Performed sig → Prop) (charged : sig.Call → Bool) :
    Nat → Program sig α → Prop
  | _, .done _ => True
  | budget, .await call resume =>
      (charged call).toNat ≤ budget ∧ ∀ answer, relies ⟨call, answer⟩ →
        (resume answer).Affords relies charged (budget - (charged call).toNat)

theorem affords_pure (budget : Nat) (value : α) :
    (pure value : Program sig α).Affords relies charged budget :=
  trivial

theorem affords_throw (budget : Nat) (err : sig.Error) :
    (throw err : Program sig α).Affords relies charged budget :=
  trivial

theorem Affords.mono {program : Program sig α} {budget more : Nat}
    (affords : program.Affords relies charged budget) (le : budget ≤ more) :
    program.Affords relies charged more := by
  induction program generalizing budget more with
  | done outcome => trivial
  | await call resume ih =>
      obtain ⟨covered, rest⟩ := affords
      refine ⟨covered.trans le, fun answer relied => ih answer (rest answer relied) ?_⟩
      omega

/-- What comes after is charged to what is left. -/
theorem Affords.bind {program : Program sig α} {next : α → Program sig β} {budget rest : Nat}
    (affords : program.Affords relies charged budget)
    (nexts : ∀ value, (next value).Affords relies charged rest) :
    (program >>= next).Affords relies charged (budget + rest) := by
  induction program generalizing budget with
  | done outcome =>
      cases outcome with
      | ok value => exact (nexts value).mono (Nat.le_add_left rest budget)
      | error err => trivial
  | await call resume ih =>
      obtain ⟨covered, later⟩ := affords
      refine ⟨by omega, fun answer relied => ?_⟩
      have isRest : budget + rest - (charged call).toNat =
          budget - (charged call).toNat + rest := by
        omega
      rw [isRest]
      exact ih answer (later answer relied)

theorem Affords.tryCatch {program : Program sig α} {handler : sig.Error → Program sig α}
    {budget rest : Nat} (affords : program.Affords relies charged budget)
    (handles : ∀ err, (handler err).Affords relies charged rest) :
    (MonadExcept.tryCatch program handler).Affords relies charged (budget + rest) := by
  induction program generalizing budget with
  | done outcome =>
      cases outcome with
      | ok value => trivial
      | error err => exact (handles err).mono (Nat.le_add_left rest budget)
  | await call resume ih =>
      obtain ⟨covered, later⟩ := affords
      refine ⟨by omega, fun answer relied => ?_⟩
      have isRest : budget + rest - (charged call).toNat =
          budget - (charged call).toNat + rest := by
        omega
      rw [isRest]
      exact ih answer (later answer relied)

theorem Affords.bind_free {program : Program sig α} {next : α → Program sig β} {budget : Nat}
    (affords : program.Affords relies charged budget)
    (nexts : ∀ value, (next value).Affords relies charged 0) :
    (program >>= next).Affords relies charged budget :=
  affords.bind nexts

theorem Affords.free_bind {program : Program sig α} {next : α → Program sig β} {budget : Nat}
    (affords : program.Affords relies charged 0)
    (nexts : ∀ value, (next value).Affords relies charged budget) :
    (program >>= next).Affords relies charged budget :=
  (affords.bind nexts).mono (Nat.le_of_eq (Nat.zero_add budget))

theorem Affords.caught {program : Program sig α} {handler : sig.Error → Program sig α}
    {budget : Nat} (affords : program.Affords relies charged budget)
    (handles : ∀ err, (handler err).Affords relies charged 0) :
    (MonadExcept.tryCatch program handler).Affords relies charged budget :=
  affords.tryCatch handles

/-- A call that is not charged, and what comes after an answer that may be relied on. -/
theorem affords_free_bind {call : sig.Call} {next : sig.Answer call → Program sig α} {budget : Nat}
    (isFree : charged call = false)
    (nexts : ∀ value, relies ⟨call, .ok value⟩ → (next value).Affords relies charged budget) :
    (Program.call call >>= next).Affords relies charged budget := by
  refine ⟨by simp [isFree], fun answer relied => ?_⟩
  rw [isFree]
  cases answer with
  | ok value => exact nexts value relied
  | error err => trivial

/-- A charged call, and what comes after it. -/
theorem affords_charged_bind {call : sig.Call} {next : sig.Answer call → Program sig α}
    {budget : Nat}
    (nexts : ∀ value, relies ⟨call, .ok value⟩ → (next value).Affords relies charged budget) :
    (Program.call call >>= next).Affords relies charged (budget + 1) := by
  have atMost := Bool.toNat_le (charged call)
  refine ⟨by omega, fun answer relied => ?_⟩
  cases answer with
  | ok value => exact (nexts value relied).mono (by omega)
  | error err => trivial

theorem affords_charged_call {call : sig.Call} :
    (Program.call call).Affords relies charged 1 :=
  ⟨Bool.toNat_le _, fun answer _ => by cases answer <;> trivial⟩

/-- A guarded charged call whose value is converted, and what comes after it. -/
theorem affords_guarded_bind {call : sig.Call} {convert : sig.Answer call → α}
    {handler : sig.Error → Program sig α} {next : α → Program sig β} {budget : Nat}
    (handles : ∀ err, (handler err >>= next).Affords relies charged budget)
    (nexts : ∀ value, relies ⟨call, .ok value⟩ →
      (next (convert value)).Affords relies charged budget) :
    (MonadExcept.tryCatch (convert <$> Program.call call) handler >>= next).Affords relies charged
      (budget + 1) := by
  have atMost := Bool.toNat_le (charged call)
  refine ⟨by omega, fun answer relied => ?_⟩
  cases answer with
  | ok value => exact (nexts value relied).mono (by omega)
  | error err => exact (handles err).mono (by omega)

theorem Affords.map {program : Program sig α} {budget : Nat}
    (affords : program.Affords relies charged budget) (convert : α → β) :
    (convert <$> program).Affords relies charged budget :=
  affords.bind fun _ => affords_pure 0 _

/-- A loop is charged for each of its items. -/
theorem affords_forM {iteration : β → Program sig PUnit} {budget : Nat}
    (iterates : ∀ item, (iteration item).Affords relies charged budget) (items : List β) :
    (items.forM iteration).Affords relies charged (budget * items.length) := by
  induction items with
  | nil => trivial
  | cons item rest ih =>
      have isSum : budget * (item :: rest).length = budget + budget * rest.length := by
        rw [List.length_cons, Nat.mul_succ, Nat.add_comm]
      rw [isSum]
      exact (iterates item).bind fun _ => ih

theorem affords_of_conforms {program : Program sig α} {past : History sig}
    (free : program.Conforms (fun _ => True) (fun _ call => charged call = false)
      (fun _ _ => True) past) : program.Affords relies charged 0 := by
  induction program generalizing past with
  | done outcome => trivial
  | await call resume ih =>
      obtain ⟨isFree, rest⟩ := free
      refine ⟨by simp [isFree], fun answer _ => ?_⟩
      rw [Nat.zero_sub]
      exact ih answer (rest answer trivial)

/-- A program that makes no charged call. -/
theorem Calls.affords {program : Program sig α}
    (calls : program.Calls fun call => charged call = false) :
    program.Affords relies charged 0 :=
  affords_of_conforms (calls [])

/-- At each charged call some of the budget is left. -/
theorem Affords.conforms {program : Program sig α} {budget limit : Nat} {past : History sig}
    (affords : program.Affords relies charged budget)
    (left : past.countP (fun performed => charged performed.call) + budget ≤ limit) :
    program.Conforms relies
      (fun past call => charged call = true →
        past.countP (fun performed => charged performed.call) < limit)
      (fun _ _ => True) past := by
  induction program generalizing budget past with
  | done outcome => trivial
  | await call resume ih =>
      obtain ⟨covered, rest⟩ := affords
      refine ⟨fun isCharged => ?_, fun answer relied => ih answer (rest answer relied) ?_⟩
      · rw [isCharged] at covered
        exact Nat.lt_of_lt_of_le (Nat.lt_add_of_pos_right covered) left
      · rw [List.countP_cons]
        cases isCharged : charged call <;> simp [isCharged] at covered ⊢ <;> omega

end Program

section Runs

variable {sig : Signature} {machine : Machine sig} {charged : sig.Call → Bool}
variable {allows : Config machine → Label machine → Prop} {relies : Performed sig → Prop}
variable {state : machine.State} {config : Config machine} {quota : machine.Request → Nat}

/-- Each request keeps to its quota of charged calls. -/
def rations (machine : Machine sig) (relies : Performed sig → Prop) (charged : sig.Call → Bool)
    (quota : machine.Request → Nat) : Contract machine where
  relies := relies
  permits request past call := charged call = true →
    past.countP (fun performed => charged performed.call) < quota request
  ensures _ _ _ := True

/-- In every run a thread is charged at most the quota of its request. -/
theorem Run.charges_le (run : Run allows (Config.initial state) config)
    (fulfilled : (rations machine relies charged quota).Fulfilled) {index : Nat}
    {thread : Thread machine} (lookup : config.threads[index]? = some thread) :
    (config.past index).countP (fun performed => charged performed.call) ≤
      quota thread.request := by
  refine Rationed.countP_le fun newer performed older split isCharged => ?_
  obtain ⟨recent, earlier, isTrace, -, rfl⟩ := exists_split_of_pastOf split
  obtain ⟨request, code, found, permitted⟩ := run.permitted_entry fulfilled isTrace
  obtain rfl := Option.some.inj (found.symm.trans lookup)
  exact permitted isCharged

/-- All threads together are charged at most the quotas of all requests. -/
theorem Run.total_le (run : Run allows (Config.initial state) config)
    (fulfilled : (rations machine relies charged quota).Fulfilled) :
    config.trace.countP (fun entry => charged entry.performed.call) ≤
      (config.threads.map fun thread => quota thread.request).sum := by
  calc config.trace.countP (fun entry => charged entry.performed.call)
    _ = ∑ thread ∈ Finset.range config.threads.length,
        (config.past thread).countP (fun performed => charged performed.call) :=
      countP_trace (fun performed => charged performed.call) config.trace run.accounted
    _ = ∑ thread : Fin config.threads.length,
        (config.past thread).countP (fun performed => charged performed.call) :=
      Finset.sum_range _
    _ ≤ ∑ thread : Fin config.threads.length, quota config.threads[thread].request :=
      Finset.sum_le_sum fun thread _ =>
        run.charges_le fulfilled (List.getElem?_eq_getElem thread.isLt)
    _ = (config.threads.map fun thread => quota thread.request).sum :=
      Fin.sum_univ_fun_getElem config.threads fun thread => quota thread.request

end Runs

end Awaiting

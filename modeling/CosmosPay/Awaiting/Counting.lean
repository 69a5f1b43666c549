import CosmosPay.Awaiting.Pool
import Mathlib.Algebra.BigOperators.Group.Finset.Piecewise
import Mathlib.Algebra.Order.BigOperators.Group.Finset

/-!
# Counting causes and effects

In many programs an effect is performed only right after its cause, and a cause is
always followed by its effect.  Then every run has at most as many effects as
causes, and exactly as many once all threads have finished.
-/

namespace Awaiting

variable {sig : Signature}

/-! ## One history -/

section Histories

variable {cause effect : Performed sig → Bool}

/-- Is the newest entry a cause? -/
def pending (cause : Performed sig → Bool) : History sig → Nat
  | [] => 0
  | performed :: _ => if cause performed then 1 else 0

/-- Every effect directly follows a cause. -/
def Caused (cause effect : Performed sig → Bool) (past : History sig) : Prop :=
  ∀ newer performed older, past = newer ++ performed :: older → effect performed = true →
    pending cause older = 1

/-- Whatever directly follows a cause is an effect. -/
def Effected (cause effect : Performed sig → Bool) (past : History sig) : Prop :=
  ∀ newer performed older, past = newer ++ performed :: older → pending cause older = 1 →
    effect performed = true

theorem Caused.tail {performed : Performed sig} {past : History sig}
    (caused : Caused cause effect (performed :: past)) : Caused cause effect past :=
  fun newer other older split => caused (performed :: newer) other older (by rw [split]; rfl)

theorem Effected.tail {performed : Performed sig} {past : History sig}
    (effected : Effected cause effect (performed :: past)) : Effected cause effect past :=
  fun newer other older split => effected (performed :: newer) other older (by rw [split]; rfl)

theorem pending_le_one (cause : Performed sig → Bool) (past : History sig) :
    pending cause past ≤ 1 := by
  cases past with
  | nil => exact Nat.zero_le 1
  | cons performed past =>
      simp only [pending]
      split <;> omega

/-- A history has at most as many effects as causes. -/
theorem Caused.countP_add_pending_le {past : History sig}
    (exclusive : ∀ performed, effect performed = true → cause performed = false)
    (caused : Caused cause effect past) :
    past.countP effect + pending cause past ≤ past.countP cause := by
  induction past with
  | nil => simp [pending]
  | cons performed past ih =>
      have rest := ih caused.tail
      have bound := pending_le_one cause past
      rw [List.countP_cons, List.countP_cons]
      cases isEffect : effect performed with
      | true =>
          have before := caused [] performed past rfl isEffect
          have notCause := exclusive performed isEffect
          simp only [pending, notCause]
          simp
          omega
      | false =>
          cases isCause : cause performed <;> simp [pending, isCause] <;> omega

/-- A history has at most as many causes as effects and pending causes. -/
theorem Effected.countP_le {past : History sig} (effected : Effected cause effect past) :
    past.countP cause ≤ past.countP effect + pending cause past := by
  induction past with
  | nil => simp
  | cons performed past ih =>
      have rest := ih effected.tail
      have bound := pending_le_one cause past
      rw [List.countP_cons, List.countP_cons]
      by_cases before : pending cause past = 1
      · have isEffect := effected [] performed past rfl before
        cases isCause : cause performed <;> simp [pending, isCause, isEffect] <;> omega
      · cases isCause : cause performed <;> simp [pending, isCause] <;> omega

end Histories

/-! ## All threads of a run -/

/-- Counting in the trace is counting in every thread's own past. -/
theorem countP_trace (counts : Performed sig → Bool) (trace : List (Entry sig)) {threads : Nat}
    (accounted : ∀ entry ∈ trace, entry.thread < threads) :
    trace.countP (fun entry => counts entry.performed) =
      ∑ thread ∈ Finset.range threads, (pastOf thread trace).countP counts := by
  induction trace with
  | nil => simp
  | cons entry trace ih =>
      have bound := accounted entry List.mem_cons_self
      have single : ∀ thread, (pastOf thread (entry :: trace)).countP counts =
          (pastOf thread trace).countP counts +
            if thread = entry.thread then (if counts entry.performed then 1 else 0) else 0 := by
        intro thread
        by_cases same : thread = entry.thread
        · subst same
          rw [pastOf_cons_self, List.countP_cons, if_pos rfl]
        · rw [pastOf_cons_of_ne (Ne.symm same), if_neg same, Nat.add_zero]
      rw [List.countP_cons, ih fun other member => accounted other (List.mem_cons_of_mem _ member),
        Finset.sum_congr rfl fun thread _ => single thread, Finset.sum_add_distrib]
      rw [Finset.sum_ite_eq', if_pos (Finset.mem_range.mpr bound)]

section Runs

variable {machine : Machine sig} {allows : Config machine → Label machine → Prop}
variable {contract : Contract machine} {state : machine.State} {config : Config machine}
variable {cause effect : Performed sig → Bool}

/-- Every point of a thread's past was permitted. -/
theorem Run.permitted_past (run : Run allows (Config.initial state) config)
    (fulfilled : contract.Fulfilled) {thread : Nat} {newer older : History sig}
    {performed : Performed sig} (split : config.past thread = newer ++ performed :: older) :
    ∃ request, contract.permits request older performed.call := by
  obtain ⟨recent, earlier, isTrace, -, rfl⟩ := exists_split_of_pastOf split
  obtain ⟨request, code, -, permitted⟩ := run.permitted_entry fulfilled isTrace
  exact ⟨request, permitted⟩

/-- At most as many effects as causes. -/
theorem Run.countP_effect_le (run : Run allows (Config.initial state) config)
    (fulfilled : contract.Fulfilled)
    (exclusive : ∀ performed, effect performed = true → cause performed = false)
    (caused : ∀ request past performed, contract.permits request past performed.call →
      effect performed = true → pending cause past = 1) :
    config.trace.countP (fun entry => effect entry.performed) ≤
      config.trace.countP (fun entry => cause entry.performed) := by
  rw [countP_trace effect _ run.accounted, countP_trace cause _ run.accounted]
  refine Finset.sum_le_sum fun thread _ => ?_
  have history : Caused cause effect (config.past thread) := by
    intro newer performed older split isEffect
    obtain ⟨request, permitted⟩ := run.permitted_past fulfilled split
    exact caused request older performed permitted isEffect
  exact le_trans (Nat.le_add_right _ _) (history.countP_add_pending_le exclusive)

/-- At least as many effects as causes, where no thread is left with a pending
cause. -/
theorem Run.countP_cause_le (run : Run allows (Config.initial state) config)
    (fulfilled : contract.Fulfilled)
    (effected : ∀ request past performed, contract.permits request past performed.call →
      pending cause past = 1 → effect performed = true)
    (settled : ∀ thread, pending cause (config.past thread) = 0) :
    config.trace.countP (fun entry => cause entry.performed) ≤
      config.trace.countP (fun entry => effect entry.performed) := by
  rw [countP_trace effect _ run.accounted, countP_trace cause _ run.accounted]
  refine Finset.sum_le_sum fun thread _ => ?_
  have history : Effected cause effect (config.past thread) := by
    intro newer performed older split isPending
    obtain ⟨request, permitted⟩ := run.permitted_past fulfilled split
    exact effected request older performed permitted isPending
  have bound := history.countP_le
  rwa [settled thread, Nat.add_zero] at bound

end Runs

/-! ## Finished threads -/

section Settled

variable {machine : Machine sig} {allows : Config machine → Label machine → Prop}
variable {config : Config machine} (counts : Performed sig → Bool)

/-- Has the thread run to its end? -/
def Config.finished (config : Config machine) (thread : Nat) : Bool :=
  (config.threads[thread]?).any fun found => decide found.code.Finished

/-- What finished threads have performed of the calls that count. -/
def Config.settled (config : Config machine) : Nat :=
  config.trace.countP fun entry => config.finished entry.thread && counts entry.performed

theorem Config.finished_issue (config : Config machine) (request : machine.Request) {thread : Nat}
    (bound : thread < config.threads.length) :
    (config.issue request).finished thread = config.finished thread := by
  rw [finished, finished, issue, List.getElem?_append_left bound]

theorem Config.finished_advance {thread other : Nat} {request : machine.Request} {call : sig.Call}
    {resume : sig.Result call → Program sig machine.Reply}
    (served : Served sig call machine.State machine.Request)
    (bound : other < config.threads.length) :
    (config.advance thread request call resume served).finished other =
      if other = thread then decide (resume served.answer).Finished
      else config.finished other := by
  simp only [finished, advance]
  rw [List.getElem?_append_left (by simpa using bound)]
  by_cases same : other = thread
  · subst same
    rw [List.getElem?_set_self bound, if_pos rfl]
    rfl
  · rw [List.getElem?_set_ne (Ne.symm same), if_neg same]

theorem countP_pastOf (thread : Nat) (trace : List (Entry sig)) :
    (pastOf thread trace).countP counts =
      trace.countP fun entry => decide (entry.thread = thread) && counts entry.performed := by
  induction trace with
  | nil => rfl
  | cons entry trace ih =>
      by_cases same : entry.thread = thread
      · obtain ⟨owner, performed⟩ := entry
        obtain rfl : owner = thread := same
        rw [pastOf_cons_self, List.countP_cons, List.countP_cons, ih]
        simp
      · rw [pastOf_cons_of_ne same, ih, List.countP_cons]
        simp [same]

theorem Config.settled_issue (accounted : Accounted config) (request : machine.Request) :
    (config.issue request).settled counts = config.settled counts := by
  refine List.countP_congr fun entry member => ?_
  rw [finished_issue config request (accounted entry member)]

/-- A thread that comes to its end settles all that it has performed. -/
theorem Config.settled_advance (accounted : Accounted config) {thread : Nat}
    {request : machine.Request} {call : sig.Call}
    {resume : sig.Result call → Program sig machine.Reply}
    (paused : config.threads[thread]? = some ⟨request, .await call resume⟩)
    (served : Served sig call machine.State machine.Request) :
    (config.advance thread request call resume served).settled counts =
      config.settled counts +
        if (config.advance thread request call resume served).finished thread then
          ((config.advance thread request call resume served).past thread).countP counts
        else 0 := by
  have bound := (List.getElem?_eq_some_iff.mp paused).1
  have unfinished : config.finished thread = false := by
    simp [finished, paused]
  have status : ∀ other, other < config.threads.length → other ≠ thread →
      (config.advance thread request call resume served).finished other =
        config.finished other := by
    intro other inRange differ
    rw [Config.finished_advance served inRange, if_neg differ]
  have general : ∀ entries : List (Entry sig),
      (∀ entry ∈ entries, entry.thread < config.threads.length) →
      entries.countP (fun entry =>
          (config.advance thread request call resume served).finished entry.thread &&
            counts entry.performed) =
        entries.countP (fun entry => config.finished entry.thread && counts entry.performed) +
          if (config.advance thread request call resume served).finished thread then
            (pastOf thread entries).countP counts
          else 0 := by
    intro entries inRange
    rw [countP_pastOf]
    induction entries with
    | nil => simp
    | cons entry entries ih =>
        have rest := ih fun other member => inRange other (List.mem_cons_of_mem entry member)
        have other := status entry.thread (inRange entry List.mem_cons_self)
        simp only [List.countP_cons, rest]
        by_cases own : entry.thread = thread
        · by_cases ended : (config.advance thread request call resume served).finished thread
          · simp [own, ended, unfinished]
            omega
          · simp [own, ended, unfinished]
        · simp only [own, other own, decide_false, Bool.false_and]
          simp
          omega
  have inRange : ∀ entry ∈ (⟨thread, call, served.answer⟩ :: config.trace : List (Entry sig)),
      entry.thread < config.threads.length := by
    intro entry member
    rcases List.mem_cons.mp member with rfl | older
    · exact bound
    · exact accounted entry older
  refine (general _ inRange).trans ?_
  rw [List.countP_cons_of_neg (by simp [unfinished])]
  rfl

/-- Where no thread in flight has performed a call that counts, all are settled. -/
theorem Config.settled_eq (idle : ∀ entry ∈ config.trace, counts entry.performed = true →
      config.finished entry.thread = true) :
    config.settled counts = config.trace.countP fun entry => counts entry.performed := by
  refine List.countP_congr fun entry member => ?_
  simp only [Bool.and_eq_true, and_iff_right_iff_imp]
  exact idle entry member

end Settled

end Awaiting

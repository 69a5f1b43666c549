import CosmosPay.Awaiting.Program
import Mathlib.Logic.Relation

/-!
# Pools of programs in flight

A machine serves requests.  Each request runs as a thread of its own, the
threads share one state, and any thread that is paused at a call may be the next
to continue: its call is performed atomically on the shared state and the thread
runs on to its next await.  The state may also move on its own.

The trace records every call ever performed with the thread that awaited it.  A
thread's own part of the trace is the history its program logic speaks about, so
a contract proved for each request body holds for every thread of every run.
-/

namespace Awaiting

variable {sig : Signature}

/-- What performing a call yields: the answer, the new shared state, and the
requests that the call starts in the background. -/
structure Served (sig : Signature) (call : sig.Call) (State Request : Type) where
  answer : sig.Result call
  state : State
  spawned : List Request := []

/-- A service over a shared state.  `Choice` resolves what a call leaves open
(an identifier drawn, a connection lost), `Move` what the surroundings may do. -/
structure Machine (sig : Signature) where
  State : Type
  Request : Type
  Reply : Type
  Choice : Type
  Move : Type
  body : Request → Program sig Reply
  perform : (call : sig.Call) → Choice → State → Option (Served sig call State Request)
  move : Move → State → Option State

/-- A request and what is left of its program. -/
structure Thread (machine : Machine sig) where
  request : machine.Request
  code : Program sig machine.Reply

/-- A performed call and the index of the thread that awaited it. -/
structure Entry (sig : Signature) where
  thread : Nat
  performed : Performed sig

/-- The calls that one thread performed, the newest first. -/
def pastOf (thread : Nat) (trace : List (Entry sig)) : History sig :=
  trace.filterMap fun entry =>
    if entry.thread = thread then some entry.performed else none

@[simp]
theorem pastOf_nil (thread : Nat) : pastOf thread ([] : List (Entry sig)) = [] :=
  rfl

@[simp]
theorem pastOf_cons_self (thread : Nat) (performed : Performed sig)
    (trace : List (Entry sig)) :
    pastOf thread (⟨thread, performed⟩ :: trace) = performed :: pastOf thread trace := by
  simp [pastOf]

theorem pastOf_cons_of_ne {thread : Nat} {entry : Entry sig}
    (other : entry.thread ≠ thread) (trace : List (Entry sig)) :
    pastOf thread (entry :: trace) = pastOf thread trace := by
  simp [pastOf, other]

@[simp]
theorem pastOf_append (thread : Nat) (newer older : List (Entry sig)) :
    pastOf thread (newer ++ older) = pastOf thread newer ++ pastOf thread older :=
  List.filterMap_append

theorem mem_pastOf {thread : Nat} {performed : Performed sig}
    {trace : List (Entry sig)} :
    performed ∈ pastOf thread trace ↔ ⟨thread, performed⟩ ∈ trace := by
  induction trace with
  | nil => simp
  | cons entry trace ih =>
      obtain ⟨owner, made⟩ := entry
      by_cases same : owner = thread
      · subst same
        simp [ih]
      · rw [pastOf_cons_of_ne same, ih]
        simp [Ne.symm same]

/-- A point in a thread's own past is a point in the trace. -/
theorem exists_split_of_pastOf {thread : Nat} {trace : List (Entry sig)}
    {recent earlier : History sig} {performed : Performed sig}
    (split : pastOf thread trace = recent ++ performed :: earlier) :
    ∃ newer older, trace = newer ++ ⟨thread, performed⟩ :: older ∧
      pastOf thread newer = recent ∧ pastOf thread older = earlier := by
  induction trace generalizing recent with
  | nil => simp at split
  | cons entry trace ih =>
      obtain ⟨owner, made⟩ := entry
      by_cases same : owner = thread
      · subst same
        rw [pastOf_cons_self] at split
        cases recent with
        | nil =>
            obtain ⟨rfl, rest⟩ := List.cons.inj split
            exact ⟨[], trace, rfl, rfl, rest⟩
        | cons first recent =>
            obtain ⟨rfl, rest⟩ := List.cons.inj split
            obtain ⟨newer, older, rfl, newerPast, olderPast⟩ := ih rest
            exact ⟨⟨owner, made⟩ :: newer, older, rfl, by simp [newerPast], olderPast⟩
      · rw [pastOf_cons_of_ne same] at split
        obtain ⟨newer, older, rfl, newerPast, olderPast⟩ := ih split
        exact ⟨⟨owner, made⟩ :: newer, older, rfl,
          by rw [pastOf_cons_of_ne same, newerPast], olderPast⟩

/-- What happened since the thread last performed a call that satisfies `sees`. -/
def since (thread : Nat) (sees : Performed sig → Bool) (trace : List (Entry sig)) :
    List (Entry sig) :=
  trace.takeWhile fun entry => !(decide (entry.thread = thread) && sees entry.performed)

/-- The trace splits where the thread last saw something. -/
theorem exists_split_of_findSome? {β : Type} {thread : Nat} {look : Performed sig → Option β}
    {trace : List (Entry sig)} {seen : β}
    (last : (pastOf thread trace).findSome? look = some seen) :
    ∃ performed older, look performed = some seen ∧
      trace = since thread (fun performed => (look performed).isSome) trace ++
        ⟨thread, performed⟩ :: older := by
  induction trace with
  | nil => simp at last
  | cons entry trace ih =>
      obtain ⟨owner, made⟩ := entry
      by_cases isSight : owner = thread ∧ (look made).isSome = true
      · obtain ⟨rfl, isSome⟩ := isSight
        obtain ⟨first, found⟩ := Option.isSome_iff_exists.mp isSome
        rw [pastOf_cons_self, List.findSome?_cons, found] at last
        obtain rfl := Option.some.inj last
        exact ⟨made, trace, found, by simp [since, found]⟩
      · have rest : (pastOf thread trace).findSome? look = some seen := by
          by_cases own : owner = thread
          · subst own
            have blind : look made = none := by simpa using isSight
            rwa [pastOf_cons_self, List.findSome?_cons, blind] at last
          · rwa [pastOf_cons_of_ne own] at last
        obtain ⟨performed, older, found, split⟩ := ih rest
        refine ⟨performed, older, found, ?_⟩
        have skipped : since thread (fun performed => (look performed).isSome)
            (⟨owner, made⟩ :: trace) = ⟨owner, made⟩ ::
              since thread (fun performed => (look performed).isSome) trace := by
          simp only [since]
          rw [List.takeWhile_cons_of_pos]
          simpa [imp_iff_not_or] using isSight
        rw [skipped, List.cons_append, ← split]

variable {machine : Machine sig}

/-- The shared state, the threads in the order in which they were started, and
the trace, the newest entry first. -/
structure Config (machine : Machine sig) where
  state : machine.State
  threads : List (Thread machine)
  trace : List (Entry sig)

/-- What the scheduler may do next. -/
inductive Label (machine : Machine sig) where
  | issue (request : machine.Request)
  | resume (thread : Nat) (choice : machine.Choice)
  | move (move : machine.Move)

namespace Machine

/-- The thread of a request that has not run yet. -/
def start (machine : Machine sig) (request : machine.Request) : Thread machine :=
  ⟨request, machine.body request⟩

end Machine

namespace Config

/-- No thread and no trace yet. -/
def initial (state : machine.State) : Config machine :=
  ⟨state, [], []⟩

def past (config : Config machine) (thread : Nat) : History sig :=
  pastOf thread config.trace

def issue (config : Config machine) (request : machine.Request) : Config machine :=
  { config with threads := config.threads ++ [machine.start request] }

/-- Thread `thread` has got the answer to `call` and runs to its next await. -/
def advance (config : Config machine) (thread : Nat) (request : machine.Request)
    (call : sig.Call) (resume : sig.Result call → Program sig machine.Reply)
    (served : Served sig call machine.State machine.Request) : Config machine where
  state := served.state
  threads := config.threads.set thread ⟨request, resume served.answer⟩ ++
    served.spawned.map machine.start
  trace := ⟨thread, call, served.answer⟩ :: config.trace

/-- Have all threads run to their end? -/
def Quiet (config : Config machine) : Prop :=
  ∀ thread ∈ config.threads, thread.code.Finished

end Config

/-- One step of the pool, for a scheduler that takes only steps that `allows`
admits. -/
inductive Step (allows : Config machine → Label machine → Prop)
    (config : Config machine) : Config machine → Prop where
  | issue (request : machine.Request) (allowed : allows config (.issue request)) :
      Step allows config (config.issue request)
  | resume (thread : Nat) (choice : machine.Choice) {request : machine.Request}
      {call : sig.Call} {resume : sig.Result call → Program sig machine.Reply}
      {served : Served sig call machine.State machine.Request}
      (allowed : allows config (.resume thread choice))
      (paused : config.threads[thread]? = some ⟨request, .await call resume⟩)
      (performed : machine.perform call choice config.state = some served) :
      Step allows config (config.advance thread request call resume served)
  | move (move : machine.Move) {state : machine.State}
      (allowed : allows config (.move move))
      (moved : machine.move move config.state = some state) :
      Step allows config { config with state := state }

/-- Any number of steps. -/
abbrev Run (allows : Config machine → Label machine → Prop) :
    Config machine → Config machine → Prop :=
  Relation.ReflTransGen (Step allows)

/-! ## Playing a schedule -/

/-- The step that a label asks for, if the configuration admits it. -/
def step? (config : Config machine) : Label machine → Option (Config machine)
  | .issue request => some (config.issue request)
  | .resume thread choice =>
      match config.threads[thread]? with
      | some ⟨request, .await call resume⟩ =>
          (machine.perform call choice config.state).map
            (config.advance thread request call resume)
      | _ => none
  | .move move =>
      (machine.move move config.state).map fun state => { config with state := state }

/-- Play the labels one after the other, each admitted by `check`. -/
def play (check : Config machine → Label machine → Bool) :
    List (Label machine) → Config machine → Option (Config machine)
  | [], config => some config
  | label :: labels, config =>
      if check config label then (step? config label).bind (play check labels) else none

variable {allows allows' : Config machine → Label machine → Prop}

theorem step?_resume {config config' : Config machine} {thread : Nat} {choice : machine.Choice}
    (stepped : step? config (.resume thread choice) = some config') :
    ∃ request call resume served, config.threads[thread]? = some ⟨request, .await call resume⟩ ∧
      machine.perform call choice config.state = some served ∧
        config' = config.advance thread request call resume served := by
  cases found : config.threads[thread]? with
  | none => simp [step?, found] at stepped
  | some current =>
      obtain ⟨request, code⟩ := current
      cases code with
      | done outcome => simp [step?, found] at stepped
      | await call resume =>
          simp only [step?, found, Option.map_eq_some_iff] at stepped
          obtain ⟨served, performed, rfl⟩ := stepped
          exact ⟨request, call, resume, served, rfl, performed, rfl⟩

theorem step?_eq_advance {config : Config machine} {thread : Nat} {choice : machine.Choice}
    {request : machine.Request} {call : sig.Call}
    {resume : sig.Result call → Program sig machine.Reply}
    {served : Served sig call machine.State machine.Request}
    (paused : config.threads[thread]? = some ⟨request, .await call resume⟩)
    (performed : machine.perform call choice config.state = some served) :
    step? config (.resume thread choice) =
      some (config.advance thread request call resume served) := by
  simp [step?, paused, performed]

theorem Step.of_step? {config config' : Config machine} {label : Label machine}
    (allowed : allows config label) (stepped : step? config label = some config') :
    Step allows config config' := by
  cases label with
  | issue request =>
      obtain rfl : config.issue request = config' := by simpa [step?] using stepped
      exact .issue request allowed
  | resume thread choice =>
      obtain ⟨request, call, resume, served, paused, performed, rfl⟩ := step?_resume stepped
      exact .resume thread choice allowed paused performed
  | move move =>
      simp only [step?, Option.map_eq_some_iff] at stepped
      obtain ⟨state, moved, rfl⟩ := stepped
      exact .move move allowed moved

/-- A schedule that plays is a run. -/
theorem run_of_play {check : Config machine → Label machine → Bool}
    (checks : ∀ config label, check config label = true → allows config label)
    {labels : List (Label machine)} {config config' : Config machine}
    (played : play check labels config = some config') :
    Run allows config config' := by
  induction labels generalizing config with
  | nil =>
      obtain rfl : config = config' := by simpa [play] using played
      exact .refl
  | cons label labels ih =>
      simp only [play] at played
      split at played
      · rename_i checked
        obtain ⟨middle, stepped, rest⟩ := Option.bind_eq_some_iff.mp played
        exact .head (.of_step? (checks config label checked) stepped) (ih rest)
      · cases played

/-- Where a schedule leads: nowhere if it does not play. -/
def after (check : Config machine → Label machine → Bool) (labels : List (Label machine))
    (config : Config machine) : Config machine :=
  (play check labels config).getD config

theorem run_after {check : Config machine → Label machine → Bool}
    (checks : ∀ config label, check config label = true → allows config label)
    (labels : List (Label machine)) (config : Config machine) :
    Run allows config (after check labels config) := by
  unfold after
  cases played : play check labels config with
  | none => exact .refl
  | some config' => exact run_of_play checks played

theorem Step.mono {config config' : Config machine} (step : Step allows config config')
    (weaker : ∀ label, allows config label → allows' config label) :
    Step allows' config config' := by
  cases step with
  | issue request allowed => exact .issue request (weaker _ allowed)
  | resume thread choice allowed paused performed =>
      exact .resume thread choice (weaker _ allowed) paused performed
  | move move allowed moved => exact .move move (weaker _ allowed) moved

theorem Run.mono {config config' : Config machine} (run : Run allows config config')
    (weaker : ∀ config label, allows config label → allows' config label) :
    Run allows' config config' :=
  Relation.ReflTransGen.mono (fun config _ step => step.mono (weaker config)) _ _ run

/-- What holds at the start and is kept by every step of the run holds at its
end.  The step may use that its configuration is reached by the run. -/
theorem Run.keeps {start config : Config machine} {I : Config machine → Prop}
    (run : Run allows start config) (holds : I start)
    (step : ∀ config config', Run allows start config → I config →
      Step allows config config' → I config') :
    I config := by
  induction run with
  | refl => exact holds
  | tail before last ih => exact step _ _ before ih last

/-! ## Bookkeeping -/

/-- Every entry of the trace belongs to a thread of the pool. -/
def Accounted (config : Config machine) : Prop :=
  ∀ entry ∈ config.trace, entry.thread < config.threads.length

theorem Accounted.past_of_le {config : Config machine} (accounted : Accounted config)
    {thread : Nat} (unused : config.threads.length ≤ thread) :
    config.past thread = [] := by
  refine List.filterMap_eq_nil_iff.mpr fun entry member => ?_
  have bound := accounted entry member
  simp only [ite_eq_right_iff, reduceCtorEq, imp_false]
  omega

theorem Accounted.step {config config' : Config machine} (accounted : Accounted config)
    (step : Step allows config config') : Accounted config' := by
  cases step with
  | issue request _ =>
      intro entry member
      have bound := accounted entry member
      simp only [Config.issue, List.length_append]
      omega
  | resume thread choice _ paused _ =>
      have bound : thread < config.threads.length :=
        (List.getElem?_eq_some_iff.mp paused).1
      intro entry member
      simp only [Config.advance, List.length_append, List.length_set]
      rcases List.mem_cons.mp member with rfl | older
      · exact Nat.lt_add_right _ bound
      · exact Nat.lt_add_right _ (accounted entry older)
  | move _ _ _ => exact accounted

theorem Run.accounted {state : machine.State} {config : Config machine}
    (run : Run allows (Config.initial state) config) : Accounted config :=
  run.keeps (fun _ member => by simp [Config.initial] at member)
    fun _ _ _ accounted step => accounted.step step

@[simp]
theorem Config.past_issue (config : Config machine) (request : machine.Request)
    (thread : Nat) : (config.issue request).past thread = config.past thread :=
  rfl

@[simp]
theorem Config.past_advance_self (config : Config machine) (thread : Nat)
    (request : machine.Request) (call : sig.Call)
    (resume : sig.Result call → Program sig machine.Reply)
    (served : Served sig call machine.State machine.Request) :
    (config.advance thread request call resume served).past thread =
      ⟨call, served.answer⟩ :: config.past thread := by
  simp [Config.past, Config.advance]

theorem Config.past_advance_of_ne (config : Config machine) {thread other : Nat}
    (differ : thread ≠ other) (request : machine.Request) (call : sig.Call)
    (resume : sig.Result call → Program sig machine.Reply)
    (served : Served sig call machine.State machine.Request) :
    (config.advance thread request call resume served).past other = config.past other :=
  pastOf_cons_of_ne differ _

/-- The threads after a step: a thread that was there before, possibly resumed,
or one that was just started. -/
theorem Config.threads_advance {config : Config machine} {thread index : Nat}
    {request : machine.Request} {call : sig.Call}
    {resume : sig.Result call → Program sig machine.Reply}
    {served : Served sig call machine.State machine.Request} {found : Thread machine}
    (bound : thread < config.threads.length)
    (lookup : (config.advance thread request call resume served).threads[index]? =
      some found) :
    (index = thread ∧ found = ⟨request, resume served.answer⟩) ∨
      (index ≠ thread ∧ config.threads[index]? = some found) ∨
      (config.threads.length ≤ index ∧ ∃ started ∈ served.spawned,
        found = machine.start started) := by
  simp only [Config.advance] at lookup
  by_cases old : index < config.threads.length
  · rw [List.getElem?_append_left (by simpa using old)] at lookup
    by_cases same : index = thread
    · subst same
      rw [List.getElem?_set_self old] at lookup
      exact .inl ⟨rfl, (Option.some.inj lookup).symm⟩
    · rw [List.getElem?_set_ne (Ne.symm same)] at lookup
      exact .inr (.inl ⟨same, lookup⟩)
  · have later : config.threads.length ≤ index := Nat.le_of_not_lt old
    rw [List.getElem?_append_right (by simpa using later)] at lookup
    have member := List.mem_of_getElem? lookup
    obtain ⟨started, spawned, rfl⟩ := List.mem_map.mp member
    exact .inr (.inr ⟨later, started, spawned, rfl⟩)

/-- A thread that goes on serves the same request. -/
theorem requests_set {threads : List (Thread machine)} {thread : Nat} {request : machine.Request}
    {code : Program sig machine.Reply} (lookup : threads[thread]? = some ⟨request, code⟩)
    (next : Program sig machine.Reply) :
    (threads.set thread ⟨request, next⟩).map Thread.request = threads.map Thread.request := by
  obtain ⟨bound, isThread⟩ := List.getElem?_eq_some_iff.mp lookup
  have inside : thread < (threads.map Thread.request).length := by simpa using bound
  have own : (threads.map Thread.request)[thread] = request := by
    rw [List.getElem_map, isThread]
  rw [List.map_set]
  calc (threads.map Thread.request).set thread request
    _ = (threads.map Thread.request).set thread (threads.map Thread.request)[thread] := by rw [own]
    _ = threads.map Thread.request := List.set_getElem_self _

theorem requests_start (spawned : List machine.Request) :
    (spawned.map machine.start).map Thread.request = spawned := by
  rw [List.map_map]
  exact List.map_id _

/-- The requests that are served after a step. -/
theorem Config.requests_advance {config : Config machine} {thread : Nat}
    {request : machine.Request} {call : sig.Call}
    {resume : sig.Result call → Program sig machine.Reply}
    (served : Served sig call machine.State machine.Request)
    (paused : config.threads[thread]? = some ⟨request, .await call resume⟩) :
    (config.advance thread request call resume served).threads.map Thread.request =
      config.threads.map Thread.request ++ served.spawned := by
  rw [Config.advance, List.map_append, requests_set paused, requests_start]

theorem Config.threads_issue {config : Config machine} {index : Nat}
    {request : machine.Request} {found : Thread machine}
    (lookup : (config.issue request).threads[index]? = some found) :
    config.threads[index]? = some found ∨
      (config.threads.length ≤ index ∧ found = machine.start request) := by
  simp only [Config.issue] at lookup
  by_cases old : index < config.threads.length
  · rw [List.getElem?_append_left old] at lookup
    exact .inl lookup
  · have later : config.threads.length ≤ index := Nat.le_of_not_lt old
    rw [List.getElem?_append_right later] at lookup
    have member := List.mem_of_getElem? lookup
    exact .inr ⟨later, List.mem_singleton.mp member⟩

/-- What holds of every request that is issued or spawned holds of every thread. -/
theorem Run.requests {state : machine.State} {config : Config machine}
    {P : machine.Request → Prop} (run : Run allows (Config.initial state) config)
    (issued : ∀ config request, allows config (.issue request) → P request)
    (spawned : ∀ {call choice state} {served : Served sig call machine.State machine.Request},
      machine.perform call choice state = some served → ∀ request ∈ served.spawned, P request)
    {index : Nat} {thread : Thread machine} (lookup : config.threads[index]? = some thread) :
    P thread.request := by
  revert index thread
  refine run.keeps (I := fun config => ∀ {index : Nat} {thread : Thread machine},
    config.threads[index]? = some thread → P thread.request) ?_ ?_
  · intro index thread lookup
    simp [Config.initial] at lookup
  · intro config config' _ ih step index thread lookup
    cases step with
    | issue request allowed =>
        rcases Config.threads_issue lookup with old | ⟨-, rfl⟩
        · exact ih old
        · exact issued config request allowed
    | resume resumed choice _ paused performed =>
        have bound := (List.getElem?_eq_some_iff.mp paused).1
        rcases Config.threads_advance bound lookup with
          ⟨rfl, rfl⟩ | ⟨-, old⟩ | ⟨-, started, isSpawned, rfl⟩
        · have kept := ih paused
          exact kept
        · exact ih old
        · exact spawned performed started isSpawned
    | move _ _ _ => exact ih lookup

/-! ## Contracts -/

/-- What each request may call, given its own history, and what its outcome
guarantees, relying on some property of the answers that the machine gives. -/
structure Contract (machine : Machine sig) where
  relies : Performed sig → Prop
  permits : machine.Request → History sig → sig.Call → Prop
  ensures : machine.Request → History sig → Except sig.Error machine.Reply → Prop

/-- The machine answers as the contract relies on, and every request body keeps the
contract. -/
structure Contract.Fulfilled (contract : Contract machine) : Prop where
  answers : ∀ {call choice state} {served : Served sig call machine.State machine.Request},
    machine.perform call choice state = some served → contract.relies ⟨call, served.answer⟩
  bodies : ∀ request, (machine.body request).Conforms contract.relies
    (contract.permits request) (contract.ensures request) []

section Contracts

variable {contract : Contract machine} {state : machine.State}
variable {config config' : Config machine}

/-- In every reachable configuration, what is left of each thread keeps the
contract from the history that the thread has made. -/
theorem Run.conforms (run : Run allows (Config.initial state) config)
    (fulfilled : contract.Fulfilled) {index : Nat} {thread : Thread machine}
    (lookup : config.threads[index]? = some thread) :
    thread.code.Conforms contract.relies (contract.permits thread.request)
      (contract.ensures thread.request) (config.past index) := by
  revert index thread
  refine run.keeps (I := fun config => ∀ {index : Nat} {thread : Thread machine},
    config.threads[index]? = some thread →
      thread.code.Conforms contract.relies (contract.permits thread.request)
        (contract.ensures thread.request) (config.past index)) ?_ ?_
  · intro index thread lookup
    simp [Config.initial] at lookup
  · intro config config' before ih step index thread lookup
    have accounted := before.accounted
    cases step with
    | issue request _ =>
        rcases Config.threads_issue lookup with old | ⟨later, rfl⟩
        · exact ih old
        · rw [Config.past_issue, accounted.past_of_le later]
          exact fulfilled.bodies request
    | resume resumed choice _ paused performed =>
        have bound := (List.getElem?_eq_some_iff.mp paused).1
        rcases Config.threads_advance bound lookup with
          ⟨rfl, rfl⟩ | ⟨differ, old⟩ | ⟨later, started, _, rfl⟩
        · rw [Config.past_advance_self]
          exact (ih paused).2 _ (fulfilled.answers performed)
        · rw [Config.past_advance_of_ne _ (Ne.symm differ)]
          exact ih old
        · rw [Config.past_advance_of_ne _ (by omega), accounted.past_of_le later]
          exact fulfilled.bodies started
    | move _ _ _ => exact ih lookup

/-- A paused thread is paused at a call that its contract permits. -/
theorem Run.permitted (run : Run allows (Config.initial state) config)
    (fulfilled : contract.Fulfilled) {index : Nat} {request : machine.Request}
    {call : sig.Call} {resume : sig.Result call → Program sig machine.Reply}
    (paused : config.threads[index]? = some ⟨request, .await call resume⟩) :
    contract.permits request (config.past index) call :=
  (run.conforms fulfilled paused).1

/-- A finished thread has an outcome that its contract ensures. -/
theorem Run.ensured (run : Run allows (Config.initial state) config)
    (fulfilled : contract.Fulfilled) {index : Nat} {request : machine.Request}
    {outcome : Except sig.Error machine.Reply}
    (finished : config.threads[index]? = some ⟨request, .done outcome⟩) :
    contract.ensures request (config.past index) outcome :=
  run.conforms fulfilled finished

/-- Steps keep the request of every thread. -/
theorem Step.request_stable (step : Step allows config config') {index : Nat}
    {thread : Thread machine} (lookup : config.threads[index]? = some thread) :
    ∃ code, config'.threads[index]? = some ⟨thread.request, code⟩ := by
  have bound := (List.getElem?_eq_some_iff.mp lookup).1
  cases step with
  | issue request _ =>
      exact ⟨thread.code, by simpa [Config.issue, List.getElem?_append_left bound] using lookup⟩
  | resume resumed choice _ paused _ =>
      simp only [Config.advance]
      rw [List.getElem?_append_left (by simpa using bound)]
      by_cases same : resumed = index
      · subst same
        obtain rfl := Option.some.inj (paused.symm.trans lookup)
        exact ⟨_, List.getElem?_set_self bound⟩
      · exact ⟨thread.code, by rw [List.getElem?_set_ne same, lookup]⟩
  | move _ _ _ => exact ⟨thread.code, lookup⟩

/-- Every entry of the trace was permitted by the contract of its thread's
request, given the thread's history at that time. -/
theorem Run.permitted_entry (run : Run allows (Config.initial state) config)
    (fulfilled : contract.Fulfilled) {newer older : List (Entry sig)}
    {entry : Entry sig} (split : config.trace = newer ++ entry :: older) :
    ∃ request code, config.threads[entry.thread]? = some ⟨request, code⟩ ∧
      contract.permits request (pastOf entry.thread older) entry.performed.call := by
  revert newer older entry
  refine run.keeps (I := fun config => ∀ {newer older : List (Entry sig)}
    {entry : Entry sig}, config.trace = newer ++ entry :: older →
      ∃ request code, config.threads[entry.thread]? = some ⟨request, code⟩ ∧
        contract.permits request (pastOf entry.thread older) entry.performed.call) ?_ ?_
  · intro newer older entry split
    simp [Config.initial] at split
  · intro config config' before ih step newer older entry split
    -- an old entry keeps its thread's request; a new one is the resumed call
    have carry : config.trace = newer.tail ++ entry :: older ∨
        config.trace = newer ++ entry :: older →
        ∃ request code, config'.threads[entry.thread]? = some ⟨request, code⟩ ∧
          contract.permits request (pastOf entry.thread older) entry.performed.call := by
      intro earlier
      obtain ⟨request, code, lookup, permitted⟩ :
          ∃ request code, config.threads[entry.thread]? = some ⟨request, code⟩ ∧
            contract.permits request (pastOf entry.thread older) entry.performed.call := by
        rcases earlier with earlier | earlier <;> exact ih earlier
      obtain ⟨code', lookup'⟩ := step.request_stable lookup
      exact ⟨request, code', lookup', permitted⟩
    have lookups : ∀ {index : Nat} {thread : Thread machine},
        config.threads[index]? = some thread →
        ∃ code, config'.threads[index]? = some ⟨thread.request, code⟩ :=
      fun lookup => step.request_stable lookup
    cases step with
    | issue _ _ => exact carry (.inr split)
    | resume resumed choice _ paused _ =>
        cases newer with
        | cons newest newer =>
            obtain ⟨-, rest⟩ := List.cons.inj split
            exact carry (.inl rest)
        | nil =>
            obtain ⟨rfl, rfl⟩ := List.cons.inj split
            obtain ⟨code, lookup⟩ := lookups paused
            exact ⟨_, code, lookup, before.permitted fulfilled paused⟩
    | move _ _ _ => exact carry (.inr split)

end Contracts

end Awaiting

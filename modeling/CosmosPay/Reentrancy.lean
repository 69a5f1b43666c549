import CosmosPay.Awaiting.Counting
import CosmosPay.Evolution
import CosmosPay.Contracts.Kinds

/-!
# One tick at a time

The `running` flag of an instance is set exactly while one of its ticks is between its two
flag operations, and no two ticks of an instance are there at once.  A tick that finds the
flag set asks for nothing else.
-/

namespace CosmosPay

open Awaiting Program

/-! ## Calls that leave the flags alone -/

def Call.Flagless : Call → Prop
  | .enterTick _ => False
  | .leaveTick _ => False
  | _ => True

theorem Call.Intends.flagless {call : Call} (intends : call.Intends) : call.Flagless := by
  unfold Call.Flagless
  split <;> first | exact intends.elim | trivial

theorem Call.Passes.flagless {call : Call} (passes : call.Passes) : call.Flagless := by
  unfold Call.Flagless
  split <;> first | exact passes.elim | trivial

theorem Call.Dispatches.flagless {call : Call} (dispatches : call.Dispatches) :
    call.Flagless := by
  unfold Call.Flagless
  split <;> first | exact dispatches.elim | trivial

theorem Call.Manages.flagless {call : Call} (manages : call.Manages) : call.Flagless := by
  unfold Call.Flagless
  split <;> first | exact manages.elim | trivial

theorem Call.Catalogs.flagless {call : Call} (catalogs : call.Catalogs) : call.Flagless := by
  unfold Call.Flagless
  split <;> first | exact catalogs.elim | trivial

theorem Call.Aggregates.flagless {call : Call} (aggregates : call.Aggregates) :
    call.Flagless := by
  unfold Call.Flagless
  split <;> first | exact aggregates.elim | trivial

variable {deployment : Deployment}

theorem flagless_background (task : BackgroundTask) :
    (task.body deployment).Calls Call.Flagless :=
  calls_task (fun _ _ => trivial) (fun _ => trivial) (fun _ => Call.Dispatches.flagless) task

theorem flagless_webhooks (request : WebhooksRequest) :
    (request.body deployment).Calls Call.Flagless := by
  cases request with
  | redeliver consumer endpointId deliveryId =>
      exact ((dispatches_redeliver consumer endpointId deliveryId).mono
        fun _ => Call.Dispatches.flagless).map _
  | _ => exact (manages_webhooks id).mono fun _ => Call.Manages.flagless

theorem calls_flagless {request : Request} (notTick : ∀ node, request ≠ .tick node) :
    (request.body deployment).Calls Call.Flagless := by
  cases request with
  | paymentIntents request =>
      exact (handles_paymentIntents request).mono fun _ handles => handles.intends.flagless
  | webhooks request => exact flagless_webhooks request
  | customers request => exact (catalogs_customers request).mono fun _ => Call.Catalogs.flagless
  | products request => exact (catalogs_products request).mono fun _ => Call.Catalogs.flagless
  | analytics request =>
      exact (aggregates_analytics request).mono fun _ => Call.Aggregates.flagless
  | tick node => exact absurd rfl (notTick node)
  | background task => exact (flagless_background task).map _

theorem Call.Flagless.running {call : Call} (flagless : call.Flagless) {choice : Choice}
    {world : World} {served : Served signature call World Request}
    (performed : World.perform call choice world = some served) :
    served.state.running = world.running := by
  cases call with
  | write statement =>
      rcases World.perform_write performed with rfl | ⟨drawn, -, rfl⟩
      · rfl
      · unfold World.commit
        split <;> rfl
  | query asked => rw [(World.perform_query performed).1]
  | horizon lookup => rw [(World.perform_horizon performed).1]
  | now => rw [World.perform_now performed]; rfl
  | randomBytes size =>
      cases choice with
      | bytes drawn =>
          simp only [World.perform, Option.ite_none_right_eq_some, Option.some.injEq] at performed
          rw [← performed.2]
          rfl
      | _ => cases performed
  | enterTick node => exact flagless.elim
  | leaveTick node => exact flagless.elim
  | _ => cases choice <;> cases performed <;> rfl

/-! ## The contract -/

/-- The flag of the instance was free, and the call has set it. -/
def enters (node : Nat) (performed : Performed signature) : Bool :=
  match performed with
  | ⟨.enterTick entered, .ok true⟩ => entered = node
  | _ => false

def leaves (node : Nat) (performed : Performed signature) : Bool :=
  match performed.call with
  | .leaveTick left => left = node
  | _ => false

/-- A thread holds the flag of the instance. -/
structure Inside (node : Nat) (past : History signature) : Prop where
  entered : past.any (enters node) = true
  unleft : past.any (leaves node) = false

/-- A tick asks for anything else only while it holds the flag. -/
def permitsFlag (request : Request) (past : History signature) : Call → Prop
  | .enterTick node => request = .tick node ∧ past = []
  | .leaveTick node => request = .tick node ∧ Inside node past
  | _ => ∀ node, request = .tick node → Inside node past

def flags (deployment : Deployment) : Contract (service deployment) where
  relies _ := True
  permits := permitsFlag
  ensures _ past _ := ∀ node, ¬ Inside node past

theorem not_inside_nil (node : Nat) : ¬ Inside node [] :=
  fun inside => Bool.false_ne_true inside.entered

theorem enters_of_flagless {performed : Performed signature}
    (flagless : performed.call.Flagless) (node : Nat) :
    enters node performed = false ∧ leaves node performed = false := by
  obtain ⟨call, answer⟩ := performed
  cases call <;> first | exact flagless.elim | exact ⟨rfl, rfl⟩

section Inside

variable {node : Nat} {past recent : History signature} {performed : Performed signature}

theorem inside_cons (enters' : enters node performed = false)
    (leaves' : leaves node performed = false) :
    Inside node (performed :: past) ↔ Inside node past := by
  refine ⟨fun inside => ⟨?_, ?_⟩, fun inside => ⟨?_, ?_⟩⟩
  · simpa [enters'] using inside.entered
  · simpa [leaves'] using inside.unleft
  · simpa [enters'] using inside.entered
  · simpa [leaves'] using inside.unleft

theorem inside_append (flagless : ∀ performed ∈ recent, performed.call.Flagless) :
    Inside node (recent ++ past) ↔ Inside node past := by
  induction recent with
  | nil => rfl
  | cons performed recent ih =>
      obtain ⟨isHead, isTail⟩ := List.forall_mem_cons.mp flagless
      obtain ⟨enters', leaves'⟩ := enters_of_flagless isHead node
      exact (inside_cons enters' leaves').trans (ih isTail)

theorem inside_entered {other : Nat} :
    Inside other [⟨.enterTick node, .ok true⟩] ↔ other = node := by
  refine ⟨fun inside => ?_, ?_⟩
  · simpa [enters, eq_comm] using inside.entered
  · rintro rfl
    exact ⟨by simp [enters], rfl⟩

theorem not_inside_leave {answer : Except ServiceError Unit} :
    ¬ Inside node (⟨.leaveTick node, answer⟩ :: past) := by
  intro inside
  simpa [leaves] using inside.unleft

end Inside

theorem permitsFlag_of_flagless {request : Request} {past : History signature} {call : Call}
    (flagless : call.Flagless) (holds : ∀ node, request = .tick node → Inside node past) :
    permitsFlag request past call := by
  cases call <;> first | exact flagless.elim | exact holds

theorem flags_tick (node : Nat) :
    (StellarObserver.tick deployment node).Conforms (fun _ => True) (permitsFlag (.tick node))
      (fun past _ => ∀ node, ¬ Inside node past) [] := by
  have refused : ∀ answer, answer ≠ .ok true → ∀ other,
      ¬ Inside other [⟨.enterTick node, answer⟩] := by
    rintro answer notEntered other ⟨entered, -⟩
    cases answer with
    | error err => cases entered
    | ok value =>
        cases value with
        | true => exact notEntered rfl
        | false => cases entered
  refine conforms_call_bind.mpr ⟨⟨rfl, rfl⟩, fun err _ => refused _ nofun, fun entered _ => ?_⟩
  cases entered with
  | false => exact refused _ nofun
  | true =>
      have alone : ∀ other recent, (∀ performed ∈ recent, performed.call.Passes) →
          (Inside other (recent ++ [⟨.enterTick node, .ok true⟩]) ↔ other = node) := by
        intro other recent kinds
        exact (inside_append fun performed member => (kinds performed member).flagless).trans
          inside_entered
      have released : ∀ recent, (∀ performed ∈ recent, performed.call.Passes) → ∀ answer other,
          ¬ Inside other (⟨.leaveTick node, answer⟩ ::
            (recent ++ [⟨.enterTick node, .ok true⟩])) := by
        intro recent kinds answer other held
        by_cases same : other = node
        · rw [same] at held
          exact not_inside_leave held
        · have outside := (alone other recent kinds).not.mpr same
          exact outside ((inside_cons rfl (by simpa [leaves, eq_comm] using same)).mp held)
      simp only [if_true]
      rw [conforms_bind]
      refine conforms_logged (passes_cycle.conforms (fun recent call kinds passes => ?_)
        fun recent outcome kinds => ?_)
      · refine permitsFlag_of_flagless passes.flagless fun other isTick => ?_
        exact (alone other recent kinds).mpr (Request.tick.inj isTick).symm
      · refine (andThen_ok _ _).mpr ⟨⟨rfl, ?_⟩, fun answer _ => ?_⟩
        · exact (alone node recent kinds).mpr rfl
        · exact released recent kinds answer

theorem flags_fulfilled : (flags deployment).Fulfilled where
  answers _ := trivial
  bodies request := by
    by_cases isTick : ∃ node, request = .tick node
    · obtain ⟨node, rfl⟩ := isTick
      exact (conforms_map _ _).mpr (flags_tick node)
    · refine (calls_flagless fun node same => isTick ⟨node, same⟩).conforms
        (fun recent call kinds flagless => ?_) fun recent outcome kinds node inside => ?_
      · exact permitsFlag_of_flagless flagless fun node same => absurd ⟨node, same⟩ isTick
      · exact not_inside_nil node ((inside_append kinds).mp inside)

/-! ## The invariant -/

section Runs

variable {allows : Config (service deployment) → Label (service deployment) → Prop}
variable {state : World} {config config' : Config (service deployment)}

/-- The flag of an instance is set exactly while one of its ticks holds it. -/
structure Flagged (config : Config (service deployment)) : Prop where
  taken : ∀ node, node ∈ config.state.running ↔ ∃ thread, Inside node (config.past thread)
  exclusive : ∀ node first second, Inside node (config.past first) →
    Inside node (config.past second) → first = second

/-- A call that does not concern the flag of an instance. -/
theorem Resumes.inside_iff {thread : Nat} {choice : Choice} {request : Request}
    {performed : Performed signature}
    (resumes : Resumes allows config config' thread choice request performed) {node : Nat}
    (enters' : enters node performed = false) (leaves' : leaves node performed = false)
    (index : Nat) : Inside node (config'.past index) ↔ Inside node (config.past index) := by
  by_cases same : thread = index
  · subst same
    rw [resumes.past_self]
    exact inside_cons enters' leaves'
  · rw [resumes.past_of_ne same]

theorem Flagged.of_frame (flagged : Flagged config)
    (running : config'.state.running = config.state.running)
    (frame : ∀ node thread, Inside node (config'.past thread) ↔ Inside node (config.past thread)) :
    Flagged config' where
  taken node := by
    rw [running, flagged.taken node]
    exact exists_congr fun thread => (frame node thread).symm
  exclusive node first second held held' :=
    flagged.exclusive node first second ((frame node first).mp held) ((frame node second).mp held')

theorem Flagged.enter (flagged : Flagged config) {thread node : Nat} {choice : Choice}
    {request : Request} {answer : Except ServiceError Bool}
    (resumes : Resumes allows config config' thread choice request ⟨.enterTick node, answer⟩)
    (first : config.past thread = []) : Flagged config' := by
  obtain ⟨served, performed, isAnswer, isState⟩ := resumes.answered
  cases choice with
  | serve =>
      simp only [World.perform] at performed
      split at performed
      · obtain rfl := Option.some.inj performed
        obtain rfl : answer = .ok false := isAnswer.symm
        exact flagged.of_frame (congrArg World.running isState).symm
          fun other => resumes.inside_iff rfl rfl
      · rename_i free
        obtain rfl := Option.some.inj performed
        obtain rfl : answer = .ok true := isAnswer.symm
        have running : config'.state.running = node :: config.state.running :=
          (congrArg World.running isState).symm
        have holders : ∀ other index, Inside other (config'.past index) ↔
            other = node ∧ index = thread ∨ Inside other (config.past index) := by
          intro other index
          by_cases differ : thread = index
          · subst differ
            rw [resumes.past_self, first]
            refine (inside_entered : Inside other _ ↔ other = node).trans ?_
            simp [not_inside_nil]
          · rw [resumes.past_of_ne differ]
            simp [Ne.symm differ]
        have unheld : ∀ index, ¬ Inside node (config.past index) :=
          fun index inside => free ((flagged.taken node).mpr ⟨index, inside⟩)
        refine ⟨fun other => ?_, fun other index index' held held' => ?_⟩
        · rw [running, List.mem_cons, flagged.taken other]
          simp only [holders, exists_or, exists_and_left, exists_eq, and_true]
        · rw [holders] at held held'
          rcases held with ⟨rfl, rfl⟩ | old <;> rcases held' with ⟨isNode, rfl⟩ | old'
          · rfl
          · exact absurd old' (unheld index')
          · exact absurd (isNode ▸ old) (unheld index)
          · exact flagged.exclusive other index index' old old'
  | _ => cases performed

theorem Flagged.leave (flagged : Flagged config) {thread node : Nat} {choice : Choice}
    {request : Request} {answer : Except ServiceError Unit}
    (resumes : Resumes allows config config' thread choice request ⟨.leaveTick node, answer⟩)
    (held : Inside node (config.past thread)) : Flagged config' := by
  obtain ⟨served, performed, -, isState⟩ := resumes.answered
  cases choice with
  | serve =>
      obtain rfl := Option.some.inj performed
      have running : config'.state.running = config.state.running.filter (· ≠ node) :=
        (congrArg World.running isState).symm
      have holders : ∀ other index, Inside other (config'.past index) ↔
          Inside other (config.past index) ∧ other ≠ node := by
        intro other index
        by_cases isNode : other = node
        · subst isNode
          refine iff_of_false (fun inside => ?_) fun released => released.2 rfl
          by_cases differ : thread = index
          · subst differ
            rw [resumes.past_self] at inside
            exact not_inside_leave inside
          · rw [resumes.past_of_ne differ] at inside
            exact differ (flagged.exclusive other thread index held inside)
        · rw [resumes.inside_iff rfl (by simpa [leaves, eq_comm] using isNode)]
          simp [isNode]
      refine ⟨fun other => ?_, fun other index index' held held' => ?_⟩
      · rw [running, List.mem_filter, flagged.taken other]
        simp only [holders, exists_and_right, decide_eq_true_eq]
      · exact flagged.exclusive other index index' ((holders other index).mp held).1
          ((holders other index').mp held').1
  | _ => cases performed

theorem Flagged.resume (flagged : Flagged config) (run : Run allows (.initial state) config)
    {thread : Nat} {choice : Choice} {request : Request} {performed : Performed signature}
    (resumes : Resumes allows config config' thread choice request performed) :
    Flagged config' := by
  obtain ⟨resume, paused, -⟩ := resumes.paused
  have permitted : permitsFlag request (config.past thread) performed.call :=
    run.permitted flags_fulfilled paused
  obtain ⟨call, answer⟩ := performed
  by_cases flagless : call.Flagless
  · obtain ⟨served, performed, -, isState⟩ := resumes.answered
    refine flagged.of_frame ?_ fun node index => ?_
    · rw [← isState]
      exact flagless.running performed
    · have untouched := @enters_of_flagless ⟨call, answer⟩ flagless node
      exact resumes.inside_iff untouched.1 untouched.2 index
  · cases call with
    | enterTick node => exact flagged.enter resumes permitted.2
    | leaveTick node => exact flagged.leave resumes permitted.2
    | _ => exact absurd trivial flagless

theorem flagged_run (free : state.running = [])
    (run : Run allows (Config.initial state) config) : Flagged config := by
  refine run.keeps ⟨fun node => ?_, fun node first second held => ?_⟩
    fun config config' reached flagged step => ?_
  · refine ⟨fun member => ?_, fun ⟨thread, inside⟩ => absurd inside (not_inside_nil node)⟩
    have member : node ∈ state.running := member
    simp [free] at member
  · exact absurd held (not_inside_nil node)
  · rcases step_cases step with ⟨sameTrace, drifts⟩ | ⟨_, _, _, _, resumes⟩
    · refine flagged.of_frame drifts.running fun node thread => ?_
      rw [Config.past, sameTrace, Config.past]
    · exact flagged.resume reached resumes

/-- A tick that is invoked while another one holds the flag ends at once. -/
theorem refused_of_inside (free : state.running = []) (run : Run allows (.initial state) config)
    {thread other node : Nat} {choice : Choice} {performed : Performed signature}
    (resumes : Resumes allows config config' thread choice (.tick node) performed)
    (first : config.past thread = []) (held : Inside node (config.past other)) :
    config'.state = config.state ∧ config'.past thread = [⟨.enterTick node, .ok false⟩] ∧
      config'.finished thread = true := by
  obtain ⟨resume, paused, continued⟩ := resumes.paused
  have permitted : permitsFlag (.tick node) (config.past thread) performed.call :=
    run.permitted flags_fulfilled paused
  obtain ⟨call, answer⟩ := performed
  have isEnter : call = .enterTick node := by
    rw [first] at permitted
    cases call with
    | enterTick entered => rw [← Request.tick.inj permitted.1]
    | leaveTick left => exact absurd permitted.2 (not_inside_nil left)
    | _ => exact absurd (permitted node rfl) (not_inside_nil node)
  subst isEnter
  have taken := ((flagged_run free run).taken node).mpr ⟨other, held⟩
  obtain ⟨served, entered, isAnswer, isState⟩ := resumes.answered
  cases choice with
  | serve =>
      simp only [World.perform, if_pos taken] at entered
      obtain rfl := Option.some.inj entered
      obtain rfl : answer = .ok false := isAnswer.symm
      have past : config'.past thread = [⟨.enterTick node, .ok false⟩] := by
        rw [resumes.past_self, first]
      refine ⟨isState.symm, past, ?_⟩
      rw [Config.finished, continued]
      -- the contract leaves no further call to a tick that is not inside
      cases code : resume (.ok false) with
      | done outcome => simp
      | await call next =>
          have outside : ∀ other, ¬ Inside other (config'.past thread) := by
            rintro other ⟨isEntered, -⟩
            rw [past] at isEntered
            cases isEntered
          have reached : Run allows (.initial state) config' := run.tail resumes.step
          have goesOn : permitsFlag (.tick node) (config'.past thread) call :=
            reached.permitted flags_fulfilled (code ▸ continued)
          cases call with
          | enterTick again => exact absurd (past.symm.trans goesOn.2) (List.cons_ne_nil _ _)
          | leaveTick left => exact absurd goesOn.2 (outside left)
          | _ => exact absurd (goesOn node rfl) (outside node)
  | _ => cases entered

end Runs

end CosmosPay

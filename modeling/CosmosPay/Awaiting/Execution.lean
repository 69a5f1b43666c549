import CosmosPay.Awaiting.Pool

/-!
# Undisturbed executions

A program that runs alone: its calls are performed one after the other, and nothing else
touches the state.  What the calls leave open is resolved by a list of choices, one for
each call; `execute` is a function of the program, the choices and the state, so that two
executions can be compared under the same choices.
-/

namespace Awaiting

variable {sig : Signature} {machine : Machine sig} {α β : Type}

/-- How a program has ended: its outcome and the state it has left, the calls that it has
performed, the newest first, the requests that they have started, and the choices that are
left over. -/
structure Execution (machine : Machine sig) (α : Type) where
  outcome : Except sig.Error α
  state : machine.State
  past : History sig
  spawned : List machine.Request
  choices : List machine.Choice

namespace Execution

/-- The execution after an earlier part. -/
def after (execution : Execution machine α) (past : History sig)
    (spawned : List machine.Request) : Execution machine α :=
  { execution with past := execution.past ++ past, spawned := spawned ++ execution.spawned }

variable {execution : Execution machine α} {past : History sig} {spawned : List machine.Request}

@[simp]
theorem after_outcome : (execution.after past spawned).outcome = execution.outcome :=
  rfl

@[simp]
theorem after_state : (execution.after past spawned).state = execution.state :=
  rfl

@[simp]
theorem after_past : (execution.after past spawned).past = execution.past ++ past :=
  rfl

@[simp]
theorem after_spawned : (execution.after past spawned).spawned = spawned ++ execution.spawned :=
  rfl

@[simp]
theorem after_choices : (execution.after past spawned).choices = execution.choices :=
  rfl

@[simp]
theorem after_after (earlier : History sig) (first : List machine.Request) :
    (execution.after past spawned).after earlier first =
      execution.after (past ++ earlier) (first ++ spawned) := by
  simp [after]

end Execution

namespace Program

/-- Run the program alone; `none` where a choice does not fit its call, or where the
choices run out. -/
def execute (machine : Machine sig) :
    Program sig α → List machine.Choice → machine.State → Option (Execution machine α)
  | .done outcome, choices, state => some ⟨outcome, state, [], [], choices⟩
  | .await _ _, [], _ => none
  | .await call resume, choice :: choices, state =>
      (machine.perform call choice state).bind fun served =>
        ((resume served.answer).execute machine choices served.state).map
          (·.after [⟨call, served.answer⟩] served.spawned)

variable {choices : List machine.Choice} {state : machine.State}

@[simp]
theorem execute_done (outcome : Except sig.Error α) :
    (done outcome : Program sig α).execute machine choices state =
      some ⟨outcome, state, [], [], choices⟩ :=
  rfl

@[simp]
theorem execute_pure (value : α) :
    (pure value : Program sig α).execute machine choices state =
      some ⟨.ok value, state, [], [], choices⟩ :=
  rfl

@[simp]
theorem execute_throw (err : sig.Error) :
    (throw err : Program sig α).execute machine choices state =
      some ⟨.error err, state, [], [], choices⟩ :=
  rfl

theorem execute_await {call : sig.Call} {resume : sig.Result call → Program sig α}
    {execution : Execution machine α}
    (executed : (await call resume).execute machine choices state = some execution) :
    ∃ choice rest served later, choices = choice :: rest ∧
      machine.perform call choice state = some served ∧
      (resume served.answer).execute machine rest served.state = some later ∧
      execution = later.after [⟨call, served.answer⟩] served.spawned := by
  cases choices with
  | nil => cases executed
  | cons choice rest =>
      obtain ⟨served, performed, continued⟩ := Option.bind_eq_some_iff.mp executed
      obtain ⟨later, isLater, rfl⟩ := Option.map_eq_some_iff.mp continued
      exact ⟨choice, rest, served, later, rfl, performed, isLater, rfl⟩

/-- A program uses the choices up to some point, and does not depend on those after it. -/
theorem execute_uses {program : Program sig α} {execution : Execution machine α}
    (executed : program.execute machine choices state = some execution) :
    ∃ used, choices = used ++ execution.choices ∧
      ∀ rest, program.execute machine (used ++ rest) state =
        some { execution with choices := rest } := by
  induction program generalizing choices state execution with
  | done outcome =>
      obtain rfl := Option.some.inj executed
      exact ⟨[], rfl, fun rest => rfl⟩
  | await call resume ih =>
      obtain ⟨choice, rest, served, later, rfl, performed, continued, rfl⟩ :=
        execute_await executed
      obtain ⟨used, rfl, again⟩ := ih served.answer continued
      refine ⟨choice :: used, rfl, fun rest => ?_⟩
      rw [List.cons_append, execute, performed, Option.bind_some, again rest, Option.map_some]
      rfl

/-- A sequence ends with the error of its first part, or runs its second part from where
the first has ended. -/
theorem execute_bind {program : Program sig α} {next : α → Program sig β}
    {execution : Execution machine β}
    (executed : (program >>= next).execute machine choices state = some execution) :
    ∃ first, program.execute machine choices state = some first ∧
      match first.outcome with
      | .error err =>
          execution = ⟨.error err, first.state, first.past, first.spawned, first.choices⟩
      | .ok value => ∃ second,
          (next value).execute machine first.choices first.state = some second ∧
            execution = second.after first.past first.spawned := by
  induction program generalizing choices state execution with
  | done outcome =>
      refine ⟨_, rfl, ?_⟩
      cases outcome with
      | error err => exact (Option.some.inj executed).symm
      | ok value => exact ⟨execution, executed, by simp [Execution.after]⟩
  | await call resume ih =>
      have sequence : (await call fun answer => resume answer >>= next).execute machine choices
          state = some execution := executed
      obtain ⟨choice, rest, served, later, rfl, performed, continued, rfl⟩ :=
        execute_await sequence
      obtain ⟨⟨outcome, state', past, spawned, left⟩, isFirst, ended⟩ := ih served.answer continued
      refine ⟨Execution.after ⟨outcome, state', past, spawned, left⟩
        [⟨call, served.answer⟩] served.spawned, ?_, ?_⟩
      · simp [execute, performed, isFirst]
      · cases outcome with
        | error err =>
            rw [ended]
            rfl
        | ok value =>
            obtain ⟨second, isSecond, rfl⟩ := ended
            exact ⟨second, isSecond, by simp⟩

/-- A call that is followed by more. -/
theorem execute_call_bind {call : sig.Call} {next : sig.Answer call → Program sig α}
    {execution : Execution machine α}
    (executed : (Program.call call >>= next).execute machine choices state = some execution) :
    ∃ choice rest served, choices = choice :: rest ∧
      machine.perform call choice state = some served ∧
      match served.answer with
      | .error err => execution =
          ⟨.error err, served.state, [⟨call, served.answer⟩], served.spawned, rest⟩
      | .ok value => ∃ second,
          (next value).execute machine rest served.state = some second ∧
            execution = second.after [⟨call, served.answer⟩] served.spawned := by
  have sequence : (await call fun answer => done answer >>= next).execute machine choices state =
      some execution := executed
  obtain ⟨choice, rest, ⟨answer, state', spawned⟩, later, rfl, performed, continued, rfl⟩ :=
    execute_await sequence
  refine ⟨choice, rest, _, rfl, performed, ?_⟩
  cases answer with
  | error err =>
      obtain rfl := Option.some.inj continued
      simp [Execution.after]
  | ok value => exact ⟨later, continued, rfl⟩

/-- A sequence that returns a value has run both of its parts. -/
theorem execute_bind_ok {program : Program sig α} {next : α → Program sig β}
    {execution : Execution machine β} {value : β}
    (executed : (program >>= next).execute machine choices state = some execution)
    (returned : execution.outcome = .ok value) :
    ∃ first passed second, program.execute machine choices state = some first ∧
      first.outcome = .ok passed ∧
      (next passed).execute machine first.choices first.state = some second ∧
      second.outcome = .ok value ∧ execution = second.after first.past first.spawned := by
  obtain ⟨⟨outcome, state', past, spawned, left⟩, isFirst, ended⟩ := execute_bind executed
  cases outcome with
  | error err =>
      rw [ended] at returned
      cases returned
  | ok passed =>
      obtain ⟨second, isSecond, rfl⟩ := ended
      exact ⟨_, passed, second, isFirst, rfl, isSecond, returned, rfl⟩

theorem execute_call_ok {call : sig.Call} {next : sig.Answer call → Program sig α}
    {execution : Execution machine α} {value : α}
    (executed : (Program.call call >>= next).execute machine choices state = some execution)
    (returned : execution.outcome = .ok value) :
    ∃ choice rest served answer second, choices = choice :: rest ∧
      machine.perform call choice state = some served ∧ served.answer = .ok answer ∧
      (next answer).execute machine rest served.state = some second ∧
      second.outcome = .ok value ∧
      execution = second.after [⟨call, served.answer⟩] served.spawned := by
  obtain ⟨choice, rest, ⟨answer, state', spawned⟩, rfl, performed, ended⟩ :=
    execute_call_bind executed
  cases answer with
  | error err =>
      rw [ended] at returned
      cases returned
  | ok passed =>
      obtain ⟨second, isSecond, rfl⟩ := ended
      exact ⟨choice, rest, _, passed, second, rfl, performed, rfl, isSecond, returned, rfl⟩

/-! ### Building executions -/

theorem execute_bind_of {program : Program sig α} {next : α → Program sig β}
    {first : Execution machine α} {second : Execution machine β} {value : α}
    (executed : program.execute machine choices state = some first)
    (returned : first.outcome = .ok value)
    (continued : (next value).execute machine first.choices first.state = some second) :
    (program >>= next).execute machine choices state =
      some (second.after first.past first.spawned) := by
  induction program generalizing choices state first with
  | done outcome =>
      obtain rfl := Option.some.inj executed
      obtain rfl : outcome = .ok value := returned
      have nothing : second.after [] [] = second := by simp [Execution.after]
      exact continued.trans (congrArg some nothing.symm)
  | await call resume ih =>
      obtain ⟨choice, rest, served, later, rfl, performed, executed', rfl⟩ := execute_await executed
      have sequence : (await call resume >>= next).execute machine (choice :: rest) state =
          (await call fun answer => resume answer >>= next).execute machine (choice :: rest)
            state := rfl
      rw [sequence, execute, performed, Option.bind_some,
        ih served.answer executed' returned continued]
      simp

/-- A sequence whose first part fails ends there. -/
theorem execute_bind_error {program : Program sig α} {next : α → Program sig β}
    {first : Execution machine α} {err : sig.Error}
    (executed : program.execute machine choices state = some first)
    (failed : first.outcome = .error err) :
    (program >>= next).execute machine choices state =
      some ⟨.error err, first.state, first.past, first.spawned, first.choices⟩ := by
  induction program generalizing choices state first with
  | done outcome =>
      obtain rfl := Option.some.inj executed
      obtain rfl : outcome = .error err := failed
      rfl
  | await call resume ih =>
      obtain ⟨choice, rest, served, later, rfl, performed, executed', rfl⟩ := execute_await executed
      have sequence : (await call resume >>= next).execute machine (choice :: rest) state =
          (await call fun answer => resume answer >>= next).execute machine (choice :: rest)
            state := rfl
      rw [sequence, execute, performed, Option.bind_some, ih served.answer executed' failed,
        Option.map_some]
      rfl

theorem execute_tryCatch_of {program : Program sig α} {handler : sig.Error → Program sig α}
    {execution : Execution machine α} {value : α}
    (executed : program.execute machine choices state = some execution)
    (returned : execution.outcome = .ok value) :
    (tryCatch program handler).execute machine choices state = some execution := by
  induction program generalizing choices state execution with
  | done outcome =>
      obtain rfl := Option.some.inj executed
      obtain rfl : outcome = .ok value := returned
      rfl
  | await call resume ih =>
      obtain ⟨choice, rest, served, later, rfl, performed, executed', rfl⟩ := execute_await executed
      have sequence : (tryCatch (await call resume) handler).execute machine (choice :: rest)
          state = (await call fun answer => tryCatch (resume answer) handler).execute machine
            (choice :: rest) state := rfl
      rw [sequence, execute, performed, Option.bind_some, ih served.answer executed' returned,
        Option.map_some]

/-- Run alone from the state and after `past`, the program may end this way, whatever is to
follow it. -/
def Ends (machine : Machine sig) (past : History sig) (state : machine.State)
    (program : Program sig α) (outcome : Except sig.Error α) (past' : History sig)
    (state' : machine.State) : Prop :=
  ∃ choices recent, past' = recent ++ past ∧ ∀ rest, ∃ spawned,
    program.execute machine (choices ++ rest) state = some ⟨outcome, state', recent, spawned, rest⟩

section Ends

variable {past past' past'' : History sig} {state' state'' : machine.State}

theorem ends_done (outcome : Except sig.Error α) :
    Ends machine past state (done outcome) outcome past state :=
  ⟨[], [], rfl, fun _ => ⟨[], rfl⟩⟩

theorem ends_await {call : sig.Call} {resume : sig.Result call → Program sig α}
    {choice : machine.Choice} {served : Served sig call machine.State machine.Request}
    {outcome : Except sig.Error α} (performed : machine.perform call choice state = some served)
    (ends : Ends machine (⟨call, served.answer⟩ :: past) served.state (resume served.answer)
      outcome past' state') :
    Ends machine past state (await call resume) outcome past' state' := by
  obtain ⟨choices, recent, rfl, executes⟩ := ends
  refine ⟨choice :: choices, recent ++ [⟨call, served.answer⟩], by simp, fun rest => ?_⟩
  obtain ⟨spawned, executed⟩ := executes rest
  refine ⟨served.spawned ++ spawned, ?_⟩
  simp [execute, performed, executed, Execution.after]

theorem Ends.bind {program : Program sig α} {next : α → Program sig β} {value : α}
    {outcome : Except sig.Error β}
    (first : Ends machine past state program (.ok value) past' state')
    (second : Ends machine past' state' (next value) outcome past'' state'') :
    Ends machine past state (program >>= next) outcome past'' state'' := by
  obtain ⟨choices, recent, rfl, executes⟩ := first
  obtain ⟨choices', recent', rfl, executes'⟩ := second
  refine ⟨choices ++ choices', recent' ++ recent, by simp, fun rest => ?_⟩
  obtain ⟨spawned, executed⟩ := executes (choices' ++ rest)
  obtain ⟨spawned', executed'⟩ := executes' rest
  rw [List.append_assoc]
  exact ⟨spawned ++ spawned', execute_bind_of executed rfl executed'⟩

/-- The rule for a call that succeeds. -/
theorem ends_call {call : sig.Call} {choice : machine.Choice} {answer : sig.Answer call}
    {spawned : List machine.Request}
    (performed : machine.perform call choice state = some ⟨.ok answer, state', spawned⟩) :
    Ends machine past state (Program.call call) (.ok answer) (⟨call, .ok answer⟩ :: past) state' :=
  ends_await performed (ends_done (.ok answer))

theorem Ends.map {program : Program sig α} {value : α}
    (ends : Ends machine past state program (.ok value) past' state') (convert : α → β) :
    Ends machine past state (convert <$> program) (.ok (convert value)) past' state' :=
  Ends.bind ends (ends_done (.ok (convert value)))

/-- A guarded program that succeeds does not reach the handler. -/
theorem Ends.tryCatch {program : Program sig α} {value : α}
    (ends : Ends machine past state program (.ok value) past' state')
    (handler : sig.Error → Program sig α) :
    Ends machine past state (tryCatch program handler) (.ok value) past' state' := by
  obtain ⟨choices, recent, isPast, executes⟩ := ends
  refine ⟨choices, recent, isPast, fun rest => ?_⟩
  obtain ⟨spawned, executed⟩ := executes rest
  exact ⟨spawned, execute_tryCatch_of executed rfl⟩

theorem Ends.executed {program : Program sig α} {outcome : Except sig.Error α}
    (ends : Ends machine [] state program outcome past' state') :
    ∃ choices execution, program.execute machine choices state = some execution ∧
      execution.outcome = outcome ∧ execution.past = past' := by
  obtain ⟨choices, recent, rfl, executes⟩ := ends
  obtain ⟨spawned, executed⟩ := executes []
  exact ⟨choices ++ [], _, executed, rfl, by simp⟩

end Ends

/-- Run alone from the state, the program may return the value. -/
def Returns (machine : Machine sig) (program : Program sig α) (state : machine.State)
    (value : α) : Prop :=
  ∃ choices execution, program.execute machine choices state = some execution ∧
    execution.outcome = .ok value

@[simp]
theorem returns_pure {value returned : α} :
    (pure value : Program sig α).Returns machine state returned ↔ returned = value := by
  constructor
  · rintro ⟨choices, execution, executed, isReturned⟩
    obtain rfl := Option.some.inj executed
    exact (Except.ok.inj isReturned).symm
  · rintro rfl
    exact ⟨[], _, rfl, rfl⟩

theorem sequence_assoc {γ : Type} (program : Program sig α) (next : α → Program sig β)
    (last : β → Program sig γ) :
    program >>= next >>= last = program >>= fun value => next value >>= last := by
  induction program with
  | done outcome => cases outcome <;> rfl
  | await call resume ih => exact congrArg (await call) (funext ih)

/-- A value that is returned after a call is returned after one of its answers. -/
theorem returns_call_bind {call : sig.Call} {next : sig.Answer call → Program sig α} {value : α} :
    (Program.call call >>= next).Returns machine state value ↔
      ∃ choice answer state' spawned,
        machine.perform call choice state = some ⟨.ok answer, state', spawned⟩ ∧
          (next answer).Returns machine state' value := by
  constructor
  · rintro ⟨choices, execution, executed, returned⟩
    obtain ⟨choice, rest, served, answer, second, -, performed, answered, continued, isValue, -⟩ :=
      execute_call_ok executed returned
    refine ⟨choice, answer, served.state, served.spawned, ?_, rest, second, continued, isValue⟩
    rw [performed, ← answered]
  · rintro ⟨choice, answer, state', spawned, performed, choices, second, continued, isValue⟩
    have called : (Program.call call).execute machine (choice :: choices) state =
        some ⟨.ok answer, state', [⟨call, .ok answer⟩], spawned, choices⟩ := by
      simp [Program.call, execute, performed, Execution.after]
    exact ⟨_, _, execute_bind_of called rfl continued, isValue⟩

/-- What the program returns under the choices. -/
def returned? (machine : Machine sig) (program : Program sig α) (choices : List machine.Choice)
    (state : machine.State) : Option α :=
  (program.execute machine choices state).bind fun execution => execution.outcome.toOption

theorem returns_of_returned? {program : Program sig α} {value : α}
    (returned : program.returned? machine choices state = some value) :
    program.Returns machine state value := by
  obtain ⟨execution, executed, isValue⟩ := Option.bind_eq_some_iff.mp returned
  refine ⟨choices, execution, executed, ?_⟩
  cases outcome : execution.outcome with
  | error err => simp [outcome, Except.toOption] at isValue
  | ok other =>
      rw [outcome] at isValue
      rw [Option.some.inj isValue]

/-- The rule of an invariant.  If the calls that a program may make keep an invariant of
the state and are answered as the program relies on, then the invariant holds at the end,
the outcome is justified by the calls that were performed, and all of them were permitted. -/
theorem Conforms.executed {relies : Performed sig → Prop}
    {permits : History sig → sig.Call → Prop}
    {ensures : History sig → Except sig.Error α → Prop} {invariant : machine.State → Prop}
    (keeps : ∀ {past : History sig} {call : sig.Call} {choice : machine.Choice}
      {state : machine.State} {served : Served sig call machine.State machine.Request},
      invariant state → permits past call → machine.perform call choice state = some served →
        invariant served.state ∧ relies ⟨call, served.answer⟩)
    {program : Program sig α} {past : History sig}
    (conforms : program.Conforms relies permits ensures past) (start : invariant state)
    {execution : Execution machine α}
    (executed : program.execute machine choices state = some execution) :
    invariant execution.state ∧ ensures (execution.past ++ past) execution.outcome ∧
      ∀ performed ∈ execution.past, ∃ earlier, permits earlier performed.call := by
  induction program generalizing choices state execution past with
  | done outcome =>
      obtain rfl := Option.some.inj executed
      exact ⟨start, conforms, by simp⟩
  | await call resume ih =>
      obtain ⟨choice, rest, served, later, rfl, performed, continued, rfl⟩ :=
        execute_await executed
      obtain ⟨kept, relied⟩ := keeps start conforms.1 performed
      obtain ⟨holds, justified, permitted⟩ :=
        ih served.answer (conforms.2 served.answer relied) kept continued
      refine ⟨holds, by simpa using justified, fun other member => ?_⟩
      rw [Execution.after_past, List.mem_append, List.mem_singleton] at member
      rcases member with recent | rfl
      · exact permitted other recent
      · exact ⟨past, conforms.1⟩

end Program

/-! ## Executions in the pool -/

section Pool

variable {allows : Config machine → Label machine → Prop} {config : Config machine}

/-- A thread that is never interrupted executes its program: what the pool does with it is
a run, and leaves the other threads as they were. -/
theorem run_of_resumed {index : Nat} {request : machine.Request}
    (allowed : ∀ config choice, allows config (.resume index choice))
    {program : Program sig machine.Reply} {choices : List machine.Choice}
    {execution : Execution machine machine.Reply}
    (paused : config.threads[index]? = some ⟨request, program⟩)
    (executed : program.execute machine choices config.state = some execution) :
    ∃ config', Run allows config config' ∧
      config'.threads = config.threads.set index ⟨request, .done execution.outcome⟩ ++
        execution.spawned.map machine.start ∧
      config'.trace = execution.past.map (⟨index, ·⟩) ++ config.trace := by
  induction program generalizing config choices execution with
  | done outcome =>
      obtain rfl := Option.some.inj executed
      obtain ⟨bound, isThread⟩ := List.getElem?_eq_some_iff.mp paused
      refine ⟨config, .refl, ?_, rfl⟩
      simp [← isThread]
  | await call resume ih =>
      obtain ⟨choice, rest, served, later, rfl, performed, continued, rfl⟩ :=
        Program.execute_await executed
      have step : Step allows config (config.advance index request call resume served) :=
        .resume index choice (allowed config choice) paused performed
      have bound : index < config.threads.length := (List.getElem?_eq_some_iff.mp paused).1
      have next : (config.advance index request call resume served).threads[index]? =
          some ⟨request, resume served.answer⟩ := by
        simp [Config.advance, List.getElem?_append, bound]
      obtain ⟨config', run, threads, trace⟩ := ih served.answer next continued
      refine ⟨config', .head step run, ?_, ?_⟩
      · rw [threads]
        simp [Config.advance, bound]
      · rw [trace]
        simp [Config.advance]

/-- What has been started is served along with the rest. -/
theorem requests_of_resumed {index : Nat} {request : machine.Request}
    {program : Program sig machine.Reply} {outcome : Except sig.Error machine.Reply}
    {spawned : List machine.Request} {config' : Config machine}
    (paused : config.threads[index]? = some ⟨request, program⟩)
    (threads : config'.threads =
      config.threads.set index ⟨request, .done outcome⟩ ++ spawned.map machine.start) :
    config'.threads.map Thread.request = config.threads.map Thread.request ++ spawned := by
  rw [threads, List.map_append, requests_set paused, requests_start]

theorem pastOf_map_of_ne {index other : Nat} (differ : index ≠ other) (past : History sig) :
    pastOf other (past.map fun performed => ⟨index, performed⟩) = [] := by
  induction past with
  | nil => rfl
  | cons performed past ih => rw [List.map_cons, pastOf_cons_of_ne differ, ih]

/-- Calls of one thread are not in the past of another. -/
theorem past_of_resumed {index other : Nat} {config' : Config machine} {past : History sig}
    (trace : config'.trace = past.map (⟨index, ·⟩) ++ config.trace) (differ : index ≠ other) :
    config'.past other = config.past other := by
  rw [Config.past, trace, pastOf_append, pastOf_map_of_ne differ, List.nil_append, Config.past]

end Pool

end Awaiting

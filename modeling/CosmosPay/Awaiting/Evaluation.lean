import CosmosPay.Awaiting.Execution

/-!
# Surroundings that do not change

Where every call has one answer, a program has one outcome: `evaluate` computes it.  A
program that only reads a state, and is never refused, executes to this outcome.
-/

namespace Awaiting

namespace Program

variable {sig : Signature} {machine : Machine sig} {α β : Type}

/-- The outcome when every call is answered by the function. -/
def evaluate (answers : (call : sig.Call) → sig.Result call) :
    Program sig α → Except sig.Error α
  | .done outcome => outcome
  | .await call resume => (resume (answers call)).evaluate answers

variable {answers : (call : sig.Call) → sig.Result call}

@[simp]
theorem evaluate_done (outcome : Except sig.Error α) :
    (done outcome : Program sig α).evaluate answers = outcome :=
  rfl

@[simp]
theorem evaluate_pure (value : α) :
    (pure value : Program sig α).evaluate answers = .ok value :=
  rfl

@[simp]
theorem evaluate_throw (err : sig.Error) :
    (throw err : Program sig α).evaluate answers = .error err :=
  rfl

@[simp]
theorem evaluate_call (call : sig.Call) : (Program.call call).evaluate answers = answers call :=
  rfl

@[simp]
theorem evaluate_bind (program : Program sig α) (next : α → Program sig β) :
    (program >>= next).evaluate answers =
      (program.evaluate answers).bind fun value => (next value).evaluate answers := by
  induction program with
  | done outcome => cases outcome <;> rfl
  | await call resume ih => exact ih (answers call)

@[simp]
theorem evaluate_map (convert : α → β) (program : Program sig α) :
    (convert <$> program).evaluate answers = (program.evaluate answers).map convert := by
  have sequence : (convert <$> program).evaluate answers =
      (program.evaluate answers).bind fun value => .ok (convert value) :=
    evaluate_bind program fun value => pure (convert value)
  rw [sequence]
  cases program.evaluate answers <;> rfl

@[simp]
theorem evaluate_tryCatch (body : Program sig α) (handler : sig.Error → Program sig α) :
    (tryCatch body handler).evaluate answers =
      match body.evaluate answers with
      | .ok value => .ok value
      | .error err => (handler err).evaluate answers := by
  induction body with
  | done outcome => cases outcome <;> rfl
  | await call resume ih => exact ih (answers call)

/-- The calls that are made when every call is answered by the function. -/
def asked (answers : (call : sig.Call) → sig.Result call) : Program sig α → List sig.Call
  | .done _ => []
  | .await call resume => call :: (resume (answers call)).asked answers

@[simp]
theorem asked_done (outcome : Except sig.Error α) :
    (done outcome : Program sig α).asked answers = [] :=
  rfl

@[simp]
theorem asked_pure (value : α) : (pure value : Program sig α).asked answers = [] :=
  rfl

@[simp]
theorem asked_call (call : sig.Call) : (Program.call call).asked answers = [call] :=
  rfl

@[simp]
theorem asked_bind (program : Program sig α) (next : α → Program sig β) :
    (program >>= next).asked answers = program.asked answers ++
      match program.evaluate answers with
      | .ok value => (next value).asked answers
      | .error _ => [] := by
  induction program with
  | done outcome => cases outcome <;> rfl
  | await call resume ih => exact congrArg (call :: ·) (ih (answers call))

theorem asked_call_bind_ok {call : sig.Call} {value : sig.Answer call}
    (answered : answers call = .ok value) (next : sig.Answer call → Program sig β) :
    (Program.call call >>= next).asked answers = call :: (next value).asked answers := by
  rw [asked_bind, asked_call, evaluate_call, answered]
  rfl

theorem asked_call_bind_error {call : sig.Call} {err : sig.Error}
    (failed : answers call = .error err) (next : sig.Answer call → Program sig β) :
    (Program.call call >>= next).asked answers = [call] := by
  rw [asked_bind, asked_call, evaluate_call, failed]
  rfl

@[simp]
theorem asked_map (convert : α → β) (program : Program sig α) :
    (convert <$> program).asked answers = program.asked answers := by
  have sequence : (convert <$> program).asked answers = program.asked answers ++
      match program.evaluate answers with
      | .ok value => (pure (convert value) : Program sig β).asked answers
      | .error _ => [] :=
    asked_bind program fun value => pure (convert value)
  rw [sequence]
  cases program.evaluate answers <;> simp

@[simp]
theorem asked_tryCatch (body : Program sig α) (handler : sig.Error → Program sig α) :
    (tryCatch body handler).asked answers = body.asked answers ++
      match body.evaluate answers with
      | .ok _ => []
      | .error err => (handler err).asked answers := by
  induction body with
  | done outcome => cases outcome <;> rfl
  | await call resume ih => exact congrArg (call :: ·) (ih (answers call))

variable {kind : sig.Call → Prop} {choices : List machine.Choice} {state : machine.State}

/-- A program that only reads the state executes to the outcome that the answers of the
state determine. -/
theorem Calls.execute_eq {program : Program sig α} (calls : program.Calls kind)
    (answered : ∀ {call : sig.Call} {choice : machine.Choice}
      {served : Served sig call machine.State machine.Request}, kind call → choice ∈ choices →
      machine.perform call choice state = some served →
        served.answer = answers call ∧ served.state = state)
    {execution : Execution machine α}
    (executed : program.execute machine choices state = some execution) :
    execution.outcome = program.evaluate answers ∧ execution.state = state := by
  have conforms := calls []
  clear calls
  revert conforms
  generalize ([] : History sig) = past
  intro conforms
  induction program generalizing choices past execution with
  | done outcome =>
      obtain rfl := Option.some.inj executed
      exact ⟨rfl, rfl⟩
  | await call resume ih =>
      obtain ⟨choice, rest, served, later, rfl, performed, continued, rfl⟩ :=
        execute_await executed
      obtain ⟨isAnswer, isState⟩ := answered conforms.1 List.mem_cons_self performed
      rw [isState, isAnswer] at continued
      have evaluated := ih (answers call)
        (fun isKind member made => answered isKind (List.mem_cons_of_mem choice member) made)
        continued _ (conforms.2 _ trivial)
      exact evaluated

/-- A program whose calls neither change the state nor start anything does neither. -/
theorem Calls.execute_reads {program : Program sig α} (calls : program.Calls kind)
    (reads : ∀ {call : sig.Call} {choice : machine.Choice}
      {served : Served sig call machine.State machine.Request}, kind call →
      machine.perform call choice state = some served →
        served.state = state ∧ served.spawned = [])
    {execution : Execution machine α}
    (executed : program.execute machine choices state = some execution) :
    execution.state = state ∧ execution.spawned = [] ∧
      ∀ performed ∈ execution.past, kind performed.call := by
  have conforms := calls []
  clear calls
  revert conforms
  generalize ([] : History sig) = past
  intro conforms
  induction program generalizing choices past execution with
  | done outcome =>
      obtain rfl := Option.some.inj executed
      exact ⟨rfl, rfl, by simp⟩
  | await call resume ih =>
      obtain ⟨choice, rest, served, later, rfl, performed, continued, rfl⟩ :=
        execute_await executed
      obtain ⟨isState, nothing⟩ := reads conforms.1 performed
      rw [isState] at continued
      obtain ⟨same, none, kinds⟩ := ih served.answer continued _ (conforms.2 _ trivial)
      refine ⟨same, by simp [nothing, none], fun other member => ?_⟩
      rcases List.mem_append.mp member with recent | first
      · exact kinds other recent
      · obtain rfl := List.mem_singleton.mp first
        exact conforms.1

/-- The rule for a call that can only go one way. -/
theorem execute_call_served {choice : machine.Choice} {call : sig.Call}
    {next : sig.Answer call → Program sig β} {answer : sig.Answer call} {state' : machine.State}
    {spawned : List machine.Request} (only : ∀ made ∈ choices, made = choice)
    (performed : machine.perform call choice state = some ⟨.ok answer, state', spawned⟩)
    {execution : Execution machine β}
    (executed : (Program.call call >>= next).execute machine choices state = some execution) :
    ∃ rest second, (∀ made ∈ rest, made = choice) ∧
      (next answer).execute machine rest state' = some second ∧
      execution = second.after [⟨call, .ok answer⟩] spawned := by
  obtain ⟨made, rest, served, rfl, isServed, ended⟩ := execute_call_bind executed
  obtain ⟨rfl, only⟩ := List.forall_mem_cons.mp only
  obtain rfl := Option.some.inj (performed.symm.trans isServed)
  obtain ⟨second, continued, isExecution⟩ := ended
  exact ⟨rest, second, only, continued, isExecution⟩

/-- A program executes under choices of a kind that fits all of its calls in every state. -/
theorem Calls.exists_execute {program : Program sig α} (calls : program.Calls kind)
    (machine : Machine sig) {admissible : machine.Choice → Prop}
    (fits : ∀ (call : sig.Call) (state : machine.State), kind call →
      ∃ choice served, admissible choice ∧ machine.perform call choice state = some served)
    (state : machine.State) :
    ∃ choices execution, (∀ choice ∈ choices, admissible choice) ∧
      program.execute machine choices state = some execution := by
  have conforms := calls []
  clear calls
  revert conforms
  generalize ([] : History sig) = past
  intro conforms
  induction program generalizing state past with
  | done outcome => exact ⟨[], _, by simp, rfl⟩
  | await call resume ih =>
      obtain ⟨choice, served, isAdmissible, performed⟩ := fits call state conforms.1
      obtain ⟨choices, later, areAdmissible, continued⟩ :=
        ih served.answer served.state _ (conforms.2 served.answer trivial)
      refine ⟨choice :: choices, later.after [⟨call, served.answer⟩] served.spawned,
        List.forall_mem_cons.mpr ⟨isAdmissible, areAdmissible⟩, ?_⟩
      rw [execute, performed, Option.bind_some, continued, Option.map_some]

end Program

end Awaiting

import CosmosPay.Awaiting.Execution

/-!
# Batches whose items may fail

A loop that works off a batch and catches what the work on an item throws.  Every item is
attempted.  If a failed attempt leaves nothing behind, then the loop has the effect that it
would have had on the batch without the items that failed.
-/

namespace Awaiting

variable {sig : Signature} {machine : Machine sig} {α β : Type}

/-- The work on one item: the state it began in, the choices it used, and how it ended. -/
structure Attempt (machine : Machine sig) (β : Type) where
  item : β
  before : machine.State
  choices : List machine.Choice
  execution : Execution machine PUnit

namespace Attempt

def failed (attempt : Attempt machine β) : Bool :=
  match attempt.execution.outcome with
  | .error _ => true
  | .ok _ => false

/-- The choices of all attempts. -/
def allChoices (attempts : List (Attempt machine β)) : List machine.Choice :=
  attempts.flatMap Attempt.choices

/-- The calls of all attempts, the newest first. -/
def allCalls (attempts : List (Attempt machine β)) : History sig :=
  attempts.reverse.flatMap fun attempt => attempt.execution.past

/-- The requests that all attempts have started. -/
def allSpawned (attempts : List (Attempt machine β)) : List machine.Request :=
  attempts.flatMap fun attempt => attempt.execution.spawned

end Attempt

open Attempt

namespace Program

variable {choices : List machine.Choice} {state : machine.State}

/-- A guarded program ends as it does without the guard, or goes on in the handler. -/
theorem execute_tryCatch {program : Program sig α} {handler : sig.Error → Program sig α}
    {execution : Execution machine α}
    (executed : (tryCatch program handler).execute machine choices state = some execution) :
    ∃ first, program.execute machine choices state = some first ∧
      match first.outcome with
      | .ok value =>
          execution = ⟨.ok value, first.state, first.past, first.spawned, first.choices⟩
      | .error err => ∃ second,
          (handler err).execute machine first.choices first.state = some second ∧
            execution = second.after first.past first.spawned := by
  induction program generalizing choices state execution with
  | done outcome =>
      refine ⟨_, rfl, ?_⟩
      cases outcome with
      | ok value => exact (Option.some.inj executed).symm
      | error err => exact ⟨execution, executed, by simp [Execution.after]⟩
  | await call resume ih =>
      have sequence : (await call fun answer => tryCatch (resume answer) handler).execute machine
          choices state = some execution := executed
      obtain ⟨choice, rest, served, later, rfl, performed, continued, rfl⟩ :=
        execute_await sequence
      obtain ⟨⟨outcome, state', past, spawned, left⟩, isFirst, ended⟩ := ih served.answer continued
      refine ⟨Execution.after ⟨outcome, state', past, spawned, left⟩
        [⟨call, served.answer⟩] served.spawned, ?_, ?_⟩
      · simp [execute, performed, isFirst]
      · cases outcome with
        | ok value =>
            rw [ended]
            rfl
        | error err =>
            obtain ⟨second, isSecond, rfl⟩ := ended
            exact ⟨second, isSecond, by simp⟩

/-- What the work on an item throws is caught. -/
def caught (program : Program sig PUnit) : Program sig PUnit :=
  tryCatch program fun _ => pure ⟨⟩

/-- Catching changes the outcome only. -/
theorem execute_caught {program : Program sig PUnit} {execution : Execution machine PUnit}
    (executed : (caught program).execute machine choices state = some execution) :
    ∃ first, program.execute machine choices state = some first ∧
      execution = { first with outcome := .ok ⟨⟩ } := by
  obtain ⟨⟨outcome, state', past, spawned, left⟩, isFirst, ended⟩ := execute_tryCatch executed
  refine ⟨_, isFirst, ?_⟩
  cases outcome with
  | ok value => exact ended
  | error err =>
      obtain ⟨second, isSecond, rfl⟩ := ended
      obtain rfl := Option.some.inj isSecond
      simp [Execution.after]

theorem execute_caught_of {program : Program sig PUnit} {first : Execution machine PUnit}
    (executed : program.execute machine choices state = some first) :
    (caught program).execute machine choices state = some { first with outcome := .ok ⟨⟩ } := by
  induction program generalizing choices state first with
  | done outcome =>
      obtain rfl := Option.some.inj executed
      cases outcome <;> rfl
  | await call resume ih =>
      obtain ⟨choice, rest, served, later, rfl, performed, continued, rfl⟩ :=
        execute_await executed
      have sequence : (caught (await call resume)).execute machine (choice :: rest) state =
          (await call fun answer => caught (resume answer)).execute machine (choice :: rest)
            state := rfl
      rw [sequence, execute, performed, Option.bind_some, ih served.answer continued,
        Option.map_some]
      rfl

end Program

open Program

variable {body : β → Program sig PUnit}

/-- The attempts on the items of a batch, one after the other. -/
inductive Batch (machine : Machine sig) (body : β → Program sig PUnit) :
    List β → machine.State → List (Attempt machine β) → machine.State → Prop
  | nil (state : machine.State) : Batch machine body [] state [] state
  | cons {item : β} {items : List β} {state final : machine.State}
      {choices : List machine.Choice} {execution : Execution machine PUnit}
      {attempts : List (Attempt machine β)}
      (executed : (body item).execute machine choices state = some execution)
      (exact : execution.choices = [])
      (rest : Batch machine body items execution.state attempts final) :
      Batch machine body (item :: items) state (⟨item, state, choices, execution⟩ :: attempts)
        final

namespace Batch

variable {items : List β} {state final : machine.State} {attempts : List (Attempt machine β)}

/-- Every item is attempted, in order. -/
theorem attempted (batch : Batch machine body items state attempts final) :
    attempts.map Attempt.item = items := by
  induction batch with
  | nil state => rfl
  | cons executed exact rest ih => rw [List.map_cons, ih]

theorem executed (batch : Batch machine body items state attempts final)
    {attempt : Attempt machine β} (member : attempt ∈ attempts) :
    (body attempt.item).execute machine attempt.choices attempt.before =
      some attempt.execution := by
  induction batch with
  | nil state => cases member
  | cons executed exact rest ih =>
      rcases List.mem_cons.mp member with rfl | later
      · exact executed
      · exact ih later

/-- The loop works its batch off, and never throws. -/
theorem of_execute {choices : List machine.Choice} {execution : Execution machine PUnit}
    (looped : (items.forM fun item => caught (body item)).execute machine choices state =
      some execution) :
    ∃ attempts, Batch machine body items state attempts execution.state ∧
      choices = allChoices attempts ++ execution.choices ∧ execution.outcome = .ok ⟨⟩ ∧
      execution.past = allCalls attempts ∧ execution.spawned = allSpawned attempts := by
  induction items generalizing choices state execution with
  | nil =>
      obtain rfl := Option.some.inj looped
      exact ⟨[], .nil state, rfl, rfl, rfl, rfl⟩
  | cons item items ih =>
      have sequence : (caught (body item) >>= fun _ =>
          items.forM fun item => caught (body item)).execute machine choices state =
            some execution := looped
      obtain ⟨first, isFirst, ended⟩ := execute_bind sequence
      obtain ⟨attempt, isAttempt, rfl⟩ := execute_caught isFirst
      obtain ⟨second, isSecond, rfl⟩ := ended
      obtain ⟨used, rfl, again⟩ := execute_uses isAttempt
      obtain ⟨attempts, batch, split, outcome, past, spawned⟩ := ih isSecond
      have whole := again []
      rw [List.append_nil] at whole
      refine ⟨⟨item, state, used, { attempt with choices := [] }⟩ :: attempts,
        .cons whole rfl batch, ?_, outcome, ?_, ?_⟩
      · have left : attempt.choices = allChoices attempts ++ second.choices := split
        rw [left, ← List.append_assoc]
        rfl
      · simp [allCalls, past]
      · simp [allSpawned, spawned]

/-- Under the choices of its attempts the loop does this work, whatever choices follow. -/
theorem execute (batch : Batch machine body items state attempts final)
    (rest : List machine.Choice) :
    (items.forM fun item => caught (body item)).execute machine (allChoices attempts ++ rest)
      state = some ⟨.ok ⟨⟩, final, allCalls attempts, allSpawned attempts, rest⟩ := by
  induction batch with
  | nil state => rfl
  | @cons item items state final choices execution attempts executed exact others ih =>
      obtain ⟨used, split, again⟩ := execute_uses executed
      rw [exact, List.append_nil] at split
      subst split
      have first := execute_caught_of (again (allChoices attempts ++ rest))
      have sequence : ((item :: items).forM fun item => caught (body item)) =
          (caught (body item) >>= fun _ => items.forM fun item => caught (body item)) := rfl
      have order : allChoices (⟨item, state, choices, execution⟩ :: attempts) ++ rest =
          choices ++ (allChoices attempts ++ rest) := by
        simp [allChoices]
      rw [sequence, order, execute_bind_of first rfl ih]
      simp [Execution.after, allCalls, allSpawned]

/-- A pass asks for its batch, and works it off if it gets one. -/
theorem of_pass {call : sig.Call} {listing : sig.Answer call → List β}
    {choices : List machine.Choice} {execution : Execution machine PUnit}
    (passed : (Program.call call >>= fun listed =>
      (listing listed).forM fun item => caught (body item)).execute machine choices state =
        some execution) :
    ∃ choice rest served, choices = choice :: rest ∧
      machine.perform call choice state = some served ∧
      ((∃ err, served.answer = .error err ∧ execution =
          ⟨.error err, served.state, [⟨call, .error err⟩], served.spawned, rest⟩) ∨
        ∃ listed attempts, served.answer = .ok listed ∧
          Batch machine body (listing listed) served.state attempts execution.state ∧
          execution.outcome = .ok ⟨⟩ ∧
          execution.past = allCalls attempts ++ [⟨call, .ok listed⟩] ∧
          execution.spawned = served.spawned ++ allSpawned attempts) := by
  obtain ⟨choice, rest, ⟨answer, after, spawned⟩, rfl, performed, ended⟩ :=
    execute_call_bind passed
  refine ⟨choice, rest, _, rfl, performed, ?_⟩
  cases answer with
  | error err => exact .inl ⟨err, rfl, ended⟩
  | ok listed =>
      obtain ⟨second, looped, rfl⟩ := ended
      obtain ⟨attempts, batch, -, outcome, past, started⟩ := of_execute looped
      exact .inr ⟨listed, attempts, rfl, batch, outcome, by simp [past], by simp [started]⟩

/-- Failed attempts that leave nothing behind might as well not have been made. -/
theorem without_failed (batch : Batch machine body items state attempts final)
    (harmless : ∀ attempt ∈ attempts, attempt.failed = true →
      attempt.execution.state = attempt.before) :
    Batch machine body ((attempts.filter fun attempt => !attempt.failed).map Attempt.item) state
      (attempts.filter fun attempt => !attempt.failed) final := by
  induction batch with
  | nil state => exact .nil state
  | @cons item items state final choices execution attempts executed exact rest ih =>
      have later := ih fun attempt member => harmless attempt (List.mem_cons_of_mem _ member)
      cases failed : Attempt.failed ⟨item, state, choices, execution⟩ with
      | false =>
          rw [List.filter_cons_of_pos (by simp [failed])]
          exact .cons executed exact later
      | true =>
          have same : execution.state = state := harmless _ List.mem_cons_self failed
          rw [List.filter_cons_of_neg (by simp [failed])]
          rw [same] at later
          exact later

theorem allSpawned_without_failed (harmless : ∀ attempt ∈ attempts, attempt.failed = true →
      attempt.execution.spawned = []) :
    allSpawned (attempts.filter fun attempt => !attempt.failed) = allSpawned attempts := by
  induction attempts with
  | nil => rfl
  | cons attempt attempts ih =>
      have later := ih fun other member => harmless other (List.mem_cons_of_mem _ member)
      cases failed : attempt.failed with
      | false =>
          rw [List.filter_cons_of_pos (by simp [failed])]
          exact congrArg (attempt.execution.spawned ++ ·) later
      | true =>
          rw [List.filter_cons_of_neg (by simp [failed]), later]
          simp [allSpawned, harmless attempt List.mem_cons_self failed]

/-- If every attempt takes effect as a function of a part of the state, then so does the batch. -/
theorem simulates {σ : Type} (embed : σ → machine.State) (effect : σ → β → σ)
    (batch : Batch machine body items state attempts final)
    (works : ∀ attempt ∈ attempts, ∀ part, attempt.before = embed part →
      attempt.execution.state = embed (effect part attempt.item))
    {part : σ} (start : state = embed part) : final = embed (items.foldl effect part) := by
  induction batch generalizing part with
  | nil state => exact start
  | cons executed exact rest ih =>
      have first := works _ List.mem_cons_self part start
      exact ih (fun attempt member => works attempt (List.mem_cons_of_mem _ member)) first

/-- What every attempt keeps, the batch keeps. -/
theorem invariant (batch : Batch machine body items state attempts final)
    (holds : machine.State → Prop)
    (keeps : ∀ attempt ∈ attempts, holds attempt.before → holds attempt.execution.state)
    (start : holds state) : holds final := by
  induction batch with
  | nil state => exact start
  | cons executed exact rest ih =>
      exact ih (fun attempt member => keeps attempt (List.mem_cons_of_mem _ member))
        (keeps _ List.mem_cons_self start)

end Batch

end Awaiting

import Mathlib.Data.List.Basic

/-!
# Programs cut at their awaits

An asynchronous function runs undisturbed between two awaits and hands the
control back at each of them.  A `Program` records exactly this: it is finished
with an outcome, or it is paused at a call and resumes with the answer, which
may be an error.  Nothing is said here about what the calls do.

The second part is a program logic over histories.  `Conforms` says that every
call of a program is permitted by the calls and answers before it, and that the
outcome is justified by the whole history, as long as the answers are those that
the program may rely on.  It has the usual rules for sequencing, exception
handlers and loops.
-/

namespace Awaiting

/-- The calls that a program can await, the answer of each, and the errors that
a call or the program itself can raise. -/
structure Signature where
  Call : Type
  Answer : Call → Type
  Error : Type

/-- What the awaiting program gets back: the answer, or the error thrown at the
await. -/
abbrev Signature.Result (sig : Signature) (call : sig.Call) : Type :=
  Except sig.Error (sig.Answer call)

/-- An asynchronous computation, up to its next await. -/
inductive Program (sig : Signature) (α : Type) : Type where
  | done (outcome : Except sig.Error α)
  | await (call : sig.Call) (resume : sig.Result call → Program sig α)

namespace Program

variable {sig : Signature} {α β γ : Type}

protected def bind : Program sig α → (α → Program sig β) → Program sig β
  | .done (.ok value), next => next value
  | .done (.error err), _ => .done (.error err)
  | .await call resume, next => .await call fun answer => (resume answer).bind next

/-- Run `handler` on the error that `body` ends with, wherever it was raised. -/
protected def tryCatch : Program sig α → (sig.Error → Program sig α) → Program sig α
  | .done (.ok value), _ => .done (.ok value)
  | .done (.error err), handler => handler err
  | .await call resume, handler => .await call fun answer => (resume answer).tryCatch handler

instance : Monad (Program sig) where
  pure value := .done (.ok value)
  bind := Program.bind

instance : MonadExceptOf sig.Error (Program sig) where
  throw err := .done (.error err)
  tryCatch := Program.tryCatch

/-- Await one call and return its answer. -/
def call (call : sig.Call) : Program sig (sig.Answer call) :=
  .await call .done

/-- Has the program nothing left to do? -/
def Finished : Program sig α → Prop
  | .done _ => True
  | .await _ _ => False

instance (program : Program sig α) : Decidable program.Finished :=
  match program with
  | .done _ => .isTrue trivial
  | .await _ _ => .isFalse id

@[simp]
theorem finished_done (outcome : Except sig.Error α) :
    (done outcome : Program sig α).Finished :=
  trivial

@[simp]
theorem not_finished_await (call : sig.Call)
    (resume : sig.Result call → Program sig α) :
    ¬ (await call resume).Finished :=
  id

theorem Finished.outcome {program : Program sig α} (finished : program.Finished) :
    ∃ outcome, program = .done outcome := by
  cases program with
  | done outcome => exact ⟨outcome, rfl⟩
  | await call resume => exact finished.elim

end Program

/-- One call together with what came back. -/
structure Performed (sig : Signature) where
  call : sig.Call
  answer : sig.Result call

/-- The calls performed so far, the newest first. -/
abbrev History (sig : Signature) : Type :=
  List (Performed sig)

namespace Program

variable {sig : Signature} {α β γ : Type}
variable {relies : Performed sig → Prop}
variable {permits permits' : History sig → sig.Call → Prop}
variable {past : History sig}

/-- Started after `past`, the program performs only permitted calls, each judged
by the history before it, and finishes only with a justified outcome. -/
def Conforms (relies : Performed sig → Prop) (permits : History sig → sig.Call → Prop)
    (ensures : History sig → Except sig.Error α → Prop) :
    History sig → Program sig α → Prop
  | past, .done outcome => ensures past outcome
  | past, .await call resume =>
      permits past call ∧ ∀ answer, relies ⟨call, answer⟩ →
        (resume answer).Conforms relies permits ensures (⟨call, answer⟩ :: past)

/-- Sequencing of postconditions: a value continues with `next`, an error ends
the computation. -/
def andThen (relies : Performed sig → Prop) (permits : History sig → sig.Call → Prop)
    (ensures : History sig → Except sig.Error β → Prop) (next : α → Program sig β) :
    History sig → Except sig.Error α → Prop
  | past, .ok value => (next value).Conforms relies permits ensures past
  | past, .error err => ensures past (.error err)

/-- Postcondition of a guarded body: an error continues with the handler. -/
def orElse (relies : Performed sig → Prop) (permits : History sig → sig.Call → Prop)
    (ensures : History sig → Except sig.Error α → Prop)
    (handler : sig.Error → Program sig α) :
    History sig → Except sig.Error α → Prop
  | past, .ok value => ensures past (.ok value)
  | past, .error err => (handler err).Conforms relies permits ensures past

variable {ensures ensures' : History sig → Except sig.Error α → Prop}

@[simp]
theorem conforms_done (outcome : Except sig.Error α) :
    (done outcome : Program sig α).Conforms relies permits ensures past ↔
      ensures past outcome :=
  Iff.rfl

@[simp]
theorem conforms_pure (value : α) :
    (pure value : Program sig α).Conforms relies permits ensures past ↔
      ensures past (.ok value) :=
  Iff.rfl

@[simp]
theorem conforms_throw (err : sig.Error) :
    (throw err : Program sig α).Conforms relies permits ensures past ↔
      ensures past (.error err) :=
  Iff.rfl

theorem conforms_call (call : sig.Call)
    {ensures : History sig → sig.Result call → Prop} :
    (Program.call call).Conforms relies permits ensures past ↔
      permits past call ∧ ∀ answer, relies ⟨call, answer⟩ →
        ensures (⟨call, answer⟩ :: past) answer :=
  Iff.rfl

@[simp]
theorem andThen_ok {ensures : History sig → Except sig.Error β → Prop}
    (next : α → Program sig β) (value : α) :
    andThen relies permits ensures next past (.ok value) ↔
      (next value).Conforms relies permits ensures past :=
  Iff.rfl

@[simp]
theorem andThen_error {ensures : History sig → Except sig.Error β → Prop}
    (next : α → Program sig β) (err : sig.Error) :
    andThen relies permits ensures next past (.error err) ↔ ensures past (.error err) :=
  Iff.rfl

@[simp]
theorem orElse_ok (handler : sig.Error → Program sig α) (value : α) :
    orElse relies permits ensures handler past (.ok value) ↔ ensures past (.ok value) :=
  Iff.rfl

@[simp]
theorem orElse_error (handler : sig.Error → Program sig α) (err : sig.Error) :
    orElse relies permits ensures handler past (.error err) ↔
      (handler err).Conforms relies permits ensures past :=
  Iff.rfl

/-- The rule for sequencing, with the second program's obligation as the
postcondition of the first. -/
theorem conforms_bind {ensures : History sig → Except sig.Error β → Prop}
    (program : Program sig α) (next : α → Program sig β) :
    (program >>= next).Conforms relies permits ensures past ↔
      program.Conforms relies permits (andThen relies permits ensures next) past := by
  induction program generalizing past with
  | done outcome => cases outcome <;> exact Iff.rfl
  | await call resume ih =>
      change (permits past call ∧ ∀ answer, relies _ →
          (resume answer >>= next).Conforms relies permits ensures _) ↔
        permits past call ∧ ∀ answer, relies _ → (resume answer).Conforms relies permits _ _
      exact and_congr_right fun _ => forall_congr' fun answer =>
        imp_congr_right fun _ => ih answer

/-- The rule for an awaited call that is followed by more. -/
theorem conforms_call_bind {call : sig.Call} {next : sig.Answer call → Program sig α} :
    (Program.call call >>= next).Conforms relies permits ensures past ↔
      permits past call ∧
        (∀ err, relies ⟨call, .error err⟩ → ensures (⟨call, .error err⟩ :: past) (.error err)) ∧
        ∀ value, relies ⟨call, .ok value⟩ →
          (next value).Conforms relies permits ensures (⟨call, .ok value⟩ :: past) := by
  rw [conforms_bind, conforms_call]
  refine and_congr_right fun _ => ⟨fun holds => ⟨fun err => holds (.error err),
    fun value => holds (.ok value)⟩, fun ⟨failed, succeeded⟩ answer => ?_⟩
  cases answer with
  | ok value => exact succeeded value
  | error err => exact failed err

/-- The rule for `try`/`catch`. -/
theorem conforms_tryCatch (body : Program sig α) (handler : sig.Error → Program sig α) :
    (tryCatch body handler).Conforms relies permits ensures past ↔
      body.Conforms relies permits (orElse relies permits ensures handler) past := by
  induction body generalizing past with
  | done outcome => cases outcome <;> exact Iff.rfl
  | await call resume ih =>
      change (permits past call ∧ ∀ answer, relies _ →
          (tryCatch (resume answer) handler).Conforms relies permits ensures _) ↔
        permits past call ∧ ∀ answer, relies _ → (resume answer).Conforms relies permits _ _
      exact and_congr_right fun _ => forall_congr' fun answer =>
        imp_congr_right fun _ => ih answer

theorem conforms_map {ensures : History sig → Except sig.Error β → Prop}
    (convert : α → β) (program : Program sig α) :
    (convert <$> program).Conforms relies permits ensures past ↔
      program.Conforms relies permits
        (fun past outcome => ensures past (outcome.map convert)) past := by
  change (program >>= fun value => pure (convert value)).Conforms _ permits ensures past ↔ _
  rw [conforms_bind]
  induction program generalizing past with
  | done outcome => cases outcome <;> exact Iff.rfl
  | await call resume ih =>
      exact and_congr_right fun _ => forall_congr' fun answer =>
        imp_congr_right fun _ => ih answer

/-- The rule for a guarded call whose value is converted. -/
theorem conforms_call_tryCatch {call : sig.Call} {convert : sig.Answer call → α}
    {handler : sig.Error → Program sig α} :
    (tryCatch (convert <$> Program.call call) handler).Conforms relies permits ensures past ↔
      permits past call ∧
        (∀ err, relies ⟨call, .error err⟩ →
          (handler err).Conforms relies permits ensures (⟨call, .error err⟩ :: past)) ∧
        ∀ value, relies ⟨call, .ok value⟩ →
          ensures (⟨call, .ok value⟩ :: past) (.ok (convert value)) := by
  rw [conforms_tryCatch, conforms_map, conforms_call]
  refine and_congr_right fun _ => ⟨fun holds => ⟨fun err => holds (.error err),
    fun value => holds (.ok value)⟩, fun ⟨failed, succeeded⟩ answer => ?_⟩
  cases answer with
  | ok value => exact succeeded value
  | error err => exact failed err

/-- Without obligations every program conforms. -/
theorem conforms_of_forall (program : Program sig α) (permitted : ∀ past call, permits past call)
    (justified : ∀ past outcome, ensures past outcome) :
    program.Conforms relies permits ensures past := by
  induction program generalizing past with
  | done outcome => exact justified past outcome
  | await call resume ih => exact ⟨permitted past call, fun answer _ => ih answer⟩

/-- The rule of consequence. -/
theorem Conforms.mono {program : Program sig α}
    (conforms : program.Conforms relies permits ensures past)
    (weaker : ∀ past call, permits past call → permits' past call)
    (entails : ∀ past outcome, ensures past outcome → ensures' past outcome) :
    program.Conforms relies permits' ensures' past := by
  induction program generalizing past with
  | done outcome => exact entails past outcome conforms
  | await call resume ih =>
      exact ⟨weaker past call conforms.1, fun answer relied =>
        ih answer (conforms.2 answer relied)⟩

theorem Conforms.ensuring {program : Program sig α}
    (conforms : program.Conforms relies permits ensures past)
    (entails : ∀ past outcome, ensures past outcome → ensures' past outcome) :
    program.Conforms relies permits ensures' past :=
  conforms.mono (fun _ _ permitted => permitted) entails

/-- A program only adds to its history. -/
theorem Conforms.grows {program : Program sig α}
    (conforms : program.Conforms relies permits ensures past) :
    program.Conforms relies permits
      (fun later outcome => past ⊆ later ∧ ensures later outcome) past := by
  induction program generalizing past with
  | done outcome => exact ⟨List.Subset.refl past, conforms⟩
  | await call resume ih =>
      refine ⟨conforms.1, fun answer relied => ?_⟩
      refine (ih answer (conforms.2 answer relied)).ensuring fun later outcome grown => ?_
      exact ⟨List.Subset.trans (List.subset_cons_self _ past) grown.1, grown.2⟩

/-- What a program adds to its history are answers that it may rely on. -/
theorem Conforms.relied {program : Program sig α}
    (conforms : program.Conforms relies permits ensures past) :
    program.Conforms relies permits
      (fun later outcome => (∀ performed ∈ later, performed ∈ past ∨ relies performed) ∧
        ensures later outcome) past := by
  induction program generalizing past with
  | done outcome => exact ⟨fun _ => .inl, conforms⟩
  | await call resume ih =>
      refine ⟨conforms.1, fun answer relied => ?_⟩
      refine (ih answer (conforms.2 answer relied)).ensuring fun later outcome justified => ?_
      refine ⟨fun performed member => ?_, justified.2⟩
      rcases justified.1 performed member with older | isRelied
      · rcases List.mem_cons.mp older with rfl | known
        · exact .inr relied
        · exact .inl known
      · exact .inr isRelied

/-- A program whose calls are all of one kind adds only such calls to the history:
its contract may be read as one about what was added. -/
theorem Conforms.extend {kind : sig.Call → Prop} {program : Program sig α}
    {ensures : History sig → Except sig.Error α → Prop}
    (conforms : program.Conforms relies (fun _ call => kind call) ensures past)
    (permitted : ∀ recent call, (∀ performed ∈ recent, kind performed.call) → kind call →
      permits (recent ++ past) call)
    (entails : ∀ recent outcome, (∀ performed ∈ recent, kind performed.call) →
      ensures (recent ++ past) outcome → ensures' (recent ++ past) outcome) :
    program.Conforms relies permits ensures' past := by
  suffices general : ∀ recent start, start = recent ++ past →
      (∀ performed ∈ recent, kind performed.call) →
      program.Conforms relies (fun _ call => kind call) ensures start →
      program.Conforms relies permits ensures' start from
    general [] past rfl (by simp) conforms
  clear conforms
  intro recent start split kinds conforms
  induction program generalizing recent start with
  | done outcome =>
      subst split
      exact entails recent outcome kinds conforms
  | await call resume ih =>
      subst split
      refine ⟨permitted recent call kinds conforms.1, fun answer relied =>
        ih answer (⟨call, answer⟩ :: recent) _ rfl ?_ (conforms.2 answer relied)⟩
      intro performed member
      rcases List.mem_cons.mp member with rfl | older
      · exact conforms.1
      · exact kinds performed older

/-- The rule for a loop over a list: an invariant of the remaining items and the
history that every iteration restores, whether or not it throws. -/
theorem conforms_forM {ensures : History sig → Except sig.Error PUnit → Prop}
    (invariant : List β → History sig → Prop) (iteration : β → Program sig PUnit)
    (iterates : ∀ item rest past, invariant (item :: rest) past →
      (iteration item).Conforms relies permits
        (fun later outcome =>
          match outcome with
          | .ok _ => invariant rest later
          | .error err => ensures later (.error err)) past)
    (finishes : ∀ past, invariant [] past → ensures past (.ok ⟨⟩))
    (items : List β) {past : History sig} (start : invariant items past) :
    (items.forM iteration).Conforms relies permits ensures past := by
  induction items generalizing past with
  | nil => exact finishes past start
  | cons item rest ih =>
      change (iteration item >>= fun _ => rest.forM iteration).Conforms _ permits ensures past
      rw [conforms_bind]
      refine (iterates item rest past start).ensuring fun later outcome holds => ?_
      cases outcome with
      | ok value => exact ih holds
      | error err => exact holds

/-! ## Kinds of calls -/

variable {kind kind' : sig.Call → Prop}

/-- Every call of the program is of one kind, whatever comes back. -/
def Calls (program : Program sig α) (kind : sig.Call → Prop) : Prop :=
  ∀ past, program.Conforms (fun _ => True) (fun _ call => kind call) (fun _ _ => True) past

theorem calls_done (outcome : Except sig.Error α) : (done outcome : Program sig α).Calls kind :=
  fun _ => trivial

theorem calls_pure (value : α) : (pure value : Program sig α).Calls kind :=
  fun _ => trivial

theorem calls_throw (err : sig.Error) : (throw err : Program sig α).Calls kind :=
  fun _ => trivial

theorem calls_call {call : sig.Call} (isKind : kind call) :
    (Program.call call).Calls kind :=
  fun _ => ⟨isKind, fun _ _ => trivial⟩

theorem Calls.bind {program : Program sig α} {next : α → Program sig β}
    (calls : program.Calls kind) (nextCalls : ∀ value, (next value).Calls kind) :
    (program >>= next).Calls kind := by
  intro past
  rw [conforms_bind]
  refine (calls past).ensuring fun later outcome _ => ?_
  cases outcome with
  | ok value => exact nextCalls value later
  | error err => exact trivial

theorem Calls.call_bind {call : sig.Call} {next : sig.Answer call → Program sig β}
    (isKind : kind call) (nextCalls : ∀ value, (next value).Calls kind) :
    (Program.call call >>= next).Calls kind :=
  (calls_call isKind).bind nextCalls

theorem Calls.map {program : Program sig α} (calls : program.Calls kind) (convert : α → β) :
    (convert <$> program).Calls kind :=
  fun past => (conforms_map convert program).mpr (calls past)

theorem Calls.tryCatch {body : Program sig α} {handler : sig.Error → Program sig α}
    (calls : body.Calls kind) (handlerCalls : ∀ err, (handler err).Calls kind) :
    (tryCatch body handler).Calls kind := by
  intro past
  rw [conforms_tryCatch]
  refine (calls past).ensuring fun later outcome _ => ?_
  cases outcome with
  | ok value => exact trivial
  | error err => exact handlerCalls err later

theorem calls_forM {iteration : β → Program sig PUnit}
    (calls : ∀ item, (iteration item).Calls kind) (items : List β) :
    (items.forM iteration).Calls kind := by
  induction items with
  | nil => exact calls_pure _
  | cons item rest ih => exact (calls item).bind fun _ => ih

theorem Calls.mono {program : Program sig α} (calls : program.Calls kind)
    (weaker : ∀ call, kind call → kind' call) : program.Calls kind' :=
  fun past => (calls past).mono (fun _ call => weaker call) fun _ _ done => done

theorem Conforms.relying {relies' : Performed sig → Prop} {program : Program sig α}
    (conforms : program.Conforms relies permits ensures past)
    (stronger : ∀ performed, relies' performed → relies performed) :
    program.Conforms relies' permits ensures past := by
  induction program generalizing past with
  | done outcome => exact conforms
  | await call resume ih =>
      exact ⟨conforms.1, fun answer relied => ih answer (conforms.2 answer (stronger _ relied))⟩

/-- A contract and a kind of calls, both kept. -/
theorem Conforms.and_kind {program : Program sig α} {past' : History sig}
    (conforms : program.Conforms relies permits ensures past)
    (calls : program.Conforms (fun _ => True) (fun _ call => kind call) (fun _ _ => True) past') :
    program.Conforms relies (fun past call => permits past call ∧ kind call) ensures past := by
  induction program generalizing past past' with
  | done outcome => exact conforms
  | await call resume ih =>
      exact ⟨⟨conforms.1, calls.1⟩, fun answer relied =>
        ih answer (conforms.2 answer relied) (calls.2 answer trivial)⟩

/-- The frame rule: calls of one kind keep whatever such calls keep. -/
theorem Calls.conforms {program : Program sig α} (calls : program.Calls kind)
    (permitted : ∀ recent call, (∀ performed ∈ recent, kind performed.call) → kind call →
      permits (recent ++ past) call)
    (justified : ∀ recent outcome, (∀ performed ∈ recent, kind performed.call) →
      ensures (recent ++ past) outcome) :
    program.Conforms relies permits ensures past :=
  ((calls past).relying fun _ _ => trivial).extend permitted
    fun recent outcome kinds _ => justified recent outcome kinds

end Program

end Awaiting

import CosmosPay.Awaiting.Execution

/-!
# Two programs side by side

A relational program logic.  `Paired` holds of two programs that await linked calls, one
after the other, and go on alike from answers that the link relates.  On a machine that
keeps two states alike under linked calls, paired programs have related executions under
the same choices.
-/

namespace Awaiting

variable {sig : Signature} {machine : Machine sig} {α β γ δ : Type}

/-- The same error, or related values. -/
inductive Agree {ε : Type} (values : α → β → Prop) : Except ε α → Except ε β → Prop where
  | ok {first : α} {second : β} (related : values first second) :
      Agree values (.ok first) (.ok second)
  | error (err : ε) : Agree values (.error err) (.error err)

theorem Agree.eq {ε : Type} {first second : Except ε α} (agree : Agree Eq first second) :
    first = second := by
  cases agree with
  | ok related => rw [related]
  | error err => rfl

section Options

variable {first : Option α} {second : Option β} {values : α → β → Prop} {results : γ → δ → Prop}

theorem rel_bind {next : α → Option γ} {next' : β → Option δ}
    (related : Option.Rel values first second)
    (continues : ∀ value value', values value value' →
      Option.Rel results (next value) (next' value')) :
    Option.Rel results (first.bind next) (second.bind next') := by
  cases related with
  | none => exact .none
  | some isRelated => exact continues _ _ isRelated

theorem rel_map {convert : α → γ} {convert' : β → δ} (related : Option.Rel values first second)
    (continues : ∀ value value', values value value' →
      results (convert value) (convert' value')) :
    Option.Rel results (first.map convert) (second.map convert') := by
  cases related with
  | none => exact .none
  | some isRelated => exact .some (continues _ _ isRelated)

end Options

/-- Which calls are answered alike, and how their answers are related. -/
abbrev Links (sig : Signature) : Type :=
  (first second : sig.Call) → (sig.Answer first → sig.Answer second → Prop) → Prop

namespace Program

inductive Paired (links : Links sig) (values : α → β → Prop) :
    Program sig α → Program sig β → Prop where
  | done {first : Except sig.Error α} {second : Except sig.Error β}
      (agree : Agree values first second) : Paired links values (.done first) (.done second)
  | await {call call' : sig.Call} {answers : sig.Answer call → sig.Answer call' → Prop}
      {resume : sig.Result call → Program sig α} {resume' : sig.Result call' → Program sig β}
      (linked : links call call' answers)
      (continues : ∀ answer answer', Agree answers answer answer' →
        Paired links values (resume answer) (resume' answer')) :
      Paired links values (.await call resume) (.await call' resume')

variable {links : Links sig} {values : α → β → Prop} {results : γ → δ → Prop}

theorem paired_pure {first : α} {second : β} (related : values first second) :
    (pure first : Program sig α).Paired links values (pure second) :=
  .done (.ok related)

theorem paired_throw (err : sig.Error) :
    (throw err : Program sig α).Paired links values (throw err) :=
  .done (.error err)

theorem paired_call {call call' : sig.Call} {values : sig.Answer call → sig.Answer call' → Prop}
    (linked : links call call' values) :
    (Program.call call).Paired links values (Program.call call') :=
  .await linked fun _ _ agree => .done agree

/-- The rule for sequencing. -/
theorem Paired.bind {first : Program sig α} {second : Program sig β} {next : α → Program sig γ}
    {next' : β → Program sig δ} (paired : first.Paired links values second)
    (continues : ∀ value value', values value value' →
      (next value).Paired links results (next' value')) :
    (first >>= next).Paired links results (second >>= next') := by
  induction paired with
  | done agree =>
      cases agree with
      | ok related => exact continues _ _ related
      | error err => exact .done (.error err)
  | await linked _ ih => exact .await linked ih

/-- The rule for linked calls that are followed by more. -/
theorem paired_call_bind {call call' : sig.Call}
    {answers : sig.Answer call → sig.Answer call' → Prop}
    {next : sig.Answer call → Program sig γ} {next' : sig.Answer call' → Program sig δ}
    (linked : links call call' answers)
    (continues : ∀ answer answer', answers answer answer' →
      (next answer).Paired links results (next' answer')) :
    (Program.call call >>= next).Paired links results (Program.call call' >>= next') :=
  (paired_call linked).bind continues

theorem Paired.map {first : Program sig α} {second : Program sig β} {convert : α → γ}
    {convert' : β → δ} (paired : first.Paired links values second)
    (related : ∀ value value', values value value' →
      results (convert value) (convert' value')) :
    (convert <$> first).Paired links results (convert' <$> second) :=
  paired.bind fun value value' isRelated => paired_pure (related value value' isRelated)

/-- The rule for `try`/`catch`. -/
theorem Paired.tryCatch {body : Program sig α} {body' : Program sig β}
    {handler : sig.Error → Program sig α} {handler' : sig.Error → Program sig β}
    (paired : body.Paired links values body')
    (handles : ∀ err, (handler err).Paired links values (handler' err)) :
    (tryCatch body handler).Paired links values (tryCatch body' handler') := by
  induction paired with
  | done agree =>
      cases agree with
      | ok related => exact .done (.ok related)
      | error err => exact handles err
  | await linked _ ih => exact .await linked ih

/-! ## Related executions -/

/-- Linked calls have related answers in states that are alike, and keep them alike. -/
def Lockstep (machine : Machine sig) (links : Links sig)
    (alike : machine.State → machine.State → Prop) : Prop :=
  ∀ {call call' : sig.Call} {answers : sig.Answer call → sig.Answer call' → Prop},
    links call call' answers → ∀ (choice : machine.Choice) {state state' : machine.State},
      alike state state' →
      Option.Rel (fun served served' => Agree answers served.answer served'.answer ∧
          alike served.state served'.state ∧ served.spawned = served'.spawned)
        (machine.perform call choice state) (machine.perform call' choice state')

/-- Executions with related outcomes that end in states that are alike. -/
structure Matches (alike : machine.State → machine.State → Prop) (values : α → β → Prop)
    (first : Execution machine α) (second : Execution machine β) : Prop where
  outcome : Agree values first.outcome second.outcome
  state : alike first.state second.state
  spawned : first.spawned = second.spawned
  choices : first.choices = second.choices

/-- Paired programs match under the same choices: both are stuck, or both end. -/
theorem Paired.execute {alike : machine.State → machine.State → Prop}
    (lockstep : Lockstep machine links alike) {first : Program sig α} {second : Program sig β}
    (paired : first.Paired links values second) (choices : List machine.Choice)
    {state state' : machine.State} (isAlike : alike state state') :
    Option.Rel (Matches alike values) (first.execute machine choices state)
      (second.execute machine choices state') := by
  induction paired generalizing choices state state' with
  | done agree => exact .some ⟨agree, isAlike, rfl, rfl⟩
  | await linked _ ih =>
      cases choices with
      | nil => exact .none
      | cons choice rest =>
          refine rel_bind (lockstep linked choice isAlike) fun served served' answered => ?_
          obtain ⟨agree, still, sameSpawned⟩ := answered
          refine rel_map (ih _ _ agree rest still) fun later later' matched => ?_
          exact ⟨matched.outcome, matched.state, by simp [sameSpawned, matched.spawned],
            matched.choices⟩

end Program

/-! ## Sequences of requests -/

/-- A request to serve, or something that happens between two requests. -/
inductive Errand (machine : Machine sig) where
  | serve (request : machine.Request)
  | move (move : machine.Move)

/-- What a sequence of requests has returned, and what it has left. -/
structure Serving (machine : Machine sig) where
  outcomes : List (Except sig.Error machine.Reply)
  state : machine.State
  spawned : List machine.Request

/-- Serve one request after the other, each without interruption. -/
def Machine.serveAll (machine : Machine sig) :
    List (Errand machine) → List machine.Choice → machine.State → Option (Serving machine)
  | [], _, state => some ⟨[], state, []⟩
  | .serve request :: rest, choices, state =>
      ((machine.body request).execute machine choices state).bind fun served =>
        (machine.serveAll rest served.choices served.state).map fun later =>
          ⟨served.outcome :: later.outcomes, later.state, served.spawned ++ later.spawned⟩
  | .move move :: rest, choices, state =>
      (machine.move move state).bind (machine.serveAll rest choices)

/-- A sequence of requests that pair with themselves cannot tell two states apart that are
alike: it returns the same from both, starts the same, and leaves them alike. -/
theorem serveAll_alike {links : Links sig} {alike : machine.State → machine.State → Prop}
    (lockstep : Program.Lockstep machine links alike)
    (moves : ∀ move {state state'}, alike state state' →
      Option.Rel alike (machine.move move state) (machine.move move state'))
    (errands : List (Errand machine))
    (paired : ∀ request, .serve request ∈ errands →
      (machine.body request).Paired links Eq (machine.body request))
    (choices : List machine.Choice) {state state' : machine.State} (isAlike : alike state state') :
    Option.Rel (fun served served' => served.outcomes = served'.outcomes ∧
        alike served.state served'.state ∧ served.spawned = served'.spawned)
      (machine.serveAll errands choices state) (machine.serveAll errands choices state') := by
  induction errands generalizing choices state state' with
  | nil => exact .some ⟨rfl, isAlike, rfl⟩
  | cons errand rest ih =>
      have ih := @ih fun request member => paired request (List.mem_cons_of_mem errand member)
      cases errand with
      | serve request =>
          have pairs := paired request List.mem_cons_self
          refine rel_bind (pairs.execute lockstep choices isAlike) fun served served' matched => ?_
          rw [matched.choices]
          refine rel_map (ih _ matched.state) fun later later' continued => ?_
          obtain ⟨sameOutcomes, still, sameSpawned⟩ := continued
          exact ⟨by rw [matched.outcome.eq, sameOutcomes], still,
            by rw [matched.spawned, sameSpawned]⟩
      | move move => exact rel_bind (moves move isAlike) fun _ _ still => ih choices still

end Awaiting

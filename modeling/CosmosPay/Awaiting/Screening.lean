import CosmosPay.Awaiting.Batches
import Mathlib.Data.List.Forall2

/-!
# Runs that leave something out

Requests are served one after the other, each without interruption.  A program follows
another if it can do what the other does from a state that is alike, with part of the
other's choices; a loop over a batch is followed by the loop over some of its items, if the
work on the others keeps the states alike.
-/

namespace Awaiting

variable {sig : Signature} {machine : Machine sig} {α β : Type}
variable {admits : machine.State → sig.Call → Prop}

namespace Program

variable {choices : List machine.Choice} {state state' : machine.State}

/-! ## Conditions on calls -/

/-- Every call that is made under the choices meets the condition. -/
def Meets (machine : Machine sig) (admits : machine.State → sig.Call → Prop) :
    Program sig α → List machine.Choice → machine.State → Prop
  | .done _, _, _ => True
  | .await _ _, [], _ => True
  | .await call resume, choice :: rest, state => admits state call ∧
      ∀ served, machine.perform call choice state = some served →
        (resume served.answer).Meets machine admits rest served.state

/-- The condition can be checked along the execution. -/
def decidableMeets [∀ state call, Decidable (admits state call)] :
    (program : Program sig α) → (choices : List machine.Choice) → (state : machine.State) →
      Decidable (program.Meets machine admits choices state)
  | .done _, _, _ => .isTrue trivial
  | .await _ _, [], _ => .isTrue trivial
  | .await call resume, choice :: rest, state =>
      match performed : machine.perform call choice state with
      | none => decidable_of_iff (admits state call)
          ⟨fun admitted => ⟨admitted, fun _ isServed => by simp [performed] at isServed⟩, And.left⟩
      | some served =>
          have : Decidable ((resume served.answer).Meets machine admits rest served.state) :=
            decidableMeets (resume served.answer) rest served.state
          decidable_of_iff (admits state call ∧
              (resume served.answer).Meets machine admits rest served.state)
            ⟨fun ⟨admitted, continued⟩ => ⟨admitted, fun _ isServed => by
              obtain rfl := Option.some.inj (performed.symm.trans isServed)
              exact continued⟩,
              fun ⟨admitted, continued⟩ => ⟨admitted, continued served performed⟩⟩

instance [∀ state call, Decidable (admits state call)] (program : Program sig α)
    (choices : List machine.Choice) (state : machine.State) :
    Decidable (program.Meets machine admits choices state) :=
  decidableMeets program choices state

/-- The parts of a sequence meet what the sequence meets. -/
theorem Meets.bind {program : Program sig α} {next : α → Program sig β}
    (meets : (program >>= next).Meets machine admits choices state) :
    program.Meets machine admits choices state ∧ ∀ first value,
      program.execute machine choices state = some first → first.outcome = .ok value →
        (next value).Meets machine admits first.choices first.state := by
  induction program generalizing choices state with
  | done outcome =>
      refine ⟨trivial, fun first value executed returned => ?_⟩
      obtain rfl := Option.some.inj executed
      obtain rfl : outcome = .ok value := returned
      exact meets
  | await call resume ih =>
      cases choices with
      | nil => exact ⟨trivial, fun first value executed => by cases executed⟩
      | cons choice rest =>
          obtain ⟨admitted, continued⟩ := meets
          refine ⟨⟨admitted, fun served performed => (ih _ (continued served performed)).1⟩,
            fun first value executed returned => ?_⟩
          obtain ⟨_, _, served, later, split, performed, isLater, rfl⟩ := execute_await executed
          cases split
          exact (ih _ (continued served performed)).2 later value isLater returned

theorem Meets.of_tryCatch {program : Program sig α} {handler : sig.Error → Program sig α}
    (meets : (tryCatch program handler).Meets machine admits choices state) :
    program.Meets machine admits choices state := by
  induction program generalizing choices state with
  | done outcome => trivial
  | await call resume ih =>
      cases choices with
      | nil => trivial
      | cons choice rest =>
          exact ⟨meets.1, fun served performed => ih _ (meets.2 served performed)⟩

/-! ## Along a contract -/

section Contracts

variable {relies : Performed sig → Prop} {permits : History sig → sig.Call → Prop}
variable {ensures : History sig → Except sig.Error α → Prop} {past : History sig}
variable {program : Program sig α} {execution : Execution machine α}

/-- What permitted calls keep, a program keeps that conforms. -/
theorem Conforms.keeps (invariant : History sig → machine.State → Prop)
    (step : ∀ {past : History sig} {call : sig.Call} {choice : machine.Choice}
      {state : machine.State} {served : Served sig call machine.State machine.Request},
      invariant past state → permits past call → machine.perform call choice state = some served →
        relies ⟨call, served.answer⟩ ∧ invariant (⟨call, served.answer⟩ :: past) served.state)
    (conforms : program.Conforms relies permits ensures past) (start : invariant past state)
    (executed : program.execute machine choices state = some execution) :
    invariant (execution.past ++ past) execution.state := by
  induction program generalizing choices state execution past with
  | done outcome =>
      obtain rfl := Option.some.inj executed
      exact start
  | await call resume ih =>
      obtain ⟨choice, rest, served, later, rfl, performed, continued, rfl⟩ :=
        execute_await executed
      obtain ⟨relied, kept⟩ := step start conforms.1 performed
      simpa using ih served.answer (conforms.2 _ relied) kept continued

/-- A program that conforms does the same from two states, if permitted calls are answered
the same from states that are alike. -/
theorem Conforms.follows (alike : History sig → machine.State → machine.State → Prop)
    (step : ∀ {past : History sig} {call : sig.Call} {choice : machine.Choice}
      {state state' : machine.State} {served : Served sig call machine.State machine.Request},
      alike past state state' → permits past call → admits state call →
        machine.perform call choice state = some served → relies ⟨call, served.answer⟩ ∧
          ∃ served', machine.perform call choice state' = some served' ∧
            served'.answer = served.answer ∧
            alike (⟨call, served.answer⟩ :: past) served.state served'.state)
    (conforms : program.Conforms relies permits ensures past) (start : alike past state state')
    (meets : program.Meets machine admits choices state)
    (executed : program.execute machine choices state = some execution) :
    ∃ execution', program.execute machine choices state' = some execution' ∧
      execution'.outcome = execution.outcome ∧ execution'.choices = execution.choices ∧
      alike (execution.past ++ past) execution.state execution'.state := by
  induction program generalizing choices state state' execution past with
  | done outcome =>
      obtain rfl := Option.some.inj executed
      exact ⟨_, rfl, rfl, rfl, start⟩
  | await call resume ih =>
      obtain ⟨choice, rest, served, later, rfl, performed, continued, rfl⟩ :=
        execute_await executed
      obtain ⟨relied, served', performed', sameAnswer, kept⟩ :=
        step start conforms.1 meets.1 performed
      obtain ⟨later', continued', outcome, choices, still⟩ :=
        ih served.answer (conforms.2 _ relied) kept (meets.2 served performed) continued
      rw [← sameAnswer] at continued'
      refine ⟨later'.after [⟨call, served'.answer⟩] served'.spawned, ?_, outcome, choices, ?_⟩
      · rw [execute, performed', Option.bind_some, continued', Option.map_some]
      · simpa using still

end Contracts

/-! ## Ends under some choices -/

/-- Under the choices the program ends this way, whatever choices are left over. -/
def Yields (machine : Machine sig) (program : Program sig α) (choices : List machine.Choice)
    (state : machine.State) (outcome : Except sig.Error α) (final : machine.State) : Prop :=
  ∃ past spawned, ∀ rest, program.execute machine (choices ++ rest) state =
    some ⟨outcome, final, past, spawned, rest⟩

section Yields

variable {program : Program sig α} {next : α → Program sig β} {choices' : List machine.Choice}
variable {middle final : machine.State}

theorem yields_done (outcome : Except sig.Error α) :
    (done outcome : Program sig α).Yields machine [] state outcome state :=
  ⟨[], [], fun _ => rfl⟩

theorem yields_call {call : sig.Call} {choice : machine.Choice}
    {served : Served sig call machine.State machine.Request}
    (performed : machine.perform call choice state = some served) :
    (Program.call call).Yields machine [choice] state served.answer served.state :=
  ⟨[⟨call, served.answer⟩], served.spawned, fun rest => by
    simp [Program.call, execute, performed, Execution.after]⟩

theorem yields_of_execute {execution : Execution machine α}
    (executed : program.execute machine choices state = some execution) :
    ∃ used, choices = used ++ execution.choices ∧
      program.Yields machine used state execution.outcome execution.state := by
  obtain ⟨used, split, again⟩ := execute_uses executed
  exact ⟨used, split, _, _, again⟩

theorem Yields.bind {value : α} {outcome : Except sig.Error β}
    (first : program.Yields machine choices state (.ok value) middle)
    (second : (next value).Yields machine choices' middle outcome final) :
    (program >>= next).Yields machine (choices ++ choices') state outcome final := by
  obtain ⟨past, spawned, executes⟩ := first
  obtain ⟨past', spawned', executes'⟩ := second
  refine ⟨past' ++ past, spawned ++ spawned', fun rest => ?_⟩
  rw [List.append_assoc]
  exact execute_bind_of (executes _) rfl (executes' rest)

theorem Yields.bind_error {err : sig.Error}
    (failed : program.Yields machine choices state (.error err) final) (next : α → Program sig β) :
    (program >>= next).Yields machine choices state (.error err) final := by
  obtain ⟨past, spawned, executes⟩ := failed
  exact ⟨past, spawned, fun rest => execute_bind_error (executes rest) rfl⟩

theorem Yields.caught {program : Program sig PUnit} {outcome : Except sig.Error PUnit}
    (yields : program.Yields machine choices state outcome final) :
    (caught program).Yields machine choices state (.ok ⟨⟩) final := by
  obtain ⟨past, spawned, executes⟩ := yields
  exact ⟨past, spawned, fun rest => execute_caught_of (executes rest)⟩

end Yields

/-! ## Following a program -/

/-- Some of the choices, each of them possibly narrowed. -/
abbrev Pared {κ : Type} (narrows : κ → κ → Prop) (pared choices : List κ) : Prop :=
  List.SublistForall₂ narrows pared choices

theorem Pared.append {κ : Type} {narrows : κ → κ → Prop} {pared pared' choices choices' : List κ}
    (first : Pared narrows pared choices) (second : Pared narrows pared' choices') :
    Pared narrows (pared ++ pared') (choices ++ choices') := by
  obtain ⟨kept, narrowed, isPart⟩ := List.sublistForall₂_iff.mp first
  obtain ⟨kept', narrowed', isPart'⟩ := List.sublistForall₂_iff.mp second
  exact List.sublistForall₂_iff.mpr
    ⟨kept ++ kept', List.rel_append narrowed narrowed', isPart.append isPart'⟩

/-- Whatever the first program does from a state, the second can do from one that goes with
it, and they end in states that are alike. -/
def Follows (machine : Machine sig) (admits : machine.State → sig.Call → Prop)
    (narrows : machine.Choice → machine.Choice → Prop)
    (before alike : machine.State → machine.State → Prop) (program program' : Program sig α) :
    Prop :=
  ∀ {choices : List machine.Choice} {state state' : machine.State}
    {execution : Execution machine α}, before state state' →
    program.Meets machine admits choices state →
    program.execute machine choices state = some execution →
    ∃ used pared final, choices = used ++ execution.choices ∧ Pared narrows pared used ∧
      program'.Yields machine pared state' execution.outcome final ∧ alike execution.state final

section Follows

variable {narrows : machine.Choice → machine.Choice → Prop}
variable {before alike : machine.State → machine.State → Prop}

theorem follows_pure (value : α) :
    (pure value : Program sig α).Follows machine admits narrows alike alike (pure value) := by
  intro choices state state' execution isAlike _ executed
  obtain rfl := Option.some.inj executed
  exact ⟨[], [], state', rfl, .nil, yields_done _, isAlike⟩

/-- A call is followed by itself, if it is answered the same. -/
theorem follows_call {call : sig.Call}
    (performs : ∀ {choice : machine.Choice} {state state' : machine.State}
      {served : Served sig call machine.State machine.Request}, alike state state' →
      admits state call → machine.perform call choice state = some served →
      ∃ choice' served', narrows choice' choice ∧
        machine.perform call choice' state' = some served' ∧ served'.answer = served.answer ∧
        alike served.state served'.state) :
    (Program.call call).Follows machine admits narrows alike alike (Program.call call) := by
  intro choices state state' execution isAlike meets executed
  obtain ⟨choice, rest, served, later, rfl, performed, continued, rfl⟩ := execute_await executed
  obtain rfl := Option.some.inj continued
  obtain ⟨choice', served', narrowed, performed', sameAnswer, still⟩ :=
    performs isAlike meets.1 performed
  refine ⟨[choice], [choice'], _, rfl, .cons narrowed .nil, ?_, still⟩
  exact sameAnswer ▸ yields_call performed'

theorem Follows.bind {program program' : Program sig α} {next next' : α → Program sig β}
    (follows : program.Follows machine admits narrows before alike program')
    (nextFollows : ∀ value,
      (next value).Follows machine admits narrows alike alike (next' value)) :
    (program >>= next).Follows machine admits narrows before alike (program' >>= next') := by
  intro choices state state' execution isBefore meets executed
  obtain ⟨first, isFirst, ended⟩ := execute_bind executed
  obtain ⟨used, pared, middle, split, isPared, yields, still⟩ :=
    follows isBefore meets.bind.1 isFirst
  obtain ⟨outcome, state₁, past, spawned, left⟩ := first
  cases outcome with
  | error err =>
      subst ended
      exact ⟨used, pared, middle, split, isPared, yields.bind_error next', still⟩
  | ok value =>
      obtain ⟨second, isSecond, rfl⟩ := ended
      obtain ⟨used', pared', final, split', isPared', yields', still'⟩ :=
        nextFollows value still (meets.bind.2 _ value isFirst rfl) isSecond
      refine ⟨used ++ used', pared ++ pared', final, ?_, isPared.append isPared',
        yields.bind yields', still'⟩
      rw [split, List.append_assoc]
      exact congrArg (used ++ ·) split'

theorem Follows.caught {program program' : Program sig PUnit}
    (follows : program.Follows machine admits narrows before alike program') :
    (caught program).Follows machine admits narrows before alike (caught program') := by
  intro choices state state' execution isBefore meets executed
  obtain ⟨first, isFirst, rfl⟩ := execute_caught executed
  obtain ⟨used, pared, final, split, isPared, yields, still⟩ :=
    follows isBefore meets.of_tryCatch isFirst
  exact ⟨used, pared, final, split, isPared, yields.caught, still⟩

/-! ### Batches -/

variable {own : β → Bool} {ready : β → machine.State → Prop} {body : β → Program sig PUnit}

/-- The work on the items of a batch: what is known of an item stays true whatever is worked
on, some items are followed, and the others keep the states alike. -/
structure Screens (machine : Machine sig) (admits : machine.State → sig.Call → Prop)
    (narrows : machine.Choice → machine.Choice → Prop)
    (alike : machine.State → machine.State → Prop) (own : β → Bool)
    (ready : β → machine.State → Prop) (body : β → Program sig PUnit) : Prop where
  stays : ∀ {item other choices state execution}, ready item state →
    (body other).execute machine choices state = some execution → ready item execution.state
  follows : ∀ item, own item = true → (body item).Follows machine admits narrows
    (fun state state' => alike state state' ∧ ready item state) alike (body item)
  skips : ∀ {item choices state state' execution}, own item = false → ready item state →
    alike state state' → (body item).execute machine choices state = some execution →
      alike execution.state state'

/-- The work on a batch is followed by that on some of its items. -/
theorem Screens.batch (screens : Screens machine admits narrows alike own ready body)
    (items : List β) :
    (items.forM fun item => Program.caught (body item)).Follows machine admits narrows
      (fun state state' => alike state state' ∧ ∀ item ∈ items, ready item state) alike
      ((items.filter own).forM fun item => Program.caught (body item)) := by
  induction items with
  | nil =>
      rintro choices state state' execution ⟨isAlike, -⟩ meets executed
      exact follows_pure PUnit.unit isAlike meets executed
  | cons item items ih =>
      rintro choices state state' execution ⟨isAlike, allReady⟩ meets executed
      have sequence : (Program.caught (body item) >>= fun _ =>
          items.forM fun item => Program.caught (body item)).execute machine choices state =
            some execution := executed
      have met : (Program.caught (body item) >>= fun _ =>
          items.forM fun item => Program.caught (body item)).Meets machine admits choices
            state := meets
      obtain ⟨first, isFirst, ended⟩ := execute_bind sequence
      obtain ⟨attempt, isAttempt, rfl⟩ := execute_caught isFirst
      obtain ⟨second, isSecond, rfl⟩ := ended
      have rest := met.bind.2 _ _ isFirst rfl
      obtain ⟨itemReady, othersReady⟩ := List.forall_mem_cons.mp allReady
      have laterReady : ∀ other ∈ items, ready other attempt.state :=
        fun other member => screens.stays (othersReady other member) isAttempt
      cases isOwn : own item with
      | true =>
          obtain ⟨used, pared, middle, split, isPared, yields, still⟩ :=
            screens.follows item isOwn ⟨isAlike, itemReady⟩ met.bind.1.of_tryCatch isAttempt
          obtain ⟨used', pared', final, split', isPared', yields', still'⟩ :=
            ih ⟨still, laterReady⟩ rest isSecond
          refine ⟨used ++ used', pared ++ pared', final, ?_, isPared.append isPared', ?_, still'⟩
          · rw [split, List.append_assoc]
            exact congrArg (used ++ ·) split'
          · rw [List.filter_cons_of_pos isOwn]
            exact yields.caught.bind yields'
      | false =>
          have still := screens.skips isOwn itemReady isAlike isAttempt
          obtain ⟨used, split, -⟩ := yields_of_execute isAttempt
          obtain ⟨used', pared', final, split', isPared', yields', still'⟩ :=
            ih ⟨still, laterReady⟩ rest isSecond
          have dropped : Pared narrows [] used := .nil
          refine ⟨used ++ used', pared', final, ?_, dropped.append isPared', ?_, still'⟩
          · rw [split, List.append_assoc]
            exact congrArg (used ++ ·) split'
          · rw [List.filter_cons_of_neg (by simp [isOwn])]
            exact yields'

/-- How a listing is followed by one that leaves out what is not one's own. -/
inductive ListsOwn {ε γ : Type} (own : β → Bool) (ready : β → Prop) (listing : γ → List β) :
    Except ε γ → Except ε γ → Prop
  | refused (err : ε) : ListsOwn own ready listing (.error err) (.error err)
  | listed (answer answer' : γ) (same : listing answer' = (listing answer).filter own)
      (allReady : ∀ item ∈ listing answer, ready item) :
      ListsOwn own ready listing (.ok answer) (.ok answer')

/-- A pass asks for its batch and works it off. -/
theorem Screens.pass (screens : Screens machine admits narrows alike own ready body)
    {call : sig.Call} {listing : sig.Answer call → List β}
    (lists : ∀ {choice : machine.Choice} {state state' : machine.State}
      {served : Served sig call machine.State machine.Request}, alike state state' →
      admits state call → machine.perform call choice state = some served →
      ∃ choice' served', narrows choice' choice ∧
        machine.perform call choice' state' = some served' ∧ alike served.state served'.state ∧
        ListsOwn own (ready · served.state) listing served.answer served'.answer) :
    (Program.call call >>= fun listed =>
      (listing listed).forM fun item => Program.caught (body item)).Follows machine admits narrows
      alike alike (Program.call call >>= fun listed =>
        (listing listed).forM fun item => Program.caught (body item)) := by
  intro choices state state' execution isAlike meets executed
  obtain ⟨choice, rest, ⟨answer, after, spawned⟩, rfl, performed, ended⟩ :=
    execute_call_bind executed
  obtain ⟨choice', ⟨answer', after', spawned'⟩, narrowed, performed', still, lists⟩ :=
    lists isAlike meets.bind.1.1 performed
  have asked := yields_call performed'
  have part : Pared narrows [choice'] [choice] := .cons narrowed .nil
  cases lists with
  | refused err =>
      obtain rfl := ended
      exact ⟨[choice], [choice'], after', rfl, part, asked.bind_error _, still⟩
  | listed answer answer' same allReady =>
      obtain ⟨second, looped, rfl⟩ := ended
      have met := meets.bind.2 ⟨.ok answer, after, [⟨call, .ok answer⟩], spawned, rest⟩ answer
        (by simp [Program.call, execute, performed, Execution.after]) rfl
      obtain ⟨used, pared, final, split, isPared, yields, still'⟩ :=
        screens.batch (listing answer) ⟨still, allReady⟩ met looped
      refine ⟨choice :: used, choice' :: pared, final, congrArg (choice :: ·) split,
        .cons narrowed isPared, ?_, still'⟩
      rw [← same] at yields
      exact asked.bind yields

end Follows

end Program

/-! ## Turns -/

/-- A request that was served, or something that happened between two requests. -/
inductive Turn (machine : Machine sig) where
  | serve (request : machine.Request) (choices : List machine.Choice)
      (outcome : Except sig.Error machine.Reply)
  | move (move : machine.Move)

/-- The turns lead from one state to the other.  Each request is served to its end before the
next, and each call that it makes meets the condition. -/
inductive Turns (machine : Machine sig) (admits : machine.State → sig.Call → Prop) :
    machine.State → List (Turn machine) → machine.State → Prop
  | nil (state : machine.State) : Turns machine admits state [] state
  | serve {state final : machine.State} {request : machine.Request}
      {choices : List machine.Choice} {execution : Execution machine machine.Reply}
      {turns : List (Turn machine)}
      (executed : (machine.body request).execute machine choices state = some execution)
      (meets : (machine.body request).Meets machine admits choices state)
      (rest : Turns machine admits execution.state turns final) :
      Turns machine admits state (.serve request choices execution.outcome :: turns) final
  | move {move : machine.Move} {state next final : machine.State} {turns : List (Turn machine)}
      (moved : machine.move move state = some next)
      (rest : Turns machine admits next turns final) :
      Turns machine admits state (.move move :: turns) final

/-- The request of a turn, with its choices. -/
def Turn.served? : Turn machine → Option (machine.Request × List machine.Choice)
  | .serve request choices _ => some (request, choices)
  | .move _ => none

/-- Serve the requests one after the other, each with its choices. -/
def replay (machine : Machine sig) (admits : machine.State → sig.Call → Prop)
    [∀ state call, Decidable (admits state call)] :
    List (machine.Request × List machine.Choice) → machine.State →
      Option (List (Turn machine) × machine.State)
  | [], state => some ([], state)
  | (request, choices) :: rest, state =>
      if (machine.body request).Meets machine admits choices state then
        ((machine.body request).execute machine choices state).bind fun execution =>
          (replay machine admits rest execution.state).map fun later =>
            (.serve request choices execution.outcome :: later.1, later.2)
      else none

theorem turns_of_replay [∀ state call, Decidable (admits state call)]
    {script : List (machine.Request × List machine.Choice)} {state final : machine.State}
    {turns : List (Turn machine)}
    (replayed : replay machine admits script state = some (turns, final)) :
    Turns machine admits state turns final ∧ turns.map Turn.served? = script.map some := by
  induction script generalizing state turns with
  | nil =>
      obtain ⟨rfl, rfl⟩ := Prod.mk.inj (Option.some.inj replayed)
      exact ⟨.nil state, rfl⟩
  | cons first script ih =>
      obtain ⟨request, choices⟩ := first
      rw [replay, Option.ite_none_right_eq_some, Option.bind_eq_some_iff] at replayed
      obtain ⟨meets, execution, executed, continued⟩ := replayed
      obtain ⟨⟨later, last⟩, replayed, pair⟩ := Option.map_eq_some_iff.mp continued
      obtain ⟨rfl, rfl⟩ := Prod.mk.inj pair
      obtain ⟨turns, isScript⟩ := ih replayed
      exact ⟨.serve executed meets turns, congrArg (some (request, choices) :: ·) isScript⟩

/-- A run of requests is determined by them and their choices. -/
theorem replay_of_turns [∀ state call, Decidable (admits state call)]
    {script : List (machine.Request × List machine.Choice)} {state final : machine.State}
    {turns : List (Turn machine)} (served : Turns machine admits state turns final)
    (isScript : turns.map Turn.served? = script.map some) :
    replay machine admits script state = some (turns, final) := by
  induction served generalizing script with
  | nil state =>
      obtain rfl := List.map_eq_nil_iff.mp isScript.symm
      rfl
  | @serve state final request choices execution turns executed meets rest ih =>
      cases script with
      | nil => cases isScript
      | cons first script =>
          obtain ⟨isFirst, isRest⟩ := List.cons.inj isScript
          obtain rfl := Option.some.inj isFirst
          rw [replay, if_pos meets, executed, Option.bind_some, ih isRest, Option.map_some]
  | move moved rest =>
      cases script with
      | nil => cases isScript
      | cons first script => cases (List.cons.inj isScript).1

namespace Turn

/-- Is it one of the requests that are kept, or no request? -/
def kept (keeps : machine.Request → Bool) : Turn machine → Bool
  | .serve request _ _ => keeps request
  | .move _ => true

/-- The same request with the same outcome, served with part of the choices, or with all of
them where they are fixed. -/
inductive Alike (narrows : machine.Choice → machine.Choice → Prop)
    (fixed : machine.Request → Prop) : Turn machine → Turn machine → Prop
  | serve (request : machine.Request) {choices choices' : List machine.Choice}
      (outcome : Except sig.Error machine.Reply) (pared : Program.Pared narrows choices' choices)
      (same : fixed request → choices' = choices) :
      Alike narrows fixed (.serve request choices outcome) (.serve request choices' outcome)
  | move (move : machine.Move) : Alike narrows fixed (.move move) (.move move)

end Turn

section Turns

variable {narrows : machine.Choice → machine.Choice → Prop}
variable {alike : machine.State → machine.State → Prop}

/-- What the requests of a run keep of two states, if some of them are served in the first
only. -/
structure Separates (machine : Machine sig) (admits : machine.State → sig.Call → Prop)
    (narrows : machine.Choice → machine.Choice → Prop)
    (alike : machine.State → machine.State → Prop) (keeps : machine.Request → Bool)
    (fixed : machine.Request → Prop) (considered : machine.Request → Prop) : Prop where
  serves : ∀ {request choices state state' execution}, considered request →
    keeps request = true → alike state state' →
    (machine.body request).Meets machine admits choices state →
    (machine.body request).execute machine choices state = some execution →
    ∃ choices' execution', Program.Pared narrows choices' choices ∧
      (fixed request → choices' = choices) ∧
      (machine.body request).execute machine choices' state' = some execution' ∧
      execution'.outcome = execution.outcome ∧ alike execution.state execution'.state
  skips : ∀ {request choices state state' execution}, considered request →
    keeps request = false → alike state state' →
    (machine.body request).execute machine choices state = some execution →
    alike execution.state state'
  moves : ∀ {move state state' next}, alike state state' → machine.move move state = some next →
    ∃ next', machine.move move state' = some next' ∧ alike next next'

theorem meets_of_forall {program : Program sig α} {choices : List machine.Choice}
    {state : machine.State} (admitted : ∀ state call, admits state call) :
    program.Meets machine admits choices state := by
  induction program generalizing choices state with
  | done outcome => trivial
  | await call resume ih =>
      cases choices with
      | nil => trivial
      | cons choice rest => exact ⟨admitted state call, fun served _ => ih served.answer⟩

/-- Without the requests that are left out, the others go as they went before. -/
theorem Separates.turns {keeps : machine.Request → Bool}
    {fixed considered : machine.Request → Prop}
    (separates : Separates machine admits narrows alike keeps fixed considered)
    {turns : List (Turn machine)} {state state' final : machine.State}
    (served : Turns machine admits state turns final)
    (allConsidered : ∀ request choices outcome, .serve request choices outcome ∈ turns →
      considered request)
    (isAlike : alike state state') :
    ∃ turns' final', Turns machine (fun _ _ => True) state' turns' final' ∧
      List.Forall₂ (Turn.Alike narrows fixed) (turns.filter (Turn.kept keeps)) turns' ∧
      alike final final' := by
  induction served generalizing state' with
  | nil state => exact ⟨[], state', .nil state', .nil, isAlike⟩
  | @serve state final request choices execution turns executed meets rest ih =>
      have first := allConsidered request choices execution.outcome List.mem_cons_self
      have others : ∀ request choices outcome, .serve request choices outcome ∈ turns →
          considered request := fun request choices outcome member =>
        allConsidered request choices outcome (List.mem_cons_of_mem _ member)
      cases isKept : keeps request with
      | true =>
          obtain ⟨choices', execution', pared, same, executed', outcome, still⟩ :=
            separates.serves first isKept isAlike meets executed
          obtain ⟨turns', final', served', match', ended⟩ := ih others still
          rw [List.filter_cons_of_pos (by exact isKept), ← outcome]
          exact ⟨_, final', .serve executed' (meets_of_forall fun _ _ => trivial) served',
            .cons (.serve request execution'.outcome pared same) match', ended⟩
      | false =>
          rw [List.filter_cons_of_neg (by simp [Turn.kept, isKept])]
          exact ih others (separates.skips first isKept isAlike executed)
  | @move move state next final turns moved rest ih =>
      have others : ∀ request choices outcome, .serve request choices outcome ∈ turns →
          considered request := fun request choices outcome member =>
        allConsidered request choices outcome (List.mem_cons_of_mem _ member)
      obtain ⟨next', moved', still⟩ := separates.moves isAlike moved
      obtain ⟨turns', final', served', match', ended⟩ := ih others still
      exact ⟨_, final', .move moved' served', .cons (.move move) match', ended⟩

/-! ## Scripts -/

section Scripts

variable {script : List (machine.Request × List machine.Choice)}
variable {turns turns' : List (Turn machine)}

theorem mem_script (isScript : turns.map Turn.served? = script.map some)
    {request : machine.Request} {choices : List machine.Choice}
    {outcome : Except sig.Error machine.Reply} (member : .serve request choices outcome ∈ turns) :
    (request, choices) ∈ script := by
  have listed : some (request, choices) ∈ turns.map Turn.served? :=
    List.mem_map.mpr ⟨_, member, rfl⟩
  rw [isScript] at listed
  obtain ⟨entry, inScript, same⟩ := List.mem_map.mp listed
  rwa [← Option.some.inj same]

theorem script_filter (keeps : machine.Request → Bool)
    (isScript : turns.map Turn.served? = script.map some) :
    (turns.filter (Turn.kept keeps)).map Turn.served? =
      (script.filter fun entry => keeps entry.1).map some := by
  induction turns generalizing script with
  | nil =>
      obtain rfl := List.map_eq_nil_iff.mp isScript.symm
      rfl
  | cons turn turns ih =>
      cases script with
      | nil => cases isScript
      | cons entry script =>
          obtain ⟨isFirst, isRest⟩ := List.cons.inj isScript
          cases turn with
          | move move => cases isFirst
          | serve request choices outcome =>
              obtain rfl := Option.some.inj isFirst
              cases isKept : keeps request with
              | true =>
                  rw [List.filter_cons_of_pos (by exact isKept),
                    List.filter_cons_of_pos (by exact isKept), List.map_cons, List.map_cons,
                    ih isRest]
                  rfl
              | false =>
                  rw [List.filter_cons_of_neg (by simp [Turn.kept, isKept]),
                    List.filter_cons_of_neg (by simp [isKept]), ih isRest]

theorem script_of_alike {narrows : machine.Choice → machine.Choice → Prop}
    {fixed : machine.Request → Prop} (isScript : turns.map Turn.served? = script.map some)
    (alike : List.Forall₂ (Turn.Alike narrows fixed) turns turns')
    (allFixed : ∀ entry ∈ script, fixed entry.1) :
    turns'.map Turn.served? = script.map some := by
  induction alike generalizing script with
  | nil => exact isScript
  | cons same rest ih =>
      cases script with
      | nil => cases isScript
      | cons entry script =>
          obtain ⟨isFirst, isRest⟩ := List.cons.inj isScript
          have restFixed : ∀ entry ∈ script, fixed entry.1 :=
            fun other member => allFixed other (List.mem_cons_of_mem entry member)
          cases same with
          | move move => cases isFirst
          | serve request outcome pared same =>
              obtain rfl := Option.some.inj isFirst
              rw [List.map_cons, ih isRest restFixed, List.map_cons,
                same (allFixed _ List.mem_cons_self)]
              rfl

end Scripts

end Turns

end Awaiting

import CosmosPay.Awaiting.Program

/-!
# Playing against the surroundings

Whatever answers the calls of a program, it can do no more than choose each answer by what
has happened so far.  Such a strategy determines the history and the outcome; a contract
holds if it holds against every strategy that keeps to what the contract relies on.
-/

namespace Awaiting

/-- An answer to each call after each history. -/
abbrev Strategy (sig : Signature) : Type :=
  History sig → (call : sig.Call) → sig.Result call

namespace Program

variable {sig : Signature} {α : Type}

/-- The history, the newest call first, and the outcome of a program whose calls are
answered by the strategy. -/
def play (answers : Strategy sig) : Program sig α → History sig → History sig × Except sig.Error α
  | .done outcome, past => (past, outcome)
  | .await call resume, past =>
      (resume (answers past call)).play answers (⟨call, answers past call⟩ :: past)

variable {relies : Performed sig → Prop} {permits : History sig → sig.Call → Prop}
variable {ensures : History sig → Except sig.Error α → Prop} {past : History sig}

/-- A contract is kept against every strategy that it can rely on. -/
theorem Conforms.played {program : Program sig α}
    (conforms : program.Conforms relies permits ensures past) {answers : Strategy sig}
    (relied : ∀ past call, relies ⟨call, answers past call⟩) :
    ensures (program.play answers past).1 (program.play answers past).2 := by
  induction program generalizing past with
  | done outcome => exact conforms
  | await call resume ih => exact ih _ (conforms.2 _ (relied past call))

/-- What a program adds to its history was answered by the strategy. -/
theorem play_answered (answers : Strategy sig) {program : Program sig α}
    {newer older : History sig} {performed : Performed sig}
    (split : (program.play answers []).1 = newer ++ performed :: older) :
    performed.answer = answers older performed.call := by
  suffices general : ∀ (program : Program sig α) (past : History sig),
      (∀ newer older performed, past = newer ++ performed :: older →
        performed.answer = answers older performed.call) →
      ∀ newer older performed, (program.play answers past).1 = newer ++ performed :: older →
        performed.answer = answers older performed.call from
    general program [] (by simp) newer older performed split
  intro program
  induction program with
  | done outcome => exact fun past known => known
  | await call resume ih =>
      refine fun past known => ih _ _ fun newer older performed split => ?_
      cases newer with
      | nil =>
          obtain ⟨rfl, rfl⟩ := List.cons.inj split
          rfl
      | cons first newer => exact known newer older performed (List.cons.inj split).2

end Program

end Awaiting

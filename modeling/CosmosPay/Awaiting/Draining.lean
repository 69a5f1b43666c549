import CosmosPay.Awaiting.Pool
import Mathlib.Logic.Hydra
import Mathlib.Tactic.Abel

/-!
# Pools that come to rest

A program has only finitely many awaits on every path.  If moreover requests start
only requests of a lower rank, a pool that gets no new requests comes to rest under every
scheduler: each step replaces one thread by what is left of it and by threads of lower rank,
which is a move in the hydra game.
-/

namespace Awaiting

open Relation

variable {sig : Signature} {α : Type}

namespace Program

/-- One program is another after its next await. -/
inductive Remains : Program sig α → Program sig α → Prop where
  | resume (call : sig.Call) (resume : sig.Result call → Program sig α)
      (answer : sig.Result call) : Remains (resume answer) (.await call resume)

theorem wellFounded_remains : WellFounded (Remains : Program sig α → Program sig α → Prop) := by
  refine ⟨fun program => ?_⟩
  induction program with
  | done outcome => exact ⟨_, fun rest remains => by cases remains⟩
  | await call resume ih =>
      refine ⟨_, fun rest remains => ?_⟩
      cases remains with
      | resume call resume answer => exact ih answer

end Program

variable {machine : Machine sig} {ρ : Type} [Preorder ρ] (rank : machine.Request → ρ)

/-- The call starts only requests below a bound. -/
def Machine.StartsBelow (bound : ρ) (call : sig.Call) : Prop :=
  ∀ {choice state} {served : Served sig call machine.State machine.Request},
    machine.perform call choice state = some served →
      ∀ started ∈ served.spawned, rank started < bound

namespace Config

/-- The heads of the hydra: what is left of each thread, below its rank. -/
def heads (config : Config machine) : Multiset (ρ × Program sig machine.Reply) :=
  config.threads.map fun thread => (rank thread.request, thread.code)

/-- Which threads a step can leave, by rank and rest. -/
abbrev Lower : ρ × Program sig machine.Reply → ρ × Program sig machine.Reply → Prop :=
  Prod.Lex (· < ·) Program.Remains

/-- A thread that goes on is cut off, and its rest and what it has started grow back. -/
theorem cutExpand_advance {config : Config machine} {thread : Nat} {request : machine.Request}
    {call : sig.Call} {resume : sig.Result call → Program sig machine.Reply}
    {served : Served sig call machine.State machine.Request}
    (paused : config.threads[thread]? = some ⟨request, .await call resume⟩)
    (below : ∀ started ∈ served.spawned, rank started < rank request) :
    CutExpand Lower ((config.advance thread request call resume served).heads rank)
      (config.heads rank) := by
  obtain ⟨bound, isThread⟩ := List.getElem?_eq_some_iff.mp paused
  obtain ⟨front, back, split, -, changed⟩ :=
    @List.exists_of_set _ thread ⟨request, resume served.answer⟩ _ bound
  rw [isThread] at split
  let grown : List (ρ × Program sig machine.Reply) :=
    served.spawned.map fun started => (rank started, machine.body started)
  refine ⟨((rank request, resume served.answer) :: grown : List _),
    (rank request, .await call resume), fun head member => ?_, ?_⟩
  · rcases List.mem_cons.mp (Multiset.mem_coe.mp member) with rfl | isGrown
    · exact .right _ (.resume call resume served.answer)
    · obtain ⟨started, isStarted, rfl⟩ := List.mem_map.mp isGrown
      exact .left _ _ (below started isStarted)
  · have now : (config.advance thread request call resume served).threads =
        front ++ ⟨request, resume served.answer⟩ :: back ++ served.spawned.map machine.start := by
      rw [advance, changed]
    rw [heads, heads, now, split]
    simp only [List.map_append, List.map_cons, List.map_map, ← Multiset.coe_add,
      ← Multiset.cons_coe, ← Multiset.singleton_add, grown, Function.comp_def, Machine.start]
    abel

end Config

/-- The scheduler only lets threads go on. -/
def Label.resumes : Label machine → Prop
  | .resume _ _ => True
  | _ => False

/-- One step without a new request or a move of the surroundings. -/
abbrev Goes : Config machine → Config machine → Prop :=
  Step fun _ label => label.resumes

variable {contract : Contract machine} {state : machine.State} {config config' : Config machine}

theorem Goes.run (goes : Goes config config') :
    Run (fun _ _ => True) config config' :=
  Run.mono (.single goes) fun _ _ _ => trivial

/-- Every step without a new request is a move in the hydra game. -/
theorem Goes.cutExpand (fulfilled : contract.Fulfilled)
    (descends : ∀ {request past call}, contract.permits request past call →
      machine.StartsBelow rank (rank request) call)
    (run : Run (fun _ _ => True) (.initial state) config) (goes : Goes config config') :
    CutExpand Config.Lower (config'.heads rank) (config.heads rank) := by
  cases goes with
  | issue request allowed => exact allowed.elim
  | resume thread choice allowed paused performed =>
      exact Config.cutExpand_advance rank paused
        (descends (run.permitted fulfilled paused) performed)
  | move move allowed moved => exact allowed.elim

/-- From a configuration that a run has reached, there is no way to go on forever without a
new request. -/
theorem acc_goes [WellFoundedLT ρ] (fulfilled : contract.Fulfilled)
    (descends : ∀ {request past call}, contract.permits request past call →
      machine.StartsBelow rank (rank request) call)
    (run : Run (fun _ _ => True) (.initial state) config) :
    Acc (fun later earlier : Config machine => Goes earlier later) config := by
  have founded : WellFounded (CutExpand (@Config.Lower sig machine ρ _)) :=
    (wellFounded_lt.prod_lex Program.wellFounded_remains).cutExpand
  have accessible := founded.apply (config.heads rank)
  generalize isHeads : config.heads rank = heads at accessible
  induction accessible generalizing config with
  | intro heads _ ih =>
      subst isHeads
      exact ⟨_, fun later goes =>
        ih _ (goes.cutExpand rank fulfilled descends run) (run.trans goes.run) rfl⟩

theorem not_forever_of_acc
    (accessible : Acc (fun later earlier : Config machine => Goes earlier later) config)
    {path : Nat → Config machine} (start : path 0 = config) :
    ¬ ∀ index, Goes (path index) (path (index + 1)) := by
  induction accessible generalizing path with
  | intro config _ ih =>
      intro forever
      have first : Goes config (path 1) := start ▸ forever 0
      exact @ih (path 1) first (fun index => path (index + 1)) rfl
        fun index => forever (index + 1)

/-- A pool whose calls can all be answered goes on as long as a thread is left. -/
theorem exists_goes (answers : ∀ (call : sig.Call) state, ∃ choice served,
      machine.perform call choice state = some served) (busy : ¬ config.Quiet) :
    ∃ config', Goes config config' := by
  simp only [Config.Quiet, not_forall] at busy
  obtain ⟨⟨request, code⟩, member, unfinished⟩ := busy
  obtain ⟨index, lookup⟩ := List.getElem?_of_mem member
  cases code with
  | done outcome => exact absurd trivial unfinished
  | await call resume =>
      obtain ⟨choice, served, performed⟩ := answers call config.state
      exact ⟨_, .resume index choice trivial lookup performed⟩

/-- Such a pool comes to rest. -/
theorem exists_quiet_of_acc (answers : ∀ (call : sig.Call) state, ∃ choice served,
      machine.perform call choice state = some served)
    (accessible : Acc (fun later earlier : Config machine => Goes earlier later) config) :
    ∃ config', Relation.ReflTransGen Goes config config' ∧ config'.Quiet := by
  induction accessible with
  | intro config _ ih =>
      by_cases quiet : config.Quiet
      · exact ⟨config, .refl, quiet⟩
      · obtain ⟨next, goes⟩ := exists_goes answers quiet
        obtain ⟨config', rest, isQuiet⟩ := ih next goes
        exact ⟨config', .head goes rest, isQuiet⟩

end Awaiting

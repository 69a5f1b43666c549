import CosmosPay.Answers
import CosmosPay.Contracts.Kinds

/-!
# Who the observer tells

A tick emits an event only about an intent of a batch that it was shown, and to the
consumer that the batch names beside the intent.  Detached tasks emit nothing.
-/

namespace CosmosPay

open Awaiting Program PaymentIntents

/-- A batch of the history lists the intent with this owner. -/
inductive Batched (past : History signature) (owner id : String) : Prop where
  | expired (now take : Nat) (rows : List (PaymentIntent × String)) (intent : PaymentIntent)
      (listed : ⟨.query (.expiredIntents now take), .ok rows⟩ ∈ past)
      (member : (intent, owner) ∈ rows) (isId : intent.id = id) : Batched past owner id
  | pending (take : Nat) (rows : List (PaymentIntent × String)) (intent : PaymentIntent)
      (listed : ⟨.query (.pendingIntents take), .ok rows⟩ ∈ past)
      (member : (intent, owner) ∈ rows) (isId : intent.id = id) : Batched past owner id

def permitsAddress (request : Request) (past : History signature) : Call → Prop
  | .emit payload =>
      match request with
      | .tick _ => Batched past payload.consumerUsername payload.data.id
      | .background _ => False
      | _ => True
  | _ => True

/-- Events of ticks and detached tasks; those of other requests are left open. -/
def addresses (deployment : Deployment) : Contract (service deployment) where
  relies := Believable
  permits := permitsAddress
  ensures _ _ _ := True

theorem Batched.mono {past later : History signature} {owner id : String}
    (batched : Batched past owner id) (grows : past ⊆ later) : Batched later owner id := by
  cases batched with
  | expired now take rows intent listed member isId =>
      exact .expired now take rows intent (grows listed) member isId
  | pending take rows intent listed member isId =>
      exact .pending take rows intent (grows listed) member isId

theorem permitsAddress_of_peripheral {request : Request} {past : History signature} {call : Call}
    (peripheral : call.Peripheral) : permitsAddress request past call := by
  cases call with
  | emit payload => exact peripheral.elim
  | _ => trivial

section Observer

variable {deployment : Deployment} {node : Nat} {past : History signature} {owner id : String}

/-- A statement on a listed intent that is followed by its event. -/
theorem addresses_write {α : Type} {patch : PaymentIntentPatch} {type : WebhookEventType}
    {next : PaymentIntent → Unit → Promise α} (batched : Batched past owner id)
    (rest : ∀ row, (next row ()).Calls Call.Peripheral) :
    (Promise.write (.update .paymentIntent id patch) >>= fun row => emit owner type row >>=
      next row).Conforms Believable (permitsAddress (.tick node)) (fun _ _ => True) past := by
  refine conforms_call_bind.mpr ⟨trivial, fun err _ => trivial, fun row relied => ?_⟩
  refine conforms_call_bind.mpr ⟨?_, fun err _ => trivial, fun _ _ => ?_⟩
  · obtain ⟨old, isId, rfl⟩ := relied row rfl
    have isKey : (Model.apply .paymentIntent patch old).id = id := isId
    simp only [permitsAddress, isKey]
    exact batched.mono (List.subset_cons_self _ _)
  · exact (rest row).conforms (fun _ _ _ => permitsAddress_of_peripheral) fun _ _ _ => trivial

theorem addresses_markExpired (batched : Batched past owner id) :
    (markExpired id owner).Conforms Believable (permitsAddress (.tick node)) (fun _ _ => True)
      past :=
  addresses_write batched fun _ => calls_pure _

theorem addresses_markSucceeded {hash : String} {payer : Option String}
    (batched : Batched past owner id) :
    (markSucceeded id owner hash payer).Conforms Believable (permitsAddress (.tick node))
      (fun _ _ => True) past := by
  refine conforms_call_bind.mpr ⟨trivial, fun err _ => trivial, fun current _ => ?_⟩
  exact addresses_write (batched.mono (List.subset_cons_self _ _))
    fun row => Calls.call_bind (by trivial) fun _ => calls_pure _

/-- The loop over a batch. -/
theorem addresses_forM {rows : List (PaymentIntent × String)}
    {iteration : PaymentIntent × String → Promise Unit}
    (iterates : ∀ row later, Batched later row.2 row.1.id →
      (iteration row).Conforms Believable (permitsAddress (.tick node)) (fun _ _ => True) later)
    (batched : ∀ row ∈ rows, Batched past row.2 row.1.id) :
    (rows.forM iteration).Conforms Believable (permitsAddress (.tick node)) (fun _ _ => True)
      past := by
  refine conforms_forM (fun items later => ∀ row ∈ items, Batched later row.2 row.1.id)
    iteration (fun row rest later listed => ?_) (fun _ _ => trivial) rows batched
  refine (iterates row later (listed row List.mem_cons_self)).grows.ensuring
    fun latest outcome ⟨grows, _⟩ => ?_
  cases outcome with
  | error err => exact trivial
  | ok value =>
      exact fun other member => (listed other (List.mem_cons_of_mem row member)).mono grows

theorem addresses_logged {task : Promise Unit}
    (conforms : task.Conforms Believable (permitsAddress (.tick node)) (fun _ _ => True) past) :
    (StellarObserver.logged task).Conforms Believable (permitsAddress (.tick node))
      (fun _ _ => True) past := by
  unfold StellarObserver.logged
  rw [conforms_tryCatch]
  refine conforms.ensuring fun later outcome _ => ?_
  cases outcome <;> exact trivial

theorem addresses_bind {α β : Type} {first : Promise α} {next : α → Promise β}
    (conforms : first.Conforms Believable (permitsAddress (.tick node)) (fun _ _ => True) past)
    (rest : ∀ value later, (next value).Conforms Believable (permitsAddress (.tick node))
      (fun _ _ => True) later) :
    (first >>= next).Conforms Believable (permitsAddress (.tick node)) (fun _ _ => True) past := by
  rw [conforms_bind]
  refine conforms.ensuring fun later outcome _ => ?_
  cases outcome with
  | ok value => exact rest value later
  | error err => exact trivial

theorem addresses_reconcile (row : PaymentIntent × String)
    (batched : Batched past row.2 row.1.id) :
    (StellarObserver.reconcile row).Conforms Believable (permitsAddress (.tick node))
      (fun _ _ => True) past := by
  have verifies : (StellarObserver.verify row.1).Conforms Believable
      (permitsAddress (.tick node)) (fun _ _ => True) past :=
    ((calls_verify row.1).mono fun _ => Call.IsHorizon.peripheral).conforms
      (fun _ _ _ => permitsAddress_of_peripheral) fun _ _ _ => trivial
  unfold StellarObserver.reconcile
  rw [conforms_bind]
  refine verifies.grows.ensuring fun later outcome ⟨grows, _⟩ => ?_
  cases outcome with
  | error err => exact trivial
  | ok result =>
      rw [andThen_ok]
      split
      · exact addresses_bind (addresses_markSucceeded (batched.mono grows)) fun _ _ => trivial
      · exact trivial

theorem addresses_tick (past : History signature) :
    (StellarObserver.tick deployment node).Conforms Believable (permitsAddress (.tick node))
      (fun _ _ => True) past := by
  refine conforms_call_bind.mpr ⟨trivial, fun err _ => trivial, fun entered _ => ?_⟩
  split
  · refine addresses_bind (addresses_logged (addresses_bind ?_ fun _ later => ?_))
      fun _ later => ⟨trivial, fun _ _ => trivial⟩
    · refine conforms_call_bind.mpr ⟨trivial, fun err _ => trivial, fun now _ => ?_⟩
      refine conforms_call_bind.mpr ⟨trivial, fun err _ => trivial, fun rows _ => ?_⟩
      refine addresses_forM (fun row later batched => ?_) fun row member =>
        .expired now _ rows row.1 List.mem_cons_self member rfl
      exact addresses_logged (addresses_bind (addresses_markExpired batched) fun _ _ => trivial)
    · refine conforms_call_bind.mpr ⟨trivial, fun err _ => trivial, fun rows _ => ?_⟩
      exact addresses_forM (fun row later batched => addresses_logged
        (addresses_reconcile row batched)) fun row member =>
        .pending _ rows row.1 List.mem_cons_self member rfl
  · exact trivial

end Observer

theorem addresses_fulfilled {deployment : Deployment} : (addresses deployment).Fulfilled where
  answers performed := Performs.believable ⟨_, _, performed, rfl, rfl⟩
  bodies request := by
    -- the events of other foreground requests are left open
    have free : ∀ program : Promise Reply,
        (∀ past call, permitsAddress request past call) →
        program.Conforms Believable (permitsAddress request) (fun _ _ => True) [] :=
      fun program permitted => conforms_of_forall program permitted fun _ _ => trivial
    cases request with
    | tick node => exact (conforms_map _ _).mpr (addresses_tick [])
    | background task =>
        have permitted : ∀ past call, Call.Peripheral call →
            permitsAddress (.background task) past call :=
          fun _ _ => permitsAddress_of_peripheral
        exact ((calls_background task).map _).conforms
          (fun recent call _ => permitted (recent ++ []) call) fun _ _ _ => trivial
    | _ =>
        refine free _ fun past call => ?_
        cases call <;> trivial

end CosmosPay

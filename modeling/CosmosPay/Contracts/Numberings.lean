import CosmosPay.Awaiting.Heeding
import CosmosPay.Contracts.FanOut

/-!
# An event is numbered before its tasks are started

`handleEvent` draws the number of the event first, and every task that it starts bears it.
-/

namespace CosmosPay

open Awaiting Program WebhookDispatcher

def permitsNumbering (request : Request) (past : History signature) (call : Call) : Prop :=
  match request with
  | .background (.handleEvent _) => ∀ task, call = .start task →
      ∃ uuid, ⟨.randomUUID, .ok uuid⟩ ∈ past
  | _ => True

def numberings (deployment : Deployment) : Contract (service deployment) where
  relies _ := True
  permits := permitsNumbering
  ensures _ _ _ := True

variable {deployment : Deployment}

theorem numbers_handleEvent (payload : WebhookEventPayload) :
    (handleEvent payload).Heeds (fun _ => True)
      (permitsNumbering (.background (.handleEvent payload))) fun _ => True := by
  refine heeds_call_bind lasting_true (fun _ _ _ => nofun) fun rows => ?_
  change (if (targetsOf payload rows).isEmpty then pure () else _ : Promise Unit).Heeds _ _ _
  split
  · exact heeds_pure _
  · refine heeds_call_bind (lasting_true.and (lasting_mem _)) (fun _ _ _ => nofun) fun uuid => ?_
    refine heeds_forM fun endpoint _ => heeds_call ?_ fun past numbered _ _ => ⟨uuid, numbered.2⟩
    exact (lasting_true.and (lasting_mem _)).and (lasting_mem _)

theorem numberings_fulfilled : (numberings deployment).Fulfilled where
  answers _ := trivial
  bodies request := by
    have ignores : (∀ past call, permitsNumbering request past call) →
        (request.body deployment).Conforms (fun _ => True) (permitsNumbering request)
          (fun _ _ => True) [] :=
      fun permitted => conforms_of_forall _ permitted fun _ _ => trivial
    cases request with
    | background task =>
        cases task with
        | handleEvent payload =>
            refine ((numbers_handleEvent payload).map _ [] trivial).mono (fun _ _ => id) ?_
            exact fun _ _ _ => trivial
        | _ => exact ignores fun _ _ => trivial
    | _ => exact ignores fun _ _ => trivial

/-- The number of the event has been drawn when a task is started. -/
theorem drawnUuid_mem {past : History signature} {uuid : String}
    (member : ⟨.randomUUID, .ok uuid⟩ ∈ past) :
    ⟨.randomUUID, .ok (drawnUuid past)⟩ ∈ past := by
  obtain ⟨drawn, isDrawn⟩ : ∃ drawn,
      past.findSome? (fun performed => performed.call.drawsUuid performed.answer) = some drawn :=
    Option.isSome_iff_exists.mp (List.findSome?_isSome_iff.mpr ⟨_, member, rfl⟩)
  obtain ⟨⟨call, answer⟩, made, draws⟩ := List.exists_of_findSome?_eq_some isDrawn
  rw [drawnUuid, isDrawn]
  simp only [Call.drawsUuid] at draws
  split at draws
  · rw [← Option.some.inj draws]
    exact made
  · cases draws

end CosmosPay

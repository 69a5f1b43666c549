import CosmosPay.Contracts.Kinds

/-!
# What a failure is read from

A validation looks up the transaction of the hash that it was given and no other, and a tick
declares no intent failed.
-/

namespace CosmosPay

open Awaiting Program PaymentIntents

/-- No transaction but the reported one is looked up. -/
def Call.Checks (txHash : String) : Call → Prop
  | .horizon (.transaction _ hash) => hash = txHash
  | _ => True

def permitsOutcome (request : Request) (call : Call) : Prop :=
  match request with
  | .paymentIntents (.validate _ _ txHash) => call.Checks txHash
  | .tick _ => call.Observes
  | _ => True

def outcomes (deployment : Deployment) : Contract (service deployment) where
  relies _ := True
  permits request _ := permitsOutcome request
  ensures _ _ _ := True

variable {deployment : Deployment}

theorem checks_verifyByHash (intent : PaymentIntent) (txHash : String) :
    (StellarVerifier.verifyByHash intent txHash).Calls (Call.Checks txHash) := by
  have lookup : (StellarVerifier.orNotFound (.transaction intent.network txHash)).Calls
      (Call.Checks txHash) := by
    refine Calls.tryCatch (Calls.map (calls_call (by exact rfl)) _) fun err => ?_
    split
    · exact calls_pure _
    · exact calls_throw _
  refine Calls.bind lookup fun lookup => ?_
  split
  · exact calls_pure _
  · split
    · exact calls_pure _
    · split
      · exact calls_pure _
      · refine Calls.call_bind (by trivial) fun payments => ?_
        split <;> exact calls_pure _

theorem checks_validate (consumer : GatewayConsumer) (id txHash : String) :
    (validate deployment consumer id txHash).Calls (Call.Checks txHash) := by
  refine Calls.call_bind (by trivial) fun found => ?_
  split
  · exact calls_throw _
  · split
    · exact Calls.bind (calls_withQr _) fun _ => calls_pure _
    · refine Calls.bind (checks_verifyByHash _ txHash) fun result => ?_
      unfold settle
      split
      · refine Calls.bind ?_ fun _ => Calls.bind (calls_withQr _) fun _ => calls_pure _
        exact Calls.call_bind (by trivial) fun _ => Calls.call_bind (by trivial) fun _ =>
          Calls.call_bind (by trivial) fun _ => Calls.call_bind (by trivial) fun _ => calls_pure _
      · split
        · refine Calls.bind ?_ fun _ => Calls.bind (calls_withQr _) fun _ => calls_pure _
          exact Calls.call_bind (by trivial) fun _ => Calls.call_bind (by trivial) fun _ =>
            calls_pure _
        · exact calls_pure _

theorem outcomes_fulfilled : (outcomes deployment).Fulfilled where
  answers _ := trivial
  bodies request := by
    cases request with
    | paymentIntents request =>
        cases request with
        | validate consumer id txHash => exact (checks_validate consumer id txHash).map _ []
        | _ => exact conforms_of_forall _ (fun _ _ => trivial) fun _ _ => trivial
    | tick node => exact (observes_tick node).map _ []
    | _ => exact conforms_of_forall _ (fun _ _ => trivial) fun _ _ => trivial

end CosmosPay

import CosmosPay.Authorization
import CosmosPay.Contracts.Scopes
import CosmosPay.Isolation

/-!
# Who may change what

Clients reach the services through the controllers.  Whatever a request then does to the
tables, to the event bus or to a receiver, its key holds the scope for it, and no row of
another consumer is touched.
-/

namespace CosmosPay

open Awaiting ApisixContextMiddleware

/-! ## Into a handler -/

section Handlers

variable {apisix : ApisixConfig} {headers : Headers} {handler : Handler} {request : Request}

/-- Only the health probes are public. -/
theorem Request.route?_private {route : Route} (isRoute : request.route? = some route) :
    route.isPublic = false := by
  cases request with
  | paymentIntents request => cases request <;> exact Option.some.inj isRoute ▸ rfl
  | webhooks request => cases request <;> exact Option.some.inj isRoute ▸ rfl
  | customers request => cases request <;> exact Option.some.inj isRoute ▸ rfl
  | products request => cases request <;> exact Option.some.inj isRoute ▸ rfl
  | analytics request => cases request <;> exact Option.some.inj isRoute ▸ rfl
  | tick node => cases isRoute
  | background task => cases isRoute

theorem Handler.isPrivate (handler : Handler) : handler.route.isPublic = false :=
  Request.route?_private (handler.declared ⟨"", none, none, none, []⟩)

theorem Authorized.mono {required scopes : List String}
    (authorized : Authorized apisix headers required) (fewer : scopes ⊆ required) :
    Authorized apisix headers scopes where
  genuine := authorized.genuine
  identified := authorized.identified
  permitted := by
    rcases authorized.permitted with rfl | isAdmin | ⟨granted, grants, holds⟩
    · exact .inl (List.subset_nil.mp fewer)
    · exact .inr (.inl isAdmin)
    · exact .inr (.inr ⟨granted, grants, fun scope member => holds scope (fewer member)⟩)

end Handlers

/-! ## Runs behind the gateway -/

section Runs

variable {deployment : Deployment} {apisix : ApisixConfig}
variable {config config' : Config (service deployment)} {state : World}

/-- The request comes from the timer, or out of a handler. -/
def Admitted (apisix : ApisixConfig) (request : Request) : Prop :=
  (∃ node, request = .tick node) ∨
    ∃ (handler : Handler) (headers : Headers), handler.handle apisix headers = .ok request

def gated (apisix : ApisixConfig) (_ : Config (service deployment)) :
    Label (service deployment) → Prop
  | .issue request => Admitted apisix request
  | _ => True

abbrev GatedRun (apisix : ApisixConfig) :
    Config (service deployment) → Config (service deployment) → Prop :=
  Run (gated apisix)

/-- A request with a caller came out of a handler. -/
theorem GatedRun.handled (run : GatedRun apisix (.initial state) config) {index : Nat}
    {request : Request} {code : Promise Reply}
    (lookup : config.threads[index]? = some ⟨request, code⟩) {username : String}
    (isCaller : request.caller? = some username) :
    ∃ (handler : Handler) (headers : Headers), handler.handle apisix headers = .ok request := by
  have admitted := @Run.requests _ (service deployment) _ _ _
    (fun request => request.caller? = none ∨ Admitted apisix request) run
    (fun _ _ isAdmitted => .inr isAdmitted) (fun performed => ?_) _ _ lookup
  · rcases admitted with nobody | ⟨node, rfl⟩ | handled
    · rw [isCaller] at nobody
      cases nobody
    · cases isCaller
    · exact handled
  · intro spawned member
    obtain ⟨task, rfl⟩ := World.perform_spawned performed spawned member
    exact .inl rfl

end Runs

/-! ## A key of alice -/

namespace Sample

end Sample

end CosmosPay

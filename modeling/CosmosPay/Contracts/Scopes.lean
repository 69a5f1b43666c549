import CosmosPay.Contracts.Kinds
import CosmosPay.Controllers

/-!
# What a scope is for

A client's request changes rows of the tables whose write scope its handler takes, and no
others.  What the service does of its own accord, on a tick or after an event, is a short
list.
-/

namespace CosmosPay

open Awaiting Program

/-- The scope for writing to a table. -/
def Model.writeScope : Model → String
  | .paymentIntent => "payments:write"
  | .customer => "customers:write"
  | .product => "products:write"
  | .webhookEndpoint => "webhooks:write"
  | .webhookDelivery => "webhooks:write"

/-- Every caller refreshes its own consumer row. -/
def Write.scopes : Write → List String
  | .upsertConsumer _ _ => []
  | .create model _ => [model.writeScope]
  | .update model _ _ => [model.writeScope]
  | .delete model _ => [model.writeScope]

/-- The scopes for a call: a statement, an event and the task that follows a settlement, or a
POST. -/
def Call.scopes : Call → List String
  | .write statement => statement.scopes
  | .emit _ => ["payments:write"]
  | .start _ => ["payments:write"]
  | .post _ => ["webhooks:write"]
  | _ => []

def Call.Within (permissions : List String) (call : Call) : Prop :=
  ∀ scope ∈ call.scopes, scope ∈ permissions

/-- What the service does of its own accord. -/
def Call.Unattended : Call → Prop
  | .write (.update .paymentIntent _ _) => True
  | .write (.create .customer _) => True
  | .write (.create .webhookDelivery _) => True
  | .write (.update .webhookDelivery _ _) => True
  | .write _ => False
  | _ => True

def permitsScope (request : Request) (call : Call) : Prop :=
  match request.route? with
  | some route => call.Within (route.required.getD [])
  | none => call.Unattended

def scopes (deployment : Deployment) : Contract (service deployment) where
  relies _ := True
  permits request _ := permitsScope request
  ensures _ _ _ := True

variable {deployment : Deployment} {permissions : List String}

theorem Call.Handles.within {call : Call} (handles : call.Handles) :
    call.Within ["payments:write"] := by
  unfold Call.Handles at handles
  split at handles <;> first | exact handles.elim | exact fun _ member => member | rintro _ ⟨⟩

theorem Call.Manages.within {call : Call} (manages : call.Manages) :
    call.Within ["webhooks:write"] := by
  unfold Call.Manages at manages
  split at manages <;> first | exact manages.elim | exact fun _ member => member | rintro _ ⟨⟩

theorem Call.Transmits.within {call : Call} (transmits : call.Transmits) :
    call.Within ["webhooks:write"] := by
  unfold Call.Transmits at transmits
  split at transmits <;> first | exact transmits.elim | exact fun _ member => member | rintro _ ⟨⟩

theorem Call.Stocks.within {call : Call} (stocks : call.Stocks) :
    call.Within ["products:write"] := by
  unfold Call.Stocks at stocks
  split at stocks <;> first | exact stocks.elim | exact fun _ member => member | rintro _ ⟨⟩

theorem Call.Aggregates.within {call : Call} (aggregates : call.Aggregates) :
    call.Within permissions := by
  unfold Call.Aggregates at aggregates
  split at aggregates <;> first | exact aggregates.elim | rintro _ ⟨⟩

end CosmosPay

import CosmosPay.Contracts.Tenancy
import CosmosPay.Guards

/-!
# The controllers

A handler declares the scopes that it takes, and hands the consumer of the request and its
other parameters on to a service.
-/

namespace CosmosPay

/-- Injects the consumer that the gateway has authenticated. -/
def CurrentConsumer (gatewayConsumer : Option GatewayConsumer) :
    Except ServiceError GatewayConsumer :=
  match gatewayConsumer with
  | none => .error (.http 500 "No gateway consumer on request — was ApisixGuard applied?")
  | some consumer => .ok consumer

/-- The decorator of a private handler. -/
def RequirePermissions (permissions : List String) : Route where
  isPublic := false
  required := some permissions

def PaymentIntentsController : PaymentIntentsRequest → Route
  | .createTx _ _ => RequirePermissions ["payments:write"]
  | .createPay _ _ => RequirePermissions ["payments:write"]
  | .findAll _ _ => RequirePermissions ["payments:read"]
  | .findOne _ _ => RequirePermissions ["payments:read"]
  | .validate _ _ _ => RequirePermissions ["payments:write"]
  | .update _ _ _ => RequirePermissions ["payments:write"]
  | .remove _ _ => RequirePermissions ["payments:write"]

def WebhooksController : WebhooksRequest → Route
  | .create _ _ => RequirePermissions ["webhooks:write"]
  | .findAll _ => RequirePermissions ["webhooks:read"]
  | .findOne _ _ => RequirePermissions ["webhooks:read"]
  | .update _ _ _ => RequirePermissions ["webhooks:write"]
  | .remove _ _ => RequirePermissions ["webhooks:write"]
  | .rotateSecret _ _ => RequirePermissions ["webhooks:write"]
  | .ping _ _ => RequirePermissions ["webhooks:write"]
  | .listDeliveries _ _ _ => RequirePermissions ["webhooks:read"]
  | .redeliver _ _ _ => RequirePermissions ["webhooks:write"]

def CustomersController : CustomersRequest → Route
  | .create _ _ => RequirePermissions ["customers:write"]
  | .findAll _ => RequirePermissions ["customers:read"]
  | .findOne _ _ => RequirePermissions ["customers:read"]
  | .update _ _ _ => RequirePermissions ["customers:write"]
  | .remove _ _ => RequirePermissions ["customers:write"]

def ProductsController : ProductsRequest → Route
  | .create _ _ => RequirePermissions ["products:write"]
  | .findOne _ _ => RequirePermissions ["products:read"]
  | .update _ _ _ => RequirePermissions ["products:write"]
  | .remove _ _ => RequirePermissions ["products:write"]

def AnalyticsController : AnalyticsRequest → Route
  | .summary _ => RequirePermissions ["payments:read"]
  | .balances _ => RequirePermissions ["payments:read"]
  | .webhookLogs _ _ => RequirePermissions ["webhooks:read"]

namespace Request

/-- The route of a request; the timer and the emitter need none. -/
def route? : Request → Option Route
  | .paymentIntents request => some (PaymentIntentsController request)
  | .webhooks request => some (WebhooksController request)
  | .customers request => some (CustomersController request)
  | .products request => some (ProductsController request)
  | .analytics request => some (AnalyticsController request)
  | .tick _ => none
  | .background _ => none

/-- The consumer that a service gets from its controller. -/
def consumer? : Request → Option GatewayConsumer
  | .paymentIntents request => some request.consumer
  | .webhooks request => some request.consumer
  | .customers request => some request.consumer
  | .products request => some request.consumer
  | .analytics request => some request.consumer
  | .tick _ => none
  | .background _ => none

end Request

/-- A handler whose parameters other than the consumer are bound. -/
structure Handler where
  call : GatewayConsumer → Request
  route : Route
  declared : ∀ consumer, (call consumer).route? = some route
  injected : ∀ consumer, (call consumer).consumer? = some consumer

/-- From the headers to the service. -/
def Handler.handle (handler : Handler) (config : ApisixConfig) (headers : Headers) :
    Except ServiceError Request := do
  reachHandler config handler.route headers
  let consumer ← CurrentConsumer (ApisixContextMiddleware.use config headers)
  pure (handler.call consumer)

end CosmosPay

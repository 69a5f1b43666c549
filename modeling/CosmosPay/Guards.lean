import CosmosPay.Gateway
import CosmosPay.Text.Json
import CosmosPay.Text.Trim
import Mathlib

/-!
# The way into a handler

`ApisixContextMiddleware` reads the consumer context off the headers, `ApisixGuard` checks
that the request came through the gateway, and `PermissionsGuard` checks the scopes.
-/

namespace CosmosPay

open Text (trim toLowerCase Json)

/-- Headers by lower-case name, each with at most one value. -/
abbrev Headers : Type :=
  String → Option String

structure ApisixConfig where
  gatewaySecret : String
  gatewaySecretHeader : String
  consumerHeader : String
  credentialHeader : String
  environmentHeader : String
  roleHeader : String
  permissionsHeader : String

/-- What the decorators of a handler and its class say. -/
structure Route where
  isPublic : Bool
  required : Option (List String)

namespace ServiceError

def unauthorized (message : String) : ServiceError := .http 401 message

def forbidden (message : String) : ServiceError := .http 403 message

end ServiceError

namespace ApisixContextMiddleware

def parseRole (raw : Option String) : Option KeyRole :=
  (truthy raw).map fun raw => if toLowerCase raw = "admin" then .admin else .user

/-- The strings of a JSON array. -/
def parseArray (text : String) : List String :=
  match Json.parse text with
  | some (.array elements) => elements.filterMap Json.text?
  | _ => []

/-- The items of a comma-separated list. -/
def parseItems (text : String) : List String :=
  ((text.toList.splitOn ',').map fun item => trim (String.ofList item)).filter (· ≠ "")

def parsePermissions (raw : Option String) : List String :=
  match truthy raw with
  | none => []
  | some raw =>
      let trimmed := trim raw
      if trimmed.toList.head? = some '[' then parseArray trimmed else parseItems trimmed

def parseEnvironment (raw : Option String) : Option KeyEnvironment :=
  (truthy raw).bind fun raw =>
    let v := toLowerCase raw
    if v = "prod" ∨ v = "production" ∨ v = "live" ∨ v = "public" then some .prod
    else if v = "dev" ∨ v = "development" ∨ v = "test" ∨ v = "testnet" then some .dev
    else none

def firstHeader (headers : Headers) (name : String) : Option String :=
  truthy ((headers name).map trim)

/-- The context that the request gets. -/
def use (config : ApisixConfig) (headers : Headers) : Option GatewayConsumer :=
  (firstHeader headers config.consumerHeader).map fun username =>
    { username
      credentialId := firstHeader headers config.credentialHeader
      environment := parseEnvironment (firstHeader headers config.environmentHeader)
      role := parseRole (firstHeader headers config.roleHeader)
      permissions := parsePermissions (firstHeader headers config.permissionsHeader) }

end ApisixContextMiddleware

namespace ApisixGuard

def hasValidSecret (config : ApisixConfig) (headers : Headers) : Except ServiceError Bool :=
  let secretBuffer := config.gatewaySecret.toUTF8
  if secretBuffer.size = 0 then .error (.serviceUnavailable "Gateway secret not configured")
  else
    match truthy (headers config.gatewaySecretHeader) with
    | none => .ok false
    | some provided =>
        let providedBuffer := provided.toUTF8
        if providedBuffer.size ≠ secretBuffer.size then .ok false
        else .ok (decide (providedBuffer = secretBuffer))

def canActivate (config : ApisixConfig) (route : Route) (headers : Headers)
    (consumer : Option GatewayConsumer) : Except ServiceError Bool :=
  if route.isPublic then .ok true
  else do
    if !(← hasValidSecret config headers) then
      throw (.forbidden "Request did not originate from the gateway")
    match truthy (consumer.map GatewayConsumer.username) with
    | none => throw (.unauthorized "No authenticated consumer")
    | some _ => pure true

end ApisixGuard

namespace PermissionsGuard

def canActivate (route : Route) (consumer : Option GatewayConsumer) : Except ServiceError Bool :=
  if route.isPublic then .ok true
  else
    let required := route.required.getD []
    if required.isEmpty then .ok true
    else
      match consumer with
      | none => .error (.unauthorized "No authenticated consumer")
      | some consumer =>
          if consumer.role = some .admin then .ok true
          else
            let missing := required.filter fun scope => !consumer.permissions.contains scope
            if missing.isEmpty then .ok true
            else .error (.forbidden ("This API key is missing the required scope(s): " ++
              ", ".intercalate missing))

end PermissionsGuard

/-- The middleware and the two guards, in this order; a guard that does not activate is an
error as well. -/
def reachHandler (config : ApisixConfig) (route : Route) (headers : Headers) :
    Except ServiceError Unit := do
  let consumer := ApisixContextMiddleware.use config headers
  if !(← ApisixGuard.canActivate config route headers consumer) then
    throw (.forbidden "Forbidden resource")
  if !(← PermissionsGuard.canActivate route consumer) then
    throw (.forbidden "Forbidden resource")

end CosmosPay

-- SUMMARY: Updating and disabling upstream services, with the checks on what an operator may register.
import NexusMcp.Catalog.Store
import NexusMcp.Networking.Egress
import NexusMcp.Txn.Serial

/-! # Upstream Registry -/

namespace NexusMcp

open CatalogM (lift orRaise)
open Net (Unicode urlsplit)
open Txn (Serial)

/-! ## Registration checks -/

/-- `_SENSITIVE_CONFIG_KEYS`. -/
def sensitiveConfigKeys : List String :=
  ["access_token", "api_key", "authorization", "authorization_header", "client_secret", "cookie",
    "credential", "password", "private_key", "refresh_token", "secret", "token"]

/-- `str(key).strip().lower().replace("-", "_")`. -/
def normalizedConfigKey [Unicode] (key : String) : String :=
  String.ofList ((Unicode.lower (strip key).toList).map fun c => if c = '-' then '_' else c)

mutual

/-- `_contains_sensitive_key`. -/
def containsSensitiveKey [Unicode] : Json → Bool
  | .obj fields => containsSensitiveField fields
  | .arr items => containsSensitiveItem items
  | _ => false

def containsSensitiveItem [Unicode] : List Json → Bool
  | [] => false
  | item :: items => containsSensitiveKey item || containsSensitiveItem items

def containsSensitiveField [Unicode] : List (String × Json) → Bool
  | [] => false
  | (key, nested) :: fields =>
    sensitiveConfigKeys.contains (normalizedConfigKey key) || containsSensitiveKey nested ||
      containsSensitiveField fields

end

def invalidArguments (message : String) : Exc := .nexus .invalidArguments message

/-- The endpoint of an HTTP service. -/
def validateHttpEndpoint [Unicode] (endpoint : String) : Except Exc Unit := do
  let parsed ← (urlsplit endpoint.toList).mapError .valueError
  raiseIf (parsed.scheme ∉ ["http".toList, "https".toList] ∨ parsed.netloc = [])
    (invalidArguments "HTTP upstream endpoint must use http or https")
  raiseIf (parsed.hasCredentials = true)
    (invalidArguments "upstream endpoint must not contain credentials")

/-- `_validate_registration`. -/
def validateRegistration [Unicode] (owner endpoint : String) (config : JsonObject)
    (serviceType : UpstreamServiceType) : Except Exc Unit := do
  raiseIf (isBlank owner) (invalidArguments "upstream owner must not be blank")
  raiseIf (isBlank endpoint) (invalidArguments "upstream endpoint must not be blank")
  match serviceType with
  | .http => validateHttpEndpoint endpoint
  | .remoteMcp => .ok ()
  raiseIf (containsSensitiveKey (.obj config))
    (invalidArguments "upstream config must not contain secret values")

/-! ## Commands -/

def upstreamNotFound (upstreamServiceId : Id) : Exc :=
  .nexus .upstreamNotFound ("upstream " ++ upstreamServiceId ++ " was not found in tenant")

structure UpdateUpstreamCommand where
  context : ActorContext
  upstreamServiceId : Id
  description : Option String
  owner : String
  endpoint : String
  authScheme : Option String
  config : JsonObject

/-- The endpoint check of the composition root: `UpstreamEndpointPolicy.validate`. -/
abbrev UpstreamEndpointPolicy := String → Except Exc Unit

namespace UpdateUpstream

/-- The unit of work that observes the service, without locking it. -/
def observe (command : UpdateUpstreamCommand) : CatalogM UpstreamService := do
  orRaise (← getUpstreamById command.context.tenantId command.upstreamServiceId)
    (upstreamNotFound command.upstreamServiceId)

/-- The unit of work that writes. -/
def write (command : UpdateUpstreamCommand) : CatalogM UpstreamService := do
  let tenantId := command.context.tenantId
  let upstream ← orRaise (← getUpstreamForUpdate tenantId command.upstreamServiceId)
    (upstreamNotFound command.upstreamServiceId)
  let updated ← lift (upstream.update command.description command.owner command.endpoint
    command.authScheme command.config)
  saveUpstream tenantId updated
  return updated

/-- `execute`. The checks are made between the two units of work. -/
def execute [Unicode] (endpointPolicy : UpstreamEndpointPolicy)
    (command : UpdateUpstreamCommand) : Serial CatalogTables Exc UpstreamService := do
  let observed ← Serial.atomically (observe command)
  Serial.lift (validateRegistration command.owner command.endpoint command.config
    observed.val.serviceType)
  Serial.lift (endpointPolicy command.endpoint)
  Serial.atomically (write command)

end UpdateUpstream

structure DisableUpstreamCommand where
  context : ActorContext
  upstreamServiceId : Id

/-- `DisableUpstream.execute`. -/
def DisableUpstream.execute (command : DisableUpstreamCommand) : CatalogM UpstreamService := do
  let tenantId := command.context.tenantId
  let upstream ← orRaise (← getUpstreamForUpdate tenantId command.upstreamServiceId)
    (upstreamNotFound command.upstreamServiceId)
  let disabled ← lift upstream.disable
  saveUpstream tenantId disabled
  return disabled

end NexusMcp

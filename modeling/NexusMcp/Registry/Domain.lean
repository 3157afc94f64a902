-- SUMMARY: Upstream services, with their status and the fields an update may change.
import NexusMcp.Shared.Json

/-! # Upstream Services -/

namespace NexusMcp

inductive UpstreamServiceType where
  | http
  | remoteMcp
deriving Repr, DecidableEq

inductive UpstreamStatus where
  | draft
  | active
  | disabled
deriving Repr, DecidableEq

structure UpstreamServiceFields where
  id : Id
  tenantId : Id
  namespaceName : String
  name : String
  description : Option String
  owner : String
  serviceType : UpstreamServiceType
  transportType : String
  endpoint : String
  protocolMin : Option String
  protocolMax : Option String
  authScheme : Option String
  config : JsonObject
  status : UpstreamStatus
deriving Repr

instance : PostInit UpstreamServiceFields where
  checks u := [
    nonBlank "upstream service id" u.id,
    nonBlank "tenant id" u.tenantId,
    nonBlank "upstream namespace" u.namespaceName,
    nonBlank "upstream name" u.name,
    nonBlank "upstream owner" u.owner,
    nonBlank "upstream transport type" u.transportType,
    nonBlank "upstream endpoint" u.endpoint]

abbrev UpstreamService := Checked UpstreamServiceFields

namespace UpstreamService

def update (self : UpstreamService) (description : Option String) (owner endpoint : String)
    (authScheme : Option String) (config : JsonObject) : Except Exc UpstreamService :=
  construct { self.val with
    description := description
    owner := owner
    endpoint := endpoint
    authScheme := authScheme
    config := config }

def disable (self : UpstreamService) : Except Exc UpstreamService :=
  if self.val.status = .disabled then .ok self
  else construct { self.val with status := .disabled }

end UpstreamService

end NexusMcp

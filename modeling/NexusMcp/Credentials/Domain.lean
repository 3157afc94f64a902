-- SUMMARY: References to secrets, credential bindings and resolved credentials.
import NexusMcp.Shared.Errors
import Mathlib.Data.List.Infix

/-! # Credentials -/

namespace NexusMcp

inductive CredentialSubjectType where
  | principal
  | tenant
deriving Repr, DecidableEq

inductive CredentialInjectionLocation where
  | header
  | query
deriving Repr, DecidableEq

inductive CredentialValueFormat where
  | raw
  | bearer
deriving Repr, DecidableEq

inductive CredentialBindingStatus where
  | active
  | disabled
deriving Repr, DecidableEq

structure SecretReferenceFields where
  provider : String
  reference : String
  version : Option String := none
deriving Repr, DecidableEq

instance : PostInit SecretReferenceFields where
  checks r := [
    (isBlank r.provider ∨ isBlank r.reference,
      "secret reference provider and reference must not be blank"),
    ("://".toList <:+: r.reference.toList,
      "secret reference must be opaque and must not contain a URL")]

abbrev SecretReference := Checked SecretReferenceFields

/-- A secret; the source refuses an empty one. -/
abbrev SecretValue := { value : String // value ≠ "" }

structure CredentialBindingFields where
  id : String
  tenantId : Id
  subjectType : CredentialSubjectType
  subjectId : Option String
  toolId : Option Id
  upstreamServiceId : Id
  secretReference : SecretReference
  injectionLocation : CredentialInjectionLocation
  injectionName : String
  valueFormat : CredentialValueFormat
  status : CredentialBindingStatus := .active
deriving Repr, DecidableEq

instance : PostInit CredentialBindingFields where
  checks b := [
    (b.subjectType = .tenant ∧ b.subjectId.isSome,
      "tenant credential subject must not declare subject id"),
    (b.subjectType ≠ .tenant ∧ b.subjectId.getD "" = "",
      "principal credential subject must declare subject id"),
    (isBlank b.injectionName, "credential injection name must not be blank")]

abbrev CredentialBinding := Checked CredentialBindingFields

structure ResolvedCredential where
  credentialBindingId : String
  injectionLocation : CredentialInjectionLocation
  injectionName : String
  valueFormat : CredentialValueFormat
  value : SecretValue
deriving Repr, DecidableEq

end NexusMcp

-- SUMMARY: Registering upstream services, what may be registered, and how the registry changes.
import NexusMcp.Catalog.Commands
import NexusMcp.OpenApi.ImportRuns

/-!
# Registration of Upstreams

A registration is checked before the database is asked, and an update between the
transaction that observes the service and the one that writes it.
-/

namespace NexusMcp

open CatalogM (lift orRaise)
open Net (Unicode urlsplit SplitResult)
open Txn (Serial Table)

/-! ## `RegisterUpstream` -/

/-- `_NAMESPACE_PATTERN.fullmatch`. -/
def isNamespace (namespaceName : String) : Bool :=
  match namespaceName.toList with
  | [] => false
  | c :: rest => ('a' ≤ c ∧ c ≤ 'z') ∧ rest.length ≤ 63 ∧
      ∀ c ∈ rest, ('a' ≤ c ∧ c ≤ 'z') ∨ Net.isDigit c ∨ c = '_'

/-- `_validate_namespace`. -/
def validateNamespace (namespaceName : String) : Except Exc Unit := do
  raiseIf (! isNamespace namespaceName) (invalidArguments "upstream namespace is invalid")
  raiseIf (isReservedToolNamespace namespaceName)
    (invalidArguments "upstream namespace is reserved by NexusMCP")

structure RegisterUpstreamCommand where
  context : ActorContext
  namespaceName : String
  name : String
  description : Option String
  owner : String
  endpoint : String
  authScheme : Option String
  config : JsonObject
  serviceType : UpstreamServiceType := .http
  transportType : String := "http"

/-- `get_by_name`. -/
def getUpstreamByName (tenantId : Id) (namespaceName name : String) :
    CatalogM (Option UpstreamService) :=
  CatalogM.read fun c => c.upstreams.rows.find? fun u =>
    u.val.tenantId = tenantId ∧ u.val.namespaceName = namespaceName ∧ u.val.name = name

/-- `SqlAlchemyUpstreamRepository.add`. The flush violates the primary key or
    `uq_upstream_service_tenant_namespace_name`. -/
def addUpstream (tenantId : Id) (upstream : UpstreamService) : CatalogM Unit := do
  requireMatchingTenant tenantId upstream.val.tenantId
  let taken ← getUpstreamByName upstream.val.tenantId upstream.val.namespaceName upstream.val.name
  let existing ← CatalogM.read (·.upstreams.find? upstream.val.id)
  CatalogM.raiseIf (taken.isSome ∨ existing.isSome) (.nexus .upstreamConflict
    "upstream registration violated a database uniqueness constraint")
  update fun c => { c with upstreams := c.upstreams.insert upstream }

namespace RegisterUpstream

/-- The checks before the unit of work. -/
def validate [Unicode] (endpointPolicy : UpstreamEndpointPolicy)
    (command : RegisterUpstreamCommand) : Except Exc Unit := do
  validateNamespace command.namespaceName
  raiseIf (isBlank command.name) (invalidArguments "upstream name must not be blank")
  raiseIf (isBlank command.transportType)
    (invalidArguments "upstream transport type must not be blank")
  validateRegistration command.owner command.endpoint command.config command.serviceType
  endpointPolicy command.endpoint

/-- The name is looked up. -/
def requireUnused (command : RegisterUpstreamCommand) : CatalogM Unit := do
  let existing ← getUpstreamByName command.context.tenantId command.namespaceName command.name
  CatalogM.raiseIf existing.isSome (.nexus .upstreamConflict
    ("upstream " ++ command.namespaceName ++ "/" ++ command.name ++ " already exists"))

def fields (command : RegisterUpstreamCommand) (id : Id) : UpstreamServiceFields where
  id := id
  tenantId := command.context.tenantId
  namespaceName := command.namespaceName
  name := command.name
  description := command.description
  owner := command.owner
  serviceType := command.serviceType
  transportType := command.transportType
  endpoint := command.endpoint
  protocolMin := none
  protocolMax := none
  authScheme := command.authScheme
  config := command.config
  status := .active

/-- The service is added. -/
def add (command : RegisterUpstreamCommand) (id : Id) : CatalogM UpstreamService := do
  let upstream ← lift (construct (fields command id))
  addUpstream command.context.tenantId upstream
  return upstream

/-- `execute`. No lock protects a name that is not there, so others may commit between the
    lookup and the flush. -/
def execute [Unicode] (endpointPolicy : UpstreamEndpointPolicy) (id : Id)
    (command : RegisterUpstreamCommand) : Serial CatalogTables Exc UpstreamService := do
  Serial.lift (validate endpointPolicy command)
  Serial.atomically (requireUnused command)
  Serial.atomically (add command id)

end RegisterUpstream

/-! ## What may be registered -/

section Vetting

variable [Unicode]

/-- A key that names a secret stands somewhere in the value. -/
inductive HoldsSecret : Json → Prop where
  | key {fields : JsonObject} {key : String} {value : Json} (hmem : (key, value) ∈ fields)
      (hkey : normalizedConfigKey key ∈ sensitiveConfigKeys) : HoldsSecret (.obj fields)
  | nested {fields : JsonObject} {key : String} {value : Json} (hmem : (key, value) ∈ fields)
      (h : HoldsSecret value) : HoldsSecret (.obj fields)
  | item {items : List Json} {item : Json} (hmem : item ∈ items) (h : HoldsSecret item) :
      HoldsSecret (.arr items)

mutual

theorem containsSensitiveKey_iff : (value : Json) →
    (containsSensitiveKey value = true ↔ HoldsSecret value)
  | .obj fields => by
    rw [containsSensitiveKey, containsSensitiveField_iff fields]
    constructor
    · rintro ⟨key, value, hmem, hkey | hvalue⟩
      · exact .key hmem hkey
      · exact .nested hmem hvalue
    · intro h
      cases h with
      | key hmem hkey => exact ⟨_, _, hmem, .inl hkey⟩
      | nested hmem hvalue => exact ⟨_, _, hmem, .inr hvalue⟩
  | .arr items => by
    rw [containsSensitiveKey, containsSensitiveItem_iff items]
    constructor
    · rintro ⟨item, hmem, hitem⟩
      exact .item hmem hitem
    · intro h
      cases h with
      | item hmem hitem => exact ⟨_, hmem, hitem⟩
  | .null | .bool _ | .int _ | .float _ | .str _ => iff_of_false Bool.false_ne_true (by rintro ⟨⟩)

theorem containsSensitiveItem_iff : (items : List Json) →
    (containsSensitiveItem items = true ↔ ∃ item ∈ items, HoldsSecret item)
  | [] => by simp [containsSensitiveItem]
  | item :: items => by
    rw [containsSensitiveItem, Bool.or_eq_true, containsSensitiveKey_iff item,
      containsSensitiveItem_iff items, List.exists_mem_cons_iff]

theorem containsSensitiveField_iff : (fields : JsonObject) →
    (containsSensitiveField fields = true ↔ ∃ key value, (key, value) ∈ fields ∧
      (normalizedConfigKey key ∈ sensitiveConfigKeys ∨ HoldsSecret value))
  | [] => by simp [containsSensitiveField]
  | (key, value) :: fields => by
    rw [containsSensitiveField, Bool.or_eq_true, Bool.or_eq_true, containsSensitiveKey_iff value,
      containsSensitiveField_iff fields, List.contains_iff_mem]
    constructor
    · rintro (h | ⟨key', value', hmem, h⟩)
      · exact ⟨key, value, List.mem_cons_self, h⟩
      · exact ⟨key', value', List.mem_cons_of_mem _ hmem, h⟩
    · rintro ⟨key', value', hmem, h⟩
      rcases List.mem_cons.1 hmem with heq | hmem
      · cases heq
        exact .inl h
      · exact .inr ⟨key', value', hmem, h⟩

end

/-- The endpoint of an HTTP service names a host and no credentials. -/
def HttpEndpoint (endpoint : String) : Prop :=
  ∃ parsed : SplitResult, urlsplit endpoint.toList = .ok parsed ∧
    parsed.scheme ∈ ["http".toList, "https".toList] ∧ parsed.netloc ≠ [] ∧
    parsed.hasCredentials = false

/-- What `_validate_registration` lets through. -/
structure Registrable (owner endpoint : String) (config : JsonObject)
    (serviceType : UpstreamServiceType) : Prop where
  notBlank : isBlank owner = false ∧ isBlank endpoint = false
  http : serviceType = .http → HttpEndpoint endpoint
  config : ¬ HoldsSecret (.obj config)

theorem validateHttpEndpoint_eq_ok {endpoint : String} {u : Unit}
    (h : validateHttpEndpoint endpoint = .ok u) : HttpEndpoint endpoint := by
  obtain ⟨parsed, hparsed, h⟩ := bind_eq_ok.1 h
  rw [raiseIf_bind_eq_ok, not_or, not_not] at h
  obtain ⟨⟨hscheme, hnetloc⟩, h⟩ := h
  have hcredentials := raiseIf_eq_ok.1 h
  refine ⟨parsed, ?_, hscheme, hnetloc, by simpa using hcredentials⟩
  cases hsplit : urlsplit endpoint.toList with
  | error e =>
    rw [hsplit] at hparsed
    cases hparsed
  | ok found =>
    rw [hsplit] at hparsed
    cases hparsed
    rfl

theorem validateRegistration_eq_ok {owner endpoint : String} {config : JsonObject}
    {serviceType : UpstreamServiceType} {u : Unit}
    (h : validateRegistration owner endpoint config serviceType = .ok u) :
    Registrable owner endpoint config serviceType := by
  unfold validateRegistration at h
  rw [raiseIf_bind_eq_ok, raiseIf_bind_eq_ok] at h
  obtain ⟨howner, hendpoint, h⟩ := h
  have hnotBlank : isBlank owner = false ∧ isBlank endpoint = false :=
    ⟨by simpa using howner, by simpa using hendpoint⟩
  cases serviceType with
  | http =>
    obtain ⟨_, hhttp, h⟩ := bind_eq_ok.1 h
    exact ⟨hnotBlank, fun _ => validateHttpEndpoint_eq_ok hhttp,
      mt (containsSensitiveKey_iff _).2 (raiseIf_eq_ok.1 h)⟩
  | remoteMcp =>
    refine ⟨hnotBlank, fun hhttp => ?_, mt (containsSensitiveKey_iff _).2 (raiseIf_eq_ok.1 h)⟩
    cases hhttp

end Vetting

/-! ## How the registry changes -/

section Changes

/-- The service stays the same one, and stays disabled once it is. -/
structure UpstreamService.Becomes (u u' : UpstreamService) : Prop where
  id : u'.val.id = u.val.id
  tenantId : u'.val.tenantId = u.val.tenantId
  namespaceName : u'.val.namespaceName = u.val.namespaceName
  name : u'.val.name = u.val.name
  serviceType : u'.val.serviceType = u.val.serviceType
  transportType : u'.val.transportType = u.val.transportType
  disabled : u.val.status = .disabled → u'.val.status = .disabled

theorem UpstreamService.Becomes.refl (u : UpstreamService) : u.Becomes u :=
  ⟨rfl, rfl, rfl, rfl, rfl, rfl, fun h => h⟩

theorem UpstreamService.Becomes.trans {u u' u'' : UpstreamService} (h : u.Becomes u')
    (h' : u'.Becomes u'') : u.Becomes u'' :=
  ⟨h'.id.trans h.id, h'.tenantId.trans h.tenantId, h'.namespaceName.trans h.namespaceName,
    h'.name.trans h.name, h'.serviceType.trans h.serviceType,
    h'.transportType.trans h.transportType, fun hdisabled => h'.disabled (h.disabled hdisabled)⟩

/-- No service is gone, and each is the one that it was. -/
def CatalogTables.Evolves (c c' : CatalogTables) : Prop :=
  ∀ u ∈ c.upstreams, ∃ u' ∈ c'.upstreams, u.Becomes u'

theorem CatalogTables.Evolves.refl (c : CatalogTables) : c.Evolves c := fun u hu => ⟨u, hu, .refl u⟩

theorem CatalogTables.Evolves.trans {c c' c'' : CatalogTables} (h : c.Evolves c')
    (h' : c'.Evolves c'') : c.Evolves c'' := by
  intro u hu
  obtain ⟨u', hu', hbecomes⟩ := h u hu
  obtain ⟨u'', hu'', hbecomes'⟩ := h' u' hu'
  exact ⟨u'', hu'', hbecomes.trans hbecomes'⟩

/-- The services have the same name in the same tenant. -/
def SameName (u v : UpstreamService) : Prop :=
  u.val.tenantId = v.val.tenantId ∧ u.val.namespaceName = v.val.namespaceName ∧
    u.val.name = v.val.name

variable [Unicode]

/-- The service was checked as it stands, and its endpoint is allowed. -/
structure Vetted (Allows : String → Prop) (u : UpstreamServiceFields) : Prop where
  namespaceName : isNamespace u.namespaceName = true
  unreserved : isReservedToolNamespace u.namespaceName = false
  registrable : Registrable u.owner u.endpoint u.config u.serviceType
  allowed : Allows u.endpoint

/-- What a commit does to the registry, where the process saw the stores `seen` before. -/
inductive UpstreamStep (Allows : String → Prop) (seen : List (CatalogTables × CatalogTables))
    (c c' : CatalogTables) : Prop where
  | kept (h : c'.upstreams = c.upstreams)
  | registered {u : UpstreamService} (hvetted : Vetted Allows u.val)
      (hfresh : c.upstreams.find? u.val.id = none) (hunused : ∀ v ∈ c.upstreams, ¬ SameName v u)
      (h : c'.upstreams = c.upstreams.insert u)
  | updated {u v : UpstreamService} (hmem : u ∈ c.upstreams) (hbecomes : u.Becomes v)
      (hobserved : ∃ t ∈ seen, ∃ observed ∈ t.2.upstreams, observed.val.id = u.val.id ∧
        Registrable v.val.owner v.val.endpoint v.val.config observed.val.serviceType)
      (hallowed : Allows v.val.endpoint) (h : c'.upstreams = replaceRow c.upstreams v)
  | disabled {u v : UpstreamService} (hmem : u ∈ c.upstreams) (hbecomes : u.Becomes v)
      (hsame : v.val.owner = u.val.owner ∧ v.val.endpoint = u.val.endpoint ∧
        v.val.config = u.val.config)
      (h : c'.upstreams = replaceRow c.upstreams v)

/-- Every service of the registry is vetted, and no two have the same name. -/
structure RegistryVetted (Allows : String → Prop) (c : CatalogTables) : Prop where
  vetted : ∀ u ∈ c.upstreams, Vetted Allows u.val
  names : ∀ u ∈ c.upstreams, ∀ v ∈ c.upstreams, SameName u v → u = v

variable {Allows Allows' : String → Prop} {seen : List (CatalogTables × CatalogTables)}
  {c c' : CatalogTables} {u u' : UpstreamService}

omit [Unicode] in
theorem evolves_replaceRow (hmem : u ∈ c.upstreams) (hbecomes : u.Becomes u')
    (h : c'.upstreams = replaceRow c.upstreams u') : c.Evolves c' := by
  intro v hv
  rw [h]
  by_cases hkey : v.val.id = u'.val.id
  · obtain rfl : v = u := Table.eq_of_key_eq hv hmem (hkey.trans hbecomes.id)
    exact ⟨u', (mem_replaceRow hmem hbecomes.id.symm).2 (.inr rfl), hbecomes⟩
  · exact ⟨v, (mem_replaceRow hmem hbecomes.id.symm).2 (.inl ⟨hv, hkey⟩), .refl v⟩

theorem UpstreamStep.evolves (h : UpstreamStep Allows seen c c') : c.Evolves c' := by
  cases h with
  | kept h =>
    intro u hu
    exact ⟨u, h ▸ hu, .refl u⟩
  | registered hvetted hfresh hunused h =>
    intro u hu
    rw [h]
    exact ⟨u, (Table.mem_insert hfresh).2 (.inl hu), .refl u⟩
  | updated hmem hbecomes hobserved hallowed h => exact evolves_replaceRow hmem hbecomes h
  | disabled hmem hbecomes hsame h => exact evolves_replaceRow hmem hbecomes h

/-- A service of a vetted registry is replaced by what it becomes. -/
theorem RegistryVetted.replaceRow (hvetted : RegistryVetted Allows c) (hmem : u ∈ c.upstreams)
    (hbecomes : u.Becomes u')
    (hregistrable : Registrable u'.val.owner u'.val.endpoint u'.val.config u'.val.serviceType)
    (hallowed : Allows u'.val.endpoint) (h : c'.upstreams = replaceRow c.upstreams u') :
    RegistryVetted Allows c' := by
  have hcases : ∀ v ∈ c'.upstreams, (v ∈ c.upstreams ∧ v.val.id ≠ u'.val.id) ∨ v = u' := by
    intro v hv
    rw [h] at hv
    exact (mem_replaceRow hmem hbecomes.id.symm).1 hv
  -- An update cannot change a name, so it cannot take one.
  have hname : ∀ v ∈ c.upstreams, v.val.id ≠ u'.val.id → ¬ SameName v u' := by
    rintro v hv hne ⟨htenant, hnamespace, hsame⟩
    refine hne ((congrArg (·.val.id) (hvetted.names v hv u hmem ?_)).trans hbecomes.id.symm)
    exact ⟨htenant.trans hbecomes.tenantId, hnamespace.trans hbecomes.namespaceName,
      hsame.trans hbecomes.name⟩
  constructor
  case vetted =>
    intro v hv
    rcases hcases v hv with ⟨hv, -⟩ | rfl
    · exact hvetted.vetted v hv
    · obtain ⟨hnamespace, hunreserved, -, -⟩ := hvetted.vetted u hmem
      refine ⟨?_, ?_, hregistrable, hallowed⟩
      · rw [hbecomes.namespaceName]
        exact hnamespace
      · rw [hbecomes.namespaceName]
        exact hunreserved
  case names =>
    intro v hv w hw hsame
    rcases hcases v hv with ⟨hv, hvne⟩ | rfl <;> rcases hcases w hw with ⟨hw, hwne⟩ | rfl
    · exact hvetted.names v hv w hw hsame
    · exact absurd hsame (hname v hv hvne)
    · exact absurd ⟨hsame.1.symm, hsame.2.1.symm, hsame.2.2.symm⟩ (hname w hw hwne)
    · rfl

/-- A commit leaves a vetted registry: what an update was checked against is still so, as a
    service keeps its type. -/
theorem UpstreamStep.vetted (hstep : UpstreamStep Allows seen c c')
    (hallows : ∀ endpoint, Allows endpoint → Allows' endpoint)
    (hseen : ∀ t ∈ seen, t.2.Evolves c) (hvetted : RegistryVetted Allows' c) :
    RegistryVetted Allows' c' := by
  cases hstep with
  | kept h =>
    refine ⟨fun u hu => hvetted.vetted u (h ▸ hu), fun u hu v hv => ?_⟩
    exact hvetted.names u (h ▸ hu) v (h ▸ hv)
  | @registered u hnew hfresh hunused h =>
    have hcases : ∀ v ∈ c'.upstreams, v ∈ c.upstreams ∨ v = u := by
      intro v hv
      rw [h] at hv
      exact (Table.mem_insert hfresh).1 hv
    refine ⟨fun v hv => ?_, fun v hv w hw hsame => ?_⟩
    · rcases hcases v hv with hv | rfl
      · exact hvetted.vetted v hv
      · exact ⟨hnew.namespaceName, hnew.unreserved, hnew.registrable, hallows _ hnew.allowed⟩
    · rcases hcases v hv with hv | rfl <;> rcases hcases w hw with hw | rfl
      · exact hvetted.names v hv w hw hsame
      · exact absurd hsame (hunused v hv)
      · exact absurd ⟨hsame.1.symm, hsame.2.1.symm, hsame.2.2.symm⟩ (hunused w hw)
      · rfl
  | @updated u u' hmem hbecomes hobserved hallowed h =>
    obtain ⟨t, ht, observed, hobserved, hid, hregistrable⟩ := hobserved
    obtain ⟨v, hv, hkept⟩ := hseen t ht observed hobserved
    -- The service was checked in an earlier transaction. It is the one that is written now, and of
    -- the type that it was checked as.
    obtain rfl : v = u := Table.eq_of_key_eq hv hmem (hkept.id.trans hid)
    rw [← hkept.serviceType, ← hbecomes.serviceType] at hregistrable
    exact hvetted.replaceRow hmem hbecomes hregistrable (hallows _ hallowed) h
  | @disabled u u' hmem hbecomes hsame h =>
    obtain ⟨-, -, hregistrable, hallowed⟩ := hvetted.vetted u hmem
    obtain ⟨howner, hendpoint, hconfig⟩ := hsame
    refine hvetted.replaceRow hmem hbecomes ?_ ?_ h
    · rw [howner, hendpoint, hconfig, hbecomes.serviceType]
      exact hregistrable
    · rw [hendpoint]
      exact hallowed

end Changes

end NexusMcp

-- SUMMARY: The registry over every run of its commands, and the endpoints that tools are called at.
import NexusMcp.Execution.Resolver
import NexusMcp.Registry.Registration

/-!
# Runs of the Registry

Any number of operators register, update and disable upstreams while the catalogue is at
work. What was checked once still holds of what is stored, and of the endpoint that a
resolved tool is called at.
-/

namespace NexusMcp

open CatalogM (lift orRaise)
open Net (Unicode)
open Txn (Commit Serial SerialWorld Table)

/-! ## Commands -/

/-- A registration, or another command on the tables. -/
inductive RegistryCommand where
  | registerUpstream (endpointPolicy : UpstreamEndpointPolicy) (id : Id)
      (command : RegisterUpstreamCommand)
  | catalog (command : CatalogCommand)

namespace RegistryCommand

abbrev Result : RegistryCommand → Type
  | registerUpstream _ _ _ => UpstreamService
  | catalog command => command.Result

def program [Sha256] [Unicode] :
    (command : RegistryCommand) → Serial CatalogTables Exc command.Result
  | registerUpstream endpointPolicy id command => RegisterUpstream.execute endpointPolicy id command
  | catalog command => command.program

/-- The endpoints that the command may store. -/
def Allows : RegistryCommand → String → Prop
  | registerUpstream endpointPolicy _ _, endpoint => endpointPolicy endpoint = .ok ()
  | catalog (.updateUpstream endpointPolicy _), endpoint => endpointPolicy endpoint = .ok ()
  | catalog _, _ => False

end RegistryCommand

/-! ## The steps of each command -/

section Steps

variable [Unicode] {Allows : String → Prop} {seen : List (CatalogTables × CatalogTables)}
  {c c' : CatalogTables}

omit [Unicode] in
theorem sameName_of_getUpstreamByName {tenantId : Id} {namespaceName name : String}
    {r : Option UpstreamService}
    (h : getUpstreamByName tenantId namespaceName name c = .ok (r, c')) :
    c' = c ∧ (r = none → ∀ v ∈ c.upstreams, ¬ (v.val.tenantId = tenantId ∧
      v.val.namespaceName = namespaceName ∧ v.val.name = name)) := by
  rw [getUpstreamByName, CatalogM.read_eq_ok] at h
  obtain ⟨rfl, rfl⟩ := h
  refine ⟨rfl, fun hnone v hv hsame => ?_⟩
  simpa [hsame] using List.find?_eq_none.1 hnone v hv

theorem vetted_of_validate {endpointPolicy : UpstreamEndpointPolicy}
    {command : RegisterUpstreamCommand} {id : Id} {u : Unit}
    (h : RegisterUpstream.validate endpointPolicy command = .ok u) :
    Vetted (fun endpoint => endpointPolicy endpoint = .ok ())
      (RegisterUpstream.fields command id) := by
  obtain ⟨_, hnamespace, h⟩ := bind_eq_ok.1 h
  rw [raiseIf_bind_eq_ok, raiseIf_bind_eq_ok] at h
  obtain ⟨-, -, h⟩ := h
  obtain ⟨_, hregistration, hallowed⟩ := bind_eq_ok.1 h
  rw [validateNamespace, raiseIf_bind_eq_ok, raiseIf_eq_ok] at hnamespace
  rw [Bool.not_eq_true', Bool.not_eq_false, Bool.not_eq_true] at hnamespace
  exact ⟨hnamespace.1, hnamespace.2, validateRegistration_eq_ok hregistration, hallowed⟩

theorem add_step {command : RegisterUpstreamCommand} {id : Id} {u : UpstreamService}
    (hvetted : Vetted Allows (RegisterUpstream.fields command id))
    (h : RegisterUpstream.add command id c = .ok (u, c')) : UpstreamStep Allows seen c c' := by
  simp only [RegisterUpstream.add, addUpstream, CatalogM.bind_eq_ok, CatalogM.lift_eq_ok,
    requireMatchingTenant_eq_ok, CatalogM.read_eq_ok, CatalogM.raiseIf_eq_ok, update_eq_ok,
    CatalogM.pure_eq_ok, construct_eq_ok] at h
  obtain ⟨upstream, _, ⟨hupstream, rfl⟩, _, _, ⟨_, _, ⟨-, rfl⟩, taken, _, htaken, _, _, ⟨rfl, rfl⟩,
    _, _, ⟨hfree, rfl⟩, hrows⟩, -, rfl⟩ := h
  obtain ⟨rfl, hunused⟩ := sameName_of_getUpstreamByName htaken
  rw [not_or, Bool.not_eq_true, Option.isSome_eq_false_iff, Bool.not_eq_true,
    Option.isSome_eq_false_iff, Option.isNone_iff_eq_none, Option.isNone_iff_eq_none] at hfree
  obtain ⟨hnone, hfresh⟩ := hfree
  refine .registered (u := upstream) (hupstream ▸ hvetted) hfresh (hunused hnone) ?_
  rw [hrows]

theorem registerUpstream_follows (endpointPolicy : UpstreamEndpointPolicy) (id : Id)
    (command : RegisterUpstreamCommand) :
    (RegisterUpstream.execute endpointPolicy id command).Follows
      (UpstreamStep fun endpoint => endpointPolicy endpoint = .ok ()) seen := by
  unfold RegisterUpstream.execute
  rw [Serial.follows_lift_bind]
  intro _ hvalidate
  rw [Serial.follows_atomically_bind]
  intro c _ c' hunused
  constructor
  -- The first transaction only reads. The name may be taken before the second one inserts.
  · simp only [RegisterUpstream.requireUnused, CatalogM.bind_eq_ok,
      CatalogM.raiseIf_eq_ok] at hunused
    obtain ⟨_, _, hfound, -, rfl⟩ := hunused
    obtain ⟨rfl, -⟩ := sameName_of_getUpstreamByName hfound
    exact .kept rfl
  · rw [Serial.follows_atomically]
    intro c _ c' hadd
    exact add_step (vetted_of_validate hvalidate) hadd

omit [Unicode] in
theorem observe_mem {command : UpdateUpstreamCommand} {u : UpstreamService}
    (h : UpdateUpstream.observe command c = .ok (u, c')) :
    c' = c ∧ u ∈ c.upstreams ∧ u.val.id = command.upstreamServiceId := by
  simp only [UpdateUpstream.observe, CatalogM.bind_eq_ok, getUpstreamById_eq_ok,
    CatalogM.orRaise_eq_ok] at h
  obtain ⟨_, _, ⟨rfl, rfl⟩, hupstream, rfl⟩ := h
  obtain ⟨hmem, hid, -⟩ := inTenant_eq_some.1 hupstream
  exact ⟨rfl, hmem, hid⟩

theorem write_step {command : UpdateUpstreamCommand} {u : UpstreamService}
    (hobserved : ∃ t ∈ seen, ∃ observed ∈ t.2.upstreams,
      observed.val.id = command.upstreamServiceId ∧
        Registrable command.owner command.endpoint command.config observed.val.serviceType)
    (hallowed : Allows command.endpoint)
    (h : UpdateUpstream.write command c = .ok (u, c')) : UpstreamStep Allows seen c c' := by
  simp only [UpdateUpstream.write, CatalogM.bind_eq_ok, getUpstreamForUpdate_eq_ok,
    CatalogM.orRaise_eq_ok, CatalogM.lift_eq_ok, saveUpstream_eq_ok, CatalogM.pure_eq_ok,
    UpstreamService.update, construct_eq_ok] at h
  obtain ⟨_, _, ⟨rfl, rfl⟩, upstream, _, ⟨hupstream, rfl⟩, updated, _, ⟨hupdated, rfl⟩, _, _,
    ⟨-, -, hrows⟩, -, rfl⟩ := h
  obtain ⟨hmem, hid, -⟩ := inTenant_eq_some.1 hupstream
  refine .updated hmem (v := updated) ?_ ?_ ?_ (by rw [hrows])
  · constructor <;> rw [hupdated]
    exact fun h => h
  · rw [hupdated]
    exact hid ▸ hobserved
  · rw [hupdated]
    exact hallowed

theorem updateUpstream_follows (endpointPolicy : UpstreamEndpointPolicy)
    (command : UpdateUpstreamCommand) :
    (UpdateUpstream.execute endpointPolicy command).Follows
      (UpstreamStep fun endpoint => endpointPolicy endpoint = .ok ()) seen := by
  unfold UpdateUpstream.execute
  rw [Serial.follows_atomically_bind]
  intro c observed c' hobserve
  obtain ⟨rfl, hmem, hid⟩ := observe_mem hobserve
  -- The checks run between the two transactions, on the service that the first one saw.
  refine ⟨.kept rfl, ?_⟩
  rw [Serial.follows_lift_bind]
  intro _ hregistration
  rw [Serial.follows_lift_bind]
  intro _ hallowed
  rw [Serial.follows_atomically]
  intro c₂ _ c₂' hwrite
  refine write_step ⟨_, List.mem_cons_self, observed, hmem, hid, ?_⟩ hallowed hwrite
  exact validateRegistration_eq_ok hregistration

theorem disableUpstream_step {command : DisableUpstreamCommand} {u : UpstreamService}
    (h : DisableUpstream.execute command c = .ok (u, c')) : UpstreamStep Allows seen c c' := by
  simp only [DisableUpstream.execute, CatalogM.bind_eq_ok, getUpstreamForUpdate_eq_ok,
    CatalogM.orRaise_eq_ok, CatalogM.lift_eq_ok, saveUpstream_eq_ok, CatalogM.pure_eq_ok] at h
  obtain ⟨_, _, ⟨rfl, rfl⟩, upstream, _, ⟨hupstream, rfl⟩, disabled, _, ⟨hdisabled, rfl⟩, _, _,
    ⟨-, -, hrows⟩, -, rfl⟩ := h
  obtain ⟨hmem, -, -⟩ := inTenant_eq_some.1 hupstream
  unfold UpstreamService.disable at hdisabled
  split at hdisabled
  -- A service that is disabled already is saved as it is.
  · cases hdisabled
    exact .disabled hmem (.refl _) ⟨rfl, rfl, rfl⟩ (by rw [hrows])
  · rw [construct_eq_ok] at hdisabled
    refine .disabled hmem (v := disabled) ?_ ?_ (by rw [hrows])
    · constructor <;> rw [hdisabled]
      exact fun _ => rfl
    · rw [hdisabled]
      exact ⟨rfl, rfl, rfl⟩

end Steps

/-! ## The catalogue leaves the registry alone -/

section Kept

/-- The registry is as it was. -/
abbrev RegistryKept (c c' : CatalogTables) : Prop := c'.upstreams = c.upstreams

theorem failWith_kept {α : Type} (self : ImportOpenApi) (tenantId jobId : Id) (e : Exc) :
    (self.failWith tenantId jobId e : Serial CatalogTables Exc α).Commits RegistryKept := by
  have hfail : ∀ summary c u c', self.failJob tenantId jobId summary c = .ok (u, c') →
      RegistryKept c c' := by
    intro summary c u c' h
    rcases failJob_eq_ok h with rfl | ⟨_, _, -, -, -, -, himports⟩
    · rfl
    · exact himports.upstreams
  unfold ImportOpenApi.failWith
  split
  · exact Serial.Commits.atomically_bind (hfail _) fun _ => Serial.commits_lift
  · exact Serial.commits_lift
  · exact Serial.Commits.atomically_bind (hfail _) fun _ => Serial.commits_lift

theorem completeJob_kept {self : ImportOpenApi} {tenantId jobId : Id}
    {parsed : ParsedOpenApiDocument} {operations : List ImportedOperation} {u : Unit}
    {c c' : CatalogTables} (h : self.completeJob tenantId jobId parsed operations c = .ok (u, c')) :
    RegistryKept c c' := by
  simp only [ImportOpenApi.completeJob, CatalogM.bind_eq_ok, getJobForUpdate_eq_ok,
    CatalogM.orRaise_eq_ok, CatalogM.lift_eq_ok] at h
  obtain ⟨_, _, ⟨-, rfl⟩, _, _, ⟨-, rfl⟩, _, c₁, hadd, _, _, ⟨-, rfl⟩, hsave⟩ := h
  obtain ⟨-, -, hrows⟩ := saveJob_eq_ok.1 hsave
  obtain ⟨-, hupstreams, -⟩ := addOperations_eq_ok hadd
  rw [RegistryKept, hrows, ← hupstreams]

theorem parseAndComplete_kept (self : ImportOpenApi) (command : ImportOpenApiCommand)
    (document : OpenApiDocument) (job : OpenApiImportJob) (namespaceName : String) :
    (self.parseAndComplete command document job namespaceName).Commits RegistryKept := by
  unfold ImportOpenApi.parseAndComplete
  apply Serial.Commits.atomically_bind
  · intro c _ c' h
    obtain ⟨_, -, -, himports⟩ := markParsing_eq_ok h
    exact himports.upstreams
  intro _
  apply Serial.Commits.bind Serial.commits_lift
  intro parsed
  apply Serial.Commits.atomically_bind
  · intro c _ c' h
    exact completeJob_kept h
  intro _
  exact Serial.commits_pure

theorem importOpenApi_kept (self : ImportOpenApi) (command : ImportOpenApiCommand) :
    (self.execute command).Commits RegistryKept := by
  unfold ImportOpenApi.execute
  apply Serial.Commits.bind Serial.commits_lift
  intro document
  apply Serial.Commits.atomically_bind
  · rintro c ⟨job, namespaceName⟩ c' h
    obtain ⟨-, -, -, himports⟩ := begin_eq_ok h
    exact himports.upstreams
  rintro ⟨job, namespaceName⟩
  apply Serial.Commits.bind
  · apply Serial.Commits.tryCatch
    · exact parseAndComplete_kept self command document job namespaceName
    · exact failWith_kept self _ _
  · intro _
    exact Serial.commits_pure

variable [Sha256] {c c' : CatalogTables}

theorem Reviewed.kept {command : ReviewImportedOperationCommand}
    {result : ReviewImportedOperationResult} (h : Reviewed c c' command result) :
    RegistryKept c c' := by
  cases h with
  | existing _ _ heq _ => rw [RegistryKept, heq]
  | drafted h _ => exact h.upstreams

omit [Sha256] in
theorem Submission.kept {v w : ToolVersion} (h : Submission c c' v w) : RegistryKept c c' := by
  rw [RegistryKept, h.rows]

theorem publishTool_kept {command : PublishToolCommand} {now : Time} {result : PublishToolResult}
    (h : publishToolInTransaction command now c = .ok (result, c')) : RegistryKept c c' := by
  obtain ⟨tool, version, binding, upstream, hpublication⟩ := publishToolInTransaction_eq_ok h
  obtain ⟨tool', w, hrepublished⟩ := hpublication.republished
  exact hrepublished.same.upstreams

theorem directPublish_kept {env : ReviewEnv} {now : Time}
    {command : DirectPublishImportedOperationCommand}
    {result : DirectPublishImportedOperationResult}
    (h : DirectPublishImportedOperation.execute env now command c = .ok (result, c')) :
    RegistryKept c c' := by
  obtain ⟨⟨result', c''⟩, hbody, heq⟩ := map_eq_ok.1 h
  cases heq
  obtain ⟨c₁, hreviewed, version, -, -, ⟨halready, -, -⟩ | ⟨halready, c₂, hsubmit, publication,
    hpublish, -⟩⟩ := inUnitOfWork_eq_ok hbody
  · simp only [halready, if_true]
  · simp only [halready]
    have hsubmitted : RegistryKept c₁ c₂ := by
      rcases hsubmit with ⟨-, rfl⟩ | ⟨w, hw⟩
      · rfl
      · exact hw.kept
    exact (publishTool_kept hpublish).trans (hsubmitted.trans hreviewed.kept)

end Kept

/-! ## Every run -/

section Runs

variable [Sha256] [Unicode] {Pid : Type} {commands : Pid → RegistryCommand}

/-- Every transaction of a command makes a step of the registry. -/
theorem RegistryCommand.program_follows (command : RegistryCommand) :
    command.program.Follows (UpstreamStep command.Allows) [] := by
  have hkept : ∀ seen c c', RegistryKept c c' → UpstreamStep command.Allows seen c c' :=
    fun _ _ _ h => .kept h
  cases command with
  | registerUpstream endpointPolicy id command =>
    exact registerUpstream_follows endpointPolicy id command
  | catalog command =>
    cases command with
    | importOpenApi self command => exact (importOpenApi_kept self command).follows hkept
    | reviewImportedOperation env command =>
      exact (Serial.commits_atomically.2 fun _ _ _ h =>
        (executeInTransaction_eq_ok h).kept).follows hkept
    | submitToolVersionForReview now command =>
      refine (Serial.commits_atomically.2 fun _ _ _ h => ?_).follows hkept
      obtain ⟨v, w, hsubmission⟩ := submitToolVersionForReview_eq_ok h
      exact hsubmission.kept
    | publishTool now command =>
      have hcommits : (CatalogCommand.publishTool now command).program.Commits RegistryKept :=
        Serial.commits_atomically.2 fun _ _ _ h => publishTool_kept h
      exact hcommits.follows hkept
    | directPublishImportedOperation env now command =>
      have hcommits : (CatalogCommand.directPublishImportedOperation env now
          command).program.Commits RegistryKept :=
        Serial.commits_atomically.2 fun _ _ _ h => directPublish_kept h
      exact hcommits.follows hkept
    | updateUpstream endpointPolicy command => exact updateUpstream_follows endpointPolicy command
    | disableUpstream command =>
      exact Serial.follows_atomically.2 fun _ _ _ h => disableUpstream_step h

/-- The endpoints that some of the commands may store. -/
def EndpointsAllowed (commands : Pid → RegistryCommand) (endpoint : String) : Prop :=
  ∃ p, (commands p).Allows endpoint

def registryWorld (commands : Pid → RegistryCommand) (c : CatalogTables) :
    SerialWorld CatalogTables Exc Pid (fun p => (commands p).Result) :=
  .start c fun p => (commands p).program

omit [Sha256] [Unicode] in
/-- A tool that the resolver finds is called at the endpoint of a service that is active. -/
theorem exists_upstream_of_resolve {c : CatalogTables} {tenantId : Id} {canonicalName : String}
    {tool : ResolvedExecutableTool} (h : c.resolve tenantId canonicalName = .ok (some tool)) :
    ∃ u ∈ c.upstreams, u.val.id = tool.upstreamServiceId ∧ u.val.tenantId = tenantId ∧
      u.val.status = .active ∧ u.val.endpoint = tool.upstreamEndpoint := by
  rw [CatalogTables.resolve_eq_some, CatalogTables.mem_executableRows] at h
  obtain ⟨_, -, _, -, _, -, u, hu, ⟨-, -, -, htenant, hactive⟩, rfl⟩ := h
  exact ⟨u, hu, rfl, htenant, hactive, rfl⟩

/-- From a registry that is vetted, as an empty one is, every run leads to vetted registries
    only. A service keeps its identity and stays disabled once it is, and a tool is called at
    an endpoint that was vetted as that of its service. -/
theorem registry_vetted [DecidableEq Pid] (Fault : Exc → Prop) {c : CatalogTables}
    (hstart : RegistryVetted (EndpointsAllowed commands) c)
    {w : SerialWorld CatalogTables Exc Pid (fun p => (commands p).Result)}
    (hreaches : SerialWorld.Reaches Fault (registryWorld commands c) w) :
    (RegistryVetted (EndpointsAllowed commands) w.store ∧
      ∀ commit ∈ w.commits, RegistryVetted (EndpointsAllowed commands) commit.before ∧
        RegistryVetted (EndpointsAllowed commands) commit.after) ∧
    (∀ commit ∈ w.commits, commit.before.Evolves commit.after ∧ commit.after.Evolves w.store) ∧
    ∀ tenantId canonicalName tool, w.store.resolve tenantId canonicalName = .ok (some tool) →
      ∃ u ∈ w.store.upstreams, u.val.id = tool.upstreamServiceId ∧ u.val.tenantId = tenantId ∧
        u.val.status = .active ∧ Vetted (EndpointsAllowed commands)
          { u.val with endpoint := tool.upstreamEndpoint } := by
  have hexplained := SerialWorld.explained_of_reaches
    (fun p => (commands p).program_follows) hreaches
  have hlinked := SerialWorld.linked_of_reaches hreaches
  have hsteps : ∀ p seen c c', UpstreamStep (commands p).Allows seen c c' → c.Evolves c' :=
    fun _ _ _ _ h => h.evolves
  obtain ⟨hvetted, hall⟩ := hexplained.invariant CatalogTables.Evolves.refl
    (fun _ _ _ => CatalogTables.Evolves.trans) hsteps
    (fun p _ _ _ hstep hseen => hstep.vetted (fun _ h => ⟨p, h⟩) fun t ht => (hseen t ht).2)
    hlinked hstart
  refine ⟨⟨hvetted, hall⟩, fun commit hcommit => ?_, fun tenantId canonicalName tool h => ?_⟩
  · have hrelated := SerialWorld.Linked.related CatalogTables.Evolves.refl
      (fun _ _ _ => CatalogTables.Evolves.trans) (hexplained.related hsteps) hlinked
    exact ⟨hexplained.related hsteps commit hcommit, (hrelated commit hcommit).2⟩
  · obtain ⟨u, hu, hid, htenant, hactive, hendpoint⟩ := exists_upstream_of_resolve h
    exact ⟨u, hu, hid, htenant, hactive, hendpoint ▸ hvetted.vetted u hu⟩

end Runs

/-! ## A registered service -/

section Orders

attribute [local instance] zeroSha256 asciiUnicode

def orderRegistration : RegisterUpstreamCommand where
  context := adminContext
  namespaceName := "orders"
  name := "Orders"
  description := none
  owner := "team"
  endpoint := "https://orders.internal"
  authScheme := none
  config := []

inductive OrdersStep where
  | registered
  | imported
  | published
  | moved
deriving DecidableEq

/-- The service is registered, its tool is imported and published, and its endpoint is moved. -/
def registryCommands : OrdersStep → RegistryCommand
  | .registered => .registerUpstream (fun _ => .ok ()) "upstream-1" orderRegistration
  | .imported => .catalog (.importOpenApi orderImport
      { context := adminContext, upstreamServiceId := "upstream-1", sourceRef := "orders.json" })
  | .published => .catalog (.directPublishImportedOperation
      ⟨"tool-1", "version-1", "binding-1", 3, 3⟩ 4
      { context := adminContext, operationId := "operation-0", owner := "team" })
  | .moved => .catalog (.updateUpstream (fun _ => .ok ())
      { context := adminContext, upstreamServiceId := "upstream-1", description := none
        owner := "team", endpoint := "https://orders.example", authScheme := none, config := [] })

def emptyCatalog : CatalogTables where
  toCatalogRows := { registeredCatalog.toCatalogRows with upstreams := .empty }
  unique := ⟨registeredCatalog.unique.toolNames, registeredCatalog.unique.versionNumbers,
    registeredCatalog.unique.onePublished, registeredCatalog.unique.oneBinding⟩

theorem emptyCatalog_vetted : RegistryVetted (EndpointsAllowed registryCommands) emptyCatalog :=
  ⟨fun _ hu => absurd hu Table.not_mem_empty, fun _ hu => absurd hu Table.not_mem_empty⟩

def registeredWorld :
    SerialWorld CatalogTables Exc OrdersStep (fun p => (registryCommands p).Result) :=
  (registryWorld registryCommands emptyCatalog).runInOrder
    [.registered, .imported, .published, .moved]

theorem registry_vetted_orders :
    ((registeredWorld.store.resolve "tenant-1" "orders.list").map
      (·.map (·.upstreamEndpoint)) = .ok (some "https://orders.example")) ∧
    RegistryVetted (EndpointsAllowed registryCommands) registeredWorld.store ∧
    ∀ commit ∈ registeredWorld.commits, commit.after.Evolves registeredWorld.store := by
  obtain ⟨⟨hvetted, -⟩, hevolves, -⟩ := registry_vetted (fun _ => False) emptyCatalog_vetted
    (SerialWorld.reaches_runInOrder (registryWorld registryCommands emptyCatalog)
      [.registered, .imported, .published, .moved])
  exact ⟨by decide +kernel, hvetted, fun commit hcommit => (hevolves commit hcommit).2⟩

end Orders

end NexusMcp

-- SUMMARY: What every catalogue command keeps: accepted operations, their drafts and identities.
import NexusMcp.Catalog.Runs

/-!
# Accepted Operations

An operation that is accepted refers to its drafts and does not change any more, and the
rows that it refers to keep their identities. So a run of the commands finds them again.
-/

namespace NexusMcp

open Net (Unicode)
open Txn (Serial SerialWorld Table)

/-! ## Transactions that leave a part as it was -/

section Leaves

variable {α β γ : Type} {f : CatalogTables → γ}

/-- What `f` reads is the same after the transaction. -/
def CatalogM.Leaves (f : CatalogTables → γ) (x : CatalogM α) : Prop :=
  ∀ c a c', x c = .ok (a, c') → f c' = f c

namespace CatalogM.Leaves

theorem bind {x : CatalogM α} {g : α → CatalogM β} (hx : Leaves f x) (hg : ∀ a, Leaves f (g a)) :
    Leaves f (x >>= g) := by
  intro c b c'' h
  obtain ⟨a, c', hxa, hgb⟩ := CatalogM.bind_eq_ok.1 h
  exact (hg a c' b c'' hgb).trans (hx c a c' hxa)

theorem pure {a : α} : Leaves f (Pure.pure a : CatalogM α) := by
  intro c b c' h
  rw [(CatalogM.pure_eq_ok.1 h).2]

theorem read {g : CatalogTables → α} : Leaves f (CatalogM.read g) := by
  intro c a c' h
  rw [(CatalogM.read_eq_ok.1 h).2]

theorem lift {x : Except Exc α} : Leaves f (CatalogM.lift x) := by
  intro c a c' h
  rw [(CatalogM.lift_eq_ok.1 h).2]

end CatalogM.Leaves

theorem saveVersion_leaves {tenantId : Id} {w : ToolVersion} :
    (saveVersion tenantId w).Leaves (·.operations) := by
  intro c _ c' h
  obtain ⟨-, -, -, hrows⟩ := saveVersion_eq_ok.1 h
  change c'.operations = c.operations
  rw [hrows]

theorem saveBinding_leaves {tenantId : Id} {w : ToolBinding} :
    (saveBinding tenantId w).Leaves (·.operations) := by
  intro c _ c' h
  obtain ⟨-, -, hrows⟩ := saveBinding_eq_ok.1 h
  change c'.operations = c.operations
  rw [hrows]

theorem saveTool_leaves {tenantId : Id} {w : Tool} :
    (saveTool tenantId w).Leaves (·.operations) := by
  intro c _ c' h
  obtain ⟨-, -, hrows⟩ := saveTool_eq_ok.1 h
  change c'.operations = c.operations
  rw [hrows]

theorem retireCurrentVersion_leaves {tenantId : Id} {tool : Tool} {target : ToolVersion}
    {now : Time} :
    (PublishTool.retireCurrentVersion tenantId tool target now).Leaves (·.operations) := by
  unfold PublishTool.retireCurrentVersion
  refine .bind .read fun current => ?_
  cases current with
  | none => exact .pure
  | some current =>
    refine .bind ?_ fun _ => .pure
    unfold PublishTool.retireVersion
    refine .bind .lift fun _ => ?_
    refine .bind .read fun _ => ?_
    refine .bind .lift fun _ => ?_
    refine .bind .read fun _ => ?_
    refine .bind .lift fun _ => ?_
    refine .bind .lift fun _ => ?_
    refine .bind .lift fun _ => ?_
    refine .bind saveVersion_leaves fun _ => ?_
    refine .bind .lift fun _ => ?_
    exact .bind saveBinding_leaves fun _ => .pure

/-- A publication does not touch the operations. -/
theorem publishToolInTransaction_leaves [Sha256] {command : PublishToolCommand} {now : Time} :
    (publishToolInTransaction command now).Leaves (·.operations) := by
  unfold publishToolInTransaction
  refine .bind .read fun _ => ?_
  refine .bind .lift fun _ => ?_
  refine .bind .read fun _ => ?_
  refine .bind .lift fun _ => ?_
  refine .bind .read fun _ => ?_
  refine .bind .lift fun _ => ?_
  refine .bind .read fun _ => ?_
  refine .bind .lift fun _ => ?_
  refine .bind .lift fun _ => ?_
  refine .bind retireCurrentVersion_leaves fun _ => ?_
  refine .bind .lift fun _ => ?_
  refine .bind saveVersion_leaves fun _ => ?_
  refine .bind .lift fun _ => ?_
  refine .bind saveBinding_leaves fun _ => ?_
  refine .bind .lift fun _ => ?_
  exact .bind saveTool_leaves fun _ => .pure

end Leaves

/-! ## What is kept -/

theorem ImportedOperation.accept_eq_ok {operation : ImportedOperation} {versionId bindingId : Id}
    {notes : Option String} {accepted : ImportedOperation} :
    operation.accept versionId bindingId notes = .ok accepted ↔
      operation.conflictStatus = .none ∧
        (operation.reviewStatus = .pending ∨ operation.reviewStatus = .needsChange) ∧
        accepted = { operation with
          reviewStatus := .accepted
          reviewNotes := notes
          draftToolVersionId := some versionId
          draftToolBindingId := some bindingId } := by
  unfold ImportedOperation.accept
  rw [raiseIf_bind_eq_ok, raiseIf_bind_eq_ok, not_not, not_and_or, not_not, not_not]
  refine and_congr_right fun _ => and_congr_right fun _ => ?_
  exact ⟨fun h => (Except.ok.inj h).symm, fun h => congrArg Except.ok h.symm⟩

/-- The drafts that the operation refers to are there. -/
structure ImportedOperation.Refers (o : ImportedOperation) (c : CatalogTables) : Prop where
  version : ∀ id, o.draftToolVersionId = some id → ∃ v ∈ c.versions, v.val.id = id
  binding : ∀ id, o.draftToolBindingId = some id → ∃ b ∈ c.bindings, b.val.id = id

/-- Every accepted operation refers to drafts that are there. -/
def CatalogTables.Referenced (c : CatalogTables) : Prop :=
  ∀ o ∈ c.operations, o.reviewStatus = .accepted → o.Refers c

/-- The rows keep their identities and the accepted operations stay; the drafts of operations
    that are accepted since are there. -/
structure Kept (c c' : CatalogTables) : Prop where
  tools : ∀ t ∈ c.tools, ∃ t' ∈ c'.tools, t'.identity = t.identity
  versions : ∀ v ∈ c.versions, ∃ v' ∈ c'.versions, v'.identity = v.identity
  bindings : ∀ b ∈ c.bindings, ∃ b' ∈ c'.bindings, b'.identity = b.identity
  operations : ∀ o ∈ c.operations, o.reviewStatus = .accepted → o ∈ c'.operations
  accepted : ∀ o ∈ c'.operations, o.reviewStatus = .accepted → o ∈ c.operations ∨ o.Refers c'

section Kept

variable {c c' c'' : CatalogTables}

/-- The drafts are still there. -/
theorem Kept.refers (h : Kept c c') {o : ImportedOperation} (ho : o.Refers c) : o.Refers c' where
  version id hid := by
    obtain ⟨v, hv, hvid⟩ := ho.version id hid
    obtain ⟨v', hv', hidentity⟩ := h.versions v hv
    exact ⟨v', hv', (ToolVersion.id_of_identity hidentity).1.trans hvid⟩
  binding id hid := by
    obtain ⟨b, hb, hbid⟩ := ho.binding id hid
    obtain ⟨b', hb', hidentity⟩ := h.bindings b hb
    exact ⟨b', hb', (ToolBinding.id_of_identity hidentity).1.trans hbid⟩

theorem Kept.referenced (h : Kept c c') (hc : c.Referenced) : c'.Referenced := by
  intro o ho haccepted
  obtain ho | hrefers := h.accepted o ho haccepted
  · exact h.refers (hc o ho haccepted)
  · exact hrefers

theorem Kept.refl (c : CatalogTables) : Kept c c where
  tools t ht := ⟨t, ht, rfl⟩
  versions v hv := ⟨v, hv, rfl⟩
  bindings b hb := ⟨b, hb, rfl⟩
  operations _ ho _ := ho
  accepted _ ho _ := .inl ho

theorem Kept.trans (h : Kept c c') (h' : Kept c' c'') : Kept c c'' where
  tools t ht := by
    obtain ⟨t', ht', hidentity⟩ := h.tools t ht
    obtain ⟨t'', ht'', hidentity'⟩ := h'.tools t' ht'
    exact ⟨t'', ht'', hidentity'.trans hidentity⟩
  versions v hv := by
    obtain ⟨v', hv', hidentity⟩ := h.versions v hv
    obtain ⟨v'', hv'', hidentity'⟩ := h'.versions v' hv'
    exact ⟨v'', hv'', hidentity'.trans hidentity⟩
  bindings b hb := by
    obtain ⟨b', hb', hidentity⟩ := h.bindings b hb
    obtain ⟨b'', hb'', hidentity'⟩ := h'.bindings b' hb'
    exact ⟨b'', hb'', hidentity'.trans hidentity⟩
  operations o ho haccepted := h'.operations o (h.operations o ho haccepted) haccepted
  accepted o ho haccepted := by
    obtain ho | hrefers := h'.accepted o ho haccepted
    · exact (h.accepted o ho haccepted).imp_right h'.refers
    · exact .inr hrefers

theorem Kept.of_same (hsame : SameIdentities c c') (hoperations : c'.operations = c.operations) :
    Kept c c' where
  tools t ht := exists_of_map_eq hsame.tools.symm ht
  versions v hv := exists_of_map_eq hsame.versions.symm hv
  bindings b hb := exists_of_map_eq hsame.bindings.symm hb
  operations o ho _ := by rwa [hoperations]
  accepted o ho _ := by
    rw [hoperations] at ho
    exact .inl ho

theorem Kept.of_quiet (h : Quiet c c') : Kept c c' where
  tools t ht := ⟨t, by rwa [h.tools], rfl⟩
  versions v hv := ⟨v, by rwa [h.versions], rfl⟩
  bindings b hb := ⟨b, by rwa [h.bindings], rfl⟩
  operations o ho _ := h.operationsKept o ho
  accepted o ho haccepted := by
    refine .inl ((h.operationsNew o ho).resolve_right ?_)
    rw [haccepted]
    simp

theorem Kept.of_submission {v w : ToolVersion} (h : Submission c c' v w) : Kept c c' := by
  have hid := (ToolVersion.id_of_identity h.identity).1
  refine Kept.of_same ⟨?_, ?_, ?_, ?_⟩ ?_
  · rw [h.rows]
  · rw [h.rows]
    exact map_replaceRow h.version hid.symm h.identity
  · rw [h.rows]
  · rw [h.rows]
  · rw [h.rows]

variable [Sha256]

/-- The operation that is drafted was not accepted, and refers to what is drafted. -/
theorem Kept.of_drafting {command : ReviewImportedOperationCommand}
    {operation accepted : ImportedOperation} {upstream : UpstreamService} {tool : Tool}
    {version : ToolVersion} {binding : ToolBinding}
    (h : Drafting c c' command operation accepted upstream tool version binding) : Kept c c' := by
  obtain ⟨-, hstatus, haccepted⟩ := ImportedOperation.accept_eq_ok.1 h.accept
  have hid : operation.id = accepted.id := by rw [haccepted]
  constructor
  · exact fun t ht => ⟨t, h.mem_tools.2.1 t ht, rfl⟩
  · exact fun v hv => ⟨v, h.mem_versions.2 (.inl hv), rfl⟩
  · exact fun b hb => ⟨b, h.mem_bindings.2 (.inl hb), rfl⟩
  · intro o ho hoaccepted
    rw [h.operations, mem_replaceRow h.operationMem hid]
    refine .inl ⟨ho, fun hkey => ?_⟩
    rw [Table.eq_of_key_eq ho h.operationMem (hkey.trans hid.symm)] at hoaccepted
    rw [hoaccepted] at hstatus
    simp at hstatus
  · intro o ho _
    rw [h.operations, mem_replaceRow h.operationMem hid] at ho
    obtain ⟨ho, -⟩ | rfl := ho
    · exact .inl ho
    · refine .inr ⟨fun id hversion => ?_, fun id hbinding => ?_⟩
      · rw [haccepted] at hversion
        exact ⟨version, h.mem_versions.2 (.inr rfl), Option.some.inj hversion⟩
      · rw [haccepted] at hbinding
        exact ⟨binding, h.mem_bindings.2 (.inr rfl), Option.some.inj hbinding⟩

theorem Kept.of_reviewed {command : ReviewImportedOperationCommand}
    {result : ReviewImportedOperationResult} (h : Reviewed c c' command result) : Kept c c' := by
  cases h with
  | existing _ _ heq _ =>
    rw [heq]
    exact Kept.refl c
  | drafted h _ => exact Kept.of_drafting h

theorem Kept.of_publish {command : PublishToolCommand} {now : Time} {result : PublishToolResult}
    (h : publishToolInTransaction command now c = .ok (result, c')) : Kept c c' := by
  obtain ⟨tool, version, binding, upstream, hpublication⟩ := publishToolInTransaction_eq_ok h
  obtain ⟨tool', w, hrepublished⟩ := hpublication.republished
  exact Kept.of_same hrepublished.same (publishToolInTransaction_leaves c result c' h)

theorem Kept.of_directPublish {env : ReviewEnv} {now : Time}
    {command : DirectPublishImportedOperationCommand}
    {result : DirectPublishImportedOperationResult}
    (h : DirectPublishImportedOperation.execute env now command c = .ok (result, c')) :
    Kept c c' := by
  obtain ⟨⟨result', c''⟩, hbody, heq⟩ := map_eq_ok.1 h
  cases heq
  obtain ⟨c₁, hreviewed, version, -, -, ⟨halready, -, -⟩ | ⟨halready, c₂, hsubmit, publication,
    hpublish, -⟩⟩ := inUnitOfWork_eq_ok hbody
  · simp only [halready, if_true]
    exact Kept.refl c
  · simp only [halready]
    have hsubmitted : Kept c₁ c₂ := by
      obtain ⟨-, rfl⟩ | ⟨w, hw⟩ := hsubmit
      · exact Kept.refl _
      · exact Kept.of_submission hw
    exact ((Kept.of_reviewed hreviewed).trans hsubmitted).trans (Kept.of_publish hpublish)

/-- Every transaction of a command keeps them. -/
theorem CatalogCommand.program_keeps [Unicode] (command : CatalogCommand) :
    command.program.Commits Kept := by
  cases command with
  | importOpenApi self command =>
    exact (importOpenApi_commits self command).mono fun _ _ => Kept.of_quiet
  | reviewImportedOperation env command =>
    refine Serial.commits_atomically.2 fun c result c' h => ?_
    exact Kept.of_reviewed (executeInTransaction_eq_ok h)
  | submitToolVersionForReview now command =>
    refine Serial.commits_atomically.2 fun c _ c' h => ?_
    obtain ⟨v, w, hsubmission⟩ := submitToolVersionForReview_eq_ok h
    exact Kept.of_submission hsubmission
  | publishTool now command =>
    exact Serial.commits_atomically.2 fun c result c' h => Kept.of_publish h
  | directPublishImportedOperation env now command =>
    exact Serial.commits_atomically.2 fun c result c' h => Kept.of_directPublish h
  | updateUpstream endpointPolicy command =>
    -- The first transaction only reads, the checks are outside of both, and the second one writes.
    refine Serial.Commits.atomically_bind (fun c _ c' h => ?_) fun observed => ?_
    · rw [observe_eq_ok h]
      exact Kept.refl c
    refine Serial.Commits.bind Serial.commits_lift fun _ => ?_
    refine Serial.Commits.bind Serial.commits_lift fun _ => ?_
    exact Serial.commits_atomically.2 fun c _ c' h => Kept.of_quiet (write_quiet h)
  | disableUpstream command =>
    refine Serial.commits_atomically.2 fun c _ c' h => ?_
    obtain ⟨upstream, disabled, hdisabling⟩ := disable_eq_ok h
    constructor
    · exact fun t ht => ⟨t, by rwa [hdisabling.rows], rfl⟩
    · exact fun v hv => ⟨v, by rwa [hdisabling.rows], rfl⟩
    · exact fun b hb => ⟨b, by rwa [hdisabling.rows], rfl⟩
    · intro o ho _
      rwa [hdisabling.rows]
    · intro o ho _
      rw [hdisabling.rows] at ho
      exact .inl ho

end Kept

/-! ## Runs -/

section Runs

variable [Sha256] [Unicode] {Pid : Type} {Fault : Exc → Prop} {commands : Pid → CatalogCommand}

/-- What commands lead to from a state that satisfies the invariants. -/
structure Continues (c c' : CatalogTables) : Prop where
  invariant : CatalogInvariant c'
  succeeds : Succeeds c c'
  kept : Kept c c'

/-- What each commit of a command does, and what it keeps. -/
abbrev CatalogCommand.Commit (command : CatalogCommand) (c c' : CatalogTables) : Prop :=
  command.Effect c c' ∧ Kept c c'

omit [Unicode] in
theorem continues_of_reaches
    {w w' : SerialWorld CatalogTables Exc Pid fun p => (commands p).Result}
    (h : SerialWorld.Reaches Fault w w')
    (hprocs : ∀ p, (w.procs p).Commits (commands p).Commit) (hinv : CatalogInvariant w.store) :
    (∀ p, (w'.procs p).Commits (commands p).Commit) ∧ Continues w.store w'.store := by
  obtain ⟨hprocs', hcontinues⟩ := h.related
    (P := fun c c' => CatalogInvariant c → Continues c c') hprocs
    (fun c hc => ⟨hc, Succeeds.of_kept fun _ hv _ => hv, Kept.refl c⟩)
    (fun c c' c'' hfirst hsecond hc =>
      have hc' := hfirst hc
      have hc'' := hsecond hc'.invariant
      ⟨hc''.invariant, hc'.succeeds.trans hc''.succeeds, hc'.kept.trans hc''.kept⟩)
    (fun p c c' hcommit hc =>
      ⟨hc.command hcommit.1, Succeeds.of_command hc hcommit.1, hcommit.2⟩)
  exact ⟨hprocs', hcontinues hinv⟩

/-- From a catalogue that has upstreams only, accepted operations refer to drafts that are
    there. -/
theorem referenced_of_reaches {c : CatalogTables} (hempty : c.Empty)
    {w : SerialWorld CatalogTables Exc Pid fun p => (commands p).Result}
    (h : SerialWorld.Reaches Fault (catalogWorld commands c) w) :
    (∀ p, (w.procs p).Commits (commands p).Commit) ∧ CatalogInvariant w.store ∧
      w.store.Referenced := by
  obtain ⟨hprocs, hcontinues⟩ := continues_of_reaches h
    (fun p => (commands p).program_commits.and (commands p).program_keeps) hempty.invariant
  refine ⟨hprocs, hcontinues.invariant, hcontinues.kept.referenced fun o ho => ?_⟩
  change o ∈ c.operations at ho
  rw [hempty.operations] at ho
  exact absurd ho Table.not_mem_empty

end Runs

end NexusMcp

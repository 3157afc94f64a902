-- SUMMARY: The errors of the application and the other exceptions that pass through it.
import NexusMcp.Shared.Values
import Mathlib.Data.List.Forall2

/-!
# Errors

`ErrorClass` lists the subclasses of `NexusMcpError` with the fields they carry.
`Exc` adds the other exceptions a caller can tell apart.
-/

namespace NexusMcp

/-! ## Application errors -/

inductive ErrorClass where
  | toolNotFound
  | toolVersionNotFound
  | toolBindingNotFound
  | toolNotVisible
  | toolsetScope
  | toolsetNotFound
  | toolsetConflict
  | toolsetRevisionConflict
  | invalidToolsetMembers
  | toolsetMemberUnavailable
  | toolsetNotActive
  | toolsetAccessDenied
  | systemToolsetImmutable
  | invalidToolState
  | tenantBoundaryViolation
  | publishConflict
  | upstreamNotActive
  | upstreamNotFound
  | upstreamConflict
  | schemaDigestMismatch
  | bindingDigestMismatch
  | openApiSourceNotFound
  | openApiImportJobNotFound
  | openApiDocumentInvalid
  | openApiFeatureUnsupported
  | importedOperationNotFound
  | invalidReviewState
  | invalidArguments
  | featureNotEnabled
  | authorization
  | authentication
  | approvalRequired (approvalId : Option Id) (expiresAt : Option Time)
  | approvalNotFound
  | approvalPending
  | approvalRejected
  | approvalExpired
  | approvalAlreadyConsumed
  | approvalMismatch
  | approvalInvalidState
  | credentialBindingNotFound
  | credentialBindingConflict
  | credentialResolution
  | upstreamTimeout
  | upstreamUnavailable
  | upstreamResponse
  | unsafeUpstreamEndpoint
  | unknownExecutionOutcome
  | toolExecutionNotFound
  | invalidExecutionState
  | executionAttemptNotFound
  | idempotencyKeyRequired
  | idempotencyConflict (executionId : Id)
  | idempotencyInProgress (executionId : Id)
  | idempotencyAlreadyCompleted (executionId : Id)
  | idempotencyOutcomeUnknown (executionId : Id)
  | idempotencyPreviousFailed (executionId : Id)
  | idempotencyRace
  | toolSearchModeUnavailable
  | toolSearchReindexJobNotFound
  | toolSearchReindexJobConflict
  | embeddingAuthentication
  | embeddingRateLimit
  | embeddingUnavailable
  | embeddingResponse
deriving Repr, DecidableEq

/-- The class attribute `code`. -/
def ErrorClass.code : ErrorClass → String
  | toolNotFound => "tool_not_found"
  | toolVersionNotFound => "tool_version_not_found"
  | toolBindingNotFound => "tool_binding_not_found"
  | toolNotVisible => "tool_not_visible"
  | toolsetScope => "nexusmcp_error"
  | toolsetNotFound => "toolset_not_found"
  | toolsetConflict => "toolset_conflict"
  | toolsetRevisionConflict => "toolset_revision_conflict"
  | invalidToolsetMembers => "invalid_toolset_members"
  | toolsetMemberUnavailable => "toolset_member_unavailable"
  | toolsetNotActive => "toolset_not_active"
  | toolsetAccessDenied => "toolset_access_denied"
  | systemToolsetImmutable => "system_toolset_immutable"
  | invalidToolState => "invalid_tool_state"
  | tenantBoundaryViolation => "tenant_boundary_violation"
  | publishConflict => "publish_conflict"
  | upstreamNotActive => "upstream_not_active"
  | upstreamNotFound => "upstream_not_found"
  | upstreamConflict => "upstream_conflict"
  | schemaDigestMismatch => "schema_digest_mismatch"
  | bindingDigestMismatch => "binding_digest_mismatch"
  | openApiSourceNotFound => "openapi_source_not_found"
  | openApiImportJobNotFound => "openapi_import_job_not_found"
  | openApiDocumentInvalid => "openapi_document_invalid"
  | openApiFeatureUnsupported => "openapi_feature_unsupported"
  | importedOperationNotFound => "imported_operation_not_found"
  | invalidReviewState => "invalid_review_state"
  | invalidArguments => "invalid_arguments"
  | featureNotEnabled => "feature_not_enabled"
  | authorization => "authorization_denied"
  | authentication => "authentication_failed"
  | approvalRequired _ _ => "approval_required"
  | approvalNotFound => "approval_not_found"
  | approvalPending => "approval_pending"
  | approvalRejected => "approval_rejected"
  | approvalExpired => "approval_expired"
  | approvalAlreadyConsumed => "approval_already_consumed"
  | approvalMismatch => "approval_mismatch"
  | approvalInvalidState => "approval_invalid_state"
  | credentialBindingNotFound => "credential_binding_not_found"
  | credentialBindingConflict => "credential_binding_conflict"
  | credentialResolution => "credential_resolution_failed"
  | upstreamTimeout => "upstream_timeout"
  | upstreamUnavailable => "upstream_unavailable"
  | upstreamResponse => "upstream_response_error"
  | unsafeUpstreamEndpoint => "unsafe_upstream_endpoint"
  | unknownExecutionOutcome => "unknown_execution_outcome"
  | toolExecutionNotFound => "tool_execution_not_found"
  | invalidExecutionState => "invalid_execution_state"
  | executionAttemptNotFound => "execution_attempt_not_found"
  | idempotencyKeyRequired => "idempotency_key_required"
  | idempotencyConflict _ => "idempotency_conflict"
  | idempotencyInProgress _ => "idempotency_in_progress"
  | idempotencyAlreadyCompleted _ => "idempotency_already_completed"
  | idempotencyOutcomeUnknown _ => "idempotency_outcome_unknown"
  | idempotencyPreviousFailed _ => "idempotency_previous_failed"
  | idempotencyRace => "idempotency_in_progress"
  | toolSearchModeUnavailable => "tool_search_mode_unavailable"
  | toolSearchReindexJobNotFound => "tool_search_reindex_job_not_found"
  | toolSearchReindexJobConflict => "tool_search_reindex_job_conflict"
  | embeddingAuthentication => "embedding_authentication_failed"
  | embeddingRateLimit => "embedding_rate_limited"
  | embeddingUnavailable => "embedding_unavailable"
  | embeddingResponse => "embedding_response_invalid"

/-- The class attribute `safe_message`. -/
def ErrorClass.safeMessage : ErrorClass → String
  | toolNotFound => "The requested tool was not found."
  | toolVersionNotFound => "The requested tool version was not found."
  | toolBindingNotFound => "The requested tool binding was not found."
  | toolNotVisible => "The requested tool is not available to this principal."
  | toolsetScope => "The request could not be completed."
  | toolsetNotFound => "The requested toolset was not found."
  | toolsetConflict => "The toolset conflicts with existing state."
  | toolsetRevisionConflict => "The toolset changed after it was loaded."
  | invalidToolsetMembers => "The toolset contains invalid members."
  | toolsetMemberUnavailable => "One or more toolset members are unavailable."
  | toolsetNotActive => "The requested toolset is not active."
  | toolsetAccessDenied => "The principal is not allowed to access this toolset scope."
  | systemToolsetImmutable => "The system-managed toolset cannot be changed this way."
  | invalidToolState => "The tool cannot be changed from its current state."
  | tenantBoundaryViolation => "The requested resource is not available in this tenant."
  | publishConflict => "The tool could not be published because its state changed."
  | upstreamNotActive => "The tool upstream is not active."
  | upstreamNotFound => "The requested upstream service was not found."
  | upstreamConflict => "The upstream service conflicts with an existing registration."
  | schemaDigestMismatch => "The tool schema no longer matches the reviewed version."
  | bindingDigestMismatch => "The tool binding no longer matches the reviewed version."
  | openApiSourceNotFound => "The OpenAPI source was not found."
  | openApiImportJobNotFound => "The OpenAPI import job was not found."
  | openApiDocumentInvalid => "The OpenAPI document is invalid."
  | openApiFeatureUnsupported => "The OpenAPI document uses an unsupported feature."
  | importedOperationNotFound => "The imported operation was not found."
  | invalidReviewState => "The imported operation cannot be reviewed from its current state."
  | invalidArguments => "The request arguments are invalid."
  | featureNotEnabled => "The requested feature is not enabled."
  | authorization => "The principal is not allowed to call this tool."
  | authentication => "The request could not be authenticated."
  | approvalRequired _ _ => "This tool call requires approval."
  | approvalNotFound => "The requested approval was not found."
  | approvalPending => "The tool call is still waiting for approval."
  | approvalRejected => "The tool call approval was rejected."
  | approvalExpired => "The tool call approval has expired."
  | approvalAlreadyConsumed => "The tool call approval has already been consumed."
  | approvalMismatch => "The approval does not match this tool call."
  | approvalInvalidState => "The approval cannot be changed from its current state."
  | credentialBindingNotFound => "No credential binding is available for this tool call."
  | credentialBindingConflict => "Multiple credential bindings match this tool call."
  | credentialResolution => "The upstream credential could not be resolved."
  | upstreamTimeout => "The upstream service did not respond before the timeout."
  | upstreamUnavailable => "The upstream service is unavailable."
  | upstreamResponse => "The upstream service returned an invalid response."
  | unsafeUpstreamEndpoint => "The upstream endpoint is not permitted by the egress policy."
  | unknownExecutionOutcome => "The upstream execution outcome could not be determined."
  | toolExecutionNotFound => "The requested tool execution was not found."
  | invalidExecutionState => "The tool execution cannot be changed from its current state."
  | executionAttemptNotFound => "The requested execution attempt was not found."
  | idempotencyKeyRequired => "This tool call requires an idempotency key."
  | idempotencyConflict _ => "The idempotency key was already used with different arguments."
  | idempotencyInProgress _ => "The idempotent operation is already in progress."
  | idempotencyAlreadyCompleted _ => "The idempotent operation was already completed."
  | idempotencyOutcomeUnknown _ => "The previous idempotent operation outcome is unknown."
  | idempotencyPreviousFailed _ =>
    "The previous idempotent operation did not complete successfully."
  | idempotencyRace => "The idempotent operation is already in progress."
  | toolSearchModeUnavailable => "The requested tool search mode is not available."
  | toolSearchReindexJobNotFound => "The requested tool search reindex job was not found."
  | toolSearchReindexJobConflict => "A tool search reindex job is already active for this tenant."
  | embeddingAuthentication => "The embedding provider could not be authenticated."
  | embeddingRateLimit => "The embedding provider rate limit was exceeded."
  | embeddingUnavailable => "The embedding provider is unavailable."
  | embeddingResponse => "The embedding provider returned an invalid response."

/-! ## Executor failures -/

inductive ExecutionErrorCategory where
  | validation
  | authentication
  | authorization
  | approval
  | credential
  | timeoutBeforeSend
  | timeoutAfterSend
  | network
  | upstream4xx
  | upstream5xx
  | cancelled
  | unknown
deriving Repr, DecidableEq

/-- What a tool executor raises when it knows how the exchange ended. -/
structure ExecutorFailure where
  code : String
  category : ExecutionErrorCategory
  outcomeUnknown : Bool := false
  upstreamStatus : Option Nat := none
deriving Repr, DecidableEq

/-! ## Exceptions -/

/-- An exception. All but `cancelled` are subclasses of Python's `Exception`. -/
inductive Exc where
  | nexus (cls : ErrorClass) (message : String)
  | executorFailure (failure : ExecutorFailure)
  | valueError (message : String)
  | integrityError (constraint : String)
  | cancelled
  | other (name : String)
deriving Repr, DecidableEq

/-- Construct a dataclass: its `__post_init__` raises the first violation. -/
def construct {δ : Type} [PostInit δ] (d : δ) : Except Exc (Checked δ) :=
  if h : Valid d then .ok ⟨d, h⟩ else .error (.valueError (firstViolation d))

theorem construct_of_valid {δ : Type} [PostInit δ] {d : δ} (h : Valid d) :
    construct d = .ok ⟨d, h⟩ :=
  dif_pos h

/-- What is constructed has the fields it was given. -/
theorem val_of_construct {δ : Type} [PostInit δ] {d : δ} {c : Checked δ}
    (h : construct d = .ok c) : c.val = d := by
  unfold construct at h
  split at h
  · cases h; rfl
  · cases h

/-- A construction only fails with the `ValueError` of a violated check. -/
theorem error_of_construct {δ : Type} [PostInit δ] {d : δ} {e : Exc}
    (h : construct d = .error e) : ¬ Valid d ∧ e = .valueError (firstViolation d) := by
  unfold construct at h
  split at h
  · cases h
  · next hd => cases h; exact ⟨hd, rfl⟩

/-! ## Guards -/

/-- `if c: raise e`. -/
def raiseIf (c : Prop) [Decidable c] (e : Exc) : Except Exc Unit :=
  if c then .error e else .ok ()

/-- `if c: raise ValueError(message)`. -/
abbrev valueErrorIf (c : Prop) [Decidable c] (message : String) : Except Exc Unit :=
  raiseIf c (.valueError message)

theorem bind_eq_ok {ε α β : Type} {x : Except ε α} {f : α → Except ε β} {b : β} :
    (x >>= f) = .ok b ↔ ∃ a, x = .ok a ∧ f a = .ok b := by
  cases x with
  | error e => exact ⟨fun h => (by cases h), fun ⟨_, h, _⟩ => (by cases h)⟩
  | ok a => exact ⟨fun h => ⟨a, rfl, h⟩, fun ⟨_, rfl, h⟩ => h⟩

theorem bind_eq_error {ε α β : Type} {x : Except ε α} {f : α → Except ε β} {e : ε} :
    (x >>= f) = .error e ↔ x = .error e ∨ ∃ a, x = .ok a ∧ f a = .error e := by
  cases x with
  | error e' =>
    constructor
    · intro h
      exact .inl (by injection h with h; rw [h])
    · rintro (h | ⟨_, h, _⟩)
      · injection h with h
        rw [h]
        rfl
      · cases h
  | ok a =>
    constructor
    · intro h
      exact .inr ⟨a, rfl, h⟩
    · rintro (h | ⟨_, ⟨⟩, h⟩)
      · cases h
      · exact h

theorem map_eq_ok {ε α β : Type} {x : Except ε α} {f : α → β} {b : β} :
    x.map f = .ok b ↔ ∃ a, x = .ok a ∧ f a = b := by
  cases x <;> simp [Except.map]

theorem mapError_eq_ok {ε ε' α : Type} {f : ε → ε'} {x : Except ε α} {a : α} :
    x.mapError f = .ok a ↔ x = .ok a := by
  cases x <;> simp [Except.mapError]

@[simp] theorem raiseIf_bind_eq_ok {β : Type} {c : Prop} [Decidable c] {e : Exc}
    {f : Unit → Except Exc β} {b : β} :
    (raiseIf c e >>= f) = .ok b ↔ ¬ c ∧ f () = .ok b := by
  rw [bind_eq_ok]
  unfold raiseIf
  split
  · next h => exact ⟨fun ⟨_, h', _⟩ => (by cases h'), fun ⟨h', _⟩ => absurd h h'⟩
  · next h => exact ⟨fun ⟨(), _, h'⟩ => ⟨h, h'⟩, fun ⟨_, h'⟩ => ⟨(), rfl, h'⟩⟩

@[simp] theorem raiseIf_eq_ok {c : Prop} [Decidable c] {e : Exc} {u : Unit} :
    raiseIf c e = .ok u ↔ ¬ c := by
  unfold raiseIf
  split <;> simp_all

@[simp] theorem raiseIf_bind_eq_error {β : Type} {c : Prop} [Decidable c] {e x : Exc}
    {f : Unit → Except Exc β} :
    (raiseIf c e >>= f) = .error x ↔ (c ∧ x = e) ∨ (¬ c ∧ f () = .error x) := by
  unfold raiseIf
  split
  · next h => exact ⟨fun h' => .inl ⟨h, (Except.error.inj h').symm⟩,
      fun h' => h'.elim (fun h' => congrArg _ h'.2.symm) (fun h' => absurd h h'.1)⟩
  · next h => exact ⟨fun h' => .inr ⟨h, h'⟩,
      fun h' => h'.elim (fun h' => absurd h'.1 h) (fun h' => h'.2)⟩

@[simp] theorem raiseIf_eq_error {c : Prop} [Decidable c] {e x : Exc} :
    raiseIf c e = .error x ↔ c ∧ x = e := by
  unfold raiseIf
  split
  · next h => exact ⟨fun h' => ⟨h, (Except.error.inj h').symm⟩, fun h' => congrArg _ h'.2.symm⟩
  · next h => exact ⟨fun h' => (by cases h'), fun h' => absurd h'.1 h⟩

theorem foldlM_eq_error {ε α β : Type} {f : β → α → Except ε β} {b : β} {l : List α} {e : ε}
    (h : l.foldlM f b = .error e) : ∃ b a, f b a = .error e := by
  induction l generalizing b with
  | nil => cases h
  | cons a l ih =>
    rw [List.foldlM_cons] at h
    obtain h | ⟨b', -, h⟩ := bind_eq_error.1 h
    · exact ⟨b, a, h⟩
    · exact ih h

/-- What every round of a loop keeps holds after it. -/
theorem foldlM_invariant {ε α β : Type} (P : β → Prop) {f : β → α → Except ε β}
    (hstep : ∀ b a b', f b a = .ok b' → P b → P b') {b b' : β} {l : List α} (hb : P b)
    (h : l.foldlM f b = .ok b') : P b' := by
  induction l generalizing b with
  | nil =>
    cases h
    exact hb
  | cons a l ih =>
    rw [List.foldlM_cons, bind_eq_ok] at h
    obtain ⟨next, hnext, h⟩ := h
    exact ih (hstep b a next hnext hb) h

theorem mapM_eq_ok {ε α β : Type} {f : α → Except ε β} {l : List α} {bs : List β} :
    l.mapM f = .ok bs ↔ List.Forall₂ (fun a b => f a = .ok b) l bs := by
  induction l generalizing bs with
  | nil =>
    constructor
    · intro h
      cases h
      exact .nil
    · rintro ⟨⟩
      rfl
  | cons a l ih =>
    simp only [List.mapM_cons, bind_eq_ok]
    constructor
    · rintro ⟨b, hb, bs', hbs, h⟩
      cases h
      exact .cons hb (ih.1 hbs)
    · rintro (_ | ⟨hb, hbs⟩)
      exact ⟨_, hb, _, ih.2 hbs, rfl⟩

theorem mapM_ok_of_forall {ε α β : Type} {f : α → Except ε β} {l : List α}
    (h : ∀ a ∈ l, ∃ b, f a = .ok b) : ∃ bs, l.mapM f = .ok bs := by
  induction l with
  | nil => exact ⟨[], rfl⟩
  | cons a l ih =>
    obtain ⟨b, hb⟩ := h a List.mem_cons_self
    obtain ⟨bs, hbs⟩ := ih fun x hx => h x (List.mem_cons_of_mem a hx)
    exact ⟨b :: bs, mapM_eq_ok.2 (.cons hb (mapM_eq_ok.1 hbs))⟩

/-- The results of `mapM` are those of the elements. -/
theorem mem_mapM {ε α β : Type} {f : α → Except ε β} {l : List α} {bs : List β}
    (h : l.mapM f = .ok bs) {b : β} : b ∈ bs ↔ ∃ a ∈ l, f a = .ok b := by
  rw [mapM_eq_ok] at h
  induction h with
  | nil => simp
  | @cons a b' l bs hab _ ih =>
    simp only [List.mem_cons, ih, exists_eq_or_imp, hab, Except.ok.injEq]
    rw [eq_comm]

/-- A construction succeeds exactly on valid fields, and keeps them. -/
@[simp] theorem construct_eq_ok {δ : Type} [PostInit δ] {d : δ} {c : Checked δ} :
    construct d = .ok c ↔ c.val = d := by
  constructor
  · exact val_of_construct
  · rintro rfl
    exact construct_of_valid c.property

end NexusMcp

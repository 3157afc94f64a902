-- SUMMARY: The idempotency key and the credential in a request, whatever the arguments are mapped to.
import NexusMcp.Execution.Mapping

/-!
# Trusted Headers

The arguments may be mapped to the names of the trusted headers, in any spelling.
-/

namespace NexusMcp

open Net (Unicode)

/-! ## Trusted headers -/

section Headers

variable [Unicode] {headers : TextDict} {name value : String}

theorem setTrustedHeader_eq :
    setTrustedHeader headers name value =
      (headers.filter fun e => ¬ SameHeader e.1 name) ++ [(name, value)] := by
  refine TextDict.set_of_not_mem fun e he heq => ?_
  have hdiffers := of_decide_eq_true (List.mem_filter.1 he).2
  exact hdiffers (congrArg (fun name : String => Unicode.lower name.toList) heq)

/-- A trusted header is the only one of its name, in any case. -/
theorem filter_setTrustedHeader_self :
    (setTrustedHeader headers name value).filter (SameHeader ·.1 name) = [(name, value)] := by
  have hself : SameHeader name name := rfl
  rw [setTrustedHeader_eq, List.filter_append, List.filter_filter]
  simp [hself]

/-- Headers of other names are not changed. -/
theorem filter_setTrustedHeader {p : String → Bool}
    (h : ∀ other, SameHeader other name → p other = false) :
    (setTrustedHeader headers name value).filter (p ·.1) = headers.filter (p ·.1) := by
  have hself : p name = false := h name rfl
  have hothers : ∀ e ∈ headers, (p e.1 && decide ¬ SameHeader e.1 name) = p e.1 := by
    intro e _
    by_cases hsame : SameHeader e.1 name
    · simp [h e.1 hsame]
    · simp [hsame]
  rw [setTrustedHeader_eq, List.filter_append, List.filter_filter, List.filter_congr hothers]
  simp [hself]

end Headers

/-! ## The request -/

/-- The value of a credential, in its format. -/
def ResolvedCredential.formatted (credential : ResolvedCredential) : String :=
  match credential.valueFormat with
  | .raw => credential.value.val
  | .bearer => "Bearer " ++ credential.value.val

/-- The names of the trusted headers of a request. -/
def trustedNames (request : ExecutorRequest) (credential : Option ResolvedCredential) :
    List String :=
  (request.val.idempotencyKey.map fun _ => "Idempotency-Key").toList ++
    ((credential.filter (·.injectionLocation = .header)).map (·.injectionName)).toList

/-- The header has the name of a trusted one. -/
def NamesTrusted [Unicode] (request : ExecutorRequest) (credential : Option ResolvedCredential)
    (name : String) : Prop :=
  ∃ trusted ∈ trustedNames request credential, SameHeader name trusted

instance [Unicode] (request : ExecutorRequest) (credential : Option ResolvedCredential)
    (name : String) : Decidable (NamesTrusted request credential name) :=
  inferInstanceAs (Decidable (∃ _ ∈ _, _))

/-- The name of the query parameter of a credential. -/
def trustedParam (credential : Option ResolvedCredential) : Option String :=
  (credential.filter (·.injectionLocation = .query)).map (·.injectionName)

/-- What is sent of the key and the credential does not depend on the arguments, and what is sent
    of the arguments does not have their names. -/
structure TrustedHeadersKept [Unicode] (request : ExecutorRequest)
    (credential : Option ResolvedCredential) (mapped : MappedArguments) (sent : HttpRequest) :
    Prop where
  credentialHeader : ∀ c, credential = some c → c.injectionLocation = .header →
    sent.headers.filter (SameHeader ·.1 c.injectionName) = [(c.injectionName, c.formatted)]
  key : ∀ key, request.val.idempotencyKey = some key →
    (∀ c, credential = some c → c.injectionLocation = .header →
      ¬ SameHeader "Idempotency-Key" c.injectionName) →
    sent.headers.filter (SameHeader ·.1 "Idempotency-Key") = [("Idempotency-Key", key)]
  credentialQuery : ∀ c, credential = some c → c.injectionLocation = .query →
    sent.params.filter (·.1 = c.injectionName) = [(c.injectionName, c.formatted)]
  otherHeaders : sent.headers.filter (¬ NamesTrusted request credential ·.1) =
    mapped.headers.filter (¬ NamesTrusted request credential ·.1)
  otherParams : sent.params.filter (some ·.1 ≠ trustedParam credential) =
    mapped.query.filter (some ·.1 ≠ trustedParam credential)

/-- The arguments, with the key among the headers. -/
def withKey [Unicode] (idempotencyKey : Option String) (mapped : MappedArguments) :
    MappedArguments :=
  match idempotencyKey with
  | none => mapped
  | some key => { mapped with headers := setTrustedHeader mapped.headers "Idempotency-Key" key }

section Request

theorem put_unique {p : Placement} {mapped mapped' : MappedArguments}
    (h : p.put mapped = .ok mapped') (hunique : TextDict.Unique mapped.query) :
    TextDict.Unique mapped'.query := by
  obtain ⟨-, -, rfl⟩ | ⟨-, rfl⟩ | ⟨-, rfl⟩ := Placement.put_eq_ok.1 h
  · exact hunique
  · exact hunique.set
  · exact hunique

theorem putAll_unique {placements : List Placement} {mapped mapped' : MappedArguments}
    (h : putAll placements mapped = .ok mapped') (hunique : TextDict.Unique mapped.query) :
    TextDict.Unique mapped'.query := by
  induction placements generalizing mapped with
  | nil =>
    cases h
    exact hunique
  | cons p placements ih =>
    rw [putAll_cons] at h
    obtain ⟨next, hput, hrest⟩ := bind_eq_ok.1 h
    exact ih hrest (put_unique hput hunique)

/-- The query that the arguments are mapped to has no name twice. -/
theorem unique_query [PyStr] {arguments : JsonObject} {pathTemplate : String}
    {rawParameters : Option Json} {mapped : MappedArguments}
    (h : mapArguments pathTemplate rawParameters arguments = .ok mapped) :
    TextDict.Unique mapped.query := by
  obtain ⟨parameters, -, -, hput⟩ := mapArguments_eq_ok.1 h
  exact putAll_unique hput List.nodup_nil

variable [Unicode] {request : ExecutorRequest} {credential : Option ResolvedCredential}
  {mapped : MappedArguments} {sent : HttpRequest}

theorem buildRequest_ok [PyStr] {method : String}
    (h : HttpxToolExecutor.buildRequest request credential method = .ok sent) :
    ∃ mapped, mapArguments (textField request.val.tool.bindingConfig "path_template")
        (request.val.tool.bindingConfig.get "parameters") request.val.arguments = .ok mapped ∧
      sent.headers = (injectCredential credential
        (withKey request.val.idempotencyKey mapped)).headers ∧
      sent.params = (injectCredential credential
        (withKey request.val.idempotencyKey mapped)).query := by
  unfold HttpxToolExecutor.buildRequest at h
  rw [raiseIf_bind_eq_ok] at h
  obtain ⟨mapped, hmapped, h⟩ := bind_eq_ok.1 h.2
  obtain ⟨body, -, h⟩ := bind_eq_ok.1 h
  cases h
  exact ⟨mapped, hmapped, rfl, rfl⟩

variable {c : ResolvedCredential}

theorem injectCredential_header (h : c.injectionLocation = .header) :
    injectCredential (some c) mapped =
      { mapped with headers := setTrustedHeader mapped.headers c.injectionName c.formatted } := by
  simp only [injectCredential, h]
  rfl

theorem injectCredential_query (h : c.injectionLocation = .query) :
    injectCredential (some c) mapped =
      { mapped with query := mapped.query.set c.injectionName c.formatted } := by
  simp only [injectCredential, h]
  rfl

@[simp] theorem withKey_query {idempotencyKey : Option String} :
    (withKey idempotencyKey mapped).query = mapped.query := by
  cases idempotencyKey <;> rfl

/-- Adding the key changes no header of another name. -/
theorem filter_withKey {p : String → Bool} {idempotencyKey : Option String}
    (h : ∀ key, idempotencyKey = some key → ∀ name, SameHeader name "Idempotency-Key" →
      p name = false) :
    (withKey idempotencyKey mapped).headers.filter (p ·.1) = mapped.headers.filter (p ·.1) := by
  cases idempotencyKey with
  | none => rfl
  | some key => exact filter_setTrustedHeader (h key rfl)

theorem trustedHeadersKept_of_injected (hunique : TextDict.Unique mapped.query)
    (hheaders : sent.headers =
      (injectCredential credential (withKey request.val.idempotencyKey mapped)).headers)
    (hparams : sent.params =
      (injectCredential credential (withKey request.val.idempotencyKey mapped)).query) :
    TrustedHeadersKept request credential mapped sent := by
  have hkeyed : ∀ key, request.val.idempotencyKey = some key →
      (withKey request.val.idempotencyKey mapped).headers.filter
        (SameHeader ·.1 "Idempotency-Key") = [("Idempotency-Key", key)] := by
    intro key hkey
    rw [hkey]
    exact filter_setTrustedHeader_self
  have hothers : (withKey request.val.idempotencyKey mapped).headers.filter
      (¬ NamesTrusted request credential ·.1) =
        mapped.headers.filter (¬ NamesTrusted request credential ·.1) := by
    refine filter_withKey (p := (¬ NamesTrusted request credential ·)) fun key hkey name hsame => ?_
    have htrusted : NamesTrusted request credential name :=
      ⟨_, by simp [trustedNames, hkey], hsame⟩
    simpa using htrusted
  cases credential with
  | none =>
    -- Without a credential, the key is the one trusted header.
    have hsame : sent.headers = (withKey request.val.idempotencyKey mapped).headers := hheaders
    have hquery : sent.params = mapped.query := hparams.trans withKey_query
    refine ⟨nofun, ?_, nofun, ?_, ?_⟩
    · intro key hkey _
      rw [hsame]
      exact hkeyed key hkey
    · rw [hsame]
      exact hothers
    · rw [hquery]
  | some c =>
    cases hlocation : c.injectionLocation with
    | header =>
      rw [injectCredential_header hlocation] at hheaders hparams
      have hquery : sent.params = mapped.query := hparams.trans withKey_query
      refine ⟨?_, ?_, ?_, ?_, ?_⟩
      · rintro _ ⟨⟩ -
        rw [hheaders]
        exact filter_setTrustedHeader_self
      · intro key hkey hdiffers
        rw [hheaders, filter_setTrustedHeader (p := (SameHeader · "Idempotency-Key"))]
        · exact hkeyed key hkey
        · intro other hother
          -- The credential goes under another name than the key.
          have hnot := hdiffers c rfl hlocation
          simp only [decide_eq_false_iff_not]
          exact fun hsame => hnot (hsame.symm.trans hother)
      · rintro _ ⟨⟩ hquery
        rw [hlocation] at hquery
        cases hquery
      · rw [hheaders, filter_setTrustedHeader (p := (¬ NamesTrusted request (some c) ·))]
        · exact hothers
        · intro other hother
          have htrusted : NamesTrusted request (some c) other :=
            ⟨_, by simp [trustedNames, hlocation], hother⟩
          simpa using htrusted
      · rw [hquery]
    | query =>
      rw [injectCredential_query hlocation] at hheaders hparams
      rw [withKey_query] at hparams
      have hsame : sent.headers = (withKey request.val.idempotencyKey mapped).headers := hheaders
      refine ⟨?_, ?_, ?_, ?_, ?_⟩
      · rintro _ ⟨⟩ hheader
        rw [hlocation] at hheader
        cases hheader
      · intro key hkey _
        rw [hsame]
        exact hkeyed key hkey
      · rintro _ ⟨⟩ -
        rw [hparams]
        exact hunique.filter_set_self
      · rw [hsame]
        exact hothers
      · rw [hparams, TextDict.filter_set (p := (some · ≠ trustedParam (some c)))]
        simp [trustedParam, hlocation]

end Request

/-- The request that is prepared has the key and the credential in the place of whatever the
    arguments are mapped to there, and all else as the arguments are mapped. -/
theorem trusted_headers_kept [PyStr] [Unicode] (endpointPolicy : UpstreamEndpointPolicy)
    (request : ExecutorRequest) (credential : Option ResolvedCredential) (sent : HttpRequest)
    (h : HttpxToolExecutor.prepare endpointPolicy request credential = .ok sent) :
    ∃ mapped, mapArguments (textField request.val.tool.bindingConfig "path_template")
        (request.val.tool.bindingConfig.get "parameters") request.val.arguments = .ok mapped ∧
      TrustedHeadersKept request credential mapped sent := by
  obtain ⟨method, -, h⟩ := bind_eq_ok.1 h
  obtain ⟨-, -, h⟩ := bind_eq_ok.1 h
  obtain ⟨mapped, hmapped, hheaders, hparams⟩ := buildRequest_ok h
  refine ⟨mapped, hmapped, ?_⟩
  exact trustedHeadersKept_of_injected (unique_query hmapped) hheaders hparams

section Spoofed

attribute [local instance] scalarPyStr asciiUnicode

/-- A write whose arguments are mapped to the names of both trusted headers. -/
def spoofedWrite : ExecutorRequest where
  val := {
    executionId := "execution-1"
    tool := {
      tenantId := "tenant-1"
      toolId := "tool-1"
      toolVersionId := "version-1"
      toolBindingId := "binding-1"
      upstreamServiceId := "upstream-1"
      canonicalName := "orders.update"
      version := 1
      inputSchema := []
      outputSchema := none
      sideEffect := .idempotentWrite
      visibility := .public_
      bindingType := .http
      bindingConfig := [("method", .str "PUT"), ("path_template", .str "/orders"),
        ("parameters", .arr [
          .obj [("argument_name", .str "key"), ("upstream_name", .str "IDEMPOTENCY-key"),
            ("location", .str "header")],
          .obj [("argument_name", .str "secret"), ("upstream_name", .str "x-api-KEY"),
            ("location", .str "header")]]),
        ("request_body", .obj [("argument_name", .str "body"),
          ("content_type", .str "application/json")])]
      upstreamEndpoint := "https://orders.example"
      upstreamAuthScheme := some "api_key" }
    arguments := [("key", .str "mine"), ("secret", .str "guess"), ("body", .obj [])]
    timeoutSeconds := 5
    idempotencyKey := some "key-1" }
  property := by decide

def apiKey : ResolvedCredential where
  credentialBindingId := "credential-1"
  injectionLocation := .header
  injectionName := "X-Api-Key"
  valueFormat := .raw
  value := ⟨"secret-1", by decide⟩

def spoofedRequest : HttpRequest where
  method := "PUT"
  url := "https://orders.example/orders"
  params := []
  headers := [("Idempotency-Key", "key-1"), ("X-Api-Key", "secret-1")]
  json := .obj []
  timeout := 5

theorem trusted_headers_kept_spoofed :
    ∃ mapped, mapArguments (textField spoofedWrite.val.tool.bindingConfig "path_template")
        (spoofedWrite.val.tool.bindingConfig.get "parameters") spoofedWrite.val.arguments =
          .ok mapped ∧
      TrustedHeadersKept spoofedWrite (some apiKey) mapped spoofedRequest :=
  trusted_headers_kept (fun _ => .ok ()) spoofedWrite (some apiKey) spoofedRequest rfl

end Spoofed

end NexusMcp

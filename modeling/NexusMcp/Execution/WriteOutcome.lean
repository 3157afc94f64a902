-- SUMMARY: Which failures of a write the HTTP executor reports as definite, and when it may.
import NexusMcp.Execution.CallTool
import NexusMcp.Execution.PathStructure

/-!
# The Outcome of a Write

The client raises an exception of the family of network errors whether it could not connect
or lost the connection later, when the upstream may have carried the write out already.
-/

namespace NexusMcp

/-! ## The exchange -/

/-- The exceptions of the client. -/
inductive HttpxError where
  | connectTimeout
  | readTimeout
  | writeTimeout
  | poolTimeout
  | connectError
  | readError
  | writeError
  | closeError
  | other (name : String)
deriving Repr, DecidableEq

/-- How an exchange ends. The decoder of a body raises its own exceptions. -/
inductive HttpExchange where
  | failed (error : HttpxError)
  | completed (response : HttpResponse)
      (decoder : ∀ e, response.json = .error e →
        ∃ text, e = .valueError text ∨ e = .other text)

/-- The family of an exception. -/
def HttpxError.outcome : HttpxError → HttpOutcome
  | connectTimeout | readTimeout | writeTimeout | poolTimeout => .timeoutException
  | connectError | readError | writeError | closeError => .networkError
  | other name => .raised (.other name)

namespace HttpExchange

def outcome : HttpExchange → HttpOutcome
  | failed error => error.outcome
  | completed response _ => .response response

/-- There was no connection, so that no byte of the request can have been delivered. -/
def Undelivered (exchange : HttpExchange) : Prop :=
  ∃ error ∈ [HttpxError.connectTimeout, .poolTimeout, .connectError], exchange = failed error

/-- A complete response reports that the request did not succeed. -/
def Refused : HttpExchange → Prop
  | failed _ => False
  | completed response _ => 400 ≤ response.statusCode

/-- The body of the response is too large, or is not the JSON that it is declared to be. -/
def Unusable (maxResponseBytes : Nat) (response : HttpResponse) : Prop :=
  maxResponseBytes < response.contentLength ∨
    (response.mediaType = some "application/json" ∧
      ∃ text, response.json = .error (.valueError text))

/-- The exchange ends in anything but a usable response with a status of success. -/
def Fails (maxResponseBytes : Nat) : HttpExchange → Prop
  | failed _ => True
  | completed response _ =>
    ¬ (200 ≤ response.statusCode ∧ response.statusCode < 300) ∨
      Unusable maxResponseBytes response

/-- The connection was lost with the request on its way. -/
def ConnectionLost (exchange : HttpExchange) : Prop :=
  ∃ error ∈ [HttpxError.readError, .writeError, .closeError], exchange = failed error

/-- The exchange was completed by a response that is neither an error nor usable. -/
def Inconclusive (maxResponseBytes : Nat) : HttpExchange → Prop
  | failed _ => False
  | completed response _ =>
    response.statusCode < 400 ∧
      (¬ (200 ≤ response.statusCode ∧ response.statusCode < 300) ∨
        Unusable maxResponseBytes response)

@[simp] theorem not_refused_failed {error : HttpxError} : ¬ (failed error).Refused := id

@[simp] theorem not_inconclusive_failed {maxBytes : Nat} {error : HttpxError} :
    ¬ (failed error).Inconclusive maxBytes := id

@[simp] theorem not_undelivered_completed {response : HttpResponse} {decoder} :
    ¬ (completed response decoder).Undelivered := by
  simp [Undelivered]

@[simp] theorem not_connectionLost_completed {response : HttpResponse} {decoder} :
    ¬ (completed response decoder).ConnectionLost := by
  simp [ConnectionLost]

end HttpExchange

/-! ## The report -/

/-- The `outcome_unknown` that is recorded for what the executor raised. -/
def reportsUnknown : Exc → Bool
  | .executorFailure failure => failure.outcomeUnknown
  | _ => true

/-- A failure is reported as definite only where it is, and as unknown everywhere else. -/
structure WriteOutcomeHonest (maxResponseBytes : Nat) (exchange : HttpExchange)
    (result : Except Exc ExecutorResult) : Prop where
  definite : ∀ failure, result = .error (.executorFailure failure) →
    failure.outcomeUnknown = false → exchange.Undelivered ∨ exchange.Refused
  unknown : exchange.Fails maxResponseBytes → ¬ exchange.Undelivered → ¬ exchange.Refused →
    ∃ e, result = .error e ∧ reportsUnknown e = true

namespace WriteOutcomeHonest

variable {maxBytes : Nat} {exchange : HttpExchange} {result : Except Exc ExecutorResult} {e : Exc}

theorem of_undelivered (h : exchange.Undelivered) :
    WriteOutcomeHonest maxBytes exchange result where
  definite _ _ _ := .inl h
  unknown _ hundelivered := absurd h hundelivered

theorem of_refused (h : exchange.Refused) : WriteOutcomeHonest maxBytes exchange result where
  definite _ _ _ := .inr h
  unknown _ _ hrefused := absurd h hrefused

theorem of_unknown (h : result = .error e) (hunknown : reportsUnknown e = true) :
    WriteOutcomeHonest maxBytes exchange result where
  definite failure hfailure hdefinite := by
    obtain rfl : e = .executorFailure failure := Except.error.inj (h.symm.trans hfailure)
    rw [reportsUnknown, hdefinite] at hunknown
    cases hunknown
  unknown _ _ _ := ⟨e, h, hunknown⟩

theorem of_ok {value : ExecutorResult} (h : result = .ok value)
    (hfails : ¬ exchange.Fails maxBytes) : WriteOutcomeHonest maxBytes exchange result where
  definite failure hfailure := by
    rw [h] at hfailure
    cases hfailure
  unknown hfails' := absurd hfails' hfails

end WriteOutcomeHonest

namespace HttpxToolExecutor

open HttpExchange

variable {maxBytes : Nat}

/-! ## Failed exchanges -/

theorem writeOutcomeHonest_failed_iff {error : HttpxError} :
    WriteOutcomeHonest maxBytes (failed error) (readOutcome maxBytes (failed error).outcome) ↔
      ¬ (failed error).ConnectionLost := by
  constructor
  · rintro hhonest ⟨error, herror, ⟨⟩⟩
    simp only [List.mem_cons, List.not_mem_nil, or_false] at herror
    have hresult : readOutcome maxBytes (failed error).outcome =
        executorFailure "upstream_network_error" .network := by
      obtain rfl | rfl | rfl := herror <;> rfl
    have hdefinite := hhonest.definite _ hresult rfl
    obtain rfl | rfl | rfl := herror <;> simp [Undelivered] at hdefinite
  · intro hlost
    -- Read, write and close errors are the ones that come after the request may have gone out.
    cases error with
    | connectTimeout => exact .of_undelivered ⟨_, by simp, rfl⟩
    | poolTimeout => exact .of_undelivered ⟨_, by simp, rfl⟩
    | connectError => exact .of_undelivered ⟨_, by simp, rfl⟩
    | readTimeout => exact .of_unknown rfl rfl
    | writeTimeout => exact .of_unknown rfl rfl
    | readError => exact absurd ⟨_, by simp, rfl⟩ hlost
    | writeError => exact absurd ⟨_, by simp, rfl⟩ hlost
    | closeError => exact absurd ⟨_, by simp, rfl⟩ hlost
    | other name => exact .of_unknown rfl rfl

/-! ## Completed exchanges -/

section Completed

variable {response : HttpResponse}
  {decoder : ∀ e, response.json = .error e → ∃ text, e = .valueError text ∨ e = .other text}

/-- Below the errors, what cannot be used is a definite failure. -/
theorem readResponse_inconclusive (h : (completed response decoder).Inconclusive maxBytes) :
    ∃ failure : ExecutorFailure,
      readResponse maxBytes response = .error (.executorFailure failure) ∧
        failure.outcomeUnknown = false := by
  obtain ⟨herror, hstatus⟩ := h
  unfold readResponse
  simp only [show ¬ (400 ≤ response.statusCode ∧ response.statusCode < 500) by omega,
    show ¬ 500 ≤ response.statusCode by omega, if_false]
  split
  · exact ⟨_, rfl, rfl⟩
  · next hsuccess =>
    have hunusable := hstatus.resolve_left hsuccess
    split
    · exact ⟨_, rfl, rfl⟩
    · next hsize =>
      obtain ⟨hjson, text, htext⟩ := hunusable.resolve_left hsize
      refine ⟨{ code := "upstream_invalid_json", category := .unknown }, ?_, rfl⟩
      simp only [readContent, hjson, htext, if_true]
      rfl

/-- The content of a usable response is read, unless its decoder fails for another reason. -/
theorem readContent_usable
    (decoder : ∀ e, response.json = .error e → ∃ text, e = .valueError text ∨ e = .other text)
    (husable : ¬ Unusable maxBytes response) :
    (∃ data, readContent response = .ok data) ∨
      ∃ name, readContent response = .error (.other name) := by
  unfold readContent
  split
  · next hjson =>
    cases hdecoded : response.json with
    | ok data => exact .inl ⟨data, rfl⟩
    | error e =>
      obtain ⟨text, rfl | rfl⟩ := decoder e hdecoded
      · exact absurd (.inr ⟨hjson, text, hdecoded⟩) husable
      · exact .inr ⟨text, rfl⟩
  · exact .inl ⟨_, rfl⟩

theorem readResponse_success (hstatus : 200 ≤ response.statusCode ∧ response.statusCode < 300)
    (hsize : ¬ maxBytes < response.contentLength) :
    readResponse maxBytes response = do
      let data ← readContent response
      return {
        data := data
        contentType := response.mediaType
        upstreamStatus := some response.statusCode } := by
  unfold readResponse
  simp only [show ¬ (400 ≤ response.statusCode ∧ response.statusCode < 500) by omega,
    show ¬ 500 ≤ response.statusCode by omega, hstatus, hsize, not_true_eq_false, and_self,
    if_false]

theorem writeOutcomeHonest_completed_iff :
    WriteOutcomeHonest maxBytes (completed response decoder)
        (readOutcome maxBytes (completed response decoder).outcome) ↔
      ¬ (completed response decoder).Inconclusive maxBytes := by
  constructor
  · intro hhonest hinconclusive
    obtain ⟨failure, hresult, hdefinite⟩ := readResponse_inconclusive hinconclusive
    rcases hhonest.definite failure hresult hdefinite with hundelivered | hrefused
    · exact not_undelivered_completed hundelivered
    · exact absurd hinconclusive.1 (Nat.not_lt.2 hrefused)
  · intro hconclusive
    by_cases hrefused : 400 ≤ response.statusCode
    · exact .of_refused hrefused
    · have hfails : ¬ (completed response decoder).Fails maxBytes :=
        fun hfails => hconclusive ⟨Nat.not_le.1 hrefused, hfails⟩
      -- The response can be read, and whether it is JSON decides the rest.
      obtain ⟨hstatus, husable⟩ := not_or.1 hfails
      have hread := readResponse_success (not_not.1 hstatus) (mt .inl husable)
      rcases readContent_usable decoder husable with ⟨_, hok⟩ | ⟨_, hother⟩
      · exact .of_ok (hread.trans (by rw [hok]; rfl)) hfails
      · exact .of_unknown (hread.trans (by rw [hother]; rfl)) rfl

end Completed

/-- What the executor reports, for a write as for any request, is honest exactly when the
    connection was not lost with the request on its way, and a response, where there was one, is
    an error or usable. -/
theorem write_outcome_honest_iff [PyStr] [Net.Unicode] (self : HttpxToolExecutor)
    (request : ExecutorRequest) (credential : Option ResolvedCredential)
    (httpRequest : HttpRequest) (exchange : HttpExchange)
    (hprepare : prepare self.endpointPolicy request credential = .ok httpRequest)
    (hexchange : self.client httpRequest = exchange.outcome) :
    WriteOutcomeHonest self.maxResponseBytes exchange (self.execute request credential) ↔
      ¬ exchange.ConnectionLost ∧ ¬ exchange.Inconclusive self.maxResponseBytes := by
  have hexecute : self.execute request credential =
      readOutcome self.maxResponseBytes exchange.outcome := by
    unfold execute
    rw [hprepare, ← hexchange]
    rfl
  rw [hexecute]
  cases exchange with
  | failed error => simp [writeOutcomeHonest_failed_iff]
  | completed response decoder => simp [writeOutcomeHonest_completed_iff]

end HttpxToolExecutor

section OrderWrite

attribute [local instance] scalarPyStr asciiUnicode

def orderWrite : ExecutorRequest where
  val := {
    executionId := "execution-1"
    tool := {
      tenantId := "tenant-1"
      toolId := "tool-1"
      toolVersionId := "version-1"
      toolBindingId := "binding-1"
      upstreamServiceId := "upstream-1"
      canonicalName := "orders.update"
      version := 1
      inputSchema := []
      outputSchema := none
      sideEffect := .idempotentWrite
      visibility := .public_
      bindingType := .http
      bindingConfig := [("method", .str "PUT"), ("path_template", .str "/orders"),
        ("parameters", .arr []), ("request_body", .obj [("argument_name", .str "body"),
          ("content_type", .str "application/json")])]
      upstreamEndpoint := "https://orders.example"
      upstreamAuthScheme := none }
    arguments := [("body", .obj [])]
    timeoutSeconds := 5
    idempotencyKey := some "key-1" }
  property := by decide

/-- What the client is given for the write. -/
def orderWriteRequest : HttpRequest where
  method := "PUT"
  url := "https://orders.example/orders"
  params := []
  headers := [("Idempotency-Key", "key-1")]
  json := .obj []
  timeout := 5

/-- An executor whose client loses every connection. -/
def lostExecutor (error : HttpxError) : HttpxToolExecutor where
  client _ := error.outcome

theorem write_outcome_honest_timeout :
    WriteOutcomeHonest 1048576 (.failed .readTimeout)
        ((lostExecutor .readTimeout).execute orderWrite none) ↔
      ¬ (HttpExchange.failed .readTimeout).ConnectionLost ∧
        ¬ (HttpExchange.failed .readTimeout).Inconclusive 1048576 :=
  HttpxToolExecutor.write_outcome_honest_iff (lostExecutor .readTimeout) orderWrite none
    orderWriteRequest (.failed .readTimeout) rfl rfl

/-- A connection that is lost while the response is read is a definite failure. -/
theorem lost_response_reported_definite :
    ¬ ∀ (self : HttpxToolExecutor) (request : ExecutorRequest)
      (credential : Option ResolvedCredential) (httpRequest : HttpRequest)
      (exchange : HttpExchange),
      HttpxToolExecutor.prepare self.endpointPolicy request credential = .ok httpRequest →
      httpRequest.method = "PUT" → self.client httpRequest = exchange.outcome →
      WriteOutcomeHonest self.maxResponseBytes exchange (self.execute request credential) := by
  intro h
  have hhonest := h (lostExecutor .readError) orderWrite none orderWriteRequest
    (.failed .readError) rfl rfl rfl
  have hdefinite := hhonest.definite
    { code := "upstream_network_error", category := .network } rfl rfl
  simp [HttpExchange.Undelivered, HttpExchange.Refused] at hdefinite

end OrderWrite

end NexusMcp

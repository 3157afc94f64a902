-- SUMMARY: When the attempts of a call over HTTP agree with its execution and with its responses.
import NexusMcp.Execution.RetryVerdict
import NexusMcp.Execution.WriteOutcome

/-!
# Coherent Attempts

The executor passes on the status of a response as it is, and an attempt records a status of at
most 599: one above leaves its attempt running. Apart from that, the attempts of a call end, the
last one as its execution does.
-/

namespace NexusMcp

open Txn ExecutionLifecycle Prog

/-! ## The executor, asking -/

/-- `execute`, which asks the endpoint policy and the client. -/
def HttpxToolExecutor.exchange [PyStr] [Net.Unicode] (maxResponseBytes : Nat) : ToolExecutor :=
  fun request credential => do
    let method ← lift (checkedMethod request)
    let endpoint := request.val.tool.upstreamEndpoint
    let checked ← (validateEndpoint endpoint).attempt
    lift (recheckEndpoint (fun _ => checked) endpoint)
    let prepared ← lift (buildRequest request credential method)
    let outcome ← httpRequest prepared
    lift (readOutcome maxResponseBytes outcome)

/-- The executor does what it does with the policy and the client that answer it. -/
theorem HttpxToolExecutor.wp_exchange_execute [PyStr] [Net.Unicode] (self : HttpxToolExecutor)
    {env : Env Gateway} (hpolicy : ∀ σ endpoint,
      env.answer σ (.validateEndpoint endpoint) = self.endpointPolicy endpoint)
    (hclient : ∀ σ request, env.answer σ (.httpRequest request) = self.client request)
    (request : ExecutorRequest) (credential : Option ResolvedCredential) (σ : Session Gateway) :
    wp env (exchange self.maxResponseBytes request credential)
      (fun r _ => r = self.execute request credential) σ := by
  unfold exchange execute prepare
  simp only [Prog.bind_eq]
  refine wp_lift_bind (fun x hx => ?_) fun method hmethod => ?_
  · rw [hx]
    rfl
  rw [hmethod]
  refine wp_bind.2 (wp_attempt.2 (wp_ask.2 (wp_lift.2 ?_)))
  rw [hpolicy]
  refine wp_lift_bind (fun x hx => ?_) fun _ hchecked => ?_
  · change recheckEndpoint self.endpointPolicy _ = _ at hx
    rw [hx]
    rfl
  change recheckEndpoint self.endpointPolicy _ = _ at hchecked
  refine wp_lift_bind (fun x hx => ?_) fun prepared hprepared => ?_
  · rw [hchecked]
    change _ = buildRequest request credential method >>= _
    rw [hx]
    rfl
  refine wp_ask_bind (wp_lift.2 ?_)
  rw [hclient, hchecked]
  change _ = buildRequest request credential method >>= _
  rw [hprepared]
  rfl

/-! ## What the executor raises -/

/-- An exception of the surroundings: neither a failure of an executor nor a cancellation. -/
def Foreign (x : Exc) : Prop := x ≠ .cancelled ∧ ∀ failure, x ≠ .executorFailure failure

/-- The request is refused before it is sent, for good. -/
def Refusal (x : Exc) : Prop :=
  ∃ code category, x = .executorFailure { code := code, category := category } ∧
    (category = .validation ∨ category = .authorization)

/-- Nothing was sent. -/
def Unsent (outcome : Except Exc ExecutorResult) : Prop :=
  ∃ x, outcome = .error x ∧ (Foreign x ∨ Refusal x)

section Unsent

variable {request : ExecutorRequest} {x : Exc}

theorem refusal_of_failure {α : Type} {code : String} {category : ExecutionErrorCategory}
    (h : (executorFailure code category : Except Exc α) = .error x)
    (hcategory : category = .validation ∨ category = .authorization) : Refusal x :=
  ⟨code, category, (Except.error.inj h).symm, hcategory⟩

theorem refusal_of_checkedMethod [PyStr] (h : HttpxToolExecutor.checkedMethod request = .error x) :
    Refusal x := by
  obtain ⟨-, hx⟩ | ⟨-, h⟩ := raiseIf_bind_eq_error.1 h
  · exact ⟨_, _, hx, .inl rfl⟩
  obtain ⟨-, hx⟩ | ⟨-, h⟩ := raiseIf_bind_eq_error.1 h
  · exact ⟨_, _, hx, .inr rfl⟩
  obtain ⟨-, hx⟩ | ⟨-, h⟩ := raiseIf_bind_eq_error.1 h
  · exact ⟨_, _, hx, .inr rfl⟩
  obtain ⟨-, hx⟩ | ⟨-, h⟩ := raiseIf_bind_eq_error.1 h
  · exact ⟨_, _, hx, .inl rfl⟩
  obtain ⟨-, hx⟩ | ⟨-, h⟩ := raiseIf_bind_eq_error.1 h
  · exact ⟨_, _, hx, .inl rfl⟩
  cases h

theorem refusal_of_recheckEndpoint {checked : Except Exc Unit} {endpoint : String}
    (hchecked : ∀ y, checked = .error y → Foreign y)
    (h : HttpxToolExecutor.recheckEndpoint (fun _ => checked) endpoint = .error x) :
    Foreign x ∨ Refusal x := by
  unfold HttpxToolExecutor.recheckEndpoint at h
  split at h
  · exact .inr (refusal_of_failure h (.inr rfl))
  · exact .inl (hchecked x h)

theorem refusal_of_mapParameter [PyStr] {arguments : JsonObject} {mapped : MappedArguments}
    {raw : Json} (h : mapParameter arguments mapped raw = .error x) : Refusal x := by
  cases raw with
  | obj parameter =>
    simp only [mapParameter] at h
    split at h
    · split_ifs at h
      exact refusal_of_failure h (.inl rfl)
    · unfold mapValue at h
      split_ifs at h
      · exact refusal_of_failure h (.inl rfl)
      · exact refusal_of_failure h (.inl rfl)
  | _ => exact refusal_of_failure h (.inl rfl)

theorem refusal_of_mapArguments [PyStr] {pathTemplate : String} {rawParameters : Option Json}
    {arguments : JsonObject} (h : mapArguments pathTemplate rawParameters arguments = .error x) :
    Refusal x := by
  unfold mapArguments at h
  split at h
  · obtain ⟨mapped, raw, h⟩ := foldlM_eq_error h
    exact refusal_of_mapParameter h
  · exact refusal_of_failure h (.inl rfl)

theorem refusal_of_mapRequestBody [PyStr] {method : String} {rawRequestBody : Option Json}
    {arguments : JsonObject} (h : mapRequestBody method rawRequestBody arguments = .error x) :
    Refusal x := by
  unfold mapRequestBody at h
  split at h
  · cases h
  · split at h
    · split_ifs at h
      · split at h
        · exact refusal_of_failure h (.inl rfl)
        · cases h
      · split at h <;> cases h
      · exact refusal_of_failure h (.inl rfl)
    · exact refusal_of_failure h (.inl rfl)

theorem refusal_of_buildRequest [PyStr] [Net.Unicode] {credential : Option ResolvedCredential}
    {method : String} (h : HttpxToolExecutor.buildRequest request credential method = .error x) :
    Refusal x := by
  obtain ⟨-, hx⟩ | ⟨-, h⟩ := raiseIf_bind_eq_error.1 h
  · exact ⟨_, _, hx, .inl rfl⟩
  obtain h | ⟨mapped, -, h⟩ := bind_eq_error.1 h
  · exact refusal_of_mapArguments h
  obtain h | ⟨body, -, h⟩ := bind_eq_error.1 h
  · exact refusal_of_mapRequestBody h
  cases h

end Unsent

/-! ## The exchanges of a call -/

/-- What the client has delivered, oldest first. -/
def exchanges (trace : List (Event Gateway)) : List HttpOutcome :=
  trace.reverse.filterMap fun
    | .asked (.httpRequest _) outcome => some outcome
    | _ => none

theorem exchanges_append (new trace : List (Event Gateway)) :
    exchanges (new ++ trace) = exchanges trace ++ exchanges new := by
  simp [exchanges]

theorem exchanges_of_aside {new : List (Event Gateway)} (h : ∀ ev ∈ new, ev.Within aside) :
    exchanges new = [] := by
  refine List.filterMap_eq_nil_iff.2 fun ev hev => ?_
  have haside := h ev (List.mem_reverse.1 hev)
  rcases ev with ⟨q, a⟩ | _ | _
  · cases q <;> first | rfl | exact absurd haside id
  · rfl
  · rfl

/-- A response is a final one, and what else is raised is no failure of an executor. -/
def Deliverable : HttpOutcome → Prop
  | .response response =>
    200 ≤ response.statusCode ∧ ∀ x, response.json = .error x → Foreign x
  | .raised x => Foreign x
  | .timeoutException | .networkError => True

/-- What may answer the executor. -/
structure Exchanging (env : Env Gateway) : Prop where
  checked : ∀ σ endpoint x, env.answer σ (.validateEndpoint endpoint) = .error x → Foreign x
  delivered : ∀ σ request, Deliverable (env.answer σ (.httpRequest request))

/-- Each exchange has its outcome, and at most a call that sent nothing follows. -/
def Answered (maxResponseBytes : Nat) (outcomes : List (Except Exc ExecutorResult))
    (trace : List (Event Gateway)) : Prop :=
  (∀ exchange ∈ exchanges trace, Deliverable exchange) ∧ ∃ unsent,
    outcomes = (exchanges trace).map (HttpxToolExecutor.readOutcome maxResponseBytes) ++ unsent ∧
      ∀ outcome ∈ unsent, Unsent outcome

theorem legible_answered (maxResponseBytes : Nat) : Legible (Answered maxResponseBytes) where
  started := ⟨fun _ hmem => absurd hmem List.not_mem_nil, [], rfl,
    fun _ hmem => absurd hmem List.not_mem_nil⟩
  between haside hseen := by
    rwa [Answered, exchanges_append, exchanges_of_aside haside, List.append_nil]

/-- A call that sent nothing is not made again. -/
theorem Unsent.not_retried {request : ExecutorRequest} {outcome : Except Exc ExecutorResult}
    (h : Unsent outcome) : ¬ Retried request outcome := by
  rintro ⟨-, failure, rfl, hretry⟩
  obtain ⟨x, hx, ⟨-, hforeign⟩ | ⟨code, category, rfl, hcategory⟩⟩ := h
  · exact hforeign failure (Except.error.inj hx).symm
  · cases hx
    rw [ExecuteWithRetry.disposition, retryDisposition, if_pos] at hretry
    · cases hretry
    · obtain rfl | rfl := hcategory <;> simp

theorem Unsent.recordable {outcome : Except Exc ExecutorResult} (h : Unsent outcome) :
    Recordable outcome := by
  obtain ⟨x, rfl, ⟨hcancelled, hforeign⟩ | ⟨code, category, rfl, -⟩⟩ := h
  · rcases x with _ | failure | _ | _ | _ | _
    case executorFailure => exact absurd rfl (hforeign failure)
    all_goals exact hcancelled
  · rintro _ ⟨⟩

section Answered

variable {maxBytes : Nat} {request : ExecutorRequest} {outcome : Except Exc ExecutorResult}
  {outcomes : List (Except Exc ExecutorResult)} {trace : List (Event Gateway)}

theorem Answered.of_retried (h : Answered maxBytes outcomes trace)
    (hretried : ∀ outcome ∈ outcomes, Retried request outcome) :
    outcomes = (exchanges trace).map (HttpxToolExecutor.readOutcome maxBytes) := by
  obtain ⟨-, unsent, rfl, hunsent⟩ := h
  cases unsent with
  | nil => exact List.append_nil _
  | cons outcome _ =>
    exact absurd (hretried outcome (List.mem_append_right _ List.mem_cons_self))
      (hunsent outcome List.mem_cons_self).not_retried

theorem Answered.unsent (h : Answered maxBytes outcomes trace)
    (hretried : ∀ outcome ∈ outcomes, Retried request outcome) (houtcome : Unsent outcome) :
    Answered maxBytes (outcomes ++ [outcome]) trace :=
  ⟨h.1, [outcome], by rw [h.of_retried hretried], List.forall_mem_singleton.2 houtcome⟩

theorem Answered.sent (h : Answered maxBytes outcomes trace)
    (hretried : ∀ outcome ∈ outcomes, Retried request outcome) {prepared : HttpRequest}
    {exchange : HttpOutcome} (hexchange : Deliverable exchange) :
    Answered maxBytes (outcomes ++ [HttpxToolExecutor.readOutcome maxBytes exchange])
      (.asked (.httpRequest prepared) exchange :: trace) := by
  have hexchanges : exchanges (.asked (.httpRequest prepared) exchange :: trace) =
      exchanges trace ++ [exchange] := exchanges_append [_] trace
  refine ⟨?_, [], ?_, fun _ hmem => absurd hmem List.not_mem_nil⟩
  · rw [hexchanges]
    exact List.forall_mem_append.2 ⟨h.1, List.forall_mem_singleton.2 hexchange⟩
  · rw [hexchanges, h.of_retried hretried, List.map_append, List.append_nil]
    rfl

end Answered

section Responses

variable {maxBytes : Nat} {response : HttpResponse}

/-- A response that is an error is passed on with its status. -/
theorem readResponse_of_error (h : 400 ≤ response.statusCode) : ∃ category,
    HttpxToolExecutor.readResponse maxBytes response =
      HttpxToolExecutor.upstreamFailure category response.statusCode := by
  unfold HttpxToolExecutor.readResponse
  by_cases hclient : response.statusCode < 500
  · exact ⟨_, if_pos ⟨h, hclient⟩⟩
  · exact ⟨_, (if_neg (by omega)).trans (if_pos (by omega))⟩

theorem recordable_readContent (h : ∀ x, response.json = .error x → Foreign x) {x : Exc}
    (hx : HttpxToolExecutor.readContent response = .error x) : Recordable (.error x) := by
  unfold HttpxToolExecutor.readContent at hx
  split_ifs at hx
  split at hx
  · cases hx
    rintro _ ⟨⟩
  · obtain ⟨hcancelled, hforeign⟩ := h x hx
    rcases x with _ | failure | _ | _ | _ | _
    case executorFailure => exact absurd rfl (hforeign failure)
    all_goals exact hcancelled

/-- Any other final response can be recorded. -/
theorem recordable_readResponse (hfinal : 200 ≤ response.statusCode)
    (h : response.statusCode < 400) (hjson : ∀ x, response.json = .error x → Foreign x) :
    Recordable (HttpxToolExecutor.readResponse maxBytes response) := by
  unfold HttpxToolExecutor.readResponse
  have hstatus : ExecutionAttempt.RecordableStatus (some response.statusCode) := by
    rintro _ ⟨⟩
    omega
  rw [if_neg (by omega), if_neg (by omega)]
  split_ifs
  · rintro _ ⟨⟩
  · cases hcontent : HttpxToolExecutor.readContent response with
    | error x => exact recordable_readContent hjson hcontent
    | ok data => exact hstatus
  · exact hstatus

/-- What is read of an exchange can be recorded unless its status is too large. -/
theorem recordable_readOutcome {exchange : HttpOutcome} (h : Deliverable exchange) :
    Recordable (HttpxToolExecutor.readOutcome maxBytes exchange) ↔
      ∀ response, exchange = .response response → response.statusCode ≤ 599 := by
  cases exchange with
  | response response =>
    obtain ⟨hfinal, hjson⟩ := h
    rcases Nat.lt_or_ge response.statusCode 400 with hstatus | hstatus
    · refine iff_of_true (recordable_readResponse hfinal hstatus hjson) ?_
      rintro _ ⟨⟩
      omega
    · obtain ⟨category, hread⟩ : ∃ category, HttpxToolExecutor.readResponse maxBytes response =
          HttpxToolExecutor.upstreamFailure category _ := readResponse_of_error hstatus
      rw [HttpxToolExecutor.readOutcome, hread]
      constructor
      · rintro hrecordable _ ⟨⟩
        exact (hrecordable _ rfl).2
      · rintro hle _ ⟨⟩
        exact ⟨by omega, hle response rfl⟩
  | timeoutException => exact iff_of_true (by rintro _ ⟨⟩) nofun
  | networkError => exact iff_of_true (by rintro _ ⟨⟩) nofun
  | raised x =>
    refine iff_of_true ?_ nofun
    obtain ⟨hcancelled, hforeign⟩ := h
    rcases x with _ | failure | _ | _ | _ | _
    case executorFailure => exact absurd rfl (hforeign failure)
    all_goals exact hcancelled

theorem readOutcome_ne_cancelled {exchange : HttpOutcome} (h : Deliverable exchange) :
    HttpxToolExecutor.readOutcome maxBytes exchange ≠ .error .cancelled := by
  intro hcancelled
  have hlost : ¬ Recordable (HttpxToolExecutor.readOutcome maxBytes exchange) := by
    rw [hcancelled]
    exact fun h => h rfl
  rw [recordable_readOutcome h] at hlost
  push Not at hlost
  obtain ⟨response, rfl, hstatus⟩ := hlost
  obtain ⟨category, hread⟩ : ∃ category, HttpxToolExecutor.readResponse maxBytes response =
      HttpxToolExecutor.upstreamFailure category _ := readResponse_of_error (by omega)
  rw [HttpxToolExecutor.readOutcome, hread] at hcancelled
  cases hcancelled

theorem Unsent.ne_cancelled {outcome : Except Exc ExecutorResult} (h : Unsent outcome) :
    outcome ≠ .error .cancelled := by
  rintro rfl
  exact h.recordable rfl

/-- The outcomes of the executor are those of its exchanges. -/
theorem observes_exchange [PyStr] [Net.Unicode] {env : Env Gateway} (henv : Exchanging env)
    (maxResponseBytes : Nat) :
    Observes env (HttpxToolExecutor.exchange maxResponseBytes) (Answered maxResponseBytes) := by
  intro request credential
  refine ⟨?_, fun σ outcomes hretried hseen => ?_⟩
  · refine (within_lift _).bind fun method => ?_
    refine Within.bind (within_ask trivial fun _ => within_lift _).attempt fun checked => ?_
    refine (within_lift _).bind fun _ => (within_lift _).bind fun prepared => ?_
    exact within_ask trivial fun _ => within_lift _
  -- An error before the request has been sent adds no exchange.
  · have hunsent : ∀ {x} {σ' : Session Gateway}, Foreign x ∨ Refusal x →
        Answered maxResponseBytes outcomes σ'.trace →
        (Except.error x : Except Exc ExecutorResult) ≠ .error .cancelled ∧
          Answered maxResponseBytes (outcomes ++ [.error x]) σ'.trace :=
      fun hx hseen' => ⟨Unsent.ne_cancelled ⟨_, rfl, hx⟩, hseen'.unsent hretried ⟨_, rfl, hx⟩⟩
    unfold HttpxToolExecutor.exchange
    simp only [Prog.bind_eq]
    refine wp_lift_bind (fun x hx => ?_) fun method _ => ?_
    · exact hunsent (.inr (refusal_of_checkedMethod hx)) hseen
    refine wp_bind.2 (wp_attempt.2 (wp_ask.2 (wp_lift.2 ?_)))
    have haside : Answered maxResponseBytes outcomes
        (σ.asked (.validateEndpoint request.val.tool.upstreamEndpoint)
          (env.answer σ (.validateEndpoint request.val.tool.upstreamEndpoint))).trace :=
      (legible_answered _).asked (.validateEndpoint _) trivial hseen
    refine wp_lift_bind (fun x hx => ?_) fun _ _ => ?_
    · exact hunsent (refusal_of_recheckEndpoint (henv.checked σ _) hx) haside
    refine wp_lift_bind (fun x hx => ?_) fun prepared _ => ?_
    · exact hunsent (.inr (refusal_of_buildRequest hx)) haside
    refine wp_ask_bind (wp_lift.2 ?_)
    have hdelivered := henv.delivered (σ.asked (.validateEndpoint
      request.val.tool.upstreamEndpoint) (env.answer σ _)) prepared
    -- The request is sent, and its exchange is the next one that the outcomes are of.
    exact ⟨readOutcome_ne_cancelled hdelivered, haside.sent hretried hdelivered⟩

end Responses

/-! ## Coherent attempts -/

/-- The attempts have ended, the last one as the execution, and each response that is an error
    has failed its attempt with its status. -/
structure CoherentAttempts (e : ToolExecution) (attempts : List ExecutionAttempt)
    (delivered : List HttpOutcome) : Prop where
  ended : ∀ a ∈ attempts, a.val.status ≠ .running
  last : (∃ a, attempts.getLast? = some a ∧ a.val.status = .succeeded) ↔
    e.val.status = .succeeded
  refused : ∀ (i : Nat) response, delivered[i]? = some (.response response) →
    400 ≤ response.statusCode → ∃ a, attempts[i]? = some a ∧ a.val.status = .failed ∧
      a.val.upstreamStatus = some response.statusCode

theorem ExecutionLifecycle.AttemptOutcome.status_ne_running (attemptOutcome : AttemptOutcome) :
    attemptOutcome.status ≠ .running := by
  cases attemptOutcome with
  | succeeded => simp [AttemptOutcome.status]
  | failed code category outcomeUnknown => cases outcomeUnknown <;> simp [AttemptOutcome.status]
  | cancelled => simp [AttemptOutcome.status]

theorem attemptOutcome_error_ne_succeeded (x : Exc) :
    (ExecuteWithRetry.attemptOutcome (.error x)).status ≠ .succeeded := by
  rcases x with _ | failure | _ | _ | _ | _
  case executorFailure =>
    rw [ExecuteWithRetry.attemptOutcome, AttemptOutcome.status]
    split <;> simp
  all_goals simp [ExecuteWithRetry.attemptOutcome, AttemptOutcome.status]

section Coherent

variable {maxBytes : Nat} {request : ExecutorRequest} {outcomes : List (Except Exc ExecutorResult)}
  {attempts : List ExecutionAttempt} {trace : List (Event Gateway)} {e : ToolExecution}
  {retry : ExecuteWithRetry} {r : Except Exc ExecutorResult}

/-- Outcomes that can all be recorded are. -/
theorem recordable_of_statuses (h : Answered maxBytes outcomes trace)
    (hstatuses : ∀ response, .response response ∈ exchanges trace → response.statusCode ≤ 599) :
    ∀ outcome ∈ outcomes, Recordable outcome := by
  obtain ⟨hdeliverable, unsent, rfl, hunsent⟩ := h
  intro outcome hmem
  obtain hmem | hmem := List.mem_append.1 hmem
  · obtain ⟨exchange, hexchange, rfl⟩ := List.mem_map.1 hmem
    refine (recordable_readOutcome (hdeliverable exchange hexchange)).2 ?_
    rintro response rfl
    exact hstatuses response hexchange
  · exact (hunsent outcome hmem).recordable

/-- The outcome of an exchange is at its place. -/
theorem Answered.getElem? (h : Answered maxBytes outcomes trace) {i : Nat}
    {exchange : HttpOutcome} (hi : (exchanges trace)[i]? = some exchange) :
    outcomes[i]? = some (HttpxToolExecutor.readOutcome maxBytes exchange) := by
  obtain ⟨-, unsent, rfl, -⟩ := h
  have hlt := (List.getElem?_eq_some_iff.1 hi).1
  rw [List.getElem?_append_left (by rwa [List.length_map]), List.getElem?_map, hi]
  rfl

/-- A response whose status is too large leaves its attempt running. -/
theorem statuses_of_ended (hanswered : Answered maxBytes outcomes trace)
    (htells : List.Forall₂ Tells outcomes attempts)
    (hended : ∀ a ∈ attempts, a.val.status ≠ .running) {response : HttpResponse}
    (hresponse : .response response ∈ exchanges trace) : response.statusCode ≤ 599 := by
  obtain ⟨i, hi⟩ := List.getElem?_of_mem hresponse
  obtain ⟨a, ha, htell⟩ := exists_attempt_at htells (hanswered.getElem? hi)
  cases htell with
  | recorded hrecordable _ =>
    exact (recordable_readOutcome (hanswered.1 _ hresponse)).1 hrecordable response rfl
  | lost _ hrunning => exact absurd hrunning (hended a (List.mem_of_getElem? ha))

/-- The last attempt succeeds with the execution. -/
theorem last_succeeded_iff (hall : ∀ outcome ∈ outcomes, Recordable outcome)
    (htells : List.Forall₂ Tells outcomes attempts) (hreported : Reported retry request outcomes r)
    (hstatus : e.val.status = (conclusion r).status) :
    (∃ a, attempts.getLast? = some a ∧ a.val.status = .succeeded) ↔
      e.val.status = .succeeded := by
  cases hreported with
  | @lost earlier last message hearlier hlast =>
    exact absurd (hall last (List.mem_append_right _ List.mem_cons_self)) hlast
  | @left earlier last _ hearlier hlast hleaves =>
    have hlength : attempts.length = earlier.length + 1 := by
      rw [← htells.length_eq, List.length_append, List.length_singleton]
    obtain ⟨a, ha, htell⟩ := exists_attempt_at htells (i := earlier.length)
      (List.getElem?_concat_length ..)
    have hlastAttempt : attempts.getLast? = some a := by
      rw [List.getLast?_eq_getElem?, hlength, Nat.add_sub_cancel, ha]
    rw [hlastAttempt, hstatus]
    simp only [Option.some.injEq, exists_eq_left']
    rw [htell.status_of_recordable hlast]
    rcases last with x | result
    · obtain ⟨y, rfl⟩ := hleaves.error
      exact iff_of_false (attemptOutcome_error_ne_succeeded x) (conclusion_error_ne_succeeded y)
    · cases hleaves with
      | passed _ => exact iff_of_true rfl rfl
      | overflowed hends _ _ => exact absurd trivial hends

/-- A response that is an error fails its attempt. -/
theorem refused_of_recordable (hanswered : Answered maxBytes outcomes trace)
    (hall : ∀ outcome ∈ outcomes, Recordable outcome)
    (htells : List.Forall₂ Tells outcomes attempts) {i : Nat} {response : HttpResponse}
    (hi : (exchanges trace)[i]? = some (.response response))
    (hresponse : 400 ≤ response.statusCode) :
    ∃ a, attempts[i]? = some a ∧ a.val.status = .failed ∧
      a.val.upstreamStatus = some response.statusCode := by
  have houtcome := hanswered.getElem? hi
  obtain ⟨a, ha, htell⟩ := exists_attempt_at htells houtcome
  obtain ⟨category, hread⟩ : ∃ category, HttpxToolExecutor.readResponse maxBytes response =
      HttpxToolExecutor.upstreamFailure category _ := readResponse_of_error hresponse
  cases htell with
  | lost hlost _ => exact absurd (hall _ (List.mem_of_getElem? houtcome)) hlost
  | recorded _ hfinish =>
    rw [HttpxToolExecutor.readOutcome, hread] at hfinish
    obtain ⟨-, hval⟩ := ExecutionAttempt.fail_eq_ok.1 hfinish
    refine ⟨a, ha, ?_, ?_⟩
    · rw [hval]
      rfl
    · rw [hval]

theorem coherentAttempts_iff (hanswered : Answered maxBytes outcomes trace)
    (htells : List.Forall₂ Tells outcomes attempts) (hreported : Reported retry request outcomes r)
    (hstatus : e.val.status = (conclusion r).status) :
    CoherentAttempts e attempts (exchanges trace) ↔
      ∀ response, .response response ∈ exchanges trace → response.statusCode ≤ 599 := by
  refine ⟨fun h response => statuses_of_ended hanswered htells h.ended, fun hstatuses => ?_⟩
  have hall := recordable_of_statuses hanswered hstatuses
  refine ⟨fun a ha => ?_, last_succeeded_iff hall htells hreported hstatus,
    fun i response => refused_of_recordable hanswered hall htells⟩
  obtain ⟨outcome, houtcome, htell⟩ := exists_outcome htells ha
  rw [htell.status_of_recordable (hall outcome houtcome)]
  exact AttemptOutcome.status_ne_running _

end Coherent

/-- The attempts of every call that reaches the executor are coherent exactly when no response has
    a status above 599. -/
theorem attempts_coherent_iff [Sha256] [PyStr] [Net.Unicode] {Pid : Type}
    {commands : Pid → LedgerCommand} {w : World Gateway Pid (fun p => (commands p).Result)}
    (hw : Reachable commands w) (maxResponseBytes : Nat) (retry : ExecuteWithRetry)
    (hinner : retry.executor = HttpxToolExecutor.exchange maxResponseBytes) (service : CallTool)
    (hservice : service.executor = retry.execute) (command : CallToolCommand) (env : Env Gateway)
    (henv : Unhindered env) (hexchanging : Exchanging env) (e : ToolExecution)
    (he : e ∈ (run env (service.execute command) (.start w.store)).2.committed.executions)
    (hnew : e.val.id ∉ w.store.executionIds) :
    CoherentAttempts e
        ((run env (service.execute command) (.start w.store)).2.committed.attemptsOf e.val.id)
        (exchanges (run env (service.execute command) (.start w.store)).2.trace) ↔
      ∀ response, .response response ∈
        exchanges (run env (service.execute command) (.start w.store)).2.trace →
        response.statusCode ≤ 599 := by
  have htold : wp env (service.execute command) _ (.start w.store) :=
    wp_execute_told hw.inv henv (legible_answered maxResponseBytes) hservice
      (hinner ▸ observes_exchange hexchanging maxResponseBytes)
  cases htold e he hnew with
  -- No call was made, so there is no attempt and no exchange.
  | uncalled hseen hattempts hstatus =>
    obtain ⟨-, unsent, hnil, -⟩ := hseen
    obtain ⟨hnil, -⟩ := List.append_eq_nil_iff.1 hnil.symm
    rw [List.map_eq_nil_iff.1 hnil, hattempts]
    refine iff_of_true ⟨fun _ ha => absurd ha List.not_mem_nil, ?_, nofun⟩ fun _ hmem =>
      absurd hmem List.not_mem_nil
    exact iff_of_false (fun ⟨_, hlast, _⟩ => by cases hlast) hstatus
  | called _ hseen hattempts hreported hstatus =>
    exact coherentAttempts_iff hseen hattempts hreported hstatus

section Updates

attribute [local instance] scalarPyStr asciiUnicode raceSha256

/-- The surroundings of an update whose upstream answers with this response. -/
def updateEnv (response : HttpResponse) : Env Gateway where
  answer σ
    | .resolveTool _ _ => .ok (some { orderWrite.val.tool with tenantId := "tenant" })
    | .httpRequest _ => .response response
    | q => (openEnv raceOutcomes).answer σ q
  fault _ _ _ := none

def updateRetry : ExecuteWithRetry :=
  { raceRetry with executor := HttpxToolExecutor.exchange 1048576 }

def updateCall : CallTool := { retryingCall with executor := updateRetry.execute }

/-- A response without a body of this status. -/
def emptyResponse (statusCode : Nat) : HttpResponse where
  statusCode := statusCode
  contentLength := 0
  contentType := none
  text := ""
  json := .ok .null

theorem unhindered_updateEnv (response : HttpResponse) : Unhindered (updateEnv response) where
  faultless _ _ _ := rfl
  ids := ⟨(freshIds_openEnv raceOutcomes).attempts, (freshIds_openEnv raceOutcomes).audits⟩
  slept _ _ := rfl

theorem exchanging_updateEnv {statusCode : Nat} (h : 200 ≤ statusCode) :
    Exchanging (updateEnv (emptyResponse statusCode)) where
  checked _ _ _ hx := by cases hx
  delivered _ _ := ⟨h, nofun⟩

set_option maxRecDepth 100000 in
/-- The attempts of an update that succeeds are coherent. -/
theorem attempts_coherent_update :
    ∃ e ∈ (run (updateEnv (emptyResponse 204)) (updateCall.execute aliceCall)
        (.start .empty)).2.committed.executions,
      (CoherentAttempts e ((run (updateEnv (emptyResponse 204)) (updateCall.execute aliceCall)
          (.start .empty)).2.committed.attemptsOf e.val.id)
          (exchanges (run (updateEnv (emptyResponse 204)) (updateCall.execute aliceCall)
            (.start .empty)).2.trace) ↔
        ∀ response, .response response ∈ exchanges (run (updateEnv (emptyResponse 204))
          (updateCall.execute aliceCall) (.start .empty)).2.trace →
          response.statusCode ≤ 599) := by
  have hadded : (run (updateEnv (emptyResponse 204)) (updateCall.execute aliceCall)
      (.start .empty)).2.committed.executions.rows ≠ [] := by decide +kernel
  obtain ⟨e, he⟩ := List.exists_mem_of_ne_nil _ hadded
  exact ⟨e, he, attempts_coherent_iff reachable_empty 1048576 updateRetry rfl updateCall rfl
    aliceCall (updateEnv (emptyResponse 204)) (unhindered_updateEnv _)
    (exchanging_updateEnv (by decide)) e he List.not_mem_nil⟩

set_option maxRecDepth 100000 in
/-- A response of status 600 leaves its attempt running. -/
theorem status_600_leaves_attempt_running :
    ¬ ∀ (retry : ExecuteWithRetry) (service : CallTool) (command : CallToolCommand)
      (env : Env Gateway), retry.executor = HttpxToolExecutor.exchange 1048576 →
      service.executor = retry.execute → Unhindered env → Exchanging env →
      (∀ σ request response, env.answer σ (.httpRequest request) = .response response →
        response.statusCode ≤ 999) →
      ∀ e ∈ (run env (service.execute command) (.start .empty)).2.committed.executions,
        CoherentAttempts e
          ((run env (service.execute command) (.start .empty)).2.committed.attemptsOf e.val.id)
          (exchanges (run env (service.execute command) (.start .empty)).2.trace) := by
  intro h
  have hstatus : ∀ σ request response, (updateEnv (emptyResponse 600)).answer σ
      (.httpRequest request) = .response response → response.statusCode ≤ 999 := by
    rintro _ _ _ ⟨⟩
    decide
  have hcoherent := h updateRetry updateCall aliceCall (updateEnv (emptyResponse 600)) rfl rfl
    (unhindered_updateEnv _) (exchanging_updateEnv (by decide)) hstatus
  have hrunning : ((run (updateEnv (emptyResponse 600)) (updateCall.execute aliceCall)
      (.start .empty)).2.committed.executions.rows.any fun e =>
        ((run (updateEnv (emptyResponse 600)) (updateCall.execute aliceCall)
          (.start .empty)).2.committed.attemptsOf e.val.id).any
            fun a => a.val.status = .running) = true := by decide +kernel
  obtain ⟨e, he, hattempts⟩ := List.any_eq_true.1 hrunning
  obtain ⟨a, ha, hattempt⟩ := List.any_eq_true.1 hattempts
  exact (hcoherent e he).ended a ha (of_decide_eq_true hattempt)

end Updates

end NexusMcp

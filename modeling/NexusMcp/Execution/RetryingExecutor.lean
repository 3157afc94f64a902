-- SUMMARY: The executor that records an attempt for each upstream call and retries a bounded number of times.
import NexusMcp.Execution.Lifecycle

/-! # Bounded Retries -/

namespace NexusMcp

open Txn ExecutionLifecycle

/-- `ToolExecutor.execute`. -/
abbrev ToolExecutor := ExecutorRequest → Option ResolvedCredential → Program ExecutorResult

/-- An executor outside the gateway. -/
def askExecutor : ToolExecutor := executeTool

structure ExecuteWithRetry where
  executor : ToolExecutor
  maxAttempts : Nat := 3
  -- the value of `0.05`
  initialBackoffSeconds : Binary.Value := .finite (3602879701896397 / 2 ^ 56)
  maxAttempts_pos : 0 < maxAttempts
  backoff_nonneg : initialBackoffSeconds.isNegative = false

namespace ExecuteWithRetry

/-- What the multiplication raises when its second factor is too large for a `float`. -/
def overflowError : Exc := .other "int too large to convert to float"

/-- The backoff after attempt `attemptNumber`: a `float` times an `int`, which is made a `float`
    first. -/
def backoff (self : ExecuteWithRetry) (attemptNumber : Nat) : Except Exc Binary.Value :=
  match Binary.ofNat 53 1024 (2 ^ (attemptNumber - 1)) with
  | some factor => .ok (self.initialBackoffSeconds.scale 1024 factor)
  | none => .error overflowError

/-- The first attempt whose backoff raises. -/
def overflowingAttempt : Nat := 1025

/-- The backoff after attempt `attemptNumber`, where it does not raise. -/
def backoffSeconds (self : ExecuteWithRetry) (attemptNumber : Nat) : Binary.Value :=
  self.initialBackoffSeconds.scale 1024 (2 ^ (attemptNumber - 1))

theorem backoff_of_lt {self : ExecuteWithRetry} {attemptNumber : Nat}
    (h : attemptNumber < overflowingAttempt) :
    self.backoff attemptNumber = .ok (self.backoffSeconds attemptNumber) := by
  unfold overflowingAttempt at h
  have hexponent : attemptNumber - 1 < 1024 := by omega
  rw [backoff, Binary.ofNat_two_pow (by decide), if_pos hexponent]
  rfl

theorem backoff_of_le {self : ExecuteWithRetry} {attemptNumber : Nat}
    (h : overflowingAttempt ≤ attemptNumber) :
    self.backoff attemptNumber = .error overflowError := by
  unfold overflowingAttempt at h
  have hexponent : ¬ attemptNumber - 1 < 1024 := by omega
  rw [backoff, Binary.ofNat_two_pow (by decide), if_neg hexponent]

/-- The retry decision for a failure of `request`. -/
def disposition (request : ExecutorRequest) (error : ExecutorFailure) : RetryDisposition :=
  retryDisposition request.val.tool.sideEffect error.category request.val.idempotencyKey.isSome

/-- Attempt `attemptNumber` is followed by another one after `error`. -/
def Retries (self : ExecuteWithRetry) (request : ExecutorRequest) (attemptNumber : Nat)
    (error : ExecutorFailure) : Prop :=
  disposition request error = .retry ∧ attemptNumber < self.maxAttempts

instance (self : ExecuteWithRetry) (request : ExecutorRequest) (attemptNumber : Nat)
    (error : ExecutorFailure) : Decidable (self.Retries request attemptNumber error) :=
  inferInstanceAs (Decidable (_ ∧ _))

/-- The failure that leaves the loop: a read has no outcome that could be unknown. -/
def escaping (request : ExecutorRequest) (error : ExecutorFailure) : ExecutorFailure :=
  if request.val.tool.sideEffect = .readOnly ∧ error.outcomeUnknown ∧
      disposition request error ≠ .requireReconciliation then
    { error with outcomeUnknown := false }
  else error

/-- The record of the outcome of the call. -/
def record (tenantId attemptId : Id) : Except Exc ExecutorResult → Program ExecutionAttempt
  | .ok result => succeedAttempt tenantId attemptId result.upstreamStatus
  | .error .cancelled => cancelAttempt tenantId attemptId
  | .error (.executorFailure error) =>
    failAttempt tenantId attemptId error.code error.category error.outcomeUnknown
      error.upstreamStatus
  | .error _ => failAttempt tenantId attemptId "unexpected_executor_failure" .unknown true

/-- How the attempt ends for the outcome of the call. -/
def attemptOutcome : Except Exc ExecutorResult → AttemptOutcome
  | .ok result => .succeeded result.upstreamStatus
  | .error .cancelled => .cancelled
  | .error (.executorFailure error) =>
    .failed error.code error.category error.outcomeUnknown error.upstreamStatus
  | .error _ => .failed "unexpected_executor_failure" .unknown true none

theorem record_eq (tenantId attemptId : Id) (outcome : Except Exc ExecutorResult) :
    record tenantId attemptId outcome =
      finishAttempt tenantId attemptId (attemptOutcome outcome) := by
  rcases outcome with (_ | _ | _ | _ | _ | _) | _ <;> rfl

/-- What follows the outcome of attempt `attemptNumber`, once it is recorded: `none` to go
    on with another attempt. -/
def proceed (self : ExecuteWithRetry) (request : ExecutorRequest) (attemptNumber : Nat) :
    Except Exc ExecutorResult → Program (Option ExecutorResult)
  | .ok result => return some result
  | .error (.executorFailure error) =>
    if self.Retries request attemptNumber error then do
      let seconds ← Prog.lift (self.backoff attemptNumber)
      sleep seconds
      return none
    else throw (.executorFailure (escaping request error))
  | .error e => throw e

/-- The `for` loop, with `remaining` attempts left and `attemptNumber` the next one. -/
def loop (self : ExecuteWithRetry) (request : ExecutorRequest)
    (credential : Option ResolvedCredential) : Nat → Nat → Program ExecutorResult
  | 0, _ => throw (.other "retry loop exhausted without a terminal result")
  | remaining + 1, attemptNumber => do
    let tenantId := request.val.tool.tenantId
    let attempt ← startAttempt tenantId request.val.executionId
    let outcome ← (self.executor request credential).attempt
    let _ ← record tenantId attempt.val.id outcome
    match ← self.proceed request attemptNumber outcome with
    | some result => return result
    | none => self.loop request credential remaining (attemptNumber + 1)

def execute (self : ExecuteWithRetry) : ToolExecutor := fun request credential =>
  self.loop request credential self.maxAttempts 1

end ExecuteWithRetry

end NexusMcp

-- SUMMARY: When the state machine of the reindex jobs holds, over every interleaving of the commands.
import NexusMcp.ToolSearch.Jobs

/-!
# Runs of Reindex Jobs

`claim` tests the status of a job, and the transaction that ends the job does not: it relies
on the claim that its process made before. A recovery in between has ended the job already.
-/

namespace NexusMcp

open Txn Txn.Serial Txn.SerialWorld
open ToolSearchReindexJobStore

/-! ## Transactions -/

/-- The transaction writes the row of one job. -/
def Puts (s s' : ReindexJobs) (job : ToolSearchReindexJob) : Prop :=
  ∀ id, s'.jobs.find? id = if id = job.id then some job else s.jobs.find? id

/-- A pending job is claimed. -/
def ClaimsJob (tenantId jobId : Id) (s s' : ReindexJobs) : Prop :=
  ∃ job startedAt, s.jobs.find? jobId = some job ∧ job.tenantId = tenantId ∧
    job.status = .pending ∧ Puts s s' { job with status := .running, startedAt := some startedAt }

/-- What `succeed` and `fail` make of a job. -/
structure Ended (job job' : ToolSearchReindexJob) : Prop where
  id : job'.id = job.id
  status : job'.status = .succeeded ∨
    (job'.status = .failed ∧ job'.errorCode ≠ some "reindex_job_interrupted")

/-- A job is ended, whatever its status is. -/
def EndsJob (tenantId jobId : Id) (s s' : ReindexJobs) : Prop :=
  ∃ job job', s.jobs.find? jobId = some job ∧ job.tenantId = tenantId ∧ Ended job job' ∧
    Puts s s' job'

/-- The tenant has no such job. -/
def NoJob (tenantId jobId : Id) (s : ReindexJobs) : Prop :=
  ∀ job, s.jobs.find? jobId = some job → job.tenantId ≠ tenantId

/-- What a transaction of the command does, by the transactions before it. -/
def ReindexJobCommand.Does : ReindexJobCommand → List (ReindexJobs × ReindexJobs) →
    ReindexJobs → ReindexJobs → Prop
  | create _ _ _ _ => fun _ s s' =>
    ∃ job, job.status = .pending ∧ s.jobs.find? job.id = none ∧ Puts s s' job
  | run _ tenantId jobId => fun seen s s' =>
    (seen = [] ∧ (ClaimsJob tenantId jobId s s' ∨ s' = s)) ∨
      ∃ s₀ s₀', seen = [(s₀, s₀')] ∧ ClaimsJob tenantId jobId s₀ s₀' ∧
        (EndsJob tenantId jobId s s' ∨ (NoJob tenantId jobId s ∧ s' = s))
  | recoverInterrupted tenantId finishedAt => fun _ s s' =>
    ∀ id, s'.jobs.find? id = (s.jobs.find? id).map (interrupt tenantId finishedAt)

theorem flush_eq_ok {jobs : ReindexJobTable} {s : ReindexJobs} :
    ReindexJobs.flush jobs = .ok s ↔ s.jobs = jobs := by
  unfold ReindexJobs.flush
  constructor
  · intro h
    split at h
    · cases h
      rfl
    · cases h
  · rintro rfl
    simp [s.oneActive]

theorem puts_of_saveModel {s s' : ReindexJobs} {job model : ToolSearchReindexJob}
    (hjob : s.jobs.find? model.id = some job) (h : saveModel s model = .ok s') :
    Puts s s' model := by
  intro id
  rw [flush_eq_ok.1 h]
  split
  · next hid =>
    subst hid
    exact Table.find?_modify_self hjob rfl
  · next hid => exact Table.find?_modify_ne hid

theorem lockedModel_eq_some {s : ReindexJobs} {tenantId jobId : Id} {job : ToolSearchReindexJob} :
    lockedModel s tenantId jobId = some job ↔
      s.jobs.find? jobId = some job ∧ job.tenantId = tenantId := by
  simp [lockedModel, inTenant, Option.filter_eq_some_iff]

theorem lockedModel_eq_none {s : ReindexJobs} {tenantId jobId : Id} :
    lockedModel s tenantId jobId = none ↔ NoJob tenantId jobId s := by
  simp [lockedModel, inTenant, NoJob, Option.filter_eq_none_iff]

theorem create_eq_ok {job : ToolSearchReindexJob} {s s' : ReindexJobs} {u : Unit}
    (h : create job s = .ok (u, s')) : s.jobs.find? job.id = none ∧ Puts s s' job := by
  unfold create at h
  obtain ⟨-, h⟩ := raiseIf_bind_eq_ok.1 h
  split at h
  · next hfree =>
    cases h
    refine ⟨hfree.1, ?_⟩
    intro id
    split
    · next hid =>
      subst hid
      exact Table.find?_insert_self hfree.1
    · next hid => exact Table.find?_insert_ne (Ne.symm hid)
  · cases h

theorem claim_eq_ok {tenantId jobId : Id} {startedAt : Time} {s s' : ReindexJobs}
    {answer : Option ToolSearchReindexJob}
    (h : claim tenantId jobId startedAt s = .ok (answer, s')) :
    (answer = none ∧ s' = s) ∨ (∃ job, answer = some job) ∧ ClaimsJob tenantId jobId s s' := by
  unfold claim at h
  cases hmodel : lockedModel s tenantId jobId with
  | none =>
    rw [hmodel] at h
    cases h
    exact .inl ⟨rfl, rfl⟩
  | some model =>
    simp only [hmodel] at h
    obtain ⟨hfind, htenant⟩ := lockedModel_eq_some.1 hmodel
    have hid : model.id = jobId := Table.key_of_find? hfind
    split at h
    · cases h
      exact .inl ⟨rfl, rfl⟩
    · next hpending =>
      obtain ⟨saved, hsave, h⟩ := bind_eq_ok.1 h
      cases h
      refine .inr ⟨⟨_, rfl⟩, model, startedAt, hfind, htenant, not_not.1 hpending, ?_⟩
      have hmodel : s.jobs.find? model.id = some model := hid ▸ hfind
      exact puts_of_saveModel hmodel hsave

/-- A locked model that is saved with an end. -/
theorem endsJob_of_save {tenantId jobId : Id} {s s' : ReindexJobs} {u : Unit}
    {f : ToolSearchReindexJob → ToolSearchReindexJob} (hf : ∀ job, Ended job (f job))
    (h : (match lockedModel s tenantId jobId with
      | none => return ((), s)
      | some model => do return ((), ← saveModel s (f model)) : Except Exc (Unit × ReindexJobs)) =
        .ok (u, s')) :
    EndsJob tenantId jobId s s' ∨ (NoJob tenantId jobId s ∧ s' = s) := by
  cases hmodel : lockedModel s tenantId jobId with
  | none =>
    rw [hmodel] at h
    cases h
    exact .inr ⟨lockedModel_eq_none.1 hmodel, rfl⟩
  | some model =>
    simp only [hmodel] at h
    obtain ⟨hfind, htenant⟩ := lockedModel_eq_some.1 hmodel
    obtain ⟨saved, hsave, h⟩ := bind_eq_ok.1 h
    cases h
    refine .inl ⟨model, f model, hfind, htenant, hf model, ?_⟩
    have hid : (f model).id = jobId := (hf model).id.trans (Table.key_of_find? hfind)
    have hcurrent : s.jobs.find? (f model).id = some model := hid ▸ hfind
    exact puts_of_saveModel hcurrent hsave

/-- No error of the application has the code of an interruption. -/
theorem code_ne_interrupted (cls : ErrorClass) : cls.code ≠ "reindex_job_interrupted" := by
  cases cls <;> simp only [ErrorClass.code] <;> decide

/-- The transaction that ends a job, for any outcome of the reindexing. -/
theorem finish_follows {R : List (ReindexJobs × ReindexJobs) → ReindexJobs → ReindexJobs → Prop}
    {seen : List (ReindexJobs × ReindexJobs)} {self : RunToolSearchReindexJob}
    {tenantId jobId : Id} (outcome : Except Exc ReindexToolsResult)
    (h : ∀ s s', EndsJob tenantId jobId s s' ∨ (NoJob tenantId jobId s ∧ s' = s) → R seen s s') :
    (self.finish tenantId jobId outcome).Follows R seen := by
  -- That code is left to the recovery; no error of a run has it.
  have hfail : ∀ errorCode, errorCode ≠ "reindex_job_interrupted" →
      (atomically (fail tenantId jobId errorCode self.finishedAt)).Follows R seen := by
    intro errorCode hcode
    apply follows_atomically.2
    intro s u s' hbody
    refine h s s' (endsJob_of_save (f := fun job => { job with
      status := .failed
      errorCode := some errorCode
      finishedAt := some self.finishedAt }) ?_ hbody)
    exact fun job => ⟨rfl, .inr ⟨rfl, fun heq => hcode (Option.some.inj heq)⟩⟩
  cases outcome with
  | ok result =>
    apply follows_atomically.2
    intro s u s' hbody
    refine h s s' (endsJob_of_save (f := fun job => { job with
      status := .succeeded
      publishedCount := result.publishedCount
      currentCount := result.currentCount
      pendingCount := result.pendingCount
      embeddedCount := result.embeddedCount
      batchCount := result.batchCount
      errorCode := none
      finishedAt := some self.finishedAt }) ?_ hbody)
    exact fun job => ⟨rfl, .inl rfl⟩
  | error e =>
    cases e with
    | nexus cls message => exact hfail _ (code_ne_interrupted cls)
    | cancelled => exact follows_done
    | executorFailure | valueError | integrityError | other => exact hfail _ (by decide)

/-- The commands do nothing else. -/
theorem ReindexJobCommand.follows (command : ReindexJobCommand) :
    command.program.Follows command.Does [] := by
  cases command with
  | create self context force batchSize =>
    refine follows_lift_bind.2 fun _ _ => follows_lift_bind.2 fun _ _ => ?_
    refine follows_atomically_bind.2 fun s u s' hbody => ⟨?_, follows_pure⟩
    obtain ⟨hfree, hputs⟩ := create_eq_ok hbody
    exact ⟨_, rfl, hfree, hputs⟩
  | run self tenantId jobId =>
    refine follows_atomically_bind.2 fun s answer s' hbody => ?_
    rcases claim_eq_ok hbody with ⟨rfl, rfl⟩ | ⟨⟨job, rfl⟩, hclaims⟩
    · exact ⟨.inl ⟨rfl, .inr rfl⟩, follows_pure⟩
    · refine ⟨.inl ⟨rfl, .inl hclaims⟩, ?_⟩
      exact finish_follows _ fun s₁ s₁' hends => .inr ⟨s, s', rfl, hclaims, hends⟩
  | recoverInterrupted tenantId finishedAt =>
    apply follows_atomically.2
    intro s n s' hbody id
    obtain ⟨recovered, hflush, h⟩ := bind_eq_ok.1 hbody
    cases h
    rw [flush_eq_ok.1 hflush]
    exact Table.find?_map

/-! ## Rows -/

/-- The job was declared interrupted. -/
def ToolSearchReindexJob.Interrupted (job : ToolSearchReindexJob) : Prop :=
  job.status = .failed ∧ job.errorCode = some "reindex_job_interrupted"

/-- What a transaction of a command can do to the row of the job `id`. -/
inductive JobChange (command : ReindexJobCommand) (seen : List (ReindexJobs × ReindexJobs))
    (id : Id) : Option ToolSearchReindexJob → Option ToolSearchReindexJob → Prop where
  | same (row : Option ToolSearchReindexJob) : JobChange command seen id row row
  | created {job : ToolSearchReindexJob} (hpending : job.status = .pending) :
      JobChange command seen id none (some job)
  | claimed {job : ToolSearchReindexJob} {self : RunToolSearchReindexJob} {startedAt : Time}
      (hcommand : command = .run self job.tenantId id) (hseen : seen = [])
      (hpending : job.status = .pending) :
      JobChange command seen id (some job)
        (some { job with status := .running, startedAt := some startedAt })
  | ended {job job' : ToolSearchReindexJob} {self : RunToolSearchReindexJob}
      {s₀ s₀' : ReindexJobs} (hcommand : command = .run self job.tenantId id)
      (hseen : seen = [(s₀, s₀')]) (hclaims : ClaimsJob job.tenantId id s₀ s₀')
      (hended : Ended job job') : JobChange command seen id (some job) (some job')
  | interrupted {job : ToolSearchReindexJob} {finishedAt : Time}
      (hcommand : command = .recoverInterrupted job.tenantId finishedAt) (hactive : job.IsActive) :
      JobChange command seen id (some job) (some (interrupt job.tenantId finishedAt job))

/-- Writing one row leaves the others. -/
theorem JobChange.of_puts {command : ReindexJobCommand} {seen : List (ReindexJobs × ReindexJobs)}
    {s s' : ReindexJobs} {job : ToolSearchReindexJob} (hputs : Puts s s' job) {id : Id}
    (h : id = job.id → JobChange command seen id (s.jobs.find? id) (some job)) :
    JobChange command seen id (s.jobs.find? id) (s'.jobs.find? id) := by
  rw [hputs id]
  split
  · next hid => exact h hid
  · exact .same _

theorem ReindexJobCommand.Does.change {command : ReindexJobCommand}
    {seen : List (ReindexJobs × ReindexJobs)} {s s' : ReindexJobs}
    (h : command.Does seen s s') (id : Id) :
    JobChange command seen id (s.jobs.find? id) (s'.jobs.find? id) := by
  cases command with
  | create self context force batchSize =>
    obtain ⟨job, hpending, hfree, hputs⟩ := h
    refine .of_puts hputs fun hid => ?_
    rw [hid, hfree]
    exact .created hpending
  | run self tenantId jobId =>
    rcases h with ⟨hseen, ⟨job, startedAt, hfind, rfl, hpending, hputs⟩ | rfl⟩ |
      ⟨s₀, s₀', hseen, hclaims, ⟨job, job', hfind, rfl, hended, hputs⟩ | ⟨-, rfl⟩⟩
    · refine .of_puts hputs fun hid => ?_
      have hkey : job.id = jobId := Table.key_of_find? hfind
      obtain rfl : id = jobId := hid.trans hkey
      rw [hfind]
      exact .claimed rfl hseen hpending
    · exact .same _
    · refine .of_puts hputs fun hid => ?_
      obtain rfl : id = jobId := (hid.trans hended.id).trans (Table.key_of_find? hfind)
      rw [hfind]
      exact .ended rfl hseen hclaims hended
    · exact .same _
  | recoverInterrupted tenantId finishedAt =>
    rw [h id]
    cases hrow : s.jobs.find? id with
    | none => exact .same _
    | some job =>
      by_cases hactive : job.tenantId = tenantId ∧ job.IsActive
      · obtain ⟨rfl, hactive⟩ := hactive
        exact .interrupted rfl hactive
      · rw [Option.map_some, interrupt, if_neg hactive]
        exact .same _

theorem interrupted_interrupt {job : ToolSearchReindexJob} {finishedAt : Time}
    (h : job.IsActive) : (interrupt job.tenantId finishedAt job).Interrupted := by
  rw [interrupt, if_pos ⟨rfl, h⟩]
  exact ⟨rfl, rfl⟩

theorem Ended.not_interrupted {job job' : ToolSearchReindexJob} (h : Ended job job') :
    ¬ job'.Interrupted := by
  rintro ⟨hfailed, hcode⟩
  rcases h.status with hsucceeded | ⟨-, hother⟩
  · rw [hfailed] at hsucceeded
    cases hsucceeded
  · exact hother hcode

/-! ## Claims -/

section Runs

variable {Pid : Type}

def ReindexJobs.status? (s : ReindexJobs) (jobId : Id) : Option ToolSearchReindexJobStatus :=
  (s.jobs.find? jobId).map (·.status)

/-- The commit makes the job RUNNING. -/
def Claimed (jobId : Id) (c : Commit ReindexJobs Pid) : Prop :=
  c.before.status? jobId ≠ some .running ∧ c.after.status? jobId = some .running

instance (jobId : Id) (c : Commit ReindexJobs Pid) : Decidable (Claimed jobId c) :=
  inferInstanceAs (Decidable (_ ∧ _))

theorem claimed_of_claimsJob {tenantId jobId : Id} {c : Commit ReindexJobs Pid}
    (h : ClaimsJob tenantId jobId c.before c.after) : Claimed jobId c := by
  obtain ⟨job, startedAt, hfind, -, hpending, hputs⟩ := h
  have hid : jobId = job.id := (Table.key_of_find? hfind).symm
  refine ⟨?_, ?_⟩
  · simp [ReindexJobs.status?, hfind, hpending]
  · rw [ReindexJobs.status?, hputs jobId, if_pos hid]
    rfl

variable {commands : Pid → ReindexJobCommand}

/-- Only a claim makes a job RUNNING, and only a pending one. -/
theorem claimed_does {jobId : Id} {c : Commit ReindexJobs Pid}
    {seen : List (ReindexJobs × ReindexJobs)} (h : (commands c.pid).Does seen c.before c.after)
    (hclaimed : Claimed jobId c) :
    ∃ self job, commands c.pid = .run self job.tenantId jobId ∧
      c.before.jobs.find? jobId = some job ∧ job.status = .pending ∧
      ∃ startedAt, c.after.jobs.find? jobId =
        some { job with status := .running, startedAt := some startedAt } := by
  obtain ⟨hbefore, hafter⟩ := hclaimed
  have hchange := h.change jobId
  unfold ReindexJobs.status? at hbefore hafter
  generalize hrow : c.before.jobs.find? jobId = row at hchange hbefore
  generalize hrow' : c.after.jobs.find? jobId = row' at hchange hafter
  cases hchange with
  | same => exact absurd hafter hbefore
  | created hpending => simp [hpending] at hafter
  | @claimed job self startedAt hcommand hseen hpending =>
    exact ⟨self, job, hcommand, rfl, hpending, startedAt, rfl⟩
  | ended hcommand hseen hclaims hended =>
    rcases hended.status with hstatus | ⟨hstatus, -⟩ <;> simp [hstatus] at hafter
  | interrupted hcommand hactive => simp [(interrupted_interrupt hactive).1] at hafter

/-- A process executes jobs of the tenant. -/
def Runs (commands : Pid → ReindexJobCommand) (tenantId : Id) (c : Commit ReindexJobs Pid) : Prop :=
  ∃ self jobId, commands c.pid = .run self tenantId jobId

/-- A process recovers the interrupted jobs of the tenant. -/
def Recovers (commands : Pid → ReindexJobCommand) (tenantId : Id) (c : Commit ReindexJobs Pid) :
    Prop :=
  ∃ finishedAt, commands c.pid = .recoverInterrupted tenantId finishedAt

/-- The row of a job that a process has claimed and not ended yet: it is RUNNING, unless a
    recovery was committed since. -/
def Held (commands : Pid → ReindexJobCommand) (since : List (Commit ReindexJobs Pid))
    (job : ToolSearchReindexJob) : Prop :=
  (job.status = .running ∧ ∀ r ∈ since, ¬ Recovers commands job.tenantId r) ∨
    (job.Interrupted ∧ ∃ r ∈ since, Recovers commands job.tenantId r)

variable [DecidableEq Pid]

/-- What the commits of a run say of the jobs that are stored. -/
structure JobRunState (commands : Pid → ReindexJobCommand) (commits : List (Commit ReindexJobs Pid))
    (s : ReindexJobs) : Prop where
  unclaimed : ∀ jobId, (∀ job, s.jobs.find? jobId = some job → job.status = .pending) →
    ∀ c ∈ commits, ¬ Claimed jobId c
  claimedOnce : ∀ jobId, commits.countP (Claimed jobId ·) ≤ 1
  held : ∀ newer claim older self tenantId jobId, commits = newer ++ claim :: older →
    commands claim.pid = .run self tenantId jobId → Claimed jobId claim →
    (∀ c ∈ newer, c.pid ≠ claim.pid) →
      ∃ job, s.jobs.find? jobId = some job ∧ job.tenantId = tenantId ∧ Held commands newer job

/-- A job that a process ends was claimed by it, and by nobody else. -/
theorem JobRunState.claim {commits : List (Commit ReindexJobs Pid)} {s : ReindexJobs}
    (h : JobRunState commands commits s) {p : Pid} {tenantId jobId : Id} {s₀ s₀' : ReindexJobs}
    (hseen : seenBy commits p = [(s₀, s₀')]) (hclaims : ClaimsJob tenantId jobId s₀ s₀') :
    (∀ c ∈ commits, Claimed jobId c → c.pid = p) ∧
      ∃ newer claim older, commits = newer ++ claim :: older ∧ claim.pid = p ∧
        Claimed jobId claim ∧ ∀ c ∈ newer, c.pid ≠ claim.pid := by
  obtain ⟨newer, claim, older, rfl, rfl, rfl, rfl, hnewer⟩ := exists_of_seenBy hseen
  have hclaim := claimed_of_claimsJob hclaims
  refine ⟨?_, newer, claim, older, rfl, rfl, hclaim, hnewer⟩
  intro c hc hclaimed
  have hcount := h.claimedOnce jobId
  rw [List.countP_append, List.countP_cons_of_pos (by simpa using hclaim)] at hcount
  have hpos : ∀ l : List (Commit ReindexJobs Pid), c ∈ l → 0 < l.countP (Claimed jobId ·) :=
    fun l hl => List.countP_pos_iff.2 ⟨c, hl, decide_eq_true hclaimed⟩
  rcases List.mem_append.1 hc with hc | hc
  · have := hpos newer hc
    omega
  · rcases List.mem_cons.1 hc with rfl | hc
    · rfl
    · have := hpos older hc
      omega

/-- A commit of another process keeps what is said of a claimed job. -/
theorem JobRunState.held_step {commits : List (Commit ReindexJobs Pid)}
    {x claim : Commit ReindexJobs Pid} (h : JobRunState commands commits x.before)
    (hdoes : (commands x.pid).Does (seenBy commits x.pid) x.before x.after)
    {since : List (Commit ReindexJobs Pid)} {jobId : Id} {job : ToolSearchReindexJob}
    (hmem : claim ∈ commits) (hclaimed : Claimed jobId claim) (hother : x.pid ≠ claim.pid)
    (hjob : x.before.jobs.find? jobId = some job) (hheld : Held commands since job) :
    ∃ job', x.after.jobs.find? jobId = some job' ∧ job'.tenantId = job.tenantId ∧
      Held commands (x :: since) job' := by
  have hchange := hdoes.change jobId
  rw [hjob] at hchange
  generalize hrow' : x.after.jobs.find? jobId = row' at hchange
  have hfailed : job.Interrupted → ¬ job.IsActive := by
    rintro ⟨hstatus, -⟩ (h | h) <;> rw [hstatus] at h <;> cases h
  cases hchange with
  | same =>
    refine ⟨job, rfl, rfl, ?_⟩
    rcases hheld with ⟨hrunning, hnone⟩ | ⟨hinterrupted, r, hr, hrecovers⟩
    · refine .inl ⟨hrunning, List.forall_mem_cons.2 ⟨?_, hnone⟩⟩
      -- A recovery would have changed the row.
      rintro ⟨finishedAt, hcommand⟩
      rw [hcommand] at hdoes
      have hafter := hdoes jobId
      rw [hjob, hrow', Option.map_some, interrupt, if_pos ⟨rfl, .inr hrunning⟩] at hafter
      have hstatus := congrArg ToolSearchReindexJob.status (Option.some.inj hafter)
      rw [hrunning] at hstatus
      cases hstatus
    · exact .inr ⟨hinterrupted, r, List.mem_cons_of_mem _ hr, hrecovers⟩
  | claimed hcommand hseen hpending =>
    rcases hheld with ⟨hrunning, -⟩ | ⟨⟨hstatus, -⟩, -⟩
    · rw [hpending] at hrunning
      cases hrunning
    · rw [hpending] at hstatus
      cases hstatus
  | ended hcommand hseen hclaims hended =>
    exact absurd ((h.claim hseen hclaims).1 claim hmem hclaimed).symm hother
  | @interrupted _ finishedAt hcommand hactive =>
    refine ⟨_, rfl, ?_, .inr ⟨interrupted_interrupt hactive, x, List.mem_cons_self, ?_⟩⟩
    · rw [interrupt, if_pos ⟨rfl, hactive⟩]
    · rw [interrupt, if_pos ⟨rfl, hactive⟩]
      exact ⟨finishedAt, hcommand⟩

theorem JobRunState.step {commits : List (Commit ReindexJobs Pid)} {x : Commit ReindexJobs Pid}
    (h : JobRunState commands commits x.before)
    (hdoes : (commands x.pid).Does (seenBy commits x.pid) x.before x.after) :
    JobRunState commands (x :: commits) x.after := by
  -- A job that is absent or pending afterwards was absent or pending before.
  have hpending : ∀ jobId, (∀ job, x.after.jobs.find? jobId = some job → job.status = .pending) →
      ∀ job, x.before.jobs.find? jobId = some job → job.status = .pending := by
    intro jobId hafter job hjob
    have hchange := hdoes.change jobId
    rw [hjob] at hchange
    generalize hrow' : x.after.jobs.find? jobId = row' at hchange hafter
    cases hchange with
    | same => exact hafter job rfl
    | claimed hcommand hseen hstatus => exact hstatus
    | ended hcommand hseen hclaims hended =>
      have hstatus := hafter _ rfl
      rcases hended.status with h | ⟨h, -⟩ <;> rw [hstatus] at h <;> cases h
    | interrupted hcommand hactive =>
      have hstatus := hafter _ rfl
      rw [(interrupted_interrupt hactive).1] at hstatus
      cases hstatus
  refine ⟨?_, ?_, ?_⟩
  · intro jobId hafter c hc
    rcases List.mem_cons.1 hc with rfl | hc
    · rintro ⟨-, hrunning⟩
      obtain ⟨job, hjob, hstatus⟩ := Option.map_eq_some_iff.1 hrunning
      rw [hafter job hjob] at hstatus
      cases hstatus
    · exact h.unclaimed jobId (hpending jobId hafter) c hc
  · intro jobId
    by_cases hclaimed : Claimed jobId x
    · obtain ⟨self, job, -, hjob, hstatus, -⟩ := claimed_does hdoes hclaimed
      have hnone := h.unclaimed jobId fun job' hjob' => by
        obtain rfl : job = job' := Option.some.inj (hjob.symm.trans hjob')
        exact hstatus
      rw [List.countP_cons_of_pos (by simpa using hclaimed),
        List.countP_eq_zero.2 (by simpa using hnone)]
    · rw [List.countP_cons_of_neg (by simpa using hclaimed)]
      exact h.claimedOnce jobId
  · intro newer claim older self tenantId jobId hcommits hcommand hclaimed hnewer
    cases newer with
    | nil =>
      cases hcommits
      obtain ⟨self', job, hcommand', -, -, startedAt, hafter⟩ := claimed_does hdoes hclaimed
      rw [hcommand] at hcommand'
      cases hcommand'
      exact ⟨_, hafter, rfl, .inl ⟨rfl, fun r hr => absurd hr List.not_mem_nil⟩⟩
    | cons y newer =>
      cases hcommits
      rw [List.forall_mem_cons] at hnewer
      obtain ⟨job, hjob, rfl, hheld⟩ :=
        h.held newer claim older self tenantId jobId rfl hcommand hclaimed hnewer.2
      exact h.held_step hdoes (by simp) hclaimed hnewer.1 hjob hheld

theorem jobRunState_of_explained {s s' : ReindexJobs} {commits : List (Commit ReindexJobs Pid)}
    (hlinked : Linked s commits s') (hdoes : Explained (fun p => (commands p).Does) commits) :
    JobRunState commands commits s' := by
  induction commits generalizing s' with
  | nil =>
    refine ⟨fun _ _ c hc => absurd hc List.not_mem_nil, fun _ => Nat.zero_le _, ?_⟩
    intro newer claim older _ _ _ hcommits
    simp at hcommits
  | cons x earlier ih =>
    obtain ⟨rfl, hearlier⟩ := hlinked
    exact (ih hearlier hdoes.2).step hdoes.1

/-! ## The state machine -/

/-- What the state machine of the jobs says of one commit. -/
structure JobCommitSound (c : Commit ReindexJobs Pid) : Prop where
  succeededStays : ∀ jobId, c.before.status? jobId = some .succeeded →
    c.after.status? jobId = some .succeeded
  failedStays : ∀ jobId, c.before.status? jobId = some .failed →
    c.after.status? jobId = some .failed
  succeededFromRunning : ∀ jobId, c.after.status? jobId = some .succeeded →
    c.before.status? jobId = some .running ∨ c.before.status? jobId = some .succeeded
  /-- An interrupted job neither succeeds nor gets another error or another time. -/
  interruptedStays : ∀ jobId job, c.before.jobs.find? jobId = some job → job.Interrupted →
    ∃ job', c.after.jobs.find? jobId = some job' ∧ job'.status = .failed ∧
      job'.errorCode = job.errorCode ∧ job'.finishedAt = job.finishedAt

/-- The run is one of the state machine. -/
structure ReindexJobsSound {δ : Pid → Type} (w : SerialWorld ReindexJobs Exc Pid δ) : Prop where
  commits : ∀ c ∈ w.commits, JobCommitSound c
  claimedOnce : ∀ jobId, w.commits.countP (Claimed jobId ·) ≤ 1
  oneActive : ∀ job ∈ w.store.jobs, ∀ job' ∈ w.store.jobs, job.IsActive → job'.IsActive →
    job.tenantId = job'.tenantId → job = job'

/-- No recovery of a tenant is committed between the claim of one of its jobs and the commit in
    which the same process ends the job. -/
def NotOvertaken (commands : Pid → ReindexJobCommand) (commits : List (Commit ReindexJobs Pid)) :
    Prop :=
  ∀ newer finish between claim older tenantId,
    commits = newer ++ finish :: (between ++ claim :: older) → finish.pid = claim.pid →
      Runs commands tenantId claim → ∀ r ∈ between, ¬ Recovers commands tenantId r

/-- A commit is one of the state machine where it does not end a job that was recovered. -/
theorem jobCommitSound_of {commits : List (Commit ReindexJobs Pid)} {x : Commit ReindexJobs Pid}
    (h : JobRunState commands commits x.before)
    (hdoes : (commands x.pid).Does (seenBy commits x.pid) x.before x.after)
    (hmet : NotOvertaken commands (x :: commits)) : JobCommitSound x := by
  -- A job that is ended still is RUNNING.
  have hrunning : ∀ {jobId self s₀ s₀'} {job : ToolSearchReindexJob},
      commands x.pid = .run self job.tenantId jobId → seenBy commits x.pid = [(s₀, s₀')] →
      ClaimsJob job.tenantId jobId s₀ s₀' → x.before.jobs.find? jobId = some job →
      job.status = .running := by
    intro jobId self s₀ s₀' job hcommand hseen hclaims hjob
    obtain ⟨-, newer, claim, older, rfl, hpid, hclaimed, hnewer⟩ := h.claim hseen hclaims
    have hcommand' : commands claim.pid = .run self job.tenantId jobId := hpid ▸ hcommand
    obtain ⟨job', hjob', -, hheld⟩ :=
      h.held newer claim older self job.tenantId jobId rfl hcommand' hclaimed hnewer
    obtain rfl : job = job' := Option.some.inj (hjob.symm.trans hjob')
    have hnone := hmet [] x newer claim older job.tenantId rfl hpid.symm ⟨self, jobId, hcommand'⟩
    rcases hheld with ⟨hstatus, -⟩ | ⟨-, r, hr, hrecovers⟩
    · exact hstatus
    · exact absurd hrecovers (hnone r hr)
  have hrow : ∀ jobId, ∃ row row', x.before.jobs.find? jobId = row ∧
      x.after.jobs.find? jobId = row' ∧
      JobChange (commands x.pid) (seenBy commits x.pid) jobId row row' :=
    fun jobId => ⟨_, _, rfl, rfl, hdoes.change jobId⟩
  refine ⟨?_, ?_, ?_, ?_⟩
  · intro jobId hbefore
    obtain ⟨row, row', hrow, hrow', hchange⟩ := hrow jobId
    rw [ReindexJobs.status?, hrow] at hbefore
    rw [ReindexJobs.status?, hrow']
    cases hchange with
    | same => exact hbefore
    | created => cases hbefore
    | claimed _ _ hpending => simp [hpending] at hbefore
    | ended hcommand hseen hclaims _ =>
      simp [hrunning hcommand hseen hclaims hrow] at hbefore
    | interrupted _ hactive => rcases hactive with h | h <;> simp [h] at hbefore
  · intro jobId hbefore
    obtain ⟨row, row', hrow, hrow', hchange⟩ := hrow jobId
    rw [ReindexJobs.status?, hrow] at hbefore
    rw [ReindexJobs.status?, hrow']
    cases hchange with
    | same => exact hbefore
    | created => cases hbefore
    | claimed _ _ hpending => simp [hpending] at hbefore
    | ended hcommand hseen hclaims _ =>
      simp [hrunning hcommand hseen hclaims hrow] at hbefore
    | interrupted _ hactive => simp [(interrupted_interrupt hactive).1]
  · intro jobId hafter
    obtain ⟨row, row', hrow, hrow', hchange⟩ := hrow jobId
    rw [ReindexJobs.status?, hrow'] at hafter
    rw [ReindexJobs.status?, hrow]
    cases hchange with
    | same => exact .inr hafter
    | created hpending => simp [hpending] at hafter
    | claimed => cases hafter
    | ended hcommand hseen hclaims _ =>
      simp [hrunning hcommand hseen hclaims hrow]
    | interrupted _ hactive => simp [(interrupted_interrupt hactive).1] at hafter
  · intro jobId job hjob hinterrupted
    obtain ⟨row, row', hrow, hrow', hchange⟩ := hrow jobId
    rw [hjob] at hrow
    subst hrow
    rw [hrow']
    cases hchange with
    | same => exact ⟨job, rfl, hinterrupted.1, rfl, rfl⟩
    | claimed _ _ hpending =>
      rw [hinterrupted.1] at hpending
      cases hpending
    | ended hcommand hseen hclaims _ =>
      have hstatus := hrunning hcommand hseen hclaims hjob
      rw [hinterrupted.1] at hstatus
      cases hstatus
    | interrupted _ hactive =>
      rcases hactive with h | h <;> rw [hinterrupted.1] at h <;> cases h

/-- A commit that ends a job which was recovered after its claim is not one of the state
    machine. -/
theorem not_jobCommitSound_of {finish claim r : Commit ReindexJobs Pid}
    {between older : List (Commit ReindexJobs Pid)} {tenantId : Id}
    (h : JobRunState commands (between ++ claim :: older) finish.before)
    (hdoes : (commands finish.pid).Does (seenBy (between ++ claim :: older) finish.pid)
      finish.before finish.after)
    (hpid : finish.pid = claim.pid) (hruns : Runs commands tenantId claim) (hr : r ∈ between)
    (hrecovers : Recovers commands tenantId r) : ¬ JobCommitSound finish := by
  intro hsound
  obtain ⟨self, jobId, hcommand⟩ := hruns
  rw [hpid, hcommand] at hdoes
  rcases hdoes with ⟨hseen, -⟩ | ⟨s₀, s₀', hseen, hclaims, hends⟩
  · exact absurd rfl (seenBy_eq_nil.1 hseen claim (by simp))
  · -- The process has made one commit before, so it is the claim.
    rw [seenBy_append, seenBy_cons_self, List.append_eq_singleton_iff] at hseen
    rcases hseen with ⟨hbetween, hclaim⟩ | ⟨-, hclaim⟩
    · obtain ⟨rfl, rfl⟩ := Prod.mk.inj (List.cons.inj hclaim).1
      have hclaimed := claimed_of_claimsJob hclaims
      obtain ⟨job, hjob, rfl, hheld⟩ := h.held between claim older self tenantId jobId rfl
        hcommand hclaimed (seenBy_eq_nil.1 hbetween)
      have hinterrupted : job.Interrupted := by
        rcases hheld with ⟨-, hnone⟩ | ⟨hinterrupted, -⟩
        · exact absurd hrecovers (hnone r hr)
        · exact hinterrupted
      rcases hends with ⟨job₁, job', hjob₁, -, hended, hputs⟩ | ⟨hnone, -⟩
      · obtain rfl : job = job₁ := Option.some.inj (hjob.symm.trans hjob₁)
        obtain ⟨job₂, hjob₂, hfailed, hcode, -⟩ := hsound.interruptedStays jobId job hjob hinterrupted
        have hid : jobId = job'.id := ((hended.id).trans (Table.key_of_find? hjob)).symm
        rw [hputs jobId, if_pos hid] at hjob₂
        cases hjob₂
        exact hended.not_interrupted ⟨hfailed, hcode.trans hinterrupted.2⟩
      · exact absurd rfl (hnone job hjob)
    · cases hclaim

/-- Any number of processes that create, run and recover jobs. -/
def reindexWorld (commands : Pid → ReindexJobCommand) (s : ReindexJobs) :
    SerialWorld ReindexJobs Exc Pid fun p => (commands p).Answer :=
  .start s fun p => (commands p).program

/-- For every interleaving of creations, executions and recoveries, the jobs follow their state
    machine exactly when no recovery was committed between the claim of a job of its tenant and
    the commit in which the same process ended the job. -/
theorem reindex_jobs_sound_iff {Fault : Exc → Prop} (commands : Pid → ReindexJobCommand)
    (s : ReindexJobs) {w : SerialWorld ReindexJobs Exc Pid fun p => (commands p).Answer}
    (h : Reaches Fault (reindexWorld commands s) w) :
    ReindexJobsSound w ↔ NotOvertaken commands w.commits := by
  have hdoes : Explained (fun p => (commands p).Does) w.commits :=
    explained_of_reaches (fun p => (commands p).follows) h
  have hlinked := linked_of_reaches h
  constructor
  · rintro hsound newer finish between claim older tenantId hcommits hpid hruns r hr hrecovers
    rw [hcommits] at hdoes hlinked
    obtain ⟨hfinish, hearlier⟩ := hdoes.of_append
    have hstate := jobRunState_of_explained hlinked.of_append hearlier
    apply not_jobCommitSound_of hstate hfinish hpid hruns hr hrecovers
    exact hsound.commits finish (by rw [hcommits]; simp)
  · intro hmet
    refine ⟨?_, (jobRunState_of_explained hlinked hdoes).claimedOnce, ?_⟩
    · intro x hx
      obtain ⟨newer, earlier, hcommits⟩ := List.append_of_mem hx
      rw [hcommits] at hdoes hlinked
      obtain ⟨hx, hearlier⟩ := hdoes.of_append
      apply jobCommitSound_of (jobRunState_of_explained hlinked.of_append hearlier) hx
      intro newer' finish between claim older tenantId heq
      refine hmet (newer ++ newer') finish between claim older tenantId ?_
      rw [hcommits, heq, List.append_assoc]
    · intro job hjob job' hjob' hactive hactive' htenant
      apply List.inj_on_of_nodup_map w.store.oneActive _ _ htenant
      · exact List.mem_filter.2 ⟨hjob, decide_eq_true hactive⟩
      · exact List.mem_filter.2 ⟨hjob', decide_eq_true hactive'⟩

end Runs

/-! ### A recovered job succeeds -/

section Recovered

/-- A request creates a job, a background task runs it, and a second process starts. -/
def recoveredCommands : Fin 3 → ReindexJobCommand
  | 0 => .create
    { newId := "job-1"
      createdAt := 1
      embeddingModel := "model"
      embeddingDimensions := 3
      embeddingAvailable := true }
    ⟨"r", "t", "tenant-1", "admin-1", "token", "admin_user"⟩ false 16
  | 1 => .run
    { reindexTools := fun _ => .ok ⟨1, 0, 1, 1, 1, "model", 3, false⟩
      startedAt := 2
      finishedAt := 4 } "tenant-1" "job-1"
  | 2 => .recoverInterrupted "tenant-1" 3

def noJobs : ReindexJobs := ⟨Table.empty, List.nodup_nil⟩

/-- The run of the three processes in the order of the schedule. -/
def recoveredRun (schedule : List (Fin 3)) :
    SerialWorld ReindexJobs Exc (Fin 3) fun p => (recoveredCommands p).Answer :=
  (reindexWorld recoveredCommands noJobs).runSchedule schedule

theorem reindex_jobs_sound_iff_recovered :
    ReindexJobsSound (recoveredRun [0, 1, 1, 2]) ↔
      NotOvertaken recoveredCommands (recoveredRun [0, 1, 1, 2]).commits :=
  @reindex_jobs_sound_iff _ _ (fun _ => False) recoveredCommands noJobs _
    (reaches_runSchedule _ [0, 1, 1, 2])

/-- The recovery declares the running job interrupted, and then the job succeeds. -/
theorem interrupted_job_succeeds :
    ¬ ∀ (commands : Fin 3 → ReindexJobCommand) (s : ReindexJobs)
      (w : SerialWorld ReindexJobs Exc (Fin 3) fun p => (commands p).Answer),
      Reaches (fun _ => False) (reindexWorld commands s) w → ReindexJobsSound w := by
  intro h
  have hsound := h recoveredCommands noJobs (recoveredRun [0, 1, 2, 1]) (reaches_runSchedule _ _)
  have hrun : ∃ c ∈ (recoveredRun [0, 1, 2, 1]).commits,
      c.before.status? "job-1" = some .failed ∧ c.after.status? "job-1" = some .succeeded := by
    decide +kernel
  obtain ⟨c, hc, hbefore, hafter⟩ := hrun
  have hfailed := (hsound.commits c hc).failedStays "job-1" hbefore
  rw [hafter] at hfailed
  cases hfailed

end Recovered

end NexusMcp

-- SUMMARY: The order of an approval's times, under any interleaving and any wait for its row.
import Mathlib.Algebra.Ring.Nat
import NexusMcp.Approval.Writes
import NexusMcp.Execution.Guarantees
import NexusMcp.Txn.Timeline

/-!
# The Times of an Approval

A run has one clock, which never goes backwards, and a transaction may wait for the row
of an approval for any time. The times of every approval stay in order as long as no
consumption is overtaken while it waits; when one is, they do not.
-/

namespace NexusMcp

open Txn Timeline ExecutionLifecycle Contract

/-! ## Order and waits -/

/-- The times of an approval are in order. -/
structure InOrder (a : ApprovalFields) : Prop where
  decided : a.status = .approved ∨ a.status = .rejected →
    ∃ d ∈ a.decidedAt, a.requestedAt ≤ d ∧ d < a.expiresAt
  consumed : a.status = .consumed → ∃ d ∈ a.decidedAt, ∃ c ∈ a.consumedAt,
    a.requestedAt ≤ d ∧ d ≤ c ∧ c < a.expiresAt

section Waits

variable {Pid : Type} [DecidableEq Pid]

/-- The approval whose row an event locks, with the ledger it is locked on. -/
def lockedApproval? : Event Gateway → Option (Id × Ledger)
  | .did _ (.lock (.approval id)) s _ => some (id, s)
  | _ => none

/-- The entry grants the row of an approval to a command that will consume it by the time
    `t` it read before, although meanwhile the approval was decided or expired. -/
def Overtaken (commands : Pid → LedgerCommand) (entry : (Pid × Event Gateway) × Time)
    (older : Timeline Gateway Pid Time) : Prop :=
  ∃ lock ∈ lockedApproval? entry.1.2, ∃ command ∈ (commands entry.1.1).consumption?,
    command.approvalId = lock.1 ∧
    ∃ t ∈ (events entry.1.1 older).findSome? clockReading,
      ∃ a ∈ lock.2.approval? command.context.tenantId lock.1,
        a.val.status = .approved ∧ requireMatchingCall a command = .ok () ∧
        t < a.val.expiresAt ∧ ((∃ d ∈ a.val.decidedAt, t < d) ∨ a.val.expiresAt ≤ entry.2)

instance (commands : Pid → LedgerCommand) (entry : (Pid × Event Gateway) × Time)
    (older : Timeline Gateway Pid Time) : Decidable (Overtaken commands entry older) :=
  inferInstanceAs (Decidable (∃ lock ∈ _, _))

/-- No consumption was overtaken while it waited. -/
def Punctual (commands : Pid → LedgerCommand) : Timeline Gateway Pid Time → Prop
  | [] => True
  | entry :: older => ¬ Overtaken commands entry older ∧ Punctual commands older

instance (commands : Pid → LedgerCommand) :
    (timeline : Timeline Gateway Pid Time) → Decidable (Punctual commands timeline)
  | [] => .isTrue trivial
  | _ :: older => haveI := instDecidablePunctual commands older; inferInstanceAs (Decidable (_ ∧ _))

/-- Whoever consumed an approval was granted its row before it expired, and held it. -/
def ConsumedInTime (timeline : Timeline Gateway Pid Time) : Prop :=
  ∀ newer p u (before after : Ledger) t older,
    timeline = newer ++ ((p, .did u .commit before after), t) :: older →
    ∀ a b : ApprovalRequest, before.approvals.find? a.val.id = some a → after.approvals.find? a.val.id = some b →
      a.val.status ≠ .consumed → b.val.status = .consumed →
      ∃ s granted earlier, Holds older p (LedgerRow.approval a.val.id) s granted earlier ∧
        granted < a.val.expiresAt

end Waits

/-! ## What a timeline keeps -/

/-- The approvals are in order and were requested by now, and so they were whenever
    somebody looked. -/
structure Timely {Pid : Type} (t₀ : Time) (timeline : Timeline Gateway Pid Time) (s : Ledger) :
    Prop where
  rows : ∀ a ∈ s.approvals, a.val.requestedAt ≤ clock t₀ timeline ∧ InOrder a.val
  seen : ∀ p u op before after t, ((p, .did u op before after), t) ∈ timeline →
    ∀ a ∈ before.approvals, a.val.requestedAt ≤ t

section Step

variable {Pid : Type} [DecidableEq Pid] {commands : Pid → LedgerCommand} {t₀ : Time}
  {timeline : Timeline Gateway Pid Time} {s : Ledger} {p : Pid} {l : Local Gateway}

/-- A row that was granted in a punctual timeline was not overtaken. -/
theorem Punctual.of_append {newer older : Timeline Gateway Pid Time}
    {entry : (Pid × Event Gateway) × Time} (h : Punctual commands (newer ++ entry :: older)) :
    ¬ Overtaken commands entry older := by
  induction newer with
  | nil => exact h.1
  | cons _ newer ih => exact ih h.2

/-- A revision rests on a row that was granted at some time: a decision on a later reading
    of the clock, a consumption on an earlier one that was not overtaken. -/
theorem Revision.inOrder {a b : ApprovalRequest} {s' : Ledger} {newer older : List (Event Gateway)}
    (htimed : Timed clockReading t₀ timeline) (hpunctual : Punctual commands timeline)
    (hseen : ∀ p u op before after t, ((p, .did u op before after), t) ∈ timeline →
      ∀ a ∈ before.approvals, a.val.requestedAt ≤ t)
    (htrace : events p timeline = l.trace)
    (hlocked : l.Locked (.approval a.val.id) s' newer older)
    (hfound : s'.approvals.find? a.val.id = some a) (horder : InOrder a.val)
    (h : Revision (commands p).consumption? newer older a b) :
    InOrder b.val ∧ (b.val.status = .consumed →
      ∃ s granted earlier, Holds timeline p (LedgerRow.approval a.val.id) s granted earlier ∧
        granted < a.val.expiresAt) := by
  obtain ⟨newer', u, after, granted, older', rfl, hnewer, holder⟩ := exists_grant htrace hlocked
  cases h with
  | @decided approverId t hread hdecide =>
    have hrequested : a.val.requestedAt ≤ t := by
      obtain ⟨t', hmem⟩ := mem_events.1 (hnewer ▸ hread)
      have hentry := htimed.reading_eq (List.mem_append_left _ hmem) rfl
      calc a.val.requestedAt ≤ granted :=
            hseen _ _ _ _ _ _ (List.mem_append_right _ List.mem_cons_self) a
              (Table.mem_of_find? hfound)
        _ ≤ t' := htimed.le_of_mem hmem
        _ = t := hentry.symm
    rcases hdecide with h | h
    · obtain ⟨-, -, hlate, hval⟩ := ApprovalRequest.approve_eq_ok.1 h
      rw [hval]
      exact ⟨⟨fun _ => ⟨t, rfl, hrequested, hlate⟩, by simp⟩, by simp⟩
    · obtain ⟨-, -, hlate, hval⟩ := ApprovalRequest.reject_eq_ok.1 h
      rw [hval]
      exact ⟨⟨fun _ => ⟨t, rfl, hrequested, hlate⟩, by simp⟩, by simp⟩
  | expired hexpire =>
    obtain ⟨-, -, hval⟩ := ApprovalRequest.expire_eq_ok.1 hexpire
    have hstatus : b.val.status = .expired := by
      rw [hval]
      split <;> rfl
    exact ⟨⟨by simp [hstatus], by simp [hstatus]⟩, by simp [hstatus]⟩
  | @consumed command t hcommand hid htenant hread hmatch hconsume =>
    obtain ⟨hstatus, hlate, -, -, -, -, -, hval⟩ := ApprovalRequest.consume_eq_ok.1 hconsume
    obtain ⟨d, hd, hrequested, hexpires⟩ := horder.decided (.inl hstatus)
    -- the entry that granted the row is not overtaken
    have hnot := hpunctual.of_append
    have hfound' : s'.approval? command.context.tenantId a.val.id = some a :=
      Ledger.approval?_eq_some.2 ⟨hfound, htenant⟩
    have hpast : ¬ ((∃ d ∈ a.val.decidedAt, t < d) ∨ a.val.expiresAt ≤ granted) := fun h =>
      hnot ⟨_, rfl, command, hcommand, hid.symm, t, holder ▸ hread, a, hfound', hstatus, hmatch, hlate, h⟩
    rw [not_or, not_le] at hpast
    have hdecided : d ≤ t := not_lt.1 fun h => hpast.1 ⟨d, hd, h⟩
    rw [hval]
    refine ⟨⟨by simp, fun _ => ⟨d, hd, t, rfl, hrequested, hdecided, hlate⟩⟩, fun _ => ?_⟩
    exact ⟨s', granted, older', ⟨newer', u, after, rfl, hnewer ▸ hlocked.kept⟩, hpast.2⟩

section Commit

variable (htimed : Timed clockReading t₀ timeline) (hpunctual : Punctual commands timeline)
  (htimely : Timely t₀ timeline s) (htrace : events p timeline = l.trace)
  (hlocks : ∀ row s' newer older, l.Locked row s' newer older → sameRow row s' s)
  (hwrite : ApprovalWrite (commands p).consumption? l)

include htimed hpunctual htimely htrace hlocks hwrite

/-- A commit keeps the approvals in order. -/
theorem ApprovalWrite.rows {b : ApprovalRequest} (hb : b ∈ (l.pending s).approvals) :
    b.val.requestedAt ≤ clock t₀ timeline ∧ InOrder b.val := by
  rcases hwrite.mem hlocks hb with hmem | ⟨hstatus, hread⟩ |
    ⟨a, s', newer, older, hlocked, hfound, hmem, hrevision⟩
  · exact htimely.rows b hmem
  · obtain ⟨t, hentry⟩ := mem_events.1 (htrace ▸ hread)
    have hrequested : b.val.requestedAt = t := htimed.reading_eq hentry rfl
    refine ⟨?_, by simp [hstatus], by simp [hstatus]⟩
    rw [hrequested]
    exact htimed.le_clock hentry
  · obtain ⟨hrequested, horder⟩ := htimely.rows a hmem
    have hsame : b.val.requestedAt = a.val.requestedAt :=
      congrArg (·.val.requestedAt) hrevision.revises.symm
    rw [hsame]
    exact ⟨hrequested, (hrevision.inOrder htimed hpunctual htimely.seen htrace hlocked hfound
      horder).1⟩

/-- A commit that consumes an approval does so under a row granted before it expired. -/
theorem ApprovalWrite.consumedInTime {a b : ApprovalRequest}
    (ha : s.approvals.find? a.val.id = some a)
    (hb : (l.pending s).approvals.find? a.val.id = some b) (hopen : a.val.status ≠ .consumed)
    (hconsumed : b.val.status = .consumed) :
    ∃ s granted earlier, Holds timeline p (LedgerRow.approval a.val.id) s granted earlier ∧
      granted < a.val.expiresAt := by
  have hid := Table.key_of_find? hb
  rcases hwrite.mem hlocks (Table.mem_of_find? hb) with hmem | ⟨hstatus, -⟩ |
    ⟨a', s', newer, older, hlocked, hfound, hmem, hrevision⟩
  · rw [Table.eq_of_key_eq hmem (Table.mem_of_find? ha) hid] at hconsumed
    exact absurd hconsumed hopen
  · rw [hstatus] at hconsumed
    cases hconsumed
  · have hsame : a' = a := Table.eq_of_key_eq hmem (Table.mem_of_find? ha)
      (hrevision.revises.id_eq.symm.trans hid)
    subst hsame
    exact (hrevision.inOrder htimed hpunctual htimely.seen htrace hlocked hfound
      (htimely.rows a' hmem).2).2 hconsumed

end Commit

end Step

/-! ## Every run -/

section Runs

variable [Sha256] {Pid : Type} [DecidableEq Pid] {commands : Pid → LedgerCommand}
  {w : World Gateway Pid (fun p => (commands p).Result)} {t₀ : Time}

omit [DecidableEq Pid] in
/-- Each locked row is as it was locked. -/
theorem Reachable.locksHeld (h : Reachable commands w) : w.LocksHeld ledgerContract :=
  World.locksHeld_of_reaches (good_start LedgerInv.empty fun p => (commands p).safe _)
    World.locksHeld_start h

theorem Reachable.timely (honly : ∀ p, (commands p).OnApprovals) (h : Reachable commands w)
    {timeline : Timeline Gateway Pid Time} (hlog : timeline.map (·.1) = w.log)
    (htimed : Timed clockReading t₀ timeline) (hpunctual : Punctual commands timeline) :
    Timely t₀ timeline w.store ∧ ConsumedInTime timeline := by
  induction h generalizing timeline with
  | refl =>
    obtain rfl : timeline = [] := List.map_eq_nil_iff.1 hlog
    refine ⟨⟨fun a ha => absurd ha Table.not_mem_empty, fun _ _ _ _ _ _ h => by cases h⟩, ?_⟩
    intro newer p u before after t older h
    simp at h
  | @tail w₁ w₂ hreach hstep ih =>
    obtain ⟨p, ev, hstep⟩ := hstep
    obtain ⟨entry, older, rfl, hentry, holder⟩ := List.map_eq_cons_iff.1 (hlog.trans hstep.log)
    obtain ⟨_, t⟩ := entry
    subst hentry
    obtain ⟨htimely, hintime⟩ := ih holder htimed.2.2 hpunctual.2
    have htrace := events_eq_trace hreach holder p
    have hlocks := Reachable.locksHeld hreach p
    have htraced : w₁.Traced (fun p => ApprovalWrite (commands p).consumption?)
        (fun _ _ _ => True) :=
      World.traced_of_reaches (fun p => LedgerCommand.traced (honly p)) hreach
    obtain ⟨-, hcommit⟩ := hstep.proc.traced (htraced p)
    -- Only a commit changes rows, and whoever commits has held the row it writes.
    have hrows : ∀ a ∈ w₂.store.approvals, a.val.requestedAt ≤ clock t₀ older ∧ InOrder a.val := by
      intro a ha
      by_cases h : ev.IsCommit
      · obtain ⟨hwrite, hstore⟩ := hcommit h
        exact hwrite.rows htimed.2.2 hpunctual.2 htimely htrace
          (fun row s' newer older h => (hlocks row s' newer older h).2) (hstore ▸ ha)
      · rw [hstep.proc.store_eq h] at ha
        exact htimely.rows a ha
    refine ⟨⟨fun a ha => ?_, fun p' u op before after t' hmem a ha => ?_⟩, ?_⟩
    · obtain ⟨hrequested, horder⟩ := hrows a ha
      exact ⟨hrequested.trans htimed.1, horder⟩
    · rcases List.mem_cons.1 hmem with heq | hmem
      · cases heq
        obtain ⟨rfl, -⟩ := stores_step hstep.proc
        exact (htimely.rows a ha).1.trans htimed.1
      · exact htimely.seen p' u op before after t' hmem a ha
    · intro newer p' u before after t' older' heq a b ha hb hopen hconsumed
      cases newer with
      | nil =>
        cases heq
        obtain ⟨rfl, rfl⟩ := stores_step hstep.proc
        obtain ⟨hwrite, hstore⟩ := hcommit trivial
        exact hwrite.consumedInTime htimed.2.2 hpunctual.2 htimely htrace
          (fun row s' newer older h => (hlocks row s' newer older h).2) ha (hstore ▸ hb) hopen
          hconsumed
      | cons entry newer =>
        cases heq
        exact hintime newer p' u before after t' older' rfl a b ha hb hopen hconsumed

/-- In every run in which no consumption is overtaken while it waits for the approval's row,
    the times of all approvals are in order, and none is consumed under a row that was
    granted when it had expired. -/
theorem approval_times (honly : ∀ p, (commands p).OnApprovals) (h : Reachable commands w)
    (timeline : Timeline Gateway Pid Time) (hlog : timeline.map (·.1) = w.log)
    (htimed : Timed clockReading t₀ timeline) (hpunctual : Punctual commands timeline) :
    (∀ a ∈ w.store.approvals, InOrder a.val) ∧ ConsumedInTime timeline := by
  obtain ⟨htimely, hintime⟩ := h.timely honly hlog htimed hpunctual
  exact ⟨fun a ha => (htimely.rows a ha).2, hintime⟩

end Runs

/-! ## A wait -/

/-- Alice requests an approval, Bob gives it and Alice consumes it. -/
def waitCommands : Fin 3 → LedgerCommand
  | 0 => .requestApproval ⟨100⟩
    { context := raceContext "alice", principalId := "alice", toolId := "tool",
      toolVersionId := "version", argumentsDigest := "digest", policyVersion := "policy" }
  | 1 => .decideApproval { context := raceContext "bob", approvalId := "approval", approved := true }
  | 2 => .consumeApproval
    { context := raceContext "alice", approvalId := "approval", principalId := "alice",
      toolVersionId := "version", argumentsDigest := "digest", policyVersion := "policy" }

/-- The request reads `0`, the decision `decision` and the consumption `10`. -/
def waitAnswer (decision : Time) (p : Fin 3) : (q : Query) → q.Answer
  | .newId => match p with
    | 0 => "approval"
    | _ => "decision"
  | .now => (match p with
    | 0 => 0
    | 1 => decision
    | 2 => 10 : Nat)
  | q => someAnswer q

theorem neZero_three : NeZero 3 := ⟨by decide⟩

/-- Who takes each step, and when: the decision comes first. -/
def promptSteps : List (Fin 3 × Time) :=
  haveI := neZero_three
  List.replicate 9 (0, 0) ++ List.replicate 9 (1, 5) ++ List.replicate 6 (2, 10)

/-- Who takes each step, and when: the consumption reads the clock, then waits for the
    decision. -/
def lateSteps : List (Fin 3 × Time) :=
  haveI := neZero_three
  List.replicate 9 (0, 0) ++ [(2, 10)] ++ List.replicate 9 (1, 20) ++ List.replicate 5 (2, 20)

/-- The world after the steps. -/
def waitWorld (decision : Time) (steps : List (Fin 3 × Time)) :
    World Gateway (Fin 3) (fun p => (waitCommands p).Result) :=
  (@LedgerWorld raceSha256 _ waitCommands).follow (waitAnswer decision) (steps.map (·.1))

/-- What happened in the steps, with their times. -/
def waitTimeline (decision : Time) (steps : List (Fin 3 × Time)) :
    Timeline Gateway (Fin 3) Time :=
  (waitWorld decision steps).log.zip (steps.map (·.2)).reverse

/-- The status of the approvals, and when they were decided and consumed. -/
def progress (s : Ledger) : List (ApprovalStatus × Option Time × Option Time) :=
  s.approvals.rows.map fun a => (a.val.status, a.val.decidedAt, a.val.consumedAt)

set_option maxRecDepth 100000 in
theorem prompt_legal :
    World.Legal (waitAnswer 5) (@LedgerWorld raceSha256 _ waitCommands) (promptSteps.map (·.1)) ∧
    (waitWorld 5 promptSteps).log.length = promptSteps.length ∧
    Timed clockReading 0 (waitTimeline 5 promptSteps) ∧
    Punctual waitCommands (waitTimeline 5 promptSteps) ∧
    progress (waitWorld 5 promptSteps).store = [(.consumed, some 5, some 10)] := by
  decide +kernel

set_option maxRecDepth 100000 in
theorem late_legal :
    World.Legal (waitAnswer 20) (@LedgerWorld raceSha256 _ waitCommands) (lateSteps.map (·.1)) ∧
    (waitWorld 20 lateSteps).log.length = lateSteps.length ∧
    Timed clockReading 0 (waitTimeline 20 lateSteps) ∧
    progress (waitWorld 20 lateSteps).store = [(.consumed, some 20, some 10)] := by
  decide +kernel

theorem waitWorld_reachable {decision : Time} {steps : List (Fin 3 × Time)}
    (h : World.Legal (waitAnswer decision) (@LedgerWorld raceSha256 _ waitCommands)
      (steps.map (·.1))) : @Reachable raceSha256 _ waitCommands (waitWorld decision steps) :=
  World.reaches_follow h

theorem map_waitTimeline {decision : Time} {steps : List (Fin 3 × Time)}
    (h : (waitWorld decision steps).log.length = steps.length) :
    (waitTimeline decision steps).map (·.1) = (waitWorld decision steps).log :=
  List.map_fst_zip (by simp [h])

theorem waitCommands_onApprovals : ∀ p, (waitCommands p).OnApprovals
  | 0 => trivial
  | 1 => trivial
  | 2 => trivial

/-- The decision comes before the consumption, and the times are in order. -/
theorem approval_times_prompt :
    progress (waitWorld 5 promptSteps).store = [(.consumed, some 5, some 10)] ∧
    (∀ a ∈ (waitWorld 5 promptSteps).store.approvals, InOrder a.val) ∧
    ConsumedInTime (waitTimeline 5 promptSteps) := by
  obtain ⟨hlegal, hlength, htimed, hpunctual, hprogress⟩ := prompt_legal
  exact ⟨hprogress, @approval_times raceSha256 (Fin 3) _ waitCommands _ 0 waitCommands_onApprovals
    (waitWorld_reachable hlegal) _ (map_waitTimeline hlength) htimed hpunctual⟩

/-- The consumption read `10` and waited while the approval was decided at `20`. -/
theorem consumed_before_decided :
    ¬ ∀ (w : World Gateway (Fin 3) (fun p => (waitCommands p).Result)) (t₀ : Time)
      (timeline : Timeline Gateway (Fin 3) Time), @Reachable raceSha256 _ waitCommands w →
      timeline.map (·.1) = w.log → Timed clockReading t₀ timeline →
      (∀ a ∈ w.store.approvals, InOrder a.val) ∧ ConsumedInTime timeline := by
  intro h
  obtain ⟨hlegal, hlength, htimed, hprogress⟩ := late_legal
  obtain ⟨horder, -⟩ := h _ 0 _ (waitWorld_reachable hlegal) (map_waitTimeline hlength) htimed
  have hmem : (.consumed, some 20, some 10) ∈ progress (waitWorld 20 lateSteps).store := by
    rw [hprogress]
    exact List.mem_singleton_self _
  obtain ⟨a, ha, heq⟩ := List.mem_map.1 hmem
  simp only [Prod.mk.injEq] at heq
  obtain ⟨hstatus, hdecided, hconsumed⟩ := heq
  obtain ⟨d, hd, c, hc, -, hle, -⟩ := (horder a ha).consumed hstatus
  rw [hdecided] at hd
  rw [hconsumed] at hc
  cases hd
  cases hc
  exact absurd hle (by decide)

end NexusMcp

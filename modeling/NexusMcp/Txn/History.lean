-- SUMMARY: What the trace of a program says about its commits, and schedules that can be executed.
import NexusMcp.Txn.World
import Mathlib.Data.Fintype.Basic

/-!
# Histories

The commits a program made can be read off its trace. A run with nobody else at the
store is one of the interleavings, so what is safe under interference also holds of
it. Schedules make a single interleaving executable.
-/

namespace Txn

variable {I : Interface} {α : Type}

/-! ## Commits -/

/-- The committed store before and after a commit. -/
def Event.commit? : Event I → Option (I.Store × I.Store)
  | .did _ .commit before after => some (before, after)
  | _ => none

/-- The store an unlocked read saw. -/
def Event.selected? : Event I → Option I.Store
  | .did _ .select before _ => some before
  | _ => none

/-- What happened first. -/
def firstEvent (trace : List (Event I)) : Option (Event I) := trace.getLast?

theorem firstEvent_append {new old : List (Event I)} {ev : Event I}
    (h : firstEvent old = some ev) : firstEvent (new ++ old) = some ev := by
  unfold firstEvent at h ⊢
  rw [List.getLast?_append, h]
  rfl

theorem firstEvent_cons {old : List (Event I)} {ev ev' : Event I}
    (h : firstEvent old = some ev) : firstEvent (ev' :: old) = some ev :=
  List.singleton_append ▸ firstEvent_append h

theorem mem_of_firstEvent {trace : List (Event I)} {ev : Event I}
    (h : firstEvent trace = some ev) : ev ∈ trace :=
  List.mem_of_getLast? h

/-- The commits of a trace, newest first. -/
def commits (trace : List (Event I)) : List (I.Store × I.Store) :=
  trace.filterMap Event.commit?

/-- The committed store at the first unlocked read. -/
def firstSelect (trace : List (Event I)) : Option I.Store :=
  (trace.filterMap Event.selected?).getLast?

theorem exists_of_firstSelect {trace : List (Event I)} {s : I.Store}
    (h : firstSelect trace = some s) : ∃ u after, .did u .select s after ∈ trace := by
  obtain ⟨ev, hev, hselected⟩ := List.mem_filterMap.1 (List.mem_of_getLast? h)
  revert hev hselected
  fun_cases Event.selected? ev with
  | case1 u before after =>
    rintro hev ⟨⟩
    exact ⟨u, after, hev⟩
  | case2 =>
    intro _ hselected
    cases hselected

@[simp] theorem commits_nil : commits ([] : List (Event I)) = [] := rfl

@[simp] theorem commits_append (new old : List (Event I)) :
    commits (new ++ old) = commits new ++ commits old :=
  List.filterMap_append

theorem commits_cons (ev : Event I) (trace : List (Event I)) :
    commits (ev :: trace) = ev.commit?.toList ++ commits trace := by
  unfold commits
  rw [List.filterMap_cons]
  cases ev.commit? <;> rfl

theorem firstSelect_append {new old : List (Event I)} {s : I.Store}
    (h : firstSelect old = some s) : firstSelect (new ++ old) = some s := by
  unfold firstSelect at h ⊢
  rw [List.filterMap_append, List.getLast?_append, h]
  rfl

theorem mem_commits {before after : I.Store} {trace : List (Event I)} :
    (before, after) ∈ commits trace ↔ ∃ u, .did u .commit before after ∈ trace := by
  constructor
  · intro h
    obtain ⟨ev, hev, hcommit⟩ := List.mem_filterMap.1 h
    rcases ev with _ | ⟨u, _ | _ | _ | _ | _, _, _⟩ | _ <;> cases hcommit
    exact ⟨u, hev⟩
  · rintro ⟨u, h⟩
    exact List.mem_filterMap.2 ⟨_, h, rfl⟩

theorem trace_cons {ev : Event I} {trace new old : List (Event I)} (h : trace = new ++ old) :
    ev :: trace = (ev :: new) ++ old := by
  rw [h, List.cons_append]

/-- The first unlocked read after a trace without one. -/
theorem firstSelect_cons {old : List (Event I)} {u : I.Scope} {s s' : I.Store}
    (h : old.filterMap Event.selected? = []) :
    firstSelect (.did u .select s s' :: old) = some s := by
  simp [firstSelect, Event.selected?, h]

theorem Event.commit?_eq_none {ev : Event I} (h : ¬ ev.IsCommit) : ev.commit? = none := by
  rcases ev with _ | ⟨_, _ | _ | _ | _ | _, _, _⟩ | _ <;> first | rfl | exact absurd trivial h

/-- A quiet continuation adds no commit. -/
theorem Local.Quiet.commits_eq {l l' : Local I} (h : l.Quiet l') :
    ∃ new, l'.trace = new ++ l.trace ∧ commits new = [] := by
  obtain ⟨new, htrace, hnew⟩ := h
  exact ⟨new, htrace, List.filterMap_eq_nil_iff.2 fun ev hev => Event.commit?_eq_none (hnew ev hev)⟩

/-! ## Running alone -/

/-- The commits lead from one committed store to the other. -/
def Linked : I.Store → List (I.Store × I.Store) → I.Store → Prop
  | s, [], s' => s' = s
  | s, (before, after) :: earlier, s' => s' = after ∧ Linked s earlier before

theorem Linked.append {s₁ s₂ s₃ : I.Store} {new old : List (I.Store × I.Store)}
    (h : Linked s₂ new s₃) (h' : Linked s₁ old s₂) : Linked s₁ (new ++ old) s₃ := by
  induction new generalizing s₃ with
  | nil => exact (show s₃ = s₂ from h) ▸ h'
  | cons c new ih => exact ⟨h.1, ih h.2⟩

/-- Every interruption among the events `new` is one that `env` makes after the events
    before it. -/
def Caused (env : Env I) (old : List (Event I)) : List (Event I) → Prop
  | [] => True
  | ev :: earlier => Caused env old earlier ∧ ∀ u op x, ev = .cut u op x →
      ∃ σ : Session I, σ.trace = earlier ++ old ∧ env.fault σ u op = some x

theorem Caused.append {env : Env I} {old new : List (Event I)} {ev : Event I}
    (h : Caused env (ev :: old) new) (hev : Caused env old [ev]) : Caused env old (new ++ [ev]) := by
  induction new with
  | nil => exact hev
  | cons ev' new ih =>
    refine ⟨ih h.1, fun u op x hcut => ?_⟩
    obtain ⟨σ, htrace, hfault⟩ := h.2 u op x hcut
    exact ⟨σ, htrace.trans (List.append_cons new ev old), hfault⟩

/-- `σ'` extends the trace of `σ`: the commits it adds made its committed store of the one
    of `σ`, and the interruptions are those of `env`. -/
def Session.Continues (env : Env I) (σ σ' : Session I) : Prop :=
  ∃ new, σ'.trace = new ++ σ.trace ∧ Linked σ.committed (commits new) σ'.committed ∧
    Caused env σ.trace new

theorem Session.Continues.head {env : Env I} {σ σ₂ : Session I} {ev : Event I} (σ₁ : Session I)
    (htrace : σ₁.trace = ev :: σ.trace) (hlink : Linked σ.committed (commits [ev]) σ₁.committed)
    (hcause : Caused env σ.trace [ev]) (h : σ₁.Continues env σ₂) : σ.Continues env σ₂ := by
  obtain ⟨new, htrace₂, hlinked, hcaused⟩ := h
  rw [htrace] at htrace₂ hcaused
  refine ⟨new ++ [ev], by rw [htrace₂, List.append_assoc, List.singleton_append], ?_,
    hcaused.append hcause⟩
  rw [commits_append]
  exact hlinked.append hlink

theorem run_continues (env : Env I) (p : Prog I α) (σ : Session I) :
    σ.Continues env (run env p σ).2 := by
  induction p generalizing σ with
  | ret a => exact ⟨[], rfl, rfl, trivial⟩
  | raise e => exact ⟨[], rfl, rfl, trivial⟩
  | ask q k ih =>
    exact .head (σ.asked q _) rfl rfl ⟨trivial, fun _ _ _ h => by cases h⟩ (ih _ _)
  | db u op k ih =>
    rw [run]
    cases hfault : env.fault σ u op with
    | some e =>
      refine .head (σ.cut u op e) rfl rfl ⟨trivial, fun u' op' x h => ?_⟩ (ih _ _)
      cases h
      exact ⟨σ, rfl, hfault⟩
    | none =>
      refine .head (σ.did u op) rfl ?_ ⟨trivial, fun _ _ _ h => by cases h⟩ (ih _ _)
      cases op with
      | commit => exact ⟨rfl, rfl⟩
      | select | lock row | write update | close => rfl

namespace Contract

variable {C : Contract I} {Fault : I.Error → Prop}
  {Q : Except I.Error α → Local I → I.Store → Prop}

/-- What is safe under interference holds of a run with nobody else at the store. -/
theorem run_of_safe {env : Env I} {p : Prog I α} (σ : Session I) {l : Local I}
    (hfault : ∀ σ u op e, env.fault σ u op = some e → Fault e) (hinv : C.inv σ.committed)
    (hview : σ.view = l.pending σ.committed) (htrace : σ.trace = l.trace)
    (hsafe : C.safe Fault Q p l σ.committed) :
    ∃ l', Q (run env p σ).1 l' (run env p σ).2.committed ∧
      (run env p σ).2.view = l'.pending (run env p σ).2.committed ∧
      (run env p σ).2.trace = l'.trace ∧ C.inv (run env p σ).2.committed := by
  induction p generalizing σ l with
  | ret a => exact ⟨l, hsafe, hview, htrace, hinv⟩
  | raise e => exact ⟨l, hsafe, hview, htrace, hinv⟩
  | ask q k ih =>
    -- One session alone: the store that the rely allows is the one it is.
    let a := env.answer σ q
    have htrace' : (σ.asked q a).trace = (l.asked q a).trace := congrArg (_ :: ·) htrace
    refine ih a _ ?_ ?_ htrace' ?_
    · exact hinv
    · exact hview
    · exact (hsafe σ.committed (.refl hinv)).2 a
  | db u op k ih =>
    -- Only a write changes what is pending, and only a commit the store.
    obtain ⟨hcut, hguar, hdid⟩ := hsafe σ.committed (.refl hinv)
    rw [run]
    cases hcase : env.fault σ u op with
    | some e =>
      have hview' : (σ.cut u op e).view = (l.cut u op e).pending σ.committed := by
        cases op with
        | close => rfl
        | select | lock row | write update | commit => exact hview
      have htrace' : (σ.cut u op e).trace = (l.cut u op e).trace := congrArg (_ :: ·) htrace
      refine ih (.error e) _ ?_ hview' htrace' ?_
      · exact hinv
      · exact hcut e (hfault _ _ _ _ hcase)
    | none =>
      have hcommitted : (σ.did u op).committed = op.committed (l.pending σ.committed) σ.committed :=
        congrArg (op.committed · σ.committed) hview
      have hview' : (σ.did u op).view = (l.did u op σ.committed).pending (σ.did u op).committed := by
        rw [hcommitted]
        cases op with
        | write update => exact congrArg update hview
        | close => rfl
        | select | lock row | commit => exact hview
      have hinv' : C.inv (σ.did u op).committed := by
        rw [hcommitted]
        cases op with
        | commit => exact (hguar rfl).inv
        | select | lock row | write update | close => exact hinv
      have htrace' : (σ.did u op).trace = (l.did u op σ.committed).trace := by
        simp only [Session.did, Local.did, hview, htrace]
      refine ih (.ok (σ.did u op).view) _ hinv' hview' htrace' ?_
      rw [hview', hcommitted]
      exact hdid

end Contract

/-! ## Changes of the store -/

namespace World

variable {Pid : Type} {δ : Pid → Type} {Fault : I.Error → Prop}

/-- What became true of the committed store became true with one commit. -/
theorem exists_commit_of_reaches (P : I.Store → Prop) {w w' : World I Pid δ}
    (hreach : Reaches Fault w w') (hbefore : ¬ P w.store) (hafter : P w'.store) :
    ∃ p u before after, (p, .did u .commit before after) ∈ w'.log ∧ ¬ P before ∧ P after := by
  induction hreach with
  | refl => exact absurd hafter hbefore
  | @tail w₁ w₂ _ hstep ih =>
    obtain ⟨p, ev, hproc, -, hlog⟩ := hstep
    by_cases h : P w₁.store
    · obtain ⟨p', u, before, after, hmem, hturned⟩ := ih h
      exact ⟨p', u, before, after, hlog ▸ List.mem_cons_of_mem _ hmem, hturned⟩
    · rw [hlog]
      generalize w₂.store = s₂ at hproc hafter
      generalize w₂.procs p = proc₂ at hproc
      generalize w₁.procs p = proc₁ at hproc
      cases hproc with
      | asked a => exact absurd hafter h
      | cut op e he => exact absurd hafter h
      | @did u k l op hfree =>
        cases op with
        | commit => exact ⟨p, u, _, _, List.mem_cons_self, h, hafter⟩
        | select => exact absurd hafter h
        | lock row => exact absurd hafter h
        | write update => exact absurd hafter h
        | close => exact absurd hafter h

variable [DecidableEq Pid]

/-- `w` after process `p` became `proc` with the event `ev`. -/
def put (w : World I Pid δ) (p : Pid) (s : I.Store) (proc : Proc I (δ p)) (ev : Event I) :
    World I Pid δ where
  store := s
  procs := Function.update w.procs p proc
  log := (p, ev) :: w.log

theorem put_self {w : World I Pid δ} {p : Pid} {s : I.Store} {proc : Proc I (δ p)}
    {ev : Event I} : (w.put p s proc ev).procs p = proc :=
  Function.update_self ..

theorem step_put {w : World I Pid δ} {p : Pid} {s : I.Store} {proc : Proc I (δ p)}
    {ev : Event I} (h : Proc.Step Fault (w.Free p) w.store (w.procs p) ev s proc) :
    Step Fault w (w.put p s proc ev) := by
  refine ⟨p, ev, ?_, fun p' hne => Function.update_of_ne hne _ _, rfl⟩
  rw [put_self]
  exact h

/-- A process can be driven to its end at any time, by interrupting what it has not done
    yet, so it commits nothing more. -/
theorem exists_stopped {e : I.Error} (hfault : Fault e) (answer : (q : I.Query) → I.Answer q)
    (w : World I Pid δ) (p : Pid) :
    ∃ w' r new, Reaches Fault w w' ∧ (w'.procs p).prog = Prog.lift r ∧
      (w'.procs p).loc.trace = new ++ (w.procs p).loc.trace ∧ commits new = [] := by
  rcases hproc : w.procs p with ⟨prog, l⟩
  induction prog generalizing w l with
  | ret a => exact ⟨w, .ok a, [], .refl, by rw [hproc]; rfl, by rw [hproc]; rfl, rfl⟩
  | raise x => exact ⟨w, .error x, [], .refl, by rw [hproc]; rfl, by rw [hproc]; rfl, rfl⟩
  | ask q k ih =>
    have hstep : Step Fault w (w.put p w.store ⟨k (answer q), l.asked q (answer q)⟩
        (.asked q (answer q))) := step_put (hproc ▸ .asked _)
    obtain ⟨w', r, new, hreach, hend, htrace, hcommits⟩ := ih (answer q) _ _ put_self
    refine ⟨w', r, new ++ [.asked q (answer q)], .head hstep hreach, hend, ?_, ?_⟩
    · rw [htrace, List.append_assoc]
      rfl
    · rw [commits_append, hcommits]
      rfl
  | db u op k ih =>
    have hstep : Step Fault w (w.put p w.store ⟨k (.error e), l.cut u op e⟩ (.cut u op e)) :=
      step_put (hproc ▸ .cut op e hfault)
    obtain ⟨w', r, new, hreach, hend, htrace, hcommits⟩ := ih (.error e) _ _ put_self
    refine ⟨w', r, new ++ [.cut u op e], .head hstep hreach, hend, ?_, ?_⟩
    · rw [htrace, List.append_assoc]
      rfl
    · rw [commits_append, hcommits]
      rfl

/-! ## Executable schedules -/

/-- Process `p` performs its next node, which is answered by `answer` and never
    interrupted. -/
def advance (answer : Pid → (q : I.Query) → I.Answer q) (w : World I Pid δ) (p : Pid) :
    World I Pid δ :=
  let proc := w.procs p
  match proc.prog with
  | .ret _ => w
  | .raise _ => w
  | .ask q k =>
    w.put p w.store ⟨k (answer p q), proc.loc.asked q (answer p q)⟩ (.asked q (answer p q))
  | .db u op k =>
    let s' := op.committed (proc.loc.pending w.store) w.store
    w.put p s' ⟨k (.ok ((proc.loc.did u op w.store).pending s')), proc.loc.did u op w.store⟩
      (.did u op w.store s')

/-- Process `p` does not wait for a row. -/
def Ready (w : World I Pid δ) (p : Pid) : Prop :=
  match (w.procs p).prog with
  | .db _ (.lock row) _ => w.Free p row
  | _ => True

instance [Fintype Pid] [DecidableEq I.Row] (w : World I Pid δ) (p : Pid) : Decidable (w.Ready p) :=
  match h : (w.procs p).prog with
  | .ret _ => isTrue (by unfold Ready; rw [h]; trivial)
  | .raise _ => isTrue (by unfold Ready; rw [h]; trivial)
  | .ask _ _ => isTrue (by unfold Ready; rw [h]; trivial)
  | .db _ (.lock row) _ => decidable_of_iff (∀ p', p' ≠ p → row ∉ (w.procs p').loc.held)
      (by unfold Ready; rw [h]; exact Iff.rfl)
  | .db _ .select _ => isTrue (by unfold Ready; rw [h]; trivial)
  | .db _ (.write _) _ => isTrue (by unfold Ready; rw [h]; trivial)
  | .db _ .commit _ => isTrue (by unfold Ready; rw [h]; trivial)
  | .db _ .close _ => isTrue (by unfold Ready; rw [h]; trivial)

/-- The processes take their next nodes in the given order. -/
def follow (answer : Pid → (q : I.Query) → I.Answer q) : World I Pid δ → List Pid → World I Pid δ
  | w, [] => w
  | w, p :: schedule => follow answer (w.advance answer p) schedule

/-- No process of the schedule waits for a row. -/
def Legal (answer : Pid → (q : I.Query) → I.Answer q) : World I Pid δ → List Pid → Prop
  | _, [] => True
  | w, p :: schedule => w.Ready p ∧ Legal answer (w.advance answer p) schedule

/-- `Legal` is decided along the schedule. -/
def decideLegal [Fintype Pid] [DecidableEq I.Row] (answer : Pid → (q : I.Query) → I.Answer q) :
    (w : World I Pid δ) → (schedule : List Pid) → Decidable (Legal answer w schedule)
  | _, [] => isTrue trivial
  | w, p :: schedule =>
    @instDecidableAnd _ _ inferInstance (decideLegal answer (w.advance answer p) schedule)

instance [Fintype Pid] [DecidableEq I.Row] (answer : Pid → (q : I.Query) → I.Answer q)
    (w : World I Pid δ) (schedule : List Pid) : Decidable (Legal answer w schedule) :=
  decideLegal answer w schedule

theorem step_advance {answer : Pid → (q : I.Query) → I.Answer q} {w : World I Pid δ} {p : Pid}
    (h : w.Ready p) : w.advance answer p = w ∨ Step Fault w (w.advance answer p) := by
  unfold Ready at h
  unfold advance
  rcases hproc : w.procs p with ⟨prog, l⟩
  rw [hproc] at h
  cases prog with
  | ret a => exact .inl rfl
  | raise e => exact .inl rfl
  | ask q k =>
    refine .inr (step_put ?_)
    rw [hproc]
    exact .asked _
  | db u op k =>
    refine .inr (step_put ?_)
    rw [hproc]
    refine .did op fun row hop => ?_
    subst hop
    exact h

theorem reaches_follow {answer : Pid → (q : I.Query) → I.Answer q} {w : World I Pid δ}
    {schedule : List Pid} (h : Legal answer w schedule) :
    Reaches Fault w (w.follow answer schedule) := by
  induction schedule generalizing w with
  | nil => exact .refl
  | cons p schedule ih =>
    have hnext : w.advance answer p = w ∨ Step Fault w (w.advance answer p) := step_advance h.1
    rcases hnext with hsame | hstep
    · rw [follow, hsame]
      exact ih (hsame ▸ h.2)
    · exact .head hstep (ih h.2)

end World

end Txn

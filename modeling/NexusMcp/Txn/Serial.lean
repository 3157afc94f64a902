-- SUMMARY: Programs of serialised transactions over one store, their interleavings and the rule for invariants.
import Mathlib.Data.List.Basic
import Mathlib.Logic.Function.Basic

/-!
# Serial Transactions

A transaction that locks what it reads is a function of the committed store. A program
is then a sequence of transactions, each chosen by the outcomes of those before it, and
other programs run between them but not inside them.
-/

namespace Txn

/-! ## Programs -/

/-- A transaction: the value it returns and the store it commits, or the error that rolls
    it back. -/
abbrev Transaction (S E α : Type) := S → Except E (α × S)

inductive Serial (S E : Type) (α : Type) : Type 1 where
  | done (result : Except E α)
  | transaction {β : Type} (body : Transaction S E β) (k : Except E β → Serial S E α)

namespace Serial

variable {S E α β : Type}

/-- Run `p` and continue with its result, or stop with its error. -/
def bind : Serial S E α → (α → Serial S E β) → Serial S E β
  | .done (.ok a), f => f a
  | .done (.error e), _ => .done (.error e)
  | .transaction body k, f => .transaction body fun r => (k r).bind f

instance : Monad (Serial S E) where
  pure a := .done (.ok a)
  bind := .bind

/-- One transaction. -/
def atomically (body : Transaction S E α) : Serial S E α := .transaction body .done

/-- A computation outside of every transaction. -/
def lift (result : Except E α) : Serial S E α := .done result

/-- `p`, with its errors passed to `handler`. -/
def tryCatch : Serial S E α → (E → Serial S E α) → Serial S E α
  | .done (.ok a), _ => .done (.ok a)
  | .done (.error e), handler => handler e
  | .transaction body k, handler => .transaction body fun r => (k r).tryCatch handler

/-! ## What the transactions of a program do -/

/-- Every transaction of the program relates the store it starts from to the one that it
    commits by `R`, whatever the outcomes of the transactions before it. -/
def Commits (R : S → S → Prop) : Serial S E α → Prop
  | .done _ => True
  | .transaction body k =>
    (∀ s b s', body s = .ok (b, s') → R s s') ∧ ∀ r, (k r).Commits R

variable {R : S → S → Prop}

@[simp] theorem commits_lift {result : Except E α} : (lift result : Serial S E α).Commits R :=
  trivial

@[simp] theorem commits_pure {a : α} : (pure a : Serial S E α).Commits R := trivial

theorem commits_atomically {body : Transaction S E α} :
    (atomically body).Commits R ↔ ∀ s b s', body s = .ok (b, s') → R s s' := by
  simp [atomically, Commits]

theorem Commits.mono {R' : S → S → Prop} {p : Serial S E α} (hp : p.Commits R)
    (h : ∀ s s', R s s' → R' s s') : p.Commits R' := by
  induction p with
  | done result => trivial
  | transaction body k ih =>
    exact ⟨fun s b s' hbody => h s s' (hp.1 s b s' hbody), fun r => ih r (hp.2 r)⟩

theorem Commits.and {R' : S → S → Prop} {p : Serial S E α} (hp : p.Commits R)
    (hp' : p.Commits R') : p.Commits fun s s' => R s s' ∧ R' s s' := by
  induction p with
  | done result => trivial
  | transaction body k ih =>
    exact ⟨fun s b s' hbody => ⟨hp.1 s b s' hbody, hp'.1 s b s' hbody⟩,
      fun r => ih r (hp.2 r) (hp'.2 r)⟩

theorem Commits.bind {p : Serial S E α} {f : α → Serial S E β} (hp : p.Commits R)
    (hf : ∀ a, (f a).Commits R) : (p >>= f).Commits R := by
  change (p.bind f).Commits R
  induction p with
  | done result =>
    cases result with
    | ok a => exact hf a
    | error e => trivial
  | transaction body k ih => exact ⟨hp.1, fun r => ih r (hp.2 r)⟩

/-- A transaction and what follows it. -/
theorem Commits.atomically_bind {body : Transaction S E α} {f : α → Serial S E β}
    (hbody : ∀ s a s', body s = .ok (a, s') → R s s') (hf : ∀ a, (f a).Commits R) :
    (atomically body >>= f).Commits R :=
  (commits_atomically.2 hbody).bind hf

theorem Commits.tryCatch {p : Serial S E α} {handler : E → Serial S E α} (hp : p.Commits R)
    (hhandler : ∀ e, (handler e).Commits R) : (p.tryCatch handler).Commits R := by
  induction p with
  | done result =>
    cases result with
    | ok a => trivial
    | error e => exact hhandler e
  | transaction body k ih => exact ⟨hp.1, fun r => ih r (hp.2 r)⟩

end Serial

/-! ## Interleavings -/

/-- What a process committed: the store before and after. -/
structure Commit (S Pid : Type) where
  pid : Pid
  before : S
  after : S

/-- The committed store, what remains of each process, and the commits so far, newest
    first. -/
structure SerialWorld (S E Pid : Type) (δ : Pid → Type) where
  store : S
  procs : (p : Pid) → Serial S E (δ p)
  commits : List (Commit S Pid)

namespace SerialWorld

variable {S E Pid : Type} {δ : Pid → Type}

def start (s : S) (procs : (p : Pid) → Serial S E (δ p)) : SerialWorld S E Pid δ where
  store := s
  procs := procs
  commits := []

/-- One process makes its next transaction. It may also be interrupted: then nothing is
    committed, and the program sees the error. -/
inductive Step (Fault : E → Prop) : SerialWorld S E Pid δ → SerialWorld S E Pid δ → Prop where
  | committed {w w' : SerialWorld S E Pid δ} {p : Pid} {β : Type} {body : Transaction S E β}
      {k : Except E β → Serial S E (δ p)} {b : β} {s : S} (hproc : w.procs p = .transaction body k)
      (hbody : body w.store = .ok (b, s)) (hstore : w'.store = s)
      (hself : w'.procs p = k (.ok b)) (hothers : ∀ q, q ≠ p → w'.procs q = w.procs q)
      (hcommits : w'.commits = ⟨p, w.store, s⟩ :: w.commits) : Step Fault w w'
  | rolledBack {w w' : SerialWorld S E Pid δ} {p : Pid} {β : Type} {body : Transaction S E β}
      {k : Except E β → Serial S E (δ p)} {e : E} (hproc : w.procs p = .transaction body k)
      (herror : body w.store = .error e ∨ Fault e) (hstore : w'.store = w.store)
      (hself : w'.procs p = k (.error e)) (hothers : ∀ q, q ≠ p → w'.procs q = w.procs q)
      (hcommits : w'.commits = w.commits) : Step Fault w w'

/-- `w'` is reached from `w`. -/
inductive Reaches (Fault : E → Prop) (w : SerialWorld S E Pid δ) :
    SerialWorld S E Pid δ → Prop where
  | refl : Reaches Fault w w
  | tail {w' w'' : SerialWorld S E Pid δ} (h : Reaches Fault w w') (hstep : Step Fault w' w'') :
      Reaches Fault w w''

/-- The commits lead from one store to another. -/
def Linked : S → List (Commit S Pid) → S → Prop
  | s, [], s' => s' = s
  | s, commit :: earlier, s' => s' = commit.after ∧ Linked s earlier commit.before

variable {Fault : E → Prop} {w w' : SerialWorld S E Pid δ} {R : Pid → S → S → Prop}

/-- What remains of each process commits within its relation, and so does what happened. -/
structure Within (R : Pid → S → S → Prop) (s : S) (w : SerialWorld S E Pid δ) : Prop where
  procs : ∀ p, (w.procs p).Commits (R p)
  commits : ∀ c ∈ w.commits, R c.pid c.before c.after
  linked : Linked s w.commits w.store

/-- What remains after a transaction commits within the relation of its process. -/
theorem commits_procs_step (h : ∀ p, (w.procs p).Commits (R p)) {p : Pid} {β : Type}
    {body : Transaction S E β} {k : Except E β → Serial S E (δ p)} {r : Except E β}
    (hproc : w.procs p = .transaction body k) (hself : w'.procs p = k r)
    (hothers : ∀ q, q ≠ p → w'.procs q = w.procs q) (q : Pid) : (w'.procs q).Commits (R q) := by
  by_cases hq : q = p
  · subst hq
    have hcommits := h q
    rw [hproc] at hcommits
    rw [hself]
    exact hcommits.2 r
  · rw [hothers q hq]
    exact h q

theorem Within.step {s : S} (h : w.Within R s) (hstep : Step Fault w w') : w'.Within R s := by
  cases hstep with
  | @committed p _ body k b s' hproc hbody hstore hself hothers hcommits =>
    have hcommit := h.procs p
    rw [hproc] at hcommit
    refine ⟨commits_procs_step h.procs hproc hself hothers, ?_, ?_⟩
    · rw [hcommits, List.forall_mem_cons]
      exact ⟨hcommit.1 _ _ _ hbody, h.commits⟩
    · rw [hcommits, hstore]
      exact ⟨rfl, h.linked⟩
  | @rolledBack p _ body k e hproc herror hstore hself hothers hcommits =>
    refine ⟨commits_procs_step h.procs hproc hself hothers, ?_, ?_⟩
    · rw [hcommits]
      exact h.commits
    · rw [hcommits, hstore]
      exact h.linked

/-- In every run, each commit is one that its process may make, and together they lead from
    the first store to the present one. -/
theorem within_of_reaches {s : S} {procs : (p : Pid) → Serial S E (δ p)}
    (hprocs : ∀ p, (procs p).Commits (R p)) (h : Reaches Fault (start s procs) w) :
    w.Within R s := by
  induction h with
  | refl =>
    refine ⟨hprocs, ?_, rfl⟩
    intro c hc
    exact absurd hc List.not_mem_nil
  | tail _ hstep ih => exact ih.step hstep

/-- What every commit relates, a run from one world to another relates. -/
theorem Reaches.related {P : S → S → Prop} (h : Reaches Fault w w')
    (hprocs : ∀ p, (w.procs p).Commits (R p)) (hrefl : ∀ s, P s s)
    (htrans : ∀ s s' s'', P s s' → P s' s'' → P s s'') (hR : ∀ p s s', R p s s' → P s s') :
    (∀ p, (w'.procs p).Commits (R p)) ∧ P w.store w'.store := by
  induction h with
  | refl => exact ⟨hprocs, hrefl _⟩
  | tail _ hstep ih =>
    obtain ⟨hprocs', hrelated⟩ := ih
    cases hstep with
    | @committed p _ body k b s hproc hbody hstore hself hothers hcommits =>
      have hcommit := hprocs' p
      rw [hproc] at hcommit
      refine ⟨commits_procs_step hprocs' hproc hself hothers, htrans _ _ _ hrelated ?_⟩
      rw [hstore]
      exact hR p _ _ (hcommit.1 _ _ _ hbody)
    | @rolledBack p _ body k e hproc herror hstore hself hothers hcommits =>
      refine ⟨commits_procs_step hprocs' hproc hself hothers, ?_⟩
      rw [hstore]
      exact hrelated

/-- The induction over the commits of a run: what holds at first and is kept by each commit
    holds of the present store and of the stores before and after each commit. -/
theorem Linked.invariant {I : S → Prop} {s s' : S} {commits : List (Commit S Pid)}
    (hlinked : Linked s commits s') (hstart : I s)
    (hkept : ∀ c ∈ commits, I c.before → I c.after) : I s' ∧ ∀ c ∈ commits, I c.before := by
  induction commits generalizing s' with
  | nil =>
    obtain rfl := hlinked
    exact ⟨hstart, fun c hc => absurd hc List.not_mem_nil⟩
  | cons commit earlier ih =>
    obtain ⟨rfl, hearlier⟩ := hlinked
    obtain ⟨hbefore, hall⟩ := ih hearlier fun c hc => hkept c (List.mem_cons_of_mem _ hc)
    refine ⟨hkept commit List.mem_cons_self hbefore, ?_⟩
    intro c hc
    rcases List.mem_cons.1 hc with rfl | hc
    · exact hbefore
    · exact hall c hc

/-- A state after a commit is the last one or the state before another commit. -/
theorem Linked.after {I : S → Prop} {s s' : S} {commits : List (Commit S Pid)}
    (hlinked : Linked s commits s') (hlast : I s') (hall : ∀ c ∈ commits, I c.before) :
    ∀ c ∈ commits, I c.after := by
  induction commits generalizing s' with
  | nil => exact fun c hc => absurd hc List.not_mem_nil
  | cons commit earlier ih =>
    obtain ⟨rfl, hearlier⟩ := hlinked
    rw [List.forall_mem_cons] at hall ⊢
    exact ⟨hlast, ih hearlier hall.1 hall.2⟩

/-! ## Running alone -/

theorem Reaches.head {w₁ w₂ w₃ : SerialWorld S E Pid δ} (hstep : Step Fault w₁ w₂)
    (h : Reaches Fault w₂ w₃) : Reaches Fault w₁ w₃ := by
  induction h with
  | refl => exact .tail .refl hstep
  | tail _ hlast ih => exact .tail ih hlast

theorem Reaches.trans {w₁ w₂ w₃ : SerialWorld S E Pid δ} (h : Reaches Fault w₁ w₂)
    (h' : Reaches Fault w₂ w₃) : Reaches Fault w₁ w₃ := by
  induction h' with
  | refl => exact h
  | tail _ hlast ih => exact .tail ih hlast

variable [DecidableEq Pid]

/-- The world after the process `p` has run a program to its end with nobody between. -/
def runAlone (p : Pid) : Serial S E (δ p) → SerialWorld S E Pid δ → SerialWorld S E Pid δ
  | .done result, w => { w with procs := Function.update w.procs p (.done result) }
  | .transaction body k, w =>
    match body w.store with
    | .ok (b, s) =>
      runAlone p (k (.ok b)) { w with store := s, commits := ⟨p, w.store, s⟩ :: w.commits }
    | .error e => runAlone p (k (.error e)) w

/-- Programs that run one after the other. -/
def runInOrder (w : SerialWorld S E Pid δ) : List Pid → SerialWorld S E Pid δ
  | [] => w
  | p :: ps => (runAlone p (w.procs p) w).runInOrder ps

/-- Setting the program of a process aside does not change what is done to the others. -/
theorem runAlone_update {p : Pid} (prog rest : Serial S E (δ p)) (w : SerialWorld S E Pid δ) :
    runAlone p prog { w with procs := Function.update w.procs p rest } = runAlone p prog w := by
  induction prog generalizing w with
  | done result => simp [runAlone]
  | transaction body k ih =>
    unfold runAlone
    dsimp only
    cases body w.store with
    | error e => exact ih (.error e) w
    | ok result => exact ih (.ok result.1) { w with store := result.2, commits := _ }

/-- A process that runs alone makes a run of the world. -/
theorem reaches_runAlone {p : Pid} (prog : Serial S E (δ p)) {w : SerialWorld S E Pid δ}
    (hprog : w.procs p = prog) : Reaches Fault w (runAlone p prog w) := by
  induction prog generalizing w with
  | done result =>
    have heq : ({ w with procs := Function.update w.procs p (.done result) } :
        SerialWorld S E Pid δ) = w := by
      rw [← hprog, Function.update_eq_self]
    unfold runAlone
    rw [heq]
    exact .refl
  | transaction body k ih =>
    unfold runAlone
    cases hbody : body w.store with
    | error e =>
      dsimp only
      rw [← runAlone_update _ (k (.error e))]
      refine .head ?_ (ih (.error e) (Function.update_self ..))
      refine .rolledBack hprog (.inl hbody) rfl (Function.update_self ..) ?_ rfl
      intro q hq
      exact Function.update_of_ne hq _ _
    | ok result =>
      obtain ⟨b, s⟩ := result
      dsimp only
      rw [← runAlone_update _ (k (.ok b))]
      refine .head ?_ (ih (.ok b) (Function.update_self ..))
      refine .committed hprog hbody rfl (Function.update_self ..) ?_ rfl
      intro q hq
      exact Function.update_of_ne hq _ _

theorem reaches_runInOrder (w : SerialWorld S E Pid δ) (ps : List Pid) :
    Reaches Fault w (w.runInOrder ps) := by
  induction ps generalizing w with
  | nil => exact .refl
  | cons p ps ih => exact (reaches_runAlone (w.procs p) rfl).trans (ih _)

end SerialWorld

end Txn

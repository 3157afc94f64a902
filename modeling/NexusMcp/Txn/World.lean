-- SUMMARY: Interleaved runs of any number of programs over one store, and rely-guarantee reasoning about them.
import NexusMcp.Txn.Session
import Mathlib.Logic.Relation

/-!
# Interleaved Runs

Any number of processes run programs over one committed store. A process sees the
committed store through its own buffered writes, holds the rows it locked until
its unit of work commits or closes, and may be interrupted at every operation.
The scheduler, the answers and the interruptions are arbitrary.
-/

namespace Txn

variable {I : Interface} {α β : Type}

/-! ## Processes -/

/-- The private state of a process: its buffered writes, the rows it holds, and
    what it did, newest first. -/
structure Local (I : Interface) where
  pending : I.Store → I.Store
  held : List I.Row
  trace : List (Event I)

/-- The buffered writes after `op`. -/
def Op.pending : Op I → (I.Store → I.Store) → I.Store → I.Store
  | .write update, pending => fun s => update (pending s)
  | .commit, _ => id
  | .close, _ => id
  | _, pending => pending

/-- The rows held after `op`. -/
def Op.held : Op I → List I.Row → List I.Row
  | .lock row, held => row :: held
  | .commit, _ => []
  | .close, _ => []
  | _, held => held

/-- The buffered writes after `op` was interrupted. -/
def Op.pendingCut : Op I → (I.Store → I.Store) → I.Store → I.Store
  | .close, _ => id
  | _, pending => pending

/-- The rows held after `op` was interrupted. -/
def Op.heldCut : Op I → List I.Row → List I.Row
  | .close, _ => []
  | _, held => held

/-- The event is a commit. -/
def Event.IsCommit : Event I → Prop
  | .did _ .commit _ _ => True
  | _ => False

namespace Local

/-- A process that has not started. -/
def start : Local I := { pending := id, held := [], trace := [] }

def asked (l : Local I) (q : I.Query) (a : I.Answer q) : Local I :=
  { l with trace := .asked q a :: l.trace }

/-- `op` was performed on the committed store `s`. -/
def did (l : Local I) (u : I.Scope) (op : Op I) (s : I.Store) : Local I where
  pending := op.pending l.pending
  held := op.held l.held
  trace := .did u op s (op.committed (l.pending s) s) :: l.trace

def cut (l : Local I) (u : I.Scope) (op : Op I) (e : I.Error) : Local I where
  pending := op.pendingCut l.pending
  held := op.heldCut l.held
  trace := .cut u op e :: l.trace

/-- `l'` continues `l` without a commit. -/
def Quiet (l l' : Local I) : Prop :=
  ∃ new, l'.trace = new ++ l.trace ∧ ∀ ev ∈ new, ¬ ev.IsCommit

theorem Quiet.refl (l : Local I) : l.Quiet l := ⟨[], rfl, fun _ h => absurd h List.not_mem_nil⟩

theorem Quiet.trans {l₁ l₂ l₃ : Local I} (h : l₁.Quiet l₂) (h' : l₂.Quiet l₃) : l₁.Quiet l₃ := by
  obtain ⟨new, htrace, hnew⟩ := h
  obtain ⟨new', htrace', hnew'⟩ := h'
  refine ⟨new' ++ new, by rw [htrace', htrace, List.append_assoc], fun ev hev => ?_⟩
  rcases List.mem_append.1 hev with hev | hev
  · exact hnew' ev hev
  · exact hnew ev hev

theorem Quiet.of_cons {l l' : Local I} {ev : Event I} (htrace : l'.trace = ev :: l.trace)
    (hev : ¬ ev.IsCommit) : l.Quiet l' :=
  ⟨[ev], htrace, fun _ h => List.mem_singleton.1 h ▸ hev⟩

theorem quiet_asked (l : Local I) (q : I.Query) (a : I.Answer q) : l.Quiet (l.asked q a) :=
  .of_cons rfl id

theorem quiet_did (l : Local I) (u : I.Scope) (op : Op I) (s : I.Store) (h : op ≠ .commit) :
    l.Quiet (l.did u op s) :=
  .of_cons rfl (by cases op <;> simp_all [Event.IsCommit])

/-- `l'` continues `l` without a commit, and an operation on the way found the store `s`. -/
def QuietAt (l l' : Local I) (s : I.Store) : Prop :=
  ∃ l₁ u op, l.Quiet l₁ ∧ op ≠ .commit ∧ (l₁.did u op s).Quiet l'

theorem quietAt_did (l : Local I) (u : I.Scope) (op : Op I) (s : I.Store) (h : op ≠ .commit) :
    l.QuietAt (l.did u op s) s :=
  ⟨l, u, op, .refl l, h, .refl _⟩

theorem QuietAt.quiet {l l' : Local I} {s : I.Store} (h : l.QuietAt l' s) : l.Quiet l' := by
  obtain ⟨l₁, u, op, hbefore, hop, hafter⟩ := h
  exact (hbefore.trans (quiet_did l₁ u op s hop)).trans hafter

theorem Quiet.transAt {l₁ l₂ l₃ : Local I} {s : I.Store} (h : l₁.Quiet l₂)
    (h' : l₂.QuietAt l₃ s) : l₁.QuietAt l₃ s := by
  obtain ⟨l, u, op, hbefore, hop, hafter⟩ := h'
  exact ⟨l, u, op, h.trans hbefore, hop, hafter⟩

/-- What happened between two quiet stretches is in the trace. -/
theorem Quiet.mem_between {l l₁ l₂ l' : Local I} {ev : Event I} {new : List (Event I)}
    (hbefore : l.Quiet l₁) (hevent : l₂.trace = ev :: l₁.trace) (hafter : l₂.Quiet l')
    (htrace : l'.trace = new ++ l.trace) : ev ∈ new := by
  obtain ⟨older, holder, -⟩ := hbefore
  obtain ⟨newer, hnewer, -⟩ := hafter
  rw [htrace, hevent, holder, ← List.cons_append, ← List.append_assoc] at hnewer
  rw [List.append_cancel_right hnewer]
  simp

theorem QuietAt.mem {l l' : Local I} {s : I.Store} {new : List (Event I)} (h : l.QuietAt l' s)
    (htrace : l'.trace = new ++ l.trace) : ∃ u op s', .did u op s s' ∈ new := by
  obtain ⟨l₁, u, op, hbefore, -, hafter⟩ := h
  exact ⟨u, op, _, hbefore.mem_between rfl hafter htrace⟩

end Local

structure Proc (I : Interface) (α : Type) where
  prog : Prog I α
  loc : Local I

/-- A process about to run `p`. -/
def Proc.start (p : Prog I α) : Proc I α := { prog := p, loc := .start }

/-- One step of a process on the committed store. `Fault` lists the errors that may
    interrupt it, and `free` the rows nobody else holds. -/
inductive Proc.Step (Fault : I.Error → Prop) (free : I.Row → Prop) :
    I.Store → Proc I α → Event I → I.Store → Proc I α → Prop where
  | asked {s q k l} (a : I.Answer q) :
      Step Fault free s ⟨.ask q k, l⟩ (.asked q a) s ⟨k a, l.asked q a⟩
  | did {s u k l} (op : Op I) (hfree : ∀ row, op = .lock row → free row) :
      Step Fault free s ⟨.db u op k, l⟩ (.did u op s (op.committed (l.pending s) s))
        (op.committed (l.pending s) s)
        ⟨k (.ok ((l.did u op s).pending (op.committed (l.pending s) s))), l.did u op s⟩
  | cut {s u k l} (op : Op I) (e : I.Error) (he : Fault e) :
      Step Fault free s ⟨.db u op k, l⟩ (.cut u op e) s ⟨k (.error e), l.cut u op e⟩

/-- `l'` continues `l` without a commit, to the given buffered writes and held rows. -/
structure Local.Into (l l' : Local I) (pending : I.Store → I.Store) (held : List I.Row) : Prop where
  pending : l'.pending = pending
  held : l'.held = held
  quiet : l.Quiet l'

/-! ## Worlds -/

/-- The committed store, the processes, and everything that happened so far, newest
    first and with the process it happened to. -/
structure World (I : Interface) (Pid : Type) (α : Pid → Type) where
  store : I.Store
  procs : (p : Pid) → Proc I (α p)
  log : List (Pid × Event I)

variable {Pid : Type} {δ : Pid → Type}

namespace World

/-- All processes are about to run their program. -/
def start (s : I.Store) (progs : (p : Pid) → Prog I (δ p)) : World I Pid δ where
  store := s
  procs p := .start (progs p)
  log := []

/-- Nobody but `p` holds `row`. -/
def Free (w : World I Pid δ) (p : Pid) (row : I.Row) : Prop :=
  ∀ p', p' ≠ p → row ∉ (w.procs p').loc.held

/-- Process `p` makes the step `ev`. -/
structure StepBy (Fault : I.Error → Prop) (p : Pid) (ev : Event I) (w w' : World I Pid δ) :
    Prop where
  proc : Proc.Step Fault (w.Free p) w.store (w.procs p) ev w'.store (w'.procs p)
  others : ∀ p', p' ≠ p → w'.procs p' = w.procs p'
  log : w'.log = (p, ev) :: w.log

def Step (Fault : I.Error → Prop) (w w' : World I Pid δ) : Prop :=
  ∃ p ev, w.StepBy Fault p ev w'

/-- `w'` can be reached from `w` by some interleaving. -/
def Reaches (Fault : I.Error → Prop) : World I Pid δ → World I Pid δ → Prop :=
  Relation.ReflTransGen (Step Fault)

end World

/-! ## Contracts -/

/-- What the processes of a world promise each other: an invariant of the committed
    store, how a commit may change it, when a row counts as untouched, and when a
    question may be asked. -/
structure Contract (I : Interface) where
  inv : I.Store → Prop
  step : I.Store → I.Store → Prop
  same : I.Row → I.Store → I.Store → Prop
  permit : I.Query → I.Store → Prop
  same_refl : ∀ row s, same row s s
  same_trans : ∀ row s₁ s₂ s₃, same row s₁ s₂ → same row s₂ s₃ → same row s₁ s₃

namespace Contract

variable {C : Contract I}

/-- What a process that holds `held` may assume about the changes of the others. -/
structure Rely (C : Contract I) (held : List I.Row) (s s' : I.Store) : Prop where
  inv : C.inv s'
  steps : Relation.ReflTransGen C.step s s'
  same : ∀ row ∈ held, C.same row s s'

/-- What a process that holds `held` must guarantee about its own commit. -/
structure Guarantee (C : Contract I) (held : List I.Row) (s s' : I.Store) : Prop where
  inv : C.inv s'
  step : C.step s s'
  same : ∀ row, row ∉ held → C.same row s s'

theorem Rely.refl {held : List I.Row} {s : I.Store} (h : C.inv s) : C.Rely held s s :=
  ⟨h, .refl, fun row _ => C.same_refl row s⟩

theorem Rely.trans {held : List I.Row} {s₁ s₂ s₃ : I.Store} (h : C.Rely held s₁ s₂)
    (h' : C.Rely held s₂ s₃) : C.Rely held s₁ s₃ :=
  ⟨h'.inv, h.steps.trans h'.steps, fun row hr =>
    C.same_trans row _ _ _ (h.same row hr) (h'.same row hr)⟩

theorem Rely.weaken {held held' : List I.Row} {s s' : I.Store} (h : C.Rely held s s')
    (hsub : ∀ row ∈ held', row ∈ held) : C.Rely held' s s' :=
  ⟨h.inv, h.steps, fun row hr => h.same row (hsub row hr)⟩

/-! ## Safety of a program

`safe` is the weakest precondition of a program under interference: before every
node the others may change the store as `Rely` allows. -/

/-- Run from the private state `l`, with the committed store `s`, `p` keeps the
    contract and ends in a state that satisfies `Q`. -/
def safe (C : Contract I) (Fault : I.Error → Prop)
    (Q : Except I.Error α → Local I → I.Store → Prop) : Prog I α → Local I → I.Store → Prop
  | .ret a, l, s => Q (.ok a) l s
  | .raise e, l, s => Q (.error e) l s
  | .ask q k, l, s => ∀ s', C.Rely l.held s s' →
      C.permit q s' ∧ ∀ a, safe C Fault Q (k a) (l.asked q a) s'
  | .db u op k, l, s => ∀ s', C.Rely l.held s s' →
      (∀ e, Fault e → safe C Fault Q (k (.error e)) (l.cut u op e) s') ∧
      (op = .commit → C.Guarantee l.held s' (l.pending s')) ∧
      safe C Fault Q
        (k (.ok ((l.did u op s').pending (op.committed (l.pending s') s'))))
        (l.did u op s') (op.committed (l.pending s') s')

section Rules

variable {Fault : I.Error → Prop} {Q Q' : Except I.Error α → Local I → I.Store → Prop}
  {l : Local I} {s : I.Store}

theorem safe_mono {p : Prog I α} (h : ∀ r l s, Q r l s → Q' r l s)
    (hp : C.safe Fault Q p l s) : C.safe Fault Q' p l s := by
  induction p generalizing l s with
  | ret a => exact h _ _ _ hp
  | raise e => exact h _ _ _ hp
  | ask q k ih => exact fun s' hs => ⟨(hp s' hs).1, fun a => ih a ((hp s' hs).2 a)⟩
  | db u op k ih =>
    intro s' hs
    obtain ⟨hcut, hguar, hdid⟩ := hp s' hs
    exact ⟨fun e he => ih _ (hcut e he), hguar, ih _ hdid⟩

/-- What is safe also keeps track of the store: it comes from where the program started. -/
theorem safe_history {p : Prog I α} {s₀ : I.Store} (h₀ : Relation.ReflTransGen C.step s₀ s)
    (hp : C.safe Fault Q p l s) :
    C.safe Fault (fun r l s' => Q r l s' ∧ Relation.ReflTransGen C.step s₀ s') p l s := by
  induction p generalizing l s with
  | ret a => exact ⟨hp, h₀⟩
  | raise e => exact ⟨hp, h₀⟩
  | ask q k ih =>
    exact fun s' hs => ⟨(hp s' hs).1, fun a => ih a (h₀.trans hs.steps) ((hp s' hs).2 a)⟩
  | db u op k ih =>
    intro s' hs
    obtain ⟨hcut, hguar, hdid⟩ := hp s' hs
    -- Others have taken their steps before this one, and a commit adds one.
    have h₁ := h₀.trans hs.steps
    refine ⟨fun e he => ih _ h₁ (hcut e he), hguar, ih _ ?_ hdid⟩
    cases op with
    | commit => exact h₁.tail (hguar rfl).step
    | select | lock row | write update | close => exact h₁

@[simp] theorem safe_ret {a : α} : C.safe Fault Q (.ret a) l s ↔ Q (.ok a) l s := Iff.rfl

@[simp] theorem safe_raise {e : I.Error} :
    C.safe Fault Q (.raise e : Prog I α) l s ↔ Q (.error e) l s := Iff.rfl

@[simp] theorem safe_bind {p : Prog I β} {f : β → Prog I α} :
    C.safe Fault Q (p.bind f) l s ↔
      C.safe Fault (fun r l s => match r with
        | .ok b => C.safe Fault Q (f b) l s
        | .error e => Q (.error e) l s) p l s := by
  induction p generalizing l s with
  | ret a => rfl
  | raise e => rfl
  | ask q k ih => simp only [Prog.bind, safe, ih]
  | db u op k ih => simp only [Prog.bind, safe, ih]

@[simp] theorem safe_attempt {p : Prog I β}
    {Q : Except I.Error (Except I.Error β) → Local I → I.Store → Prop} :
    C.safe Fault Q p.attempt l s ↔ C.safe Fault (fun r l s => Q (.ok r) l s) p l s := by
  induction p generalizing l s with
  | ret a => rfl
  | raise e => rfl
  | ask q k ih => simp only [Prog.attempt, safe, ih]
  | db u op k ih => simp only [Prog.attempt, safe, ih]

@[simp] theorem safe_tryCatch {p : Prog I α} {handler : I.Error → Prog I α} :
    C.safe Fault Q (p.tryCatch handler) l s ↔
      C.safe Fault (fun r l s => match r with
        | .ok a => Q (.ok a) l s
        | .error e => C.safe Fault Q (handler e) l s) p l s := by
  unfold Prog.tryCatch
  rw [safe_bind, safe_attempt]
  exact Iff.of_eq (congrArg (fun P => C.safe Fault P p l s) (by
    funext r l s; cases r <;> rfl))

@[simp] theorem safe_lift {r : Except I.Error α} :
    C.safe Fault Q (Prog.lift r) l s ↔ Q r l s := by
  cases r <;> rfl

@[simp] theorem safe_raiseIf {c : Prop} [Decidable c] {e : I.Error}
    {Q : Except I.Error Unit → Local I → I.Store → Prop} :
    C.safe Fault Q (Prog.raiseIf c e) l s ↔ (c → Q (.error e) l s) ∧ (¬ c → Q (.ok ()) l s) := by
  unfold Prog.raiseIf
  split <;> simp_all

@[simp] theorem safe_orRaise {x : Option α} {e : I.Error} :
    C.safe Fault Q (Prog.orRaise x e) l s ↔
      (x = none → Q (.error e) l s) ∧ ∀ a, x = some a → Q (.ok a) l s := by
  cases x <;> simp [Prog.orRaise]

/-! ### One rule for each operation -/

@[simp] theorem safe_select {u : I.Scope} {Q : Except I.Error I.Store → Local I → I.Store → Prop} :
    C.safe Fault Q (Prog.select u) l s ↔ ∀ s', C.Rely l.held s s' →
      (∀ e, Fault e → Q (.error e) (l.cut u .select e) s') ∧
      Q (.ok (l.pending s')) (l.did u .select s') s' :=
  forall₂_congr fun _ _ => and_congr_right fun _ =>
    ⟨fun h => h.2, fun h => ⟨fun hop => (by cases hop), h⟩⟩

@[simp] theorem safe_lock {u : I.Scope} {row : I.Row}
    {Q : Except I.Error I.Store → Local I → I.Store → Prop} :
    C.safe Fault Q (Prog.lock u row) l s ↔ ∀ s', C.Rely l.held s s' →
      (∀ e, Fault e → Q (.error e) (l.cut u (.lock row) e) s') ∧
      Q (.ok (l.pending s')) (l.did u (.lock row) s') s' :=
  forall₂_congr fun _ _ => and_congr_right fun _ =>
    ⟨fun h => h.2, fun h => ⟨fun hop => (by cases hop), h⟩⟩

@[simp] theorem safe_write {u : I.Scope} {update : I.Store → I.Store}
    {Q : Except I.Error Unit → Local I → I.Store → Prop} :
    C.safe Fault Q (Prog.write u update) l s ↔ ∀ s', C.Rely l.held s s' →
      (∀ e, Fault e → Q (.error e) (l.cut u (.write update) e) s') ∧
      Q (.ok ()) (l.did u (.write update) s') s' :=
  forall₂_congr fun _ _ => and_congr_right fun _ =>
    ⟨fun h => h.2, fun h => ⟨fun hop => (by cases hop), h⟩⟩

@[simp] theorem safe_commit {u : I.Scope} {Q : Except I.Error Unit → Local I → I.Store → Prop} :
    C.safe Fault Q (Prog.commit u) l s ↔ ∀ s', C.Rely l.held s s' →
      (∀ e, Fault e → Q (.error e) (l.cut u .commit e) s') ∧
      C.Guarantee l.held s' (l.pending s') ∧
      Q (.ok ()) (l.did u .commit s') (l.pending s') :=
  forall₂_congr fun _ _ => and_congr_right fun _ =>
    ⟨fun h => ⟨h.1 rfl, h.2⟩, fun h => ⟨fun _ => h.1, h.2⟩⟩

@[simp] theorem safe_close {u : I.Scope} {Q : Except I.Error Unit → Local I → I.Store → Prop} :
    C.safe Fault Q (Prog.close u) l s ↔ ∀ s', C.Rely l.held s s' →
      (∀ e, Fault e → Q (.error e) (l.cut u .close e) s') ∧
      Q (.ok ()) (l.did u .close s') s' :=
  forall₂_congr fun _ _ => and_congr_right fun _ =>
    ⟨fun h => h.2, fun h => ⟨fun hop => (by cases hop), h⟩⟩

/-- A unit of work: after its body the session is closed, or the closing interrupted. -/
@[simp] theorem safe_uow {u : I.Scope} {body : Prog I α} :
    C.safe Fault Q (Prog.uow u body) l s ↔
      C.safe Fault (fun r l s => ∀ s', C.Rely l.held s s' →
        (∀ e, Fault e → Q (.error e) (l.cut u .close e) s') ∧
        Q r (l.did u .close s') s') body l s := by
  unfold Prog.uow
  simp only [safe_bind, safe_attempt, safe_close, safe_lift]

/-! ### Stepping through a program

The rules below consume the first node of a program. `Absorbs` states once, for all
the operations up to the next commit, that the postcondition allows an interruption. -/

/-- `Q` allows `p`'s errors when an operation is interrupted before the next commit. -/
def Absorbs (Fault : I.Error → Prop) (Q : Except I.Error α → Local I → I.Store → Prop)
    (l : Local I) : Prop :=
  ∀ l', l.Quiet l' → ∀ u op e s, Fault e → Q (.error e) (l'.cut u op e) s

theorem Absorbs.of_quiet {l' : Local I} (h : Absorbs Fault Q l) (hq : l.Quiet l') :
    Absorbs Fault Q l' :=
  fun l'' hq' => h l'' (hq.trans hq')

theorem step_select {u : I.Scope} {k : I.Store → Prog I α} (hcut : Absorbs Fault Q l)
    (hok : ∀ s', C.Rely l.held s s' →
      C.safe Fault Q (k (l.pending s')) (l.did u .select s') s') :
    C.safe Fault Q ((Prog.select u).bind k) l s :=
  safe_bind.2 <| safe_select.2 fun s' hs =>
    ⟨fun e he => hcut l (.refl l) u _ e s' he, hok s' hs⟩

theorem step_lock {u : I.Scope} {row : I.Row} {k : I.Store → Prog I α}
    (hcut : Absorbs Fault Q l)
    (hok : ∀ s', C.Rely l.held s s' →
      C.safe Fault Q (k (l.pending s')) (l.did u (.lock row) s') s') :
    C.safe Fault Q ((Prog.lock u row).bind k) l s :=
  safe_bind.2 <| safe_lock.2 fun s' hs =>
    ⟨fun e he => hcut l (.refl l) u _ e s' he, hok s' hs⟩

theorem step_write {u : I.Scope} {update : I.Store → I.Store} {k : Unit → Prog I α}
    (hcut : Absorbs Fault Q l)
    (hok : ∀ s', C.Rely l.held s s' →
      C.safe Fault Q (k ()) (l.did u (.write update) s') s') :
    C.safe Fault Q ((Prog.write u update).bind k) l s :=
  safe_bind.2 <| safe_write.2 fun s' hs =>
    ⟨fun e he => hcut l (.refl l) u _ e s' he, hok s' hs⟩

theorem step_commit {u : I.Scope} {k : Unit → Prog I α} (hcut : Absorbs Fault Q l)
    (hguar : ∀ s', C.Rely l.held s s' → C.Guarantee l.held s' (l.pending s'))
    (hok : ∀ s', C.Rely l.held s s' →
      C.safe Fault Q (k ()) (l.did u .commit s') (l.pending s')) :
    C.safe Fault Q ((Prog.commit u).bind k) l s :=
  safe_bind.2 <| safe_commit.2 fun s' hs =>
    ⟨fun e he => hcut l (.refl l) u _ e s' he, hguar s' hs, hok s' hs⟩

theorem step_lift {r : Except I.Error β} {k : β → Prog I α}
    (herr : ∀ e, r = .error e → Q (.error e) l s)
    (hok : ∀ b, r = .ok b → C.safe Fault Q (k b) l s) :
    C.safe Fault Q ((Prog.lift r).bind k) l s := by
  cases r with
  | ok b => exact hok b rfl
  | error e => exact herr e rfl

theorem step_raiseIf {c : Prop} [Decidable c] {e : I.Error} {k : Unit → Prog I α}
    (herr : c → Q (.error e) l s) (hok : ¬ c → C.safe Fault Q (k ()) l s) :
    C.safe Fault Q ((Prog.raiseIf c e).bind k) l s := by
  rw [safe_bind, safe_raiseIf]
  exact ⟨herr, hok⟩

theorem step_orRaise {x : Option β} {e : I.Error} {k : β → Prog I α}
    (herr : x = none → Q (.error e) l s)
    (hok : ∀ b, x = some b → C.safe Fault Q (k b) l s) :
    C.safe Fault Q ((Prog.orRaise x e).bind k) l s := by
  rw [safe_bind, safe_orRaise]
  exact ⟨herr, hok⟩

end Rules

/-! ## Soundness -/

/-- One step of a safe process keeps it safe, changes the store as it guarantees, and
    asks only what is permitted. -/
theorem safe_step {Fault : I.Error → Prop} {Q : Except I.Error α → Local I → I.Store → Prop}
    {free : I.Row → Prop} {s₀ s s' : I.Store} {p p' : Proc I α} {ev : Event I}
    (hp : C.safe Fault Q p.prog p.loc s₀) (hrely : C.Rely p.loc.held s₀ s)
    (hstep : Proc.Step Fault free s p ev s' p') :
    C.safe Fault Q p'.prog p'.loc s' ∧ (s' = s ∨ C.Guarantee p.loc.held s s') ∧
      (∀ q a, ev = .asked q a → C.permit q s) := by
  cases hstep with
  | asked a =>
    refine ⟨(hp _ hrely).2 a, .inl rfl, ?_⟩
    rintro q _ ⟨⟩
    exact (hp _ hrely).1
  | did op hfree =>
    obtain ⟨-, hguar, hdid⟩ := hp _ hrely
    refine ⟨hdid, ?_, by rintro q _ ⟨⟩⟩
    cases op with
    | commit => exact .inr (hguar rfl)
    | select => exact .inl rfl
    | lock row => exact .inl rfl
    | write update => exact .inl rfl
    | close => exact .inl rfl
  | cut op e he => exact ⟨(hp _ hrely).1 e he, .inl rfl, by rintro q _ ⟨⟩⟩

/-- The invariant of a world whose processes keep the contract: every process is safe
    up to what the others did since its last step, no two hold the same row, and the
    log records only permitted questions and promised commits. -/
structure Good (C : Contract I) (Fault : I.Error → Prop)
    (Q : (p : Pid) → Except I.Error (δ p) → Local I → I.Store → Prop) (w : World I Pid δ) :
    Prop where
  inv : C.inv w.store
  safe : ∀ p, ∃ s, C.Rely (w.procs p).loc.held s w.store ∧
    C.safe Fault (Q p) (w.procs p).prog (w.procs p).loc s
  disjoint : ∀ p p' row, p' ≠ p → row ∈ (w.procs p).loc.held → row ∉ (w.procs p').loc.held
  traces : ∀ p ev, (p, ev) ∈ w.log ↔ ev ∈ (w.procs p).loc.trace
  permitted : ∀ p q a, (p, .asked q a) ∈ w.log →
    ∃ s, C.permit q s ∧ Relation.ReflTransGen C.step s w.store
  committed : ∀ p u op before after, (p, .did u op before after) ∈ w.log →
    (after = before ∨ C.step before after) ∧ Relation.ReflTransGen C.step after w.store

section Soundness

variable {Fault : I.Error → Prop}
  {Q : (p : Pid) → Except I.Error (δ p) → Local I → I.Store → Prop} {w w' : World I Pid δ}

theorem good_start {s : I.Store} {progs : (p : Pid) → Prog I (δ p)} (hinv : C.inv s)
    (hsafe : ∀ p, C.safe Fault (Q p) (progs p) .start s) : C.Good Fault Q (.start s progs) where
  inv := hinv
  safe p := ⟨s, .refl hinv, hsafe p⟩
  disjoint _ _ _ _ h := absurd h List.not_mem_nil
  traces _ _ := Iff.rfl.trans (by simp [World.start, Proc.start, Local.start])
  permitted _ _ _ h := absurd h List.not_mem_nil
  committed _ _ _ _ _ h := absurd h List.not_mem_nil

/-- The rows a process holds after a step are those it held before or a row nobody
    else holds. -/
theorem held_step {free : I.Row → Prop} {s s' : I.Store} {p p' : Proc I α} {ev : Event I}
    (hstep : Proc.Step Fault free s p ev s' p') {row : I.Row} (hrow : row ∈ p'.loc.held) :
    row ∈ p.loc.held ∨ free row := by
  cases hstep with
  | asked a => exact .inl hrow
  | did op hfree =>
    cases op with
    | lock row' =>
      rcases List.mem_cons.1 hrow with rfl | h
      · exact .inr (hfree _ rfl)
      · exact .inl h
    | select => exact .inl hrow
    | write update => exact .inl hrow
    | commit => exact absurd hrow List.not_mem_nil
    | close => exact absurd hrow List.not_mem_nil
  | cut op e he =>
    cases op with
    | close => exact absurd hrow List.not_mem_nil
    | lock row' => exact .inl hrow
    | select => exact .inl hrow
    | write update => exact .inl hrow
    | commit => exact .inl hrow

/-- A step is recorded in the trace of its process. -/
theorem trace_step {free : I.Row → Prop} {s s' : I.Store} {p p' : Proc I α} {ev : Event I}
    (hstep : Proc.Step Fault free s p ev s' p') : p'.loc.trace = ev :: p.loc.trace := by
  cases hstep <;> rfl

/-- The committed stores an event records are those of its step. -/
theorem stores_step {free : I.Row → Prop} {s s' : I.Store} {p p' : Proc I α} {u : I.Scope}
    {op : Op I} {before after : I.Store}
    (hstep : Proc.Step Fault free s p (.did u op before after) s' p') :
    before = s ∧ after = s' := by
  cases hstep
  exact ⟨rfl, rfl⟩

theorem good_step (hw : C.Good Fault Q w) (hstep : World.Step Fault w w') :
    C.Good Fault Q w' := by
  obtain ⟨p, ev, hproc, hothers, hlog⟩ := hstep
  obtain ⟨s₀, hrely, hsafe⟩ := hw.safe p
  obtain ⟨hsafe', hchange, hpermit⟩ := safe_step hsafe hrely hproc
  have hinv : C.inv w'.store := by
    rcases hchange with h | h
    · exact h ▸ hw.inv
    · exact h.inv
  have hsteps : Relation.ReflTransGen C.step w.store w'.store := by
    rcases hchange with h | h
    · rw [h]
    · exact .single h.step
  have htrace := trace_step hproc
  refine ⟨hinv, fun p' => ?_, fun p₁ p₂ row hne hrow => ?_, fun p' ev' => ?_, ?_, ?_⟩
  · by_cases h : p' = p
    · subst h
      exact ⟨w'.store, .refl hinv, hsafe'⟩
    -- For the others, the step is one more that they rely on: it left their rows as they were.
    · obtain ⟨s₁, hrely₁, hsafe₁⟩ := hw.safe p'
      rw [hothers p' h]
      refine ⟨s₁, hrely₁.trans ⟨hinv, hsteps, fun row hrow => ?_⟩, hsafe₁⟩
      rcases hchange with hs | hs
      · exact hs ▸ C.same_refl row _
      · exact hs.same row (hw.disjoint p' p row (Ne.symm h) hrow)
  · -- a row is held twice only if the step locked a row that another process holds
    by_cases h₁ : p₁ = p
    · subst h₁
      rw [hothers p₂ hne]
      rcases held_step hproc hrow with h | h
      · exact hw.disjoint p₁ p₂ row hne h
      · exact h p₂ hne
    · rw [hothers p₁ h₁] at hrow
      by_cases h₂ : p₂ = p
      · subst h₂
        intro hrow₂
        rcases held_step hproc hrow₂ with h | h
        · exact hw.disjoint p₁ p₂ row hne hrow h
        · exact h p₁ h₁ hrow
      · rw [hothers p₂ h₂]
        exact hw.disjoint p₁ p₂ row hne hrow
  · rw [hlog, List.mem_cons, hw.traces]
    by_cases h : p' = p
    · subst h
      simp [htrace]
    · simp [hothers p' h, h]
  · intro p' q a hmem
    rw [hlog] at hmem
    rcases List.mem_cons.1 hmem with heq | hmem
    · cases heq
      exact ⟨w.store, hpermit q a rfl, hsteps⟩
    · obtain ⟨s, hs, hto⟩ := hw.permitted p' q a hmem
      exact ⟨s, hs, hto.trans hsteps⟩
  · intro p' u op before after hmem
    rw [hlog] at hmem
    rcases List.mem_cons.1 hmem with heq | hmem
    · cases heq
      obtain ⟨rfl, rfl⟩ := stores_step hproc
      exact ⟨hchange.imp id (·.step), .refl⟩
    · obtain ⟨h, hto⟩ := hw.committed p' u op before after hmem
      exact ⟨h, hto.trans hsteps⟩

/-- Every world reached from a good one is good. -/
theorem good_of_reaches (hw : C.Good Fault Q w) (h : World.Reaches Fault w w') :
    C.Good Fault Q w' := by
  induction h with
  | refl => exact hw
  | tail _ hstep ih => exact good_step ih hstep

/-- The store of a good world only changes as the contract promises. -/
theorem steps_of_reaches (hw : C.Good Fault Q w) (h : World.Reaches Fault w w') :
    Relation.ReflTransGen C.step w.store w'.store := by
  induction h with
  | refl => exact .refl
  | tail hreach hstep ih =>
    obtain ⟨p, ev, hproc, -, -⟩ := hstep
    have hgood := good_of_reaches hw hreach
    obtain ⟨s₀, hrely, hsafe⟩ := hgood.safe p
    obtain ⟨-, hchange, -⟩ := safe_step hsafe hrely hproc
    rcases hchange with h | h
    · rw [h]
      exact ih
    · exact ih.tail h.step

/-- What was done since `w` was done to a store that comes from the one of `w`. -/
theorem logged_since (hw : C.Good Fault Q w) (h : World.Reaches Fault w w') {p : Pid}
    {u : I.Scope} {op : Op I} {before after : I.Store}
    (hlog : (p, .did u op before after) ∈ w'.log) :
    (p, .did u op before after) ∈ w.log ∨ Relation.ReflTransGen C.step w.store before := by
  induction h with
  | refl => exact .inl hlog
  | tail hreach hstep ih =>
    obtain ⟨p', ev, hproc, -, hlog'⟩ := hstep
    rw [hlog'] at hlog
    rcases List.mem_cons.1 hlog with heq | hlog
    · cases heq
      obtain ⟨rfl, -⟩ := stores_step hproc
      exact .inr (steps_of_reaches hw hreach)
    · exact ih hlog

/-- A process that has ended satisfies its postcondition, at a store the others may
    have changed since. -/
theorem done_of_good {p : Pid} {r : Except I.Error (δ p)} (hw : C.Good Fault Q w)
    (hend : (w.procs p).prog = Prog.lift r) :
    ∃ s, C.Rely (w.procs p).loc.held s w.store ∧ Q p r (w.procs p).loc s := by
  obtain ⟨s, hrely, hsafe⟩ := hw.safe p
  rw [hend, safe_lift] at hsafe
  exact ⟨s, hrely, hsafe⟩

end Soundness

end Contract

end Txn

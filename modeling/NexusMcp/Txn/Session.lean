-- SUMMARY: Running a program alone against a store, with a weakest-precondition calculus for it.
import NexusMcp.Txn.Program

/-!
# Sequential Runs

`run` executes a program with nobody else at the store. The environment answers
its questions and may interrupt any operation of a unit of work with an error. A
session keeps the committed store, the store as the open unit of work sees it,
and everything that happened, newest first.
-/

namespace Txn

variable {I : Interface} {α β : Type}

/-! ## Events and sessions -/

/-- What happened at one node of a program: a question and its answer, an
    operation with the committed store before and after it, or an operation that
    was interrupted. -/
inductive Event (I : Interface) where
  | asked (q : I.Query) (a : I.Answer q)
  | did (u : I.Scope) (op : Op I) (before after : I.Store)
  | cut (u : I.Scope) (op : Op I) (e : I.Error)

/-- The store as the unit of work sees it after `op`. -/
def Op.view : Op I → I.Store → I.Store → I.Store
  | .write update, view, _ => update view
  | .close, _, committed => committed
  | _, view, _ => view

/-- The committed store after `op`. -/
def Op.committed : Op I → I.Store → I.Store → I.Store
  | .commit, view, _ => view
  | _, _, committed => committed

/-- The view after `op` was interrupted: a closing that is interrupted still
    drops what was not committed, and an interrupted `op` has no other effect. -/
def Op.viewCut : Op I → I.Store → I.Store → I.Store
  | .close, _, committed => committed
  | _, view, _ => view

structure Session (I : Interface) where
  committed : I.Store
  view : I.Store
  trace : List (Event I)

namespace Session

/-- A session with no open unit of work and no history. -/
def start (s : I.Store) : Session I := { committed := s, view := s, trace := [] }

def asked (σ : Session I) (q : I.Query) (a : I.Answer q) : Session I :=
  { σ with trace := .asked q a :: σ.trace }

def did (σ : Session I) (u : I.Scope) (op : Op I) : Session I where
  committed := op.committed σ.view σ.committed
  view := op.view σ.view σ.committed
  trace := .did u op σ.committed (op.committed σ.view σ.committed) :: σ.trace

def cut (σ : Session I) (u : I.Scope) (op : Op I) (e : I.Error) : Session I where
  committed := σ.committed
  view := op.viewCut σ.view σ.committed
  trace := .cut u op e :: σ.trace

end Session

namespace Session

/-- No unit of work is open. -/
def Settled (σ : Session I) : Prop := σ.view = σ.committed

section Fields

variable (σ : Session I) (u : I.Scope)

@[simp] theorem asked_committed (q : I.Query) (a : I.Answer q) :
    (σ.asked q a).committed = σ.committed := rfl

@[simp] theorem asked_view (q : I.Query) (a : I.Answer q) : (σ.asked q a).view = σ.view := rfl

@[simp] theorem select_committed : (σ.did u .select).committed = σ.committed := rfl

@[simp] theorem select_view : (σ.did u .select).view = σ.view := rfl

@[simp] theorem lock_committed (row : I.Row) :
    (σ.did u (.lock row)).committed = σ.committed := rfl

@[simp] theorem lock_view (row : I.Row) : (σ.did u (.lock row)).view = σ.view := rfl

@[simp] theorem write_committed (update : I.Store → I.Store) :
    (σ.did u (.write update)).committed = σ.committed := rfl

@[simp] theorem write_view (update : I.Store → I.Store) :
    (σ.did u (.write update)).view = update σ.view := rfl

@[simp] theorem commit_committed : (σ.did u .commit).committed = σ.view := rfl

@[simp] theorem commit_view : (σ.did u .commit).view = σ.view := rfl

@[simp] theorem close_committed : (σ.did u .close).committed = σ.committed := rfl

@[simp] theorem close_view : (σ.did u .close).view = σ.committed := rfl

@[simp] theorem cut_committed (op : Op I) (x : I.Error) :
    (σ.cut u op x).committed = σ.committed := rfl

@[simp] theorem cut_close_view (x : I.Error) : (σ.cut u .close x).view = σ.committed := rfl

end Fields

end Session

/-! ## Running -/

/-- How questions are answered, and which operations are interrupted. Both may
    depend on everything that happened so far. -/
structure Env (I : Interface) where
  answer : Session I → (q : I.Query) → I.Answer q
  fault : Session I → I.Scope → Op I → Option I.Error

/-- No operation is ever interrupted. -/
def Env.Faultless (env : Env I) : Prop := ∀ σ u op, env.fault σ u op = none

/-- The outcome of a program that runs alone, and the session it leaves. -/
def run (env : Env I) : Prog I α → Session I → Except I.Error α × Session I
  | .ret a, σ => (.ok a, σ)
  | .raise e, σ => (.error e, σ)
  | .ask q k, σ => run env (k (env.answer σ q)) (σ.asked q (env.answer σ q))
  | .db u op k, σ =>
    match env.fault σ u op with
    | some e => run env (k (.error e)) (σ.cut u op e)
    | none => run env (k (.ok (σ.did u op).view)) (σ.did u op)

/-! ## Weakest preconditions -/

/-- The run of `p` from `σ` ends with an outcome and a session that satisfy `Q`. -/
def wp (env : Env I) (p : Prog I α) (Q : Except I.Error α → Session I → Prop)
    (σ : Session I) : Prop :=
  Q (run env p σ).1 (run env p σ).2

section Rules

variable {env : Env I} {Q Q' : Except I.Error α → Session I → Prop} {σ : Session I}

theorem wp_mono {p : Prog I α} (h : ∀ r σ', Q r σ' → Q' r σ') (hp : wp env p Q σ) :
    wp env p Q' σ :=
  h _ _ hp

@[simp] theorem wp_ret {a : α} : wp env (.ret a) Q σ ↔ Q (.ok a) σ := Iff.rfl

@[simp] theorem wp_raise {e : I.Error} : wp env (.raise e : Prog I α) Q σ ↔ Q (.error e) σ :=
  Iff.rfl

@[simp] theorem wp_ask {q : I.Query} {k : I.Answer q → Prog I α} :
    wp env (.ask q k) Q σ ↔ wp env (k (env.answer σ q)) Q (σ.asked q (env.answer σ q)) :=
  Iff.rfl

theorem wp_db {u : I.Scope} {op : Op I} {k : Except I.Error I.Store → Prog I α} :
    wp env (.db u op k) Q σ ↔
      match env.fault σ u op with
      | some e => wp env (k (.error e)) Q (σ.cut u op e)
      | none => wp env (k (.ok (σ.did u op).view)) Q (σ.did u op) := by
  unfold wp
  rw [run]
  cases env.fault σ u op <;> rfl

@[simp] theorem wp_bind {p : Prog I β} {f : β → Prog I α} :
    wp env (p.bind f) Q σ ↔
      wp env p (fun r σ' => match r with
        | .ok b => wp env (f b) Q σ'
        | .error e => Q (.error e) σ') σ := by
  induction p generalizing σ with
  | ret a => rfl
  | raise e => rfl
  | ask q k ih => simp only [Prog.bind, wp_ask, ih]
  | db u op k ih =>
    simp only [Prog.bind, wp_db]
    cases env.fault σ u op <;> exact ih _

@[simp] theorem wp_attempt {p : Prog I β} {Q : Except I.Error (Except I.Error β) → Session I → Prop} :
    wp env p.attempt Q σ ↔ wp env p (fun r σ' => Q (.ok r) σ') σ := by
  induction p generalizing σ with
  | ret a => rfl
  | raise e => rfl
  | ask q k ih => simp only [Prog.attempt, wp_ask, ih]
  | db u op k ih =>
    simp only [Prog.attempt, wp_db]
    cases env.fault σ u op <;> exact ih _

@[simp] theorem wp_tryCatch {p : Prog I α} {handler : I.Error → Prog I α} :
    wp env (p.tryCatch handler) Q σ ↔
      wp env p (fun r σ' => match r with
        | .ok a => Q (.ok a) σ'
        | .error e => wp env (handler e) Q σ') σ := by
  unfold Prog.tryCatch
  rw [wp_bind, wp_attempt]
  exact Iff.of_eq (congrArg (fun P => wp env p P σ) (by
    funext r σ'; cases r <;> rfl))

@[simp] theorem wp_lift {r : Except I.Error α} :
    wp env (Prog.lift r) Q σ ↔ Q r σ := by
  cases r <;> rfl

@[simp] theorem wp_raiseIf {c : Prop} [Decidable c] {e : I.Error}
    {Q : Except I.Error Unit → Session I → Prop} :
    wp env (Prog.raiseIf c e) Q σ ↔ (c → Q (.error e) σ) ∧ (¬ c → Q (.ok ()) σ) := by
  unfold Prog.raiseIf
  split <;> simp_all

@[simp] theorem wp_orRaise {x : Option α} {e : I.Error} :
    wp env (Prog.orRaise x e) Q σ ↔ (x = none → Q (.error e) σ) ∧ ∀ a, x = some a → Q (.ok a) σ := by
  cases x <;> simp [Prog.orRaise]

/-! ### One rule for each operation

Each rule consumes the first node of a program. `hcut` is what is left to show when the
environment interrupts the operation. -/

theorem wp_select_bind {u : I.Scope} {k : I.Store → Prog I α}
    (hcut : ∀ x, env.fault σ u .select = some x → Q (.error x) (σ.cut u .select x))
    (hok : env.fault σ u .select = none → wp env (k σ.view) Q (σ.did u .select)) :
    wp env ((Prog.select u).bind k) Q σ := by
  apply wp_db.2
  cases h : env.fault σ u .select with
  | some x => exact hcut x h
  | none => exact hok h

theorem wp_lock_bind {u : I.Scope} {row : I.Row} {k : I.Store → Prog I α}
    (hcut : ∀ x, env.fault σ u (.lock row) = some x → Q (.error x) (σ.cut u (.lock row) x))
    (hok : env.fault σ u (.lock row) = none → wp env (k σ.view) Q (σ.did u (.lock row))) :
    wp env ((Prog.lock u row).bind k) Q σ := by
  apply wp_db.2
  cases h : env.fault σ u (.lock row) with
  | some x => exact hcut x h
  | none => exact hok h

theorem wp_write_bind {u : I.Scope} {update : I.Store → I.Store} {k : Unit → Prog I α}
    (hcut : ∀ x, env.fault σ u (.write update) = some x →
      Q (.error x) (σ.cut u (.write update) x))
    (hok : env.fault σ u (.write update) = none → wp env (k ()) Q (σ.did u (.write update))) :
    wp env ((Prog.write u update).bind k) Q σ := by
  apply wp_db.2
  cases h : env.fault σ u (.write update) with
  | some x => exact hcut x h
  | none => exact hok h

theorem wp_commit_bind {u : I.Scope} {k : Unit → Prog I α}
    (hcut : ∀ x, env.fault σ u .commit = some x → Q (.error x) (σ.cut u .commit x))
    (hok : env.fault σ u .commit = none → wp env (k ()) Q (σ.did u .commit)) :
    wp env ((Prog.commit u).bind k) Q σ := by
  apply wp_db.2
  cases h : env.fault σ u .commit with
  | some x => exact hcut x h
  | none => exact hok h

theorem wp_ask_bind {q : I.Query} {f : I.Answer q → Prog I β} {k : β → Prog I α}
    (hok : wp env ((f (env.answer σ q)).bind k) Q (σ.asked q (env.answer σ q))) :
    wp env ((Prog.ask q f).bind k) Q σ :=
  hok

theorem wp_lift_bind {r : Except I.Error β} {k : β → Prog I α}
    (herr : ∀ x, r = .error x → Q (.error x) σ) (hok : ∀ b, r = .ok b → wp env (k b) Q σ) :
    wp env ((Prog.lift r).bind k) Q σ := by
  cases r with
  | ok b => exact hok b rfl
  | error x => exact herr x rfl

theorem wp_raiseIf_bind {c : Prop} [Decidable c] {x : I.Error} {k : Unit → Prog I α}
    (herr : c → Q (.error x) σ) (hok : ¬ c → wp env (k ()) Q σ) :
    wp env ((Prog.raiseIf c x).bind k) Q σ :=
  wp_bind.2 (wp_raiseIf.2 ⟨herr, hok⟩)

theorem wp_orRaise_bind {a? : Option β} {x : I.Error} {k : β → Prog I α}
    (herr : a? = none → Q (.error x) σ) (hok : ∀ b, a? = some b → wp env (k b) Q σ) :
    wp env ((Prog.orRaise a? x).bind k) Q σ :=
  wp_bind.2 (wp_orRaise.2 ⟨herr, hok⟩)

/-- A unit of work: its body, and then the closing of its session. -/
theorem wp_uow {u : I.Scope} {body : Prog I α}
    (hbody : wp env body (fun r σ' =>
      (∀ x, env.fault σ' u .close = some x → Q (.error x) (σ'.cut u .close x)) ∧
      (env.fault σ' u .close = none → Q r (σ'.did u .close))) σ) :
    wp env (Prog.uow u body) Q σ := by
  unfold Prog.uow
  rw [wp_bind, wp_attempt]
  refine wp_mono (fun r σ' ⟨hcut, hok⟩ => ?_) hbody
  refine wp_bind.2 (wp_db.2 ?_)
  cases h : env.fault σ' u .close with
  | some x => exact hcut x h
  | none => exact wp_lift.2 (hok h)

end Rules

end Txn

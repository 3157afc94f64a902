-- SUMMARY: Programs that talk to a transactional store and to an environment, as interaction trees.

/-!
# Transactional Programs

A program is an interaction tree. At each node it either asks its environment a
question or performs one operation of a unit of work on a store, and it branches
on the reply. The tree fixes no semantics: `Txn.Session` runs it alone, and
`Txn.World` interleaves it with other programs.
-/

namespace Txn

/-! ## Interfaces -/

/-- The vocabulary of a family of programs: the store they share, the rows of it
    that can be locked, the names of their units of work, the errors they raise
    and the questions they ask. -/
structure Interface where
  Store : Type
  Row : Type
  Scope : Type
  Error : Type
  Query : Type
  Answer : Query → Type

/-- One operation of a unit of work. A `write` is buffered until `commit`, and
    `close` drops what was not committed. -/
inductive Op (I : Interface) where
  | select
  | lock (row : I.Row)
  | write (update : I.Store → I.Store)
  | commit
  | close

/-- A program over `I`. Every operation of a unit of work replies with the store
    as the unit of work sees it, or with the error that interrupted it. -/
inductive Prog (I : Interface) (α : Type) where
  | ret (a : α) : Prog I α
  | raise (e : I.Error) : Prog I α
  | ask (q : I.Query) (k : I.Answer q → Prog I α) : Prog I α
  | db (u : I.Scope) (op : Op I) (k : Except I.Error I.Store → Prog I α) : Prog I α

namespace Prog

variable {I : Interface} {α β γ : Type}

/-! ## Sequencing and handling -/

/-- Run `p` and continue with its result, or stop with its error. -/
def bind : Prog I α → (α → Prog I β) → Prog I β
  | .ret a, f => f a
  | .raise e, _ => .raise e
  | .ask q k, f => .ask q (fun a => (k a).bind f)
  | .db u op k, f => .db u op (fun r => (k r).bind f)

/-- Run `p` and return its outcome as a value. -/
def attempt : Prog I α → Prog I (Except I.Error α)
  | .ret a => .ret (.ok a)
  | .raise e => .ret (.error e)
  | .ask q k => .ask q (fun a => (k a).attempt)
  | .db u op k => .db u op (fun r => (k r).attempt)

instance : Monad (Prog I) where
  pure := .ret
  bind := .bind

/-- Reraise or return an outcome that was kept as a value. -/
def lift : Except I.Error α → Prog I α
  | .ok a => .ret a
  | .error e => .raise e

/-- `p`, with its errors passed to `handler`. -/
def tryCatch (p : Prog I α) (handler : I.Error → Prog I α) : Prog I α :=
  p.attempt.bind fun
    | .ok a => .ret a
    | .error e => handler e

instance : MonadExcept I.Error (Prog I) where
  throw := .raise
  tryCatch := .tryCatch

/-- Stop with `e` when `c` holds. -/
def raiseIf (c : Prop) [Decidable c] (e : I.Error) : Prog I Unit :=
  if c then .raise e else .ret ()

/-- The value, or the error `e` when there is none. -/
def orRaise (x : Option α) (e : I.Error) : Prog I α :=
  match x with
  | some a => .ret a
  | none => .raise e

/-! ## Units of work -/

/-- Read the store through the unit of work. -/
def select (u : I.Scope) : Prog I I.Store := .db u .select lift

/-- Lock a row, then read the store through the unit of work. -/
def lock (u : I.Scope) (row : I.Row) : Prog I I.Store := .db u (.lock row) lift

/-- Buffer a write. -/
def write (u : I.Scope) (update : I.Store → I.Store) : Prog I Unit :=
  .db u (.write update) fun r => (lift r).bind fun _ => .ret ()

/-- Commit the buffered writes. -/
def commit (u : I.Scope) : Prog I Unit :=
  .db u .commit fun r => (lift r).bind fun _ => .ret ()

/-- Drop what was not committed. -/
def close (u : I.Scope) : Prog I Unit :=
  .db u .close fun r => (lift r).bind fun _ => .ret ()

/-- The body of a unit of work. The session is closed when the body ends, however
    it ends, and an error of the closing replaces the outcome of the body. -/
def uow (u : I.Scope) (body : Prog I α) : Prog I α :=
  body.attempt.bind fun r => (close u).bind fun _ => lift r

/-! ## Equations -/

@[simp] theorem pure_eq (a : α) : (pure a : Prog I α) = .ret a := rfl

@[simp] theorem bind_eq (p : Prog I α) (f : α → Prog I β) : (p >>= f) = p.bind f := rfl

@[simp] theorem throw_eq (e : I.Error) : (throw e : Prog I α) = .raise e := rfl

@[simp] theorem tryCatch_eq (p : Prog I α) (h : I.Error → Prog I α) :
    MonadExcept.tryCatch p h = p.tryCatch h := rfl

@[simp] theorem ret_bind (a : α) (f : α → Prog I β) : (Prog.ret a).bind f = f a := rfl

@[simp] theorem raise_bind (e : I.Error) (f : α → Prog I β) :
    (Prog.raise e : Prog I α).bind f = .raise e := rfl

theorem bind_ret (p : Prog I α) : p.bind .ret = p := by
  induction p with
  | ret a => rfl
  | raise e => rfl
  | ask q k ih => simp only [bind, ih]
  | db u op k ih => simp only [bind, ih]

theorem bind_assoc (p : Prog I α) (f : α → Prog I β) (g : β → Prog I γ) :
    (p.bind f).bind g = p.bind (fun a => (f a).bind g) := by
  induction p with
  | ret a => rfl
  | raise e => rfl
  | ask q k ih => simp only [bind, ih]
  | db u op k ih => simp only [bind, ih]

instance : LawfulMonad (Prog I) :=
  LawfulMonad.mk' _ bind_ret (fun _ _ => rfl) bind_assoc

end Prog

end Txn

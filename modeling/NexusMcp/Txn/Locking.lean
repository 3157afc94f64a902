-- SUMMARY: Transactions as the rows that they lock, their interleavings, and circles of waiting.
import NexusMcp.Txn.Serial
import Mathlib.Data.Fintype.Basic
import Mathlib.Logic.Relation

/-!
# Row Locks

A transaction locks rows one after the other, as its queries find them, and holds them until
it ends. What a query sees is left open, up to a condition on the tables, so that other
transactions may have changed whatever the condition does not fix.
-/

namespace Txn

open Relation (ReflTransGen TransGen)

/-! ## Programs -/

/-- A transaction on the tables. A query locks the row that it finds, if it is one that locks.
    A write may insert a row, which is then locked as well. -/
inductive Locking (Db Row E α : Type) where
  | ret (a : α)
  | raise (e : E)
  | query (row? : Db → Option Row) (next : Db → Locking Db Row E α)
  | write (inserted : Option Row) (update : Db → Except E Db) (next : Locking Db Row E α)

namespace Locking

variable {Db Row E α β : Type}

/-- Run `p` and continue with its result, or stop with its error. -/
def bind : Locking Db Row E α → (α → Locking Db Row E β) → Locking Db Row E β
  | .ret a, f => f a
  | .raise e, _ => .raise e
  | .query row? next, f => .query row? fun c => (next c).bind f
  | .write inserted update next, f => .write inserted update (next.bind f)

instance : Monad (Locking Db Row E) where
  pure := .ret
  bind := .bind

/-- A computation that does not touch the tables. -/
def lift : Except E α → Locking Db Row E α
  | .ok a => .ret a
  | .error e => .raise e

/-- What the transaction does when no other runs. -/
def run : Locking Db Row E α → Transaction Db E α
  | .ret a => fun c => .ok (a, c)
  | .raise e => fun _ => .error e
  | .query _ next => fun c => (next c).run c
  | .write _ update next => fun c =>
    match update c with
    | .ok c' => next.run c'
    | .error e => .error e

@[simp] theorem run_ret (a : α) (c : Db) : (ret a : Locking Db Row E α).run c = .ok (a, c) := rfl

theorem run_bind (p : Locking Db Row E α) (f : α → Locking Db Row E β) (c : Db) :
    (p >>= f).run c =
      match p.run c with
      | .ok (a, c') => (f a).run c'
      | .error e => .error e := by
  change (p.bind f).run c = _
  induction p generalizing c with
  | ret a => rfl
  | raise e => rfl
  | query row? next ih => exact ih c c
  | write inserted update next ih =>
    simp only [bind, run]
    cases update c with
    | ok c' => exact ih c'
    | error e => rfl

/-! ## Disciplines -/

section

variable [DecidableEq Row]

/-- The rows that are held once a query or a write has taken one. -/
def take (held : List Row) : Option Row → List Row
  | none => held
  | some row => if row ∈ held then held else row :: held

/-- Which rows a transaction may ask for, and which it may insert, with the rows that it
    holds already. -/
structure Discipline (Row : Type) where
  asks : List Row → Row → Prop
  inserts : List Row → Row → Prop

variable (sees : Db → Db → Prop) (D : Discipline Row)

/-- The transaction keeps to the discipline and ends with `Q`, whatever it sees after what it
    has `seen`, and its changes may be seen after what they change. -/
def Follows (Q : α → Db → List Row → Prop) : Locking Db Row E α → Db → List Row → Prop
  | .ret a => Q a
  | .raise _ => fun _ _ => True
  | .query row? next => fun seen held => ∀ c, sees seen c →
    (∀ row, row? c = some row → row ∉ held → D.asks held row) ∧
      (next c).Follows Q c (take held (row? c))
  | .write inserted update next => fun seen held => ∀ c c', sees seen c → update c = .ok c' →
    (inserted = none → sees c c') ∧
      (sees c c' → (∀ row, inserted = some row → D.inserts held row) ∧
        next.Follows Q c' (take held inserted))

variable {sees D} {seen : Db} {held : List Row}

theorem Follows.mono {Q Q' : α → Db → List Row → Prop} {p : Locking Db Row E α}
    (h : p.Follows sees D Q seen held) (hQ : ∀ a seen held, Q a seen held → Q' a seen held) :
    p.Follows sees D Q' seen held := by
  induction p generalizing seen held with
  | ret a => exact hQ a seen held h
  | raise e => trivial
  | query row? next ih =>
    intro c hc
    obtain ⟨hasks, hnext⟩ := h c hc
    exact ⟨hasks, ih c hnext⟩
  | write inserted update next ih =>
    intro c c' hc hupdate
    obtain ⟨hkeeps, hnext⟩ := h c c' hc hupdate
    exact ⟨hkeeps, fun hc' => ⟨(hnext hc').1, ih (hnext hc').2⟩⟩

/-- A discipline that allows more. -/
theorem Follows.weaken {D' : Discipline Row} {Q : α → Db → List Row → Prop}
    {p : Locking Db Row E α} (h : p.Follows sees D Q seen held)
    (hasks : ∀ held row, D.asks held row → D'.asks held row)
    (hinserts : ∀ held row, D.inserts held row → D'.inserts held row) :
    p.Follows sees D' Q seen held := by
  induction p generalizing seen held with
  | ret a => exact h
  | raise e => trivial
  | query row? next ih =>
    intro c hc
    obtain ⟨hrow, hnext⟩ := h c hc
    exact ⟨fun row hfound hnew => hasks held row (hrow row hfound hnew), ih c hnext⟩
  | write inserted update next ih =>
    intro c c' hc hupdate
    obtain ⟨hkeeps, hnext⟩ := h c c' hc hupdate
    refine ⟨hkeeps, fun hc' => ⟨fun row hrow => ?_, ih (hnext hc').2⟩⟩
    exact hinserts held row ((hnext hc').1 row hrow)

theorem follows_bind {Q : β → Db → List Row → Prop} {p : Locking Db Row E α}
    {f : α → Locking Db Row E β}
    (h : p.Follows sees D (fun a seen held => (f a).Follows sees D Q seen held) seen held) :
    (p >>= f).Follows sees D Q seen held := by
  change (p.bind f).Follows sees D Q seen held
  induction p generalizing seen held with
  | ret a => exact h
  | raise e => trivial
  | query row? next ih =>
    intro c hc
    obtain ⟨hasks, hnext⟩ := h c hc
    exact ⟨hasks, ih c hnext⟩
  | write inserted update next ih =>
    intro c c' hc hupdate
    obtain ⟨hkeeps, hnext⟩ := h c c' hc hupdate
    exact ⟨hkeeps, fun hc' => ⟨(hnext hc').1, ih (hnext hc').2⟩⟩

theorem follows_lift {Q : α → Db → List Row → Prop} {x : Except E α}
    (h : ∀ a, x = .ok a → Q a seen held) :
    (lift x : Locking Db Row E α).Follows sees D Q seen held := by
  cases x with
  | ok a => exact h a rfl
  | error e => trivial

/-- Rows that were taken one after the other within the discipline. -/
inductive Built (D : Discipline Row) : List Row → Prop where
  | nil : Built D []
  | cons {held : List Row} {row : Row} (h : Built D held)
      (hrow : D.asks held row ∨ D.inserts held row) : Built D (row :: held)

theorem Built.take {row? : Option Row} (h : Built D held)
    (hrow : ∀ row, row? = some row → row ∉ held → D.asks held row ∨ D.inserts held row) :
    Built D (take held row?) := by
  cases row? with
  | none => exact h
  | some row =>
    simp only [Locking.take]
    split
    · exact h
    · next hnew => exact h.cons (hrow row rfl hnew)

theorem mem_take {row? : Option Row} {row : Row} :
    row ∈ take held row? ↔ row ∈ held ∨ row? = some row := by
  cases row? with
  | none => simp [take]
  | some row' =>
    simp only [take]
    split
    · next h =>
      refine ⟨.inl, ?_⟩
      rintro (h' | h')
      · exact h'
      · cases h'
        exact h
    · simp [or_comm, eq_comm]

end

end Locking

/-! ## Interleavings -/

/-- A transaction in progress: what is left of it until it has ended, the tables as it saw
    them last, the rows that it has locked, and the row that it waits for. -/
structure Locker (Db Row E α : Type) where
  code : Option (Locking Db Row E α)
  seen : Db
  held : List Row
  awaits : Option Row

namespace Locker

variable {Db Row E α : Type} [DecidableEq Row]

def start (c : Db) (p : Locking Db Row E α) : Locker Db Row E α := ⟨some p, c, [], none⟩

/-- Where a transaction that keeps to the discipline may be. -/
structure Sound (sees : Db → Db → Prop) (D : Locking.Discipline Row) (l : Locker Db Row E α) :
    Prop where
  code : ∀ p, l.code = some p → p.Follows sees D (fun _ _ _ => True) l.seen l.held
  held : Locking.Built D l.held
  awaits : ∀ row, l.awaits = some row → row ∉ l.held ∧ D.asks l.held row

theorem sound_start {sees : Db → Db → Prop} {D : Locking.Discipline Row} {c : Db}
    {p : Locking Db Row E α} (h : p.Follows sees D (fun _ _ _ => True) c []) :
    (start c p).Sound sees D where
  code := by
    intro p' hp'
    cases hp'
    exact h
  held := .nil
  awaits := by
    intro row hrow
    cases hrow

end Locker

section

variable {Db Row E Pid : Type} [DecidableEq Row] {δ : Pid → Type}

abbrev Lockers (Db Row E Pid : Type) (δ : Pid → Type) := (p : Pid) → Locker Db Row E (δ p)

namespace Lockers

/-- Every transaction keeps to its discipline, and no two hold one row. -/
structure Sound (sees : Db → Db → Prop) (D : Pid → Locking.Discipline Row)
    (w : Lockers Db Row E Pid δ) : Prop where
  procs : ∀ p, (w p).Sound sees (D p)
  exclusive : ∀ p q row, row ∈ (w p).held → row ∈ (w q).held → p = q

variable {sees : Db → Db → Prop} {D : Pid → Locking.Discipline Row} {w w' : Lockers Db Row E Pid δ}

theorem sound_start {c : Db} {programs : (p : Pid) → Locking Db Row E (δ p)}
    (h : ∀ p, (programs p).Follows sees (D p) (fun _ _ _ => True) c []) :
    Sound sees D fun p => Locker.start c (programs p) where
  procs := fun p => Locker.sound_start (h p)
  exclusive := fun _ _ _ hrow => absurd hrow List.not_mem_nil

variable [DecidableEq Pid]

/-- One transaction goes on. A row that it asks for or inserts is not locked by another, or
    it waits for the row; it may end at any time, and then it holds no row. -/
inductive Step (sees : Db → Db → Prop) (w : Lockers Db Row E Pid δ) :
    Lockers Db Row E Pid δ → Prop where
  | wait {p q : Pid} {c : Db} {row : Row} {row? : Db → Option Row}
      {next : Db → Locking Db Row E (δ p)} {w' : Lockers Db Row E Pid δ}
      (hcode : (w p).code = some (.query row? next)) (hsees : sees (w p).seen c)
      (hrow : row? c = some row) (hown : row ∉ (w p).held) (hother : row ∈ (w q).held)
      (hw' : w' = Function.update w p { w p with awaits := some row }) : Step sees w w'
  | query {p : Pid} {c : Db} {row? : Db → Option Row} {next : Db → Locking Db Row E (δ p)}
      {w' : Lockers Db Row E Pid δ} (hcode : (w p).code = some (.query row? next))
      (hsees : sees (w p).seen c) (hawaits : ∀ row, (w p).awaits = some row → row? c = some row)
      (hfree : ∀ row, row? c = some row → row ∉ (w p).held → ∀ q, row ∉ (w q).held)
      (hw' : w' = Function.update w p ⟨some (next c), c, Locking.take (w p).held (row? c), none⟩) :
      Step sees w w'
  | write {p : Pid} {c c' : Db} {inserted : Option Row} {update : Db → Except E Db}
      {next : Locking Db Row E (δ p)} {w' : Lockers Db Row E Pid δ}
      (hcode : (w p).code = some (.write inserted update next)) (hsees : sees (w p).seen c)
      (hupdate : update c = .ok c') (hinserted : inserted ≠ none → sees c c')
      (hfree : ∀ row, inserted = some row → ∀ q, row ∉ (w q).held)
      (hw' : w' = Function.update w p ⟨some next, c', Locking.take (w p).held inserted, none⟩) :
      Step sees w w'
  | finish {p : Pid} {w' : Lockers Db Row E Pid δ}
      (hw' : w' = Function.update w p ⟨none, (w p).seen, [], none⟩) : Step sees w w'

/-- One transaction may change, if it stays sound and takes no row of another. -/
theorem Sound.update (h : Sound sees D w) {p : Pid} {l : Locker Db Row E (δ p)}
    (hl : l.Sound sees (D p)) (hheld : ∀ row ∈ l.held, ∀ q, q ≠ p → row ∉ (w q).held) :
    Sound sees D (Function.update w p l) where
  procs := by
    intro q
    by_cases hq : q = p
    · subst hq
      rw [Function.update_self]
      exact hl
    · rw [Function.update_of_ne hq]
      exact h.procs q
  exclusive := by
    intro q r row hq hr
    by_cases hqp : q = p <;> by_cases hrp : r = p
    · rw [hqp, hrp]
    · subst hqp
      rw [Function.update_self] at hq
      rw [Function.update_of_ne hrp] at hr
      exact absurd hr (hheld row hq r hrp)
    · subst hrp
      rw [Function.update_self] at hr
      rw [Function.update_of_ne hqp] at hq
      exact absurd hq (hheld row hr q hqp)
    · rw [Function.update_of_ne hqp] at hq
      rw [Function.update_of_ne hrp] at hr
      exact h.exclusive q r row hq hr

theorem Sound.step (h : Sound sees D w) (hstep : Step sees w w') : Sound sees D w' := by
  cases hstep with
  | @wait p q c row row? next _ hcode hsees hrow hown hother hw' =>
    subst hw'
    have hp := h.procs p
    obtain ⟨hasks, -⟩ := hp.code _ hcode c hsees
    refine h.update ⟨hp.code, hp.held, ?_⟩ fun row hrow q hq hrow' =>
      hq (h.exclusive q p row hrow' hrow)
    -- What it waits for is a row that it does not hold, and one that it may ask for.
    intro row' hrow'
    cases hrow'
    exact ⟨hown, hasks row hrow hown⟩
  | @query p c row? next _ hcode hsees hawaits hfree hw' =>
    subst hw'
    have hp := h.procs p
    obtain ⟨hasks, hnext⟩ := hp.code _ hcode c hsees
    refine h.update ⟨?_, hp.held.take fun row hrow hnew => .inl (hasks row hrow hnew), by simp⟩ ?_
    · intro code hcode
      cases hcode
      exact hnext
    · intro row hrow q hq hrow'
      by_cases hown : row ∈ (w p).held
      · exact hq (h.exclusive q p row hrow' hown)
      -- A row that is new to the holder is free.
      · exact hfree row ((Locking.mem_take.1 hrow).resolve_left hown) hown q hrow'
  | @write p c c' inserted update next _ hcode hsees hupdate hinserted hfree hw' =>
    subst hw'
    have hp := h.procs p
    obtain ⟨hkeeps, hnext⟩ := hp.code _ hcode c c' hsees hupdate
    have hsees' : sees c c' := by
      cases inserted with
      | none => exact hkeeps rfl
      -- An insertion is seen by those that come later. An update keeps what is seen by itself.
      | some row => exact hinserted (by simp)
    obtain ⟨hinserts, hnext⟩ := hnext hsees'
    refine h.update ⟨?_, hp.held.take fun row hrow _ => .inr (hinserts row hrow), by simp⟩ ?_
    · intro code hcode
      cases hcode
      exact hnext
    · intro row hrow q hq hrow'
      rcases Locking.mem_take.1 hrow with hrow | hrow
      · exact hq (h.exclusive q p row hrow' hrow)
      · exact hfree row hrow q hrow'
  | @finish p _ hw' =>
    subst hw'
    exact h.update ⟨by simp, .nil, by simp⟩ fun row hrow => absurd hrow List.not_mem_nil

/-! ## Scheduled runs -/

/-- Everybody has seen the tables `c` only, and waits for a row that it finds in them. -/
def Saw (c : Db) (w : Lockers Db Row E Pid δ) : Prop :=
  ∀ p, (w p).seen = c ∧ ∀ row, (w p).awaits = some row →
    ∃ row? next, (w p).code = some (.query row? next) ∧ row? c = some row

omit [DecidableEq Row] in
theorem Saw.update {c : Db} (h : Saw c w) {p : Pid} {l : Locker Db Row E (δ p)}
    (hseen : l.seen = c) (hawaits : ∀ row, l.awaits = some row →
      ∃ row? next, l.code = some (.query row? next) ∧ row? c = some row) :
    Saw c (Function.update w p l) := by
  intro q
  by_cases hq : q = p
  · subst hq
    rw [Function.update_self]
    exact ⟨hseen, hawaits⟩
  · rw [Function.update_of_ne hq]
    exact h q

variable [Fintype Pid]

/-- The next query of `p`, on the tables `c`: it waits if another holds the row that it finds. -/
def ask (c : Db) (w : Lockers Db Row E Pid δ) (p : Pid) : Lockers Db Row E Pid δ :=
  match (w p).code with
  | some (.query row? next) =>
    if ∃ row ∈ row? c, row ∉ (w p).held ∧ ∃ q, row ∈ (w q).held then
      Function.update w p { w p with awaits := row? c }
    else Function.update w p ⟨some (next c), c, Locking.take (w p).held (row? c), none⟩
  | _ => w

/-- The transactions make their queries in the order of the schedule, all on the tables `c`. -/
def asks (c : Db) (programs : (p : Pid) → Locking Db Row E (δ p)) (schedule : List Pid) :
    Lockers Db Row E Pid δ :=
  schedule.foldl (ask c) fun p => Locker.start c (programs p)

theorem Saw.ask {c : Db} (h : Saw c w) (hc : sees c c) (p : Pid) :
    Saw c (ask c w p) ∧ (Lockers.ask c w p = w ∨ Step sees w (Lockers.ask c w p)) := by
  obtain ⟨hseen, hawaits⟩ := h p
  unfold Lockers.ask
  split
  · next row? next hcode =>
    split
    · next hheld =>
      obtain ⟨row, hrow, hown, q, hother⟩ := hheld
      refine ⟨h.update hseen fun row' hrow' => ⟨row?, next, hcode, hrow'⟩, .inr ?_⟩
      exact .wait hcode (hseen ▸ hc) hrow hown hother (by rw [show row? c = some row from hrow])
    · next hfree =>
      refine ⟨h.update rfl nofun, .inr (.query hcode (hseen ▸ hc) ?_ ?_ rfl)⟩
      · intro row hrow
        obtain ⟨row?', next', hcode', hrow'⟩ := hawaits row hrow
        cases hcode.symm.trans hcode'
        exact hrow'
      · intro row hrow hown q hheld
        exact hfree ⟨row, hrow, hown, q, hheld⟩
  · exact ⟨h, .inl rfl⟩

/-- A schedule is a run, and `P` holds along it if it holds after each part of the schedule. -/
theorem reaches_asks {c : Db} {programs : (p : Pid) → Locking Db Row E (δ p)} (hc : sees c c)
    (P : Lockers Db Row E Pid δ → Prop) (schedule : List Pid)
    (hP : ∀ schedule', schedule' <+: schedule → P (asks c programs schedule')) :
    ReflTransGen (fun w w' => Step sees w w' ∧ P w') (fun p => Locker.start c (programs p))
      (asks c programs schedule) := by
  suffices h : Saw c (asks c programs schedule) ∧
      ReflTransGen (fun w w' => Step sees w w' ∧ P w') (fun p => Locker.start c (programs p))
        (asks c programs schedule) from h.2
  induction schedule using List.reverseRecOn with
  | nil => exact ⟨fun _ => ⟨rfl, nofun⟩, .refl⟩
  | append_singleton schedule p ih =>
    obtain ⟨hsaw, hrun⟩ := ih fun schedule' h => hP schedule' (h.trans (List.prefix_append _ _))
    have hlast := hP _ (List.prefix_refl _)
    obtain ⟨hsaw', hstep⟩ := hsaw.ask hc p
    have hasks : asks c programs (schedule ++ [p]) =
        Lockers.ask c (asks c programs schedule) p := by
      simp only [asks, List.foldl_append, List.foldl_cons, List.foldl_nil]
    rw [hasks] at hlast ⊢
    rcases hstep with hsame | hstep
    · rw [hsame]
      exact ⟨hsaw, hrun⟩
    · exact ⟨hsaw', hrun.tail ⟨hstep, hlast⟩⟩

end Lockers

end

/-! ## Circles of waiting -/

namespace Lockers

variable {Db Row E Pid : Type} {δ : Pid → Type} {w : Lockers Db Row E Pid δ}

/-- `p` waits for a row that `q` has locked. -/
def WaitsFor (w : Lockers Db Row E Pid δ) (p q : Pid) : Prop :=
  ∃ row, (w p).awaits = some row ∧ row ∈ (w q).held

/-- Some transactions wait for one another in a circle. -/
def Deadlocked (w : Lockers Db Row E Pid δ) : Prop := ∃ p, TransGen (WaitsFor w) p p

/-- Nobody waits in a circle if the ranks grow along the transactions that wait. -/
theorem not_deadlocked_of_rank (rank : Pid → Nat)
    (h : ∀ p q r, WaitsFor w p q → WaitsFor w q r → rank p < rank q) : ¬ Deadlocked w := by
  have hgrows : ∀ p q, TransGen (WaitsFor w) p q → ∀ r, WaitsFor w q r → rank p < rank q := by
    intro p q hpq
    induction hpq with
    | single hpq => exact fun r hqr => h _ _ r hpq hqr
    | tail _ hbc ih => exact fun r hcr => Nat.lt_trans (ih _ hbc) (h _ _ r hbc hcr)
  rintro ⟨p, hp⟩
  obtain ⟨q, hpq⟩ : ∃ q, WaitsFor w p q := by
    cases hp using TransGen.head_induction_on with
    | single hpq => exact ⟨_, hpq⟩
    | head hpq _ => exact ⟨_, hpq⟩
  exact Nat.lt_irrefl _ (hgrows p p hp q hpq)

end Lockers

end Txn

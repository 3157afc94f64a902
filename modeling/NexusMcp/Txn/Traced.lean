-- SUMMARY: What a program commits, told from its own trace whatever it is answered, and rows that stay as they were locked.
import NexusMcp.Txn.World

/-!
# Traced Programs

`Prog.traced` runs a program against arbitrary replies, so it says what the program
does by itself: which of its own readings and locks a commit rests on. What the other
processes do not change meanwhile comes from the rows it holds.
-/

namespace Txn

variable {I : Interface} {α β : Type}

/-! ## Every reply -/

namespace Prog

/-- Run from the private state `l` and answered in any way, the program commits only
    where `P` allows it, and ends in a state that satisfies `Q`. -/
def traced (P : Local I → Prop) (Q : Except I.Error α → Local I → Prop) :
    Prog I α → Local I → Prop
  | .ret a, l => Q (.ok a) l
  | .raise e, l => Q (.error e) l
  | .ask q k, l => ∀ a, traced P Q (k a) (l.asked q a)
  | .db u op k, l =>
    (op = .commit → P l) ∧ (∀ e, traced P Q (k (.error e)) (l.cut u op e)) ∧
    ∀ s, traced P Q
      (k (.ok ((l.did u op s).pending (op.committed (l.pending s) s)))) (l.did u op s)

section Rules

variable {P : Local I → Prop} {Q Q' : Except I.Error α → Local I → Prop} {l : Local I}

theorem traced_mono {p : Prog I α} (h : ∀ r l, Q r l → Q' r l) (hp : p.traced P Q l) :
    p.traced P Q' l := by
  induction p generalizing l with
  | ret a => exact h _ _ hp
  | raise e => exact h _ _ hp
  | ask q k ih => exact fun a => ih a (hp a)
  | db u op k ih =>
    obtain ⟨hcommit, hcut, hdid⟩ := hp
    exact ⟨hcommit, fun e => ih _ (hcut e), fun s => ih _ (hdid s)⟩

@[simp] theorem traced_bind {p : Prog I β} {f : β → Prog I α} :
    (p.bind f).traced P Q l ↔
      p.traced P (fun r l => match r with
        | .ok b => (f b).traced P Q l
        | .error e => Q (.error e) l) l := by
  induction p generalizing l with
  | ret a => exact .rfl
  | raise e => exact .rfl
  | ask q k ih => exact forall_congr' fun a => ih a
  | db u op k ih =>
    exact and_congr_right fun _ =>
      and_congr (forall_congr' fun e => ih _) (forall_congr' fun s => ih _)

@[simp] theorem traced_attempt {p : Prog I α} {Q : Except I.Error (Except I.Error α) → Local I → Prop} :
    p.attempt.traced P Q l ↔ p.traced P (fun r l => Q (.ok r) l) l := by
  induction p generalizing l with
  | ret a => exact .rfl
  | raise e => exact .rfl
  | ask q k ih => exact forall_congr' fun a => ih a
  | db u op k ih =>
    exact and_congr_right fun _ =>
      and_congr (forall_congr' fun e => ih _) (forall_congr' fun s => ih _)

@[simp] theorem traced_lift {r : Except I.Error α} : (Prog.lift r).traced P Q l ↔ Q r l := by
  cases r <;> rfl

theorem traced_tryCatch {p : Prog I α} {handler : I.Error → Prog I α} :
    (p.tryCatch handler).traced P Q l ↔
      p.traced P (fun r l => match r with
        | .ok a => Q (.ok a) l
        | .error e => (handler e).traced P Q l) l := by
  unfold Prog.tryCatch
  rw [traced_bind, traced_attempt]
  refine Iff.of_eq (congrArg (fun R => p.traced P R l) ?_)
  funext r l
  cases r <;> rfl

@[simp] theorem traced_raiseIf {c : Prop} [Decidable c] {e : I.Error}
    {Q : Except I.Error Unit → Local I → Prop} :
    (Prog.raiseIf c e).traced P Q l ↔ (c → Q (.error e) l) ∧ (¬ c → Q (.ok ()) l) := by
  unfold Prog.raiseIf
  split <;> simp_all [traced]

@[simp] theorem traced_orRaise {x : Option α} {e : I.Error} :
    (Prog.orRaise x e).traced P Q l ↔
      (x = none → Q (.error e) l) ∧ ∀ a, x = some a → Q (.ok a) l := by
  cases x <;> simp [Prog.orRaise, traced]

@[simp] theorem traced_select {u : I.Scope} {Q : Except I.Error I.Store → Local I → Prop} :
    (Prog.select u).traced P Q l ↔ (∀ e, Q (.error e) (l.cut u .select e)) ∧
      ∀ s, Q (.ok (l.pending s)) (l.did u .select s) :=
  ⟨fun h => h.2, fun h => ⟨fun hop => (by cases hop), h⟩⟩

@[simp] theorem traced_lock {u : I.Scope} {row : I.Row}
    {Q : Except I.Error I.Store → Local I → Prop} :
    (Prog.lock u row).traced P Q l ↔ (∀ e, Q (.error e) (l.cut u (.lock row) e)) ∧
      ∀ s, Q (.ok (l.pending s)) (l.did u (.lock row) s) :=
  ⟨fun h => h.2, fun h => ⟨fun hop => (by cases hop), h⟩⟩

@[simp] theorem traced_write {u : I.Scope} {update : I.Store → I.Store}
    {Q : Except I.Error Unit → Local I → Prop} :
    (Prog.write u update).traced P Q l ↔ (∀ e, Q (.error e) (l.cut u (.write update) e)) ∧
      ∀ s, Q (.ok ()) (l.did u (.write update) s) :=
  ⟨fun h => h.2, fun h => ⟨fun hop => (by cases hop), h⟩⟩

@[simp] theorem traced_commit {u : I.Scope} {Q : Except I.Error Unit → Local I → Prop} :
    (Prog.commit u).traced P Q l ↔ P l ∧ (∀ e, Q (.error e) (l.cut u .commit e)) ∧
      ∀ s, Q (.ok ()) (l.did u .commit s) :=
  ⟨fun h => ⟨h.1 rfl, h.2⟩, fun h => ⟨fun _ => h.1, h.2⟩⟩

@[simp] theorem traced_close {u : I.Scope} {Q : Except I.Error Unit → Local I → Prop} :
    (Prog.close u).traced P Q l ↔ (∀ e, Q (.error e) (l.cut u .close e)) ∧
      ∀ s, Q (.ok ()) (l.did u .close s) :=
  ⟨fun h => h.2, fun h => ⟨fun hop => (by cases hop), h⟩⟩

/-- A unit of work: after its body the session is closed, or the closing interrupted. -/
theorem traced_uow {u : I.Scope} {body : Prog I α} :
    (Prog.uow u body).traced P Q l ↔
      body.traced P (fun r l => (∀ e, Q (.error e) (l.cut u .close e)) ∧
        ∀ s, Q r (l.did u .close s)) l := by
  unfold Prog.uow
  simp only [traced_bind, traced_attempt, traced_close, traced_lift]

theorem traced_lift_bind {r : Except I.Error β} {k : β → Prog I α}
    (herr : ∀ e, r = .error e → Q (.error e) l) (hok : ∀ b, r = .ok b → (k b).traced P Q l) :
    ((Prog.lift r).bind k).traced P Q l := by
  cases r with
  | ok b => exact hok b rfl
  | error e => exact herr e rfl

theorem traced_orRaise_bind {x : Option β} {e : I.Error} {k : β → Prog I α}
    (herr : x = none → Q (.error e) l) (hok : ∀ b, x = some b → (k b).traced P Q l) :
    ((Prog.orRaise x e).bind k).traced P Q l :=
  traced_bind.2 (traced_orRaise.2 ⟨herr, hok⟩)

end Rules

end Prog

/-! ## Soundness -/

section Soundness

variable {Fault : I.Error → Prop} {Pid : Type} {δ : Pid → Type} {P : Pid → Local I → Prop}
  {Q : (p : Pid) → Except I.Error (δ p) → Local I → Prop} {w w' : World I Pid δ}

/-- A traced process stays one, and its commits are allowed. -/
theorem Proc.Step.traced {P : Local I → Prop} {R : Except I.Error α → Local I → Prop} {free : I.Row → Prop}
    {s s' : I.Store} {p p' : Proc I α} {ev : Event I} (hp : p.prog.traced P R p.loc)
    (hstep : Proc.Step Fault free s p ev s' p') :
    p'.prog.traced P R p'.loc ∧ (ev.IsCommit → P p.loc ∧ s' = p.loc.pending s) := by
  cases hstep with
  | asked a => exact ⟨hp a, False.elim⟩
  | did op hfree =>
    obtain ⟨hcommit, -, hdid⟩ := hp
    refine ⟨hdid _, fun h => ?_⟩
    cases op with
    | commit => exact ⟨hcommit rfl, rfl⟩
    | select => exact h.elim
    | lock row => exact h.elim
    | write update => exact h.elim
    | close => exact h.elim
  | cut op e he => exact ⟨hp.2.1 e, False.elim⟩

/-- Every process `p` commits only where `P p` allows it. -/
def World.Traced (P : Pid → Local I → Prop)
    (Q : (p : Pid) → Except I.Error (δ p) → Local I → Prop) (w : World I Pid δ) : Prop :=
  ∀ p, (w.procs p).prog.traced (P p) (Q p) (w.procs p).loc

theorem World.StepBy.traced {p : Pid} {ev : Event I} (hw : w.Traced P Q)
    (hstep : w.StepBy Fault p ev w') : w'.Traced P Q := by
  intro p'
  by_cases h : p' = p
  · subst h
    exact (hstep.proc.traced (hw p')).1
  · rw [hstep.others p' h]
    exact hw p'

theorem World.traced_of_reaches (hw : w.Traced P Q) (h : World.Reaches Fault w w') :
    w'.Traced P Q := by
  induction h with
  | refl => exact hw
  | tail _ hstep ih =>
    obtain ⟨p, ev, hstep⟩ := hstep
    exact hstep.traced ih

/-- A step that is no commit leaves the committed store alone. -/
theorem Proc.Step.store_eq {free : I.Row → Prop} {s s' : I.Store} {p p' : Proc I α}
    {ev : Event I} (hstep : Proc.Step Fault free s p ev s' p') (hev : ¬ ev.IsCommit) : s' = s := by
  cases hstep with
  | asked a => rfl
  | did op hfree =>
    cases op with
    | commit => exact absurd trivial hev
    | select => rfl
    | lock row => rfl
    | write update => rfl
    | close => rfl
  | cut op e he => rfl

end Soundness

/-! ## Locked rows -/

/-- The event gives up the rows its process holds. -/
def Event.Releases : Event I → Prop
  | .did _ .commit _ _ => True
  | .did _ .close _ _ => True
  | .cut _ .close _ => True
  | _ => False

namespace Local

/-- The process locked `row` on the committed store `s`, after `older`, and has done
    `newer` since without giving it up. -/
structure Locked (l : Local I) (row : I.Row) (s : I.Store) (newer older : List (Event I)) :
    Prop where
  kept : ∀ ev ∈ newer, ¬ ev.Releases
  trace : ∃ u after, l.trace = newer ++ .did u (.lock row) s after :: older

theorem Locked.append {l l' : Local I} {row : I.Row} {s : I.Store}
    {newer older new : List (Event I)} (h : l.Locked row s newer older)
    (htrace : l'.trace = new ++ l.trace) (hnew : ∀ ev ∈ new, ¬ ev.Releases) :
    l'.Locked row s (new ++ newer) older := by
  obtain ⟨hkept, u, after, heq⟩ := h
  refine ⟨fun ev hev => ?_, u, after, by rw [htrace, heq, List.append_assoc]⟩
  rcases List.mem_append.1 hev with hmem | hmem
  · exact hnew ev hmem
  · exact hkept ev hmem

theorem locked_did (l : Local I) (u : I.Scope) (row : I.Row) (s : I.Store) :
    (l.did u (.lock row) s).Locked row s [] l.trace :=
  ⟨fun _ h => absurd h List.not_mem_nil, u, s, rfl⟩

end Local

/-- What a step does to a row that the process keeps: it is held, or was just locked. -/
theorem Proc.Step.keeps {Fault : I.Error → Prop} {free : I.Row → Prop} {s s' : I.Store}
    {p p' : Proc I α} {ev : Event I} {row : I.Row}
    (hstep : Proc.Step Fault free s p ev s' p') (hev : ¬ ev.Releases)
    (hrow : row ∈ p.loc.held ∨ ∃ u b a, ev = .did u (.lock row) b a) : row ∈ p'.loc.held := by
  cases hstep with
  | asked a =>
    rcases hrow with h | ⟨u, b, a, h⟩
    · exact h
    · cases h
  | did op hfree =>
    rcases hrow with h | ⟨u, b, a, h⟩
    · cases op with
      | commit => exact absurd trivial hev
      | close => exact absurd trivial hev
      | lock row' => exact List.mem_cons_of_mem _ h
      | select => exact h
      | write update => exact h
    · cases h
      exact List.mem_cons_self
  | cut op e he =>
    rcases hrow with h | ⟨u, b, a, h⟩
    · cases op with
      | close => exact absurd trivial hev
      | commit => exact h
      | lock row' => exact h
      | select => exact h
      | write update => exact h
    · cases h

section Unchanged

variable {C : Contract I} {Fault : I.Error → Prop} {Pid : Type} {δ : Pid → Type}
  {Q : (p : Pid) → Except I.Error (δ p) → Local I → I.Store → Prop} {w w' : World I Pid δ}

/-- Every row is held by the process that locked it, and is as it was locked. -/
def World.LocksHeld (C : Contract I) (w : World I Pid δ) : Prop :=
  ∀ p row s newer older, (w.procs p).loc.Locked row s newer older →
    row ∈ (w.procs p).loc.held ∧ C.same row s w.store

theorem World.locksHeld_start {s : I.Store} {progs : (p : Pid) → Prog I (δ p)} :
    (World.start s progs).LocksHeld C := by
  intro p row s' newer older h
  obtain ⟨-, u, after, htrace⟩ := h
  simp [World.start, Proc.start, Local.start] at htrace

/-- A step keeps a row that another process holds. -/
theorem World.StepBy.same_of_held {p p' : Pid} {ev : Event I} {row : I.Row}
    (hw : C.Good Fault Q w) (hstep : w.StepBy Fault p ev w') (hne : p' ≠ p)
    (hrow : row ∈ (w.procs p').loc.held) : C.same row w.store w'.store := by
  obtain ⟨s₀, hrely, hsafe⟩ := hw.safe p
  obtain ⟨-, hchange, -⟩ := Contract.safe_step hsafe hrely hstep.proc
  rcases hchange with h | h
  · rw [h]
    exact C.same_refl row w.store
  · exact h.same row (hw.disjoint p' p row (Ne.symm hne) hrow)

theorem World.StepBy.locksHeld {p : Pid} {ev : Event I} (hw : C.Good Fault Q w)
    (hlocks : w.LocksHeld C) (hstep : w.StepBy Fault p ev w') : w'.LocksHeld C := by
  intro p' row s newer older h
  by_cases hp : p' = p
  · subst hp
    obtain ⟨hkept, u, after, htrace⟩ := h
    rw [Contract.trace_step hstep.proc] at htrace
    cases newer with
    | nil =>
      -- the row was locked by this step, on the store it was made on
      obtain ⟨rfl, -⟩ := List.cons.inj htrace
      obtain ⟨rfl, -⟩ := Contract.stores_step hstep.proc
      rw [hstep.proc.store_eq False.elim]
      exact ⟨hstep.proc.keeps False.elim (.inr ⟨u, _, _, rfl⟩), C.same_refl row _⟩
    | cons ev' newer =>
      obtain ⟨rfl, hrest⟩ := List.cons.inj htrace
      have hev : ¬ ev.Releases := hkept ev List.mem_cons_self
      obtain ⟨hheld, hsame⟩ := hlocks p' row s newer older
        ⟨fun ev' h' => hkept ev' (List.mem_cons_of_mem _ h'), u, after, hrest⟩
      have hquiet : ¬ ev.IsCommit := by
        rcases ev with _ | ⟨_, _ | _ | _ | _ | _, _, _⟩ | _ <;>
          first | exact id | exact fun _ => hev trivial
      rw [hstep.proc.store_eq hquiet]
      exact ⟨hstep.proc.keeps hev (.inl hheld), hsame⟩
  · rw [hstep.others p' hp] at h ⊢
    obtain ⟨hheld, hsame⟩ := hlocks p' row s newer older h
    exact ⟨hheld, C.same_trans row _ _ _ hsame (hstep.same_of_held hw hp hheld)⟩

/-- Until it is given up, a locked row is as it was locked. -/
theorem World.locksHeld_of_reaches (hw : C.Good Fault Q w) (hlocks : w.LocksHeld C)
    (h : World.Reaches Fault w w') : w'.LocksHeld C := by
  induction h with
  | refl => exact hlocks
  | tail hreach hstep ih =>
    obtain ⟨p, ev, hstep⟩ := hstep
    exact hstep.locksHeld (Contract.good_of_reaches hw hreach) ih

end Unchanged

end Txn

-- SUMMARY: What an interleaved run keeps and asks, told from what each program writes and asks.
import NexusMcp.Txn.History
import NexusMcp.Txn.Traced
import NexusMcp.Txn.Within

/-!
# Attribution

A run gives each process some answers only, and they are in its log. `Answered` bounds what
a program asks and writes after such answers. What every write keeps holds in every
interleaving, and where a write rests on a locked row, the row is still as it was locked.
-/

namespace Txn

variable {I : Interface} {α β : Type} {Fault : I.Error → Prop} {Pid : Type} {δ : Pid → Type}
  {w w' : World I Pid δ}

/-! ## Answered programs -/

/-- The answers that the environment may give. -/
abbrev Answers (I : Interface) := (q : I.Query) → I.Answer q → Prop

/-- Every node of the program that the answers lead to is within `v`. -/
def Prog.Answered (given : Answers I) (v : Vocabulary I) : Prog I α → Prop
  | .ret _ => True
  | .raise _ => True
  | .ask q k => v.asks q ∧ ∀ a, given q a → (k a).Answered given v
  | .db u op k =>
    v.opens u ∧ (op = .close → v.closes) ∧ (∀ update, op = .write update → v.writes update) ∧
      ∀ r, (k r).Answered given v

namespace Prog

variable {given given' : Answers I} {v : Vocabulary I}

theorem Within.answered {p : Prog I α} (h : p.Within v) : p.Answered given v := by
  -- By the program: a question goes on with given answers only, an operation with any outcome.
  induction p with
  | ret a => trivial
  | raise e => trivial
  | ask q k ih => exact ⟨h.1, fun a _ => ih a (h.2 a)⟩
  | db u op k ih => exact ⟨h.1, h.2.1, h.2.2.1, fun r => ih r (h.2.2.2 r)⟩

theorem Answered.bind {p : Prog I β} {f : β → Prog I α} (hp : p.Answered given v)
    (hf : ∀ b, (f b).Answered given v) : (p.bind f).Answered given v := by
  induction p with
  | ret a => exact hf a
  | raise e => trivial
  | ask q k ih => exact ⟨hp.1, fun a ha => ih a (hp.2 a ha)⟩
  | db u op k ih => exact ⟨hp.1, hp.2.1, hp.2.2.1, fun r => ih r (hp.2.2.2 r)⟩

theorem Answered.attempt {p : Prog I α} (hp : p.Answered given v) :
    p.attempt.Answered given v := by
  induction p with
  | ret a => trivial
  | raise e => trivial
  | ask q k ih => exact ⟨hp.1, fun a ha => ih a (hp.2 a ha)⟩
  | db u op k ih => exact ⟨hp.1, hp.2.1, hp.2.2.1, fun r => ih r (hp.2.2.2 r)⟩

/-- A program within the vocabulary goes on with whatever it returns. -/
theorem Within.answered_bind {p : Prog I β} {f : β → Prog I α} (hp : p.Within v)
    (hf : ∀ b, (f b).Answered given v) : (p.bind f).Answered given v :=
  hp.answered.bind hf

theorem answered_ask {q : I.Query} {k : I.Answer q → Prog I α} (hq : v.asks q)
    (hk : ∀ a, given q a → (k a).Answered given v) : (Prog.ask q k).Answered given v :=
  ⟨hq, hk⟩

theorem answered_lift_bind {r : Except I.Error β} {f : β → Prog I α}
    (hf : ∀ b, r = .ok b → (f b).Answered given v) : ((lift r).bind f).Answered given v := by
  cases r with
  | ok b => exact hf b rfl
  | error e => trivial

theorem answered_raiseIf_bind {c : Prop} [Decidable c] {e : I.Error} {f : Unit → Prog I α}
    (hf : ¬ c → (f ()).Answered given v) : ((raiseIf c e).bind f).Answered given v := by
  unfold raiseIf
  split
  · trivial
  next hc => exact hf hc

theorem answered_orRaise_bind {b? : Option β} {e : I.Error} {f : β → Prog I α}
    (hf : ∀ b, b? = some b → (f b).Answered given v) :
    ((orRaise b? e).bind f).Answered given v := by
  cases b? with
  | none => trivial
  | some b => exact hf b rfl

end Prog

/-! ## Answered worlds -/

/-- What the environment answered the process. -/
def World.Given (w : World I Pid δ) (p : Pid) : Answers I := fun q a => (p, .asked q a) ∈ w.log

/-- Every process is within its vocabulary as far as its answers go, and so is all it did. -/
structure World.Answered (given : Pid → Answers I) (v : Pid → Vocabulary I) (w : World I Pid δ) :
    Prop where
  progs : ∀ p, (w.procs p).prog.Answered (given p) (v p)
  log : ∀ entry ∈ w.log, entry.2.Within (v entry.1)

section Answered

variable {given : Pid → Answers I} {v : Pid → Vocabulary I}

theorem World.answered_start {s : I.Store} {progs : (p : Pid) → Prog I (δ p)}
    (h : ∀ p, (progs p).Answered (given p) (v p)) : (World.start s progs).Answered given v where
  progs := h
  log _ hentry := absurd hentry List.not_mem_nil

/-- A step of a program is within its vocabulary, and after a given answer so is the rest. -/
theorem Proc.Step.answered {given : Answers I} {v : Vocabulary I} {free : I.Row → Prop}
    {s s' : I.Store} {p p' : Proc I α} {ev : Event I} (hp : p.prog.Answered given v)
    (hstep : Proc.Step Fault free s p ev s' p') (hgiven : ∀ q a, ev = .asked q a → given q a) :
    ev.Within v ∧ p'.prog.Answered given v := by
  cases hstep with
  | asked a => exact ⟨hp.1, hp.2 a (hgiven _ a rfl)⟩
  | did op hfree => exact ⟨⟨hp.1, hp.2.1⟩, hp.2.2.2 _⟩
  | cut op e he => exact ⟨⟨hp.1, hp.2.1⟩, hp.2.2.2 _⟩

theorem World.StepBy.answered {p : Pid} {ev : Event I} (hw : w.Answered given v)
    (hstep : w.StepBy Fault p ev w') (hgiven : ∀ q a, ev = .asked q a → given p q a) :
    w'.Answered given v := by
  obtain ⟨hev, hprog⟩ := hstep.proc.answered (hw.progs p) hgiven
  constructor
  case progs =>
    intro p'
    by_cases h : p' = p
    · subst h
      exact hprog
    · rw [hstep.others p' h]
      exact hw.progs p'
  case log =>
    intro entry hentry
    rw [hstep.log] at hentry
    rcases List.mem_cons.1 hentry with rfl | hentry
    · exact hev
    · exact hw.log entry hentry

/-- A run whose answers are given stays within the vocabularies. -/
theorem World.answered_of_reaches (hw : w.Answered given v) (h : World.Reaches Fault w w')
    (hgiven : ∀ p q a, w'.Given p q a → given p q a) : w'.Answered given v := by
  induction h with
  | refl => exact hw
  | tail _ hstep ih =>
    obtain ⟨p, ev, hstep⟩ := hstep
    -- The log only grows, so what was given in the shorter run is given in the whole one.
    simp only [World.Given, hstep.log] at hgiven
    refine hstep.answered (ih fun p q a hlog => hgiven p q a (List.mem_cons_of_mem _ hlog)) ?_
    exact fun q a hev => hgiven p q a (List.mem_cons.2 (.inl (by rw [hev])))

section Schedules

variable [DecidableEq Pid] {answer : Pid → (q : I.Query) → I.Answer q} {w : World I Pid δ}
  {p : Pid} {q : I.Query} {a : I.Answer q}

theorem World.given_advance {p' : Pid} (h : (w.advance answer p').Given p q a) :
    w.Given p q a ∨ a = answer p q := by
  unfold World.Given World.advance at h
  rcases hproc : w.procs p' with ⟨prog, l⟩
  rw [hproc] at h
  cases prog with
  | ret _ => exact .inl h
  | raise _ => exact .inl h
  | ask _ _ =>
    rcases List.mem_cons.1 h with heq | h
    · cases heq
      exact .inr rfl
    · exact .inl h
  | db _ _ _ =>
    rcases List.mem_cons.1 h with heq | h
    · cases heq
    · exact .inl h

/-- On a schedule, a process is given the answers of the schedule. -/
theorem World.given_follow {schedule : List Pid} (h : (w.follow answer schedule).Given p q a) :
    w.Given p q a ∨ a = answer p q := by
  induction schedule generalizing w with
  | nil => exact .inl h
  | cons p' schedule ih => exact (ih h).elim World.given_advance .inr

end Schedules

/-! ## Kept properties -/

variable {P : I.Store → Prop}

/-- The committed store has the property, and keeps it under what each process buffered. -/
structure World.Keeps (P : I.Store → Prop) (w : World I Pid δ) : Prop where
  store : P w.store
  pending : ∀ p s, P s → P ((w.procs p).loc.pending s)

theorem World.keeps_start {s : I.Store} {progs : (p : Pid) → Prog I (δ p)} (h : P s) :
    (World.start s progs).Keeps P where
  store := h
  pending _ _ hs := hs

/-- What a step of a process does to its buffered writes and to the committed store. -/
theorem Proc.Step.keeps_property {given : Answers I} {v : Vocabulary I} {free : I.Row → Prop}
    {s s' : I.Store} {p p' : Proc I α} {ev : Event I}
    (hv : ∀ update, v.writes update → ∀ s, P s → P (update s)) (hp : p.prog.Answered given v)
    (hpending : ∀ s, P s → P (p.loc.pending s)) (hs : P s)
    (hstep : Proc.Step Fault free s p ev s' p') :
    P s' ∧ ∀ s, P s → P (p'.loc.pending s) := by
  cases hstep with
  | asked a => exact ⟨hs, hpending⟩
  | did op hfree =>
    cases op with
    | select => exact ⟨hs, hpending⟩
    | lock row => exact ⟨hs, hpending⟩
    | write update =>
      exact ⟨hs, fun s hs => hv update (hp.2.2.1 update rfl) _ (hpending s hs)⟩
    -- A commit moves the property from the buffered writes to the store.
    | commit => exact ⟨hpending _ hs, fun _ hs => hs⟩
    | close => exact ⟨hs, fun _ hs => hs⟩
  | cut op e he =>
    cases op with
    | close => exact ⟨hs, fun _ hs => hs⟩
    | select => exact ⟨hs, hpending⟩
    | lock row => exact ⟨hs, hpending⟩
    | write update => exact ⟨hs, hpending⟩
    | commit => exact ⟨hs, hpending⟩

/-- What every write of every process keeps, after the answers that the run gave it, holds in
    every world that is reached. -/
theorem World.keeps_of_reaches (hv : ∀ p update, (v p).writes update → ∀ s, P s → P (update s))
    (hanswered : w.Answered given v) (hw : w.Keeps P) (h : World.Reaches Fault w w')
    (hgiven : ∀ p q a, w'.Given p q a → given p q a) : w'.Keeps P := by
  induction h with
  | refl => exact hw
  | @tail w₁ w₂ hreach hstep ih =>
    obtain ⟨p, ev, hstep⟩ := hstep
    simp only [World.Given, hstep.log] at hgiven
    have hbefore : ∀ p q a, w₁.Given p q a → given p q a := fun p' q a hlog =>
      hgiven p' q a (List.mem_cons_of_mem _ hlog)
    have hprog := (World.answered_of_reaches hanswered hreach hbefore).progs p
    have hkeeps := ih hbefore
    obtain ⟨hstore, hpending⟩ :=
      hstep.proc.keeps_property (hv p) hprog (hkeeps.pending p) hkeeps.store
    refine ⟨hstore, fun p' => ?_⟩
    by_cases hp : p' = p
    · subst hp
      exact hpending
    · rw [hstep.others p' hp]
      exact hkeeps.pending p'

end Answered

/-! ## Programs beside a part of the store -/

/-- The buffered writes leave `f` of the store as it is. -/
def Local.Spares {γ : Type} (f : I.Store → γ) (l : Local I) : Prop := ∀ s, f (l.pending s) = f s

theorem Local.spares_start {γ : Type} {f : I.Store → γ} : (Local.start : Local I).Spares f :=
  fun _ => rfl

/-- A program whose writes leave `f` alone commits nothing else. -/
theorem Prog.Within.spares {γ : Type} {f : I.Store → γ} {v : Vocabulary I}
    (hv : ∀ update, v.writes update → ∀ s, f (update s) = f s) {p : Prog I α} (hp : p.Within v)
    {P : Local I → Prop} (hP : ∀ l : Local I, l.Spares f → P l) {l : Local I} (hl : l.Spares f) :
    p.traced P (fun _ l' => l'.Spares f) l := by
  induction p generalizing l with
  | ret a => exact hl
  | raise e => exact hl
  | ask q k ih => exact fun a => ih a (hp.2 a) hl
  | db u op k ih =>
    refine ⟨fun _ => hP l hl, fun e => ih _ (hp.2.2.2 _) ?_, fun s => ih _ (hp.2.2.2 _) ?_⟩
    · cases op with
      | close => exact fun _ => rfl
      | select => exact hl
      | lock row => exact hl
      | write update => exact hl
      | commit => exact hl
    · cases op with
      | write update => exact fun s => (hv update (hp.2.2.1 update rfl) _).trans (hl s)
      | commit => exact fun _ => rfl
      | close => exact fun _ => rfl
      | select => exact hl
      | lock row => exact hl

/-! ## Commits that rest on locked rows -/

/-- What every allowed commit keeps, while its locked rows are as they were locked, holds in
    every world that is reached. -/
theorem World.invariant_of_traced {C : Contract I} {Inv : I.Store → Prop}
    {P : Pid → Local I → Prop} {R : (p : Pid) → Except I.Error (δ p) → Local I → Prop}
    {Q : (p : Pid) → Except I.Error (δ p) → Local I → I.Store → Prop}
    (hkeep : ∀ p l s, P p l →
      (∀ row s' newer older, l.Locked row s' newer older → C.same row s' s) →
      Inv s → Inv (l.pending s))
    (hgood : C.Good Fault Q w) (hlocks : w.LocksHeld C) (htraced : w.Traced P R)
    (hInv : Inv w.store) (h : World.Reaches Fault w w') : Inv w'.store := by
  induction h with
  | refl => exact hInv
  | @tail w₁ w₂ hreach hstep ih =>
    obtain ⟨p, ev, hstep⟩ := hstep
    -- Only a commit changes the store.
    by_cases hev : ev.IsCommit
    · have hprog := World.traced_of_reaches htraced hreach p
      obtain ⟨hP, hstore⟩ := (hstep.proc.traced hprog).2 hev
      have hheld := World.locksHeld_of_reaches hgood hlocks hreach p
      rw [hstore]
      exact hkeep p _ _ hP (fun row s' newer older hl => (hheld row s' newer older hl).2) ih
    · rw [hstep.proc.store_eq hev]
      exact ih

end Txn

-- SUMMARY: When an interleaving of transaction programs has the outcome of a serial order.
import NexusMcp.Txn.Serial
import Mathlib.Data.List.Nodup

/-!
# Serial Orders

A program that reads in one transaction and writes in a later one can be overtaken. Where
the last transaction of each program does what the whole program would do from the store
it starts from, the programs that succeeded can be put one after the other, in the order
of their last transactions.
-/

namespace Txn

namespace Serial

variable {S E α β : Type}

theorem bind_assoc {γ : Type} (p : Serial S E α) (f : α → Serial S E β) (g : β → Serial S E γ) :
    (p >>= f) >>= g = p >>= fun a => f a >>= g := by
  change (p.bind f).bind g = p.bind fun a => (f a).bind g
  induction p with
  | done result => cases result <;> rfl
  | transaction body k ih =>
    simp only [bind]
    congr 1
    funext r
    exact ih r

/-! ## Programs that run alone -/

/-- The result of a program between whose transactions nobody runs, and the store it leaves. -/
def solo : Serial S E α → S → Except E α × S
  | .done result, s => (result, s)
  | .transaction body k, s =>
    match body s with
    | .ok (b, s') => (k (.ok b)).solo s'
    | .error e => (k (.error e)).solo s

/-- The program has ended without an error. -/
def Succeeded : Serial S E α → Prop
  | .done (.ok _) => True
  | _ => False

instance : (p : Serial S E α) → Decidable p.Succeeded
  | .done (.ok _) => .isTrue trivial
  | .done (.error _) => .isFalse id
  | .transaction _ _ => .isFalse id

theorem succeeded_iff {p : Serial S E α} : p.Succeeded ↔ ∃ a, p = .done (.ok a) := by
  constructor
  · intro h
    match p, h with
    | .done (.ok a), _ => exact ⟨a, rfl⟩
  · rintro ⟨a, rfl⟩
    trivial

/-- A transaction that only reads. -/
def read (f : S → β) : Serial S E β := atomically fun s => .ok (f s, s)

@[simp] theorem solo_read_bind {f : S → β} {g : β → Serial S E α} {s : S} :
    (read f >>= g).solo s = (g (f s)).solo s := rfl

/-- A program that ends with a transaction. -/
theorem solo_atomically {body : Transaction S E β} {f : β → α} {s s' : S} {b : β}
    (hbody : body s = .ok (b, s')) :
    (atomically body >>= fun b => (pure (f b) : Serial S E α)).solo s = (.ok (f b), s') := by
  change (Serial.solo (.transaction body _) s) = _
  unfold solo
  rw [hbody]
  rfl

theorem solo_atomically_tryCatch {body : Transaction S E β} {f : β → α}
    {handler : E → Serial S E α} {s s' : S} {b : β} (hbody : body s = .ok (b, s')) :
    ((atomically body >>= fun b => (pure (f b) : Serial S E α)).tryCatch handler).solo s =
      (.ok (f b), s') := by
  change (Serial.solo (.transaction body _) s) = _
  unfold solo
  rw [hbody]
  rfl

theorem solo_atomically_ok {body : Transaction S E α} {s s' : S} {a : α}
    (hbody : body s = .ok (a, s')) : (atomically body).solo s = (.ok a, s') := by
  rw [atomically, solo, hbody]
  rfl

/-- A program that succeeds, and the one after it. -/
theorem solo_bind {p : Serial S E β} {g : β → Serial S E α} {s s' : S} {b : β}
    (h : p.solo s = (.ok b, s')) : (p >>= g).solo s = (g b).solo s' := by
  change (p.bind g).solo s = _
  induction p generalizing s with
  | done result =>
    cases h
    rfl
  | transaction body k ih =>
    rw [solo] at h
    rw [bind, solo]
    cases hbody : body s with
    | error e =>
      rw [hbody] at h
      exact ih _ h
    | ok result =>
      rw [hbody] at h
      exact ih _ h

@[simp] theorem lift_bind_ok {b : β} {g : β → Serial S E α} :
    ((lift (.ok b) : Serial S E β) >>= g) = g b := rfl

@[simp] theorem lift_bind_error {e : E} {g : β → Serial S E α} :
    ((lift (.error e) : Serial S E β) >>= g) = .done (.error e) := rfl

/-! ## What a program has seen -/

/-- Only the last transaction of the program changes the store, and when it has succeeded
    `Q` holds of the stores before and after each of its transactions, newest first. -/
def Traced (Q : List (S × S) → α → Prop) : Serial S E α → List (S × S) → Prop
  | .done (.ok a), seen => Q seen a
  | .done (.error _), _ => True
  | .transaction body k, seen =>
    (∀ s b s', body s = .ok (b, s') →
      (s' = s ∨ (k (.ok b)).Succeeded) ∧ (k (.ok b)).Traced Q ((s, s') :: seen)) ∧
    ∀ e, ¬ (k (.error e)).Succeeded ∧ (k (.error e)).Traced Q seen

variable {Q : List (S × S) → α → Prop} {seen : List (S × S)}

@[simp] theorem traced_error {e : E} : (.done (.error e) : Serial S E α).Traced Q seen := trivial

theorem traced_read_bind {f : S → β} {g : β → Serial S E α} :
    (read f >>= g).Traced Q seen ↔ ∀ s, (g (f s)).Traced Q ((s, s) :: seen) := by
  constructor
  · intro h s
    exact (h.1 s (f s) s rfl).2
  · intro h
    refine ⟨?_, fun e => ⟨id, trivial⟩⟩
    intro s b s' hbody
    cases hbody
    exact ⟨.inl rfl, h s⟩

/-- A program that ends with a transaction. -/
theorem traced_atomically {body : Transaction S E β} {f : β → α} :
    (atomically body >>= fun b => (pure (f b) : Serial S E α)).Traced Q seen ↔
      ∀ s b s', body s = .ok (b, s') → Q ((s, s') :: seen) (f b) := by
  constructor
  · intro h s b s' hbody
    exact (h.1 s b s' hbody).2
  · intro h
    exact ⟨fun s b s' hbody => ⟨.inr trivial, h s b s' hbody⟩, fun e => ⟨id, trivial⟩⟩

/-- Such a program with a handler for its errors. -/
theorem traced_atomically_tryCatch {body : Transaction S E β} {f : β → α}
    {handler : E → Serial S E α} (hbody : ∀ s b s', body s = .ok (b, s') → Q ((s, s') :: seen) (f b))
    (hhandler : ∀ e, ¬ (handler e).Succeeded ∧ (handler e).Traced Q seen) :
    ((atomically body >>= fun b => (pure (f b) : Serial S E α)).tryCatch handler).Traced Q seen :=
  ⟨fun s b s' h => ⟨.inr trivial, hbody s b s' h⟩, hhandler⟩

theorem traced_lift_bind {result : Except E β} {g : β → Serial S E α} :
    (lift result >>= g).Traced Q seen ↔ ∀ b, result = .ok b → (g b).Traced Q seen := by
  cases result with
  | error e => simp
  | ok b => simp

theorem Traced.mono {Q' : List (S × S) → α → Prop} {p : Serial S E α} (hp : p.Traced Q seen)
    (h : ∀ seen a, Q seen a → Q' seen a) : p.Traced Q' seen := by
  induction p generalizing seen with
  | done result =>
    cases result with
    | ok a => exact h _ _ hp
    | error e => trivial
  | transaction body k ih =>
    refine ⟨?_, fun e => ⟨(hp.2 e).1, ih _ (hp.2 e).2⟩⟩
    intro s b s' hbody
    exact ⟨(hp.1 s b s' hbody).1, ih _ (hp.1 s b s' hbody).2⟩

end Serial

namespace SerialWorld

variable {S E Pid : Type} {δ : Pid → Type} [DecidableEq Pid]
variable {Fault : E → Prop} {w w' : SerialWorld S E Pid δ}

/-! ## Schedules -/

/-- The process makes its next transaction, if there is one left. -/
def advance (w : SerialWorld S E Pid δ) (p : Pid) : SerialWorld S E Pid δ :=
  match w.procs p with
  | .done _ => w
  | .transaction body k =>
    match body w.store with
    | .ok (b, s) =>
      { store := s
        procs := Function.update w.procs p (k (.ok b))
        commits := ⟨p, w.store, s⟩ :: w.commits }
    | .error e => { w with procs := Function.update w.procs p (k (.error e)) }

/-- The processes make one transaction each in the order of the schedule. -/
def runSchedule (w : SerialWorld S E Pid δ) (schedule : List Pid) : SerialWorld S E Pid δ :=
  schedule.foldl advance w

theorem reaches_advance (w : SerialWorld S E Pid δ) (p : Pid) : Reaches Fault w (w.advance p) := by
  have hothers : ∀ q, q ≠ p → ∀ prog, Function.update w.procs p prog q = w.procs q :=
    fun q hq prog => Function.update_of_ne hq _ _
  unfold advance
  split
  · exact .refl
  next body k hproc =>
    split
    · next b s hbody =>
      refine .tail .refl (.committed hproc hbody rfl (Function.update_self ..) ?_ rfl)
      exact fun q hq => hothers q hq _
    · next e hbody =>
      refine .tail .refl (.rolledBack hproc (.inl hbody) rfl (Function.update_self ..) ?_ rfl)
      exact fun q hq => hothers q hq _

theorem reaches_runSchedule (w : SerialWorld S E Pid δ) (schedule : List Pid) :
    Reaches Fault w (w.runSchedule schedule) := by
  induction schedule generalizing w with
  | nil => exact .refl
  | cons p schedule ih => exact (reaches_advance w p).trans (ih _)

/-! ## Histories -/

/-- The stores before and after each transaction of a process, newest first. -/
def history (w : SerialWorld S E Pid δ) (p : Pid) : List (S × S) :=
  (w.commits.filter (·.pid = p)).map fun c => (c.before, c.after)

theorem history_committed {p : Pid} {s : S} (hcommits : w'.commits = ⟨p, w.store, s⟩ :: w.commits) :
    w'.history p = (w.store, s) :: w.history p := by
  simp [history, hcommits]

theorem history_other {p q : Pid} {s : S} (hq : q ≠ p)
    (hcommits : w'.commits = ⟨p, w.store, s⟩ :: w.commits) : w'.history q = w.history q := by
  simp [history, hcommits, hq.symm]

theorem traced_step {Q : (p : Pid) → List (S × S) → δ p → Prop}
    (h : ∀ p, (w.procs p).Traced (Q p) (w.history p)) (hstep : Step Fault w w') (q : Pid) :
    (w'.procs q).Traced (Q q) (w'.history q) := by
  have hq := h q
  cases hstep with
  | @committed p _ body k b s hproc hbody hstore hself hothers hcommits =>
    by_cases hqp : q = p
    · subst hqp
      rw [hproc] at hq
      rw [hself, history_committed hcommits]
      exact (hq.1 _ _ _ hbody).2
    · rw [hothers q hqp, history_other hqp hcommits]
      exact hq
  | @rolledBack p _ body k e hproc herror hstore hself hothers hcommits =>
    have hhistory : w'.history q = w.history q := by
      simp [history, hcommits]
    by_cases hqp : q = p
    · subst hqp
      rw [hproc] at hq
      rw [hself, hhistory]
      exact (hq.2 e).2
    · rw [hothers q hqp, hhistory]
      exact hq

/-- In every run, what remains of each process is traced by what it has seen. -/
theorem traced_of_reaches {Q : (p : Pid) → List (S × S) → δ p → Prop} {s : S}
    {procs : (p : Pid) → Serial S E (δ p)} (hprocs : ∀ p, (procs p).Traced (Q p) [])
    (h : Reaches Fault (start s procs) w) (p : Pid) :
    (w.procs p).Traced (Q p) (w.history p) := by
  induction h generalizing p with
  | refl => exact hprocs p
  | tail _ hstep ih => exact traced_step ih hstep p

/-! ## One program -/

/-- The world of a single program. -/
def alone {α : Type} (program : Serial S E α) (s : S) : SerialWorld S E Unit fun _ => α :=
  .start s fun _ => program

/-- A transaction that runs alone and has ended was committed with its result, or it failed and
    left the store as it was. -/
theorem ended_of_reaches {α : Type} {body : Transaction S E α} {s : S}
    {w : SerialWorld S E Unit fun _ => α} {outcome : Except E α}
    (h : Reaches Fault (alone (Serial.atomically body) s) w)
    (hended : w.procs () = .done outcome) :
    (∃ a, outcome = .ok a ∧ body s = .ok (a, w.store)) ∨
      ∃ e, outcome = .error e ∧ (body s = .error e ∨ Fault e) ∧ w.store = s := by
  -- A transaction is one step: until it has ended it has not begun.
  have hcases : (w.procs () = Serial.atomically body ∧ w.store = s) ∨
      (∃ a, w.procs () = .done (.ok a) ∧ body s = .ok (a, w.store)) ∨
      ∃ e, w.procs () = .done (.error e) ∧ (body s = .error e ∨ Fault e) ∧ w.store = s := by
    clear hended
    induction h with
    | refl => exact .inl ⟨rfl, rfl⟩
    | tail _ hstep ih =>
      cases hstep with
      | @committed p _ body' k b s' hproc hbody hstore hself hothers hcommits =>
        obtain ⟨hbefore, hsame⟩ | ⟨a, hbefore, -⟩ | ⟨e, hbefore, -⟩ := ih
        · cases hproc.symm.trans hbefore
          rw [hsame] at hbody
          exact .inr (.inl ⟨b, hself, by rw [hstore, hbody]⟩)
        · cases hproc.symm.trans hbefore
        · cases hproc.symm.trans hbefore
      | @rolledBack p _ body' k e hproc herror hstore hself hothers hcommits =>
        obtain ⟨hbefore, hsame⟩ | ⟨a, hbefore, -⟩ | ⟨e', hbefore, -⟩ := ih
        · cases hproc.symm.trans hbefore
          rw [hsame] at herror hstore
          exact .inr (.inr ⟨e, hself, herror, hstore⟩)
        · cases hproc.symm.trans hbefore
        · cases hproc.symm.trans hbefore
  obtain ⟨hopen, -⟩ | ⟨a, hdone, hbody⟩ | ⟨e, hdone, herror⟩ := hcases
  · cases hended.symm.trans hopen
  · cases hended.symm.trans hdone
    exact .inl ⟨a, rfl, hbody⟩
  · cases hended.symm.trans hdone
    exact .inr ⟨e, rfl, herror⟩

/-! ## Programs one after the other -/

theorem runAlone_store {p : Pid} (prog : Serial S E (δ p)) (w : SerialWorld S E Pid δ) :
    (runAlone p prog w).store = (prog.solo w.store).2 := by
  induction prog generalizing w with
  | done result => rfl
  | transaction body k ih =>
    unfold runAlone Serial.solo
    cases hbody : body w.store with
    | error e => exact ih _ w
    | ok result => exact ih _ _

theorem runAlone_procs {p : Pid} (prog : Serial S E (δ p)) (w : SerialWorld S E Pid δ) :
    (runAlone p prog w).procs = Function.update w.procs p (.done (prog.solo w.store).1) := by
  induction prog generalizing w with
  | done result => rfl
  | transaction body k ih =>
    unfold runAlone Serial.solo
    cases hbody : body w.store with
    | error e => exact ih _ w
    | ok result => exact ih _ _

/-- A program that runs alone, with nobody else there, ends as `solo` says. -/
theorem exists_ended {α : Type} (Fault : E → Prop) (program : Serial S E α) (s : S) :
    ∃ w, Reaches Fault (alone program s) w ∧ w.procs () = .done (program.solo s).1 ∧
      w.store = (program.solo s).2 := by
  refine ⟨runAlone (p := ()) program (alone program s),
    reaches_runAlone (w := alone program s) program rfl, ?_, ?_⟩
  · rw [runAlone_procs]
    exact Function.update_self ..
  · rw [runAlone_store]
    rfl

theorem runInOrder_append (w : SerialWorld S E Pid δ) (ps qs : List Pid) :
    w.runInOrder (ps ++ qs) = (w.runInOrder ps).runInOrder qs := by
  induction ps generalizing w with
  | nil => rfl
  | cons p ps ih => exact ih _

theorem runInOrder_procs_of_not_mem {p : Pid} {ps : List Pid} (hp : p ∉ ps) :
    (w.runInOrder ps).procs p = w.procs p := by
  induction ps generalizing w with
  | nil => rfl
  | cons q ps ih =>
    rw [List.mem_cons, not_or] at hp
    calc (w.runInOrder (q :: ps)).procs p
        = (runAlone q (w.procs q) w).procs p := ih hp.2
      _ = w.procs p := by rw [runAlone_procs, Function.update_of_ne hp.1]

/-- One after the other in some order, the programs that succeeded in `w` all succeed, and
    leave the store of `w`. -/
def SerialOutcome (w₀ w : SerialWorld S E Pid δ) : Prop :=
  ∃ order : List Pid, order.Nodup ∧ (∀ p, p ∈ order ↔ (w.procs p).Succeeded) ∧
    (∀ p ∈ order, ((w₀.runInOrder order).procs p).Succeeded) ∧
    (w₀.runInOrder order).store = w.store

/-- A program that succeeds next is put last. -/
theorem SerialOutcome.snoc {s : S} {procs : (p : Pid) → Serial S E (δ p)} {p : Pid} {a : δ p}
    (h : SerialOutcome (start s procs) w) (hp : ¬ (w.procs p).Succeeded)
    (hself : (w'.procs p).Succeeded) (hothers : ∀ q, q ≠ p → w'.procs q = w.procs q)
    (hsolo : (procs p).solo w.store = (.ok a, w'.store)) :
    SerialOutcome (start s procs) w' := by
  obtain ⟨order, hnodup, hmem, hall, hstore⟩ := h
  have hnew : p ∉ order := fun hp' => hp ((hmem p).1 hp')
  -- The program of `p` is as it was at the start, and runs from the store of `w`.
  have hrun : (start s procs).runInOrder (order ++ [p]) =
      runAlone p (procs p) ((start s procs).runInOrder order) := by
    rw [runInOrder_append]
    simp only [runInOrder, runInOrder_procs_of_not_mem hnew]
    rfl
  refine ⟨order ++ [p], ?_, ?_, ?_, ?_⟩
  · exact List.nodup_append.2 ⟨hnodup, List.nodup_singleton p,
      fun q hq r hr heq => hnew (List.mem_singleton.1 hr ▸ heq ▸ hq)⟩
  · intro q
    rw [List.mem_append, List.mem_singleton, hmem]
    by_cases hq : q = p
    · subst hq
      simp [hself]
    · rw [hothers q hq, or_iff_left hq]
  · intro q hq
    rw [hrun, runAlone_procs, hstore, hsolo]
    by_cases hqp : q = p
    · subst hqp
      rw [Function.update_self]
      trivial
    · rw [Function.update_of_ne hqp]
      exact hall q ((List.mem_append.1 hq).resolve_right fun h => hqp (List.mem_singleton.1 h))
  · rw [hrun, runAlone_store, hstore, hsolo]

/-- Other steps keep a serial outcome: the store is as it was, and nobody else succeeded. -/
theorem SerialOutcome.stay {w₀ : SerialWorld S E Pid δ} (h : SerialOutcome w₀ w)
    (hprocs : ∀ p, (w'.procs p).Succeeded ↔ (w.procs p).Succeeded) (hstore : w'.store = w.store) :
    SerialOutcome w₀ w' := by
  obtain ⟨order, hnodup, hmem, hall, horder⟩ := h
  exact ⟨order, hnodup, fun p => (hmem p).trans (hprocs p).symm, hall, horder.trans hstore.symm⟩

/-- Under the condition `C` on what the program has seen, its last transaction did what the
    whole program does from the store before it, and within the relation `R`. -/
def ActsAtLast (I : S → Prop) (R : S → S → Prop) (C : List (S × S) → Prop) {α : Type}
    (prog : Serial S E α) (seen : List (S × S)) (_ : α) : Prop :=
  ∃ s s' earlier, seen = (s, s') :: earlier ∧
    (C seen → I s → (∃ a, prog.solo s = (.ok a, s')) ∧ I s' ∧ R s s')

/-- Where every program that succeeded met its condition, the outcome is that of the serial
    order of their last transactions. -/
theorem serialOutcome_of_reaches {I : S → Prop} {R : Pid → S → S → Prop}
    {C : Pid → List (S × S) → Prop} {s : S} {procs : (p : Pid) → Serial S E (δ p)}
    (hprocs : ∀ p, (procs p).Traced (ActsAtLast I (R p) (C p) (procs p)) []) (hstart : I s)
    (h : Reaches Fault (start s procs) w)
    (hmet : ∀ p, (w.procs p).Succeeded → C p (w.history p)) :
    SerialOutcome (start s procs) w ∧ I w.store ∧
      ∀ c ∈ w.commits, c.after = c.before ∨ R c.pid c.before c.after := by
  induction h with
  | refl =>
    refine ⟨⟨[], List.nodup_nil, ?_, ?_, rfl⟩, hstart, fun c hc => absurd hc List.not_mem_nil⟩
    · intro p
      refine ⟨fun hp => absurd hp List.not_mem_nil, ?_⟩
      -- A program that has succeeded before its first transaction has seen nothing.
      intro hp
      obtain ⟨a, ha⟩ := Serial.succeeded_iff.1 hp
      have htraced := hprocs p
      rw [show procs p = .done (.ok a) from ha] at htraced
      obtain ⟨_, _, _, hseen, -⟩ := htraced
      cases hseen
    · exact fun p hp => absurd hp List.not_mem_nil
  | @tail w w' hreaches hstep ih =>
    have htraced := traced_of_reaches hprocs hreaches
    have htraced' := traced_of_reaches hprocs (.tail hreaches hstep)
    cases hstep with
    | @committed p _ body k b s₁ hproc hbody hstore hself hothers hcommits =>
      have hp : ¬ (w.procs p).Succeeded := by
        rw [hproc]
        exact id
      -- The programs that had succeeded before met their conditions already.
      have hbefore : ∀ q, (w.procs q).Succeeded → C q (w.history q) := by
        intro q hq
        have hqp : q ≠ p := fun h => hp (h ▸ hq)
        rw [← hothers q hqp] at hq
        rw [← history_other hqp hcommits]
        exact hmet q hq
      obtain ⟨hserial, hI, hall⟩ := ih hbefore
      rw [hcommits, List.forall_mem_cons]
      have hlast := htraced p
      rw [hproc] at hlast
      by_cases hdone : (w'.procs p).Succeeded
      · obtain ⟨a, ha⟩ := Serial.succeeded_iff.1 hdone
        have hacts := htraced' p
        rw [ha] at hacts
        obtain ⟨s₀, s₀', earlier, hseen, hacts⟩ := hacts
        have hnewest := (history_committed hcommits).symm.trans hseen
        cases hnewest
        obtain ⟨⟨a', hsolo⟩, hI', hR⟩ := hacts (hmet p hdone) hI
        rw [← hstore] at hsolo hI'
        exact ⟨hserial.snoc hp hdone hothers hsolo, hI', .inr hR, hall⟩
      · have hsame : s₁ = w.store :=
          ((hlast.1 _ _ _ hbody).1).resolve_right fun h => hdone (hself ▸ h)
        refine ⟨hserial.stay ?_ (hstore.trans hsame), ?_, .inl hsame, hall⟩
        · intro q
          by_cases hqp : q = p
          · subst hqp
            exact ⟨fun h => absurd h hdone, fun h => absurd h hp⟩
          · rw [hothers q hqp]
        · rw [hstore, hsame]
          exact hI
    | @rolledBack p _ body k e hproc herror hstore hself hothers hcommits =>
      have hp : ¬ (w.procs p).Succeeded := by
        rw [hproc]
        exact id
      have hdone : ¬ (w'.procs p).Succeeded := by
        have hlast := htraced p
        rw [hproc] at hlast
        rw [hself]
        exact (hlast.2 e).1
      have hprocs' : ∀ q, (w'.procs q).Succeeded ↔ (w.procs q).Succeeded := by
        intro q
        by_cases hqp : q = p
        · subst hqp
          exact ⟨fun h => absurd h hdone, fun h => absurd h hp⟩
        · rw [hothers q hqp]
      have hbefore : ∀ q, (w.procs q).Succeeded → C q (w.history q) := by
        intro q hq
        have hhistory : w'.history q = w.history q := by
          simp [history, hcommits]
        rw [← hhistory]
        exact hmet q ((hprocs' q).2 hq)
      obtain ⟨hserial, hI, hall⟩ := ih hbefore
      rw [hstore, hcommits]
      exact ⟨hserial.stay hprocs' hstore, hI, hall⟩

/-! ## Ordered stores -/

omit [DecidableEq Pid] in
/-- In every run the commits lead from the first store to the present one. -/
theorem linked_of_reaches {s : S} {procs : (p : Pid) → Serial S E (δ p)}
    (h : Reaches Fault (start s procs) w) : Linked s w.commits w.store := by
  have hany : ∀ {α : Type} (p : Serial S E α), p.Commits fun _ _ => True := by
    intro α p
    induction p with
    | done result => trivial
    | transaction body k ih => exact ⟨fun _ _ _ _ => trivial, ih⟩
  exact (within_of_reaches (R := fun _ _ _ => True) (fun p => hany (procs p)) h).linked

omit [DecidableEq Pid] in
/-- Where each commit goes up in a preorder, so do the stores between two commits. -/
theorem Linked.pairwise {R : S → S → Prop} (hrefl : ∀ s, R s s)
    (htrans : ∀ s₁ s₂ s₃, R s₁ s₂ → R s₂ s₃ → R s₁ s₃) {s s' : S} {commits : List (Commit S Pid)}
    (hlinked : Linked s commits s') (hup : ∀ c ∈ commits, R c.before c.after) :
    (∀ c ∈ commits, R c.after s') ∧
      commits.Pairwise fun newer older => R older.after newer.before := by
  induction commits generalizing s' with
  | nil => exact ⟨fun c hc => absurd hc List.not_mem_nil, .nil⟩
  | cons commit earlier ih =>
    obtain ⟨rfl, hearlier⟩ := hlinked
    rw [List.forall_mem_cons] at hup
    obtain ⟨hlast, hpairs⟩ := ih hearlier hup.2
    refine ⟨List.forall_mem_cons.2 ⟨hrefl _, ?_⟩, List.pairwise_cons.2 ⟨hlast, hpairs⟩⟩
    intro c hc
    exact htrans _ _ _ (hlast c hc) hup.1

/-- The transactions of one process are ordered as all of them are. -/
theorem history_pairwise {R : S → S → Prop}
    (h : w.commits.Pairwise fun newer older => R older.after newer.before) (p : Pid) :
    (w.history p).Pairwise fun newer older => R older.2 newer.1 := by
  unfold history
  rw [List.pairwise_map]
  exact h.filter _

end SerialWorld

end Txn

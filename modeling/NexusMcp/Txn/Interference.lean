-- SUMMARY: How a program of transactions ends while others run between its transactions.
import NexusMcp.Txn.SerialHistory

/-!
# Interference

What a program has brought about lasts if the others leave it alone. A program relies on a
relation that their transactions keep, which may depend on what it has itself done. Some
of its transactions may also be interrupted.
-/

namespace Txn

namespace Serial

variable {S E α β : Type}

/-! ## Interrupted programs -/

/-- The program with some of its transactions interrupted: an error is raised in the place of
    such a transaction, and nothing is committed. -/
inductive Interrupted (Fault : E → Prop) : Serial S E α → Serial S E α → Prop where
  | done (result : Except E α) : Interrupted Fault (.done result) (.done result)
  | runs {β : Type} {body : Transaction S E β} {k k' : Except E β → Serial S E α}
      (h : ∀ r, Interrupted Fault (k r) (k' r)) :
      Interrupted Fault (.transaction body k) (.transaction body k')
  | raises {β : Type} {body : Transaction S E β} {k : Except E β → Serial S E α}
      {p : Serial S E α} {e : E} (hfault : Fault e) (h : Interrupted Fault (k (.error e)) p) :
      Interrupted Fault (.transaction body k) p

theorem Interrupted.refl {Fault : E → Prop} (p : Serial S E α) : Interrupted Fault p p := by
  induction p with
  | done result => exact .done result
  | transaction body k ih => exact .runs ih

theorem Interrupted.follows {Fault : E → Prop} {p p' : Serial S E α} {seen : List (S × S)}
    {R : List (S × S) → S → S → Prop} (h : Interrupted Fault p p') (hp : p.Follows R seen) :
    p'.Follows R seen := by
  induction h generalizing seen with
  | done result => trivial
  | runs _ ih =>
    refine ⟨?_, fun e => ih _ (hp.2 e)⟩
    intro s b s' hbody
    exact ⟨(hp.1 s b s' hbody).1, ih _ (hp.1 s b s' hbody).2⟩
  | raises _ _ ih => exact ih (hp.2 _)

theorem Follows.tryCatch {p : Serial S E α} {handler : E → Serial S E α} {seen : List (S × S)}
    {R : List (S × S) → S → S → Prop} (hp : p.Follows R seen)
    (hhandler : ∀ seen' e, (handler e).Follows R (seen' ++ seen)) :
    (p.tryCatch handler).Follows R seen := by
  induction p generalizing seen with
  | done result =>
    cases result with
    | ok a => trivial
    | error e => exact hhandler [] e
  | transaction body k ih =>
    refine ⟨?_, fun e => ih _ (hp.2 e) hhandler⟩
    intro s b s' hbody
    refine ⟨(hp.1 s b s' hbody).1, ih _ (hp.1 s b s' hbody).2 ?_⟩
    intro seen' e
    have h := hhandler (seen' ++ [(s, s')]) e
    rwa [List.append_assoc] at h

theorem Follows.bind {p : Serial S E α} {f : α → Serial S E β} {seen : List (S × S)}
    {R : List (S × S) → S → S → Prop} (hp : p.Follows R seen)
    (hf : ∀ seen' a, (f a).Follows R (seen' ++ seen)) : (p >>= f).Follows R seen := by
  change (p.bind f).Follows R seen
  induction p generalizing seen with
  | done result =>
    cases result with
    | ok a => exact hf [] a
    | error e => trivial
  | transaction body k ih =>
    refine ⟨?_, fun e => ih _ (hp.2 e) hf⟩
    intro s b s' hbody
    refine ⟨(hp.1 s b s' hbody).1, ih _ (hp.1 s b s' hbody).2 ?_⟩
    intro seen' a
    have h := hf (seen' ++ [(s, s')]) a
    rwa [List.append_assoc] at h

/-! ## How a program ends -/

/-- What the others do between two transactions of a program, given what it has done. -/
structure Rely (S : Type) where
  rel : List (S × S) → S → S → Prop
  refl : ∀ seen s, rel seen s s
  trans : ∀ seen s₁ s₂ s₃, rel seen s₁ s₂ → rel seen s₂ s₃ → rel seen s₁ s₃

/-- However the others interfere, the program ends so that `Q` holds of the stores before and
    after each of its transactions, of its result and of the store. -/
def Ends (Fault : E → Prop) (R : Rely S) (Q : List (S × S) → Except E α → S → Prop) :
    Serial S E α → List (S × S) → S → Prop
  | .done result, seen, s => ∀ s₁, R.rel seen s s₁ → Q seen result s₁
  | .transaction body k, seen, s => ∀ s₁, R.rel seen s s₁ →
    (∀ b s', body s₁ = .ok (b, s') → (k (.ok b)).Ends Fault R Q ((s₁, s') :: seen) s') ∧
      ∀ e, body s₁ = .error e ∨ Fault e → (k (.error e)).Ends Fault R Q seen s₁

variable {Fault : E → Prop} {R : Rely S} {Q : List (S × S) → Except E α → S → Prop}
variable {seen : List (S × S)} {s s' : S}

/-- What the others have done before does not matter. -/
theorem Ends.interfere {p : Serial S E α} (h : p.Ends Fault R Q seen s)
    (hrely : R.rel seen s s') : p.Ends Fault R Q seen s' := by
  cases p with
  | done result => exact fun s₁ hs₁ => h s₁ (R.trans _ _ _ _ hrely hs₁)
  | transaction body k => exact fun s₁ hs₁ => h s₁ (R.trans _ _ _ _ hrely hs₁)

theorem Ends.done {result : Except E α} (h : (Serial.done result).Ends Fault R Q seen s) :
    Q seen result s :=
  h s (R.refl seen s)

theorem ends_lift_bind {result : Except E β} {f : β → Serial S E α}
    (hok : ∀ b, result = .ok b → (f b).Ends Fault R Q seen s)
    (herror : ∀ e, result = .error e → ∀ s₁, R.rel seen s s₁ → Q seen (.error e) s₁) :
    (lift result >>= f).Ends Fault R Q seen s := by
  cases result with
  | ok b => exact hok b rfl
  | error e => exact herror e rfl

theorem ends_atomically_bind {body : Transaction S E β} {f : β → Serial S E α}
    (hok : ∀ s₁, R.rel seen s s₁ → ∀ b s', body s₁ = .ok (b, s') →
      (f b).Ends Fault R Q ((s₁, s') :: seen) s')
    (herror : ∀ s₁, R.rel seen s s₁ → ∀ e, body s₁ = .error e ∨ Fault e →
      ∀ s₂, R.rel seen s₁ s₂ → Q seen (.error e) s₂) :
    (atomically body >>= f).Ends Fault R Q seen s :=
  fun s₁ hs₁ => ⟨hok s₁ hs₁, herror s₁ hs₁⟩

theorem Ends.bind {p : Serial S E β} {f : β → Serial S E α}
    {Q' : List (S × S) → Except E β → S → Prop} (hp : p.Ends Fault R Q' seen s)
    (hok : ∀ seen' b s', Q' seen' (.ok b) s' → (f b).Ends Fault R Q seen' s')
    (herror : ∀ seen' e s', Q' seen' (.error e) s' → Q seen' (.error e) s') :
    (p >>= f).Ends Fault R Q seen s := by
  change (p.bind f).Ends Fault R Q seen s
  induction p generalizing seen s with
  | done result =>
    cases result with
    | ok b => exact hok seen b s hp.done
    | error e => exact fun s₁ hs₁ => herror seen e s₁ (hp s₁ hs₁)
  | transaction body k ih =>
    intro s₁ hs₁
    exact ⟨fun b s' hbody => ih _ ((hp s₁ hs₁).1 b s' hbody),
      fun e he => ih _ ((hp s₁ hs₁).2 e he)⟩

theorem Ends.tryCatch {p : Serial S E α} {handler : E → Serial S E α}
    {Q' : List (S × S) → Except E α → S → Prop} (hp : p.Ends Fault R Q' seen s)
    (hok : ∀ seen' a s', Q' seen' (.ok a) s' → Q seen' (.ok a) s')
    (herror : ∀ seen' e s', Q' seen' (.error e) s' → (handler e).Ends Fault R Q seen' s') :
    (p.tryCatch handler).Ends Fault R Q seen s := by
  induction p generalizing seen s with
  | done result =>
    cases result with
    | ok a => exact fun s₁ hs₁ => hok seen a s₁ (hp s₁ hs₁)
    | error e => exact herror seen e s hp.done
  | transaction body k ih =>
    intro s₁ hs₁
    exact ⟨fun b s' hbody => ih _ ((hp s₁ hs₁).1 b s' hbody),
      fun e he => ih _ ((hp s₁ hs₁).2 e he)⟩

/-- A program that bears the faults ends in the same way where they have already struck. -/
theorem Interrupted.ends {p p' : Serial S E α} (h : Interrupted Fault p p')
    (hp : p.Ends Fault R Q seen s) : p'.Ends (fun _ => False) R Q seen s := by
  induction h generalizing seen s with
  | done result => exact hp
  | runs _ ih =>
    intro s₁ hs₁
    refine ⟨fun b s' hbody => ih _ ((hp s₁ hs₁).1 b s' hbody), ?_⟩
    intro e he
    exact ih _ ((hp s₁ hs₁).2 e (.inl (he.resolve_right id)))
  | raises hfault _ ih => exact ih ((hp s (R.refl seen s)).2 _ (.inr hfault))

end Serial

/-! ## Interference in a world -/

namespace SerialWorld

variable {S E Pid : Type} {δ : Pid → Type} [DecidableEq Pid]
variable {Fault : E → Prop} {w w' : SerialWorld S E Pid δ}

/-- The commits of the others are within what each process relies on. -/
def Respects (R : Pid → Serial.Rely S) : List (Commit S Pid) → Prop
  | [] => True
  | c :: earlier =>
    (∀ p, p ≠ c.pid → (R p).rel (seenBy earlier p) c.before c.after) ∧ Respects R earlier

/-- In every run in which the others do what each process relies on, it ends as it would. -/
theorem ends_of_reaches {R : Pid → Serial.Rely S}
    {Q : (p : Pid) → List (S × S) → Except E (δ p) → S → Prop} {s : S}
    {procs : (p : Pid) → Serial S E (δ p)} (hprocs : ∀ p, (procs p).Ends Fault (R p) (Q p) [] s)
    (h : Reaches Fault (start s procs) w) (hrespects : Respects R w.commits) (p : Pid) :
    (w.procs p).Ends Fault (R p) (Q p) (w.history p) w.store := by
  induction h generalizing p with
  | refl => exact hprocs p
  | tail _ hstep ih =>
    cases hstep with
    | @committed q _ body k b s' hproc hbody hstore hself hothers hcommits =>
      rw [hcommits] at hrespects
      have hends := ih hrespects.2
      rw [hstore]
      by_cases hpq : p = q
      · subst hpq
        have hp := hends p
        rw [hproc] at hp
        rw [hself, history_committed hcommits]
        exact (hp _ ((R p).refl _ _)).1 b s' hbody
      · rw [hothers p hpq, history_other hpq hcommits]
        exact (hends p).interfere (hrespects.1 p hpq)
    | @rolledBack q _ body k e hproc herror hstore hself hothers hcommits =>
      rw [hcommits] at hrespects
      -- A rollback is no commit, so nobody has to put up with anything.
      have hhistory : ∀ w₁ w₂ : SerialWorld S E Pid δ, w₂.commits = w₁.commits →
          w₂.history p = w₁.history p := fun w₁ w₂ heq => by simp [history, heq]
      rw [hhistory _ _ hcommits, hstore]
      by_cases hpq : p = q
      · subst hpq
        have hp := ih hrespects p
        rw [hproc] at hp
        rw [hself]
        exact (hp _ ((R p).refl _ _)).2 e herror
      · rw [hothers p hpq]
        exact ih hrespects p

end SerialWorld

end Txn

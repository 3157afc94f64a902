-- SUMMARY: The errors a program may end with, and what its own trace adds to its postcondition.
import NexusMcp.Txn.World

/-!
# How Programs End

`Prog.Throws` bounds the errors of a program by those it raises itself. Like the trace, it
is told from the program alone, and joins whatever `safe` says of the store.
-/

namespace Txn

variable {I : Interface} {α β : Type} {E : I.Error → Prop}

namespace Prog

/-- However it is answered, and interrupted by errors of `E` only, the program ends with a
    value or an error of `E`. -/
def Throws (E : I.Error → Prop) : Prog I α → Prop
  | .ret _ => True
  | .raise e => E e
  | .ask _ k => ∀ a, (k a).Throws E
  -- An operation is cut short by an error of `E`, or it answers with some store.
  | .db _ _ k => (∀ e, E e → (k (.error e)).Throws E) ∧ ∀ s, (k (.ok s)).Throws E

theorem Throws.bind {p : Prog I β} {f : β → Prog I α} (hp : p.Throws E)
    (hf : ∀ b, (f b).Throws E) : (p.bind f).Throws E := by
  induction p with
  | ret a => exact hf a
  | raise e => exact hp
  | ask q k ih => exact fun a => ih a (hp a)
  | db u op k ih => exact ⟨fun e he => ih _ (hp.1 e he), fun s => ih _ (hp.2 s)⟩

/-- The outcome that is kept as a value is one that the program may end with. -/
theorem Throws.attempt_bind {p : Prog I β} {f : Except I.Error β → Prog I α} (hp : p.Throws E)
    (hok : ∀ b, (f (.ok b)).Throws E) (herr : ∀ e, E e → (f (.error e)).Throws E) :
    (p.attempt.bind f).Throws E := by
  induction p with
  | ret a => exact hok a
  | raise e => exact herr e hp
  | ask q k ih => exact fun a => ih a (hp a)
  | db u op k ih => exact ⟨fun e he => ih _ (hp.1 e he), fun s => ih _ (hp.2 s)⟩

/-- A handler for every error leaves only its own. -/
theorem throws_tryCatch {p : Prog I α} {handler : I.Error → Prog I α}
    (hh : ∀ e, (handler e).Throws E) : (p.tryCatch handler).Throws E := by
  unfold Prog.tryCatch
  induction p with
  | ret a => trivial
  | raise e => exact hh e
  | ask q k ih => exact fun a => ih a
  | db u op k ih => exact ⟨fun e _ => ih _, fun s => ih _⟩

theorem throws_lift {r : Except I.Error α} (h : ∀ e, r = .error e → E e) : (lift r).Throws E := by
  cases r with
  | ok a => trivial
  | error e => exact h e rfl

theorem throws_raiseIf {c : Prop} [Decidable c] {e : I.Error} (h : E e) :
    (raiseIf c e).Throws E := by
  unfold raiseIf
  split
  · exact h
  · trivial

theorem throws_orRaise {x : Option α} {e : I.Error} (h : E e) : (orRaise x e).Throws E := by
  cases x with
  | none => exact h
  | some a => trivial

section Operations

variable {u : I.Scope}

theorem throws_select : (select u).Throws E := ⟨fun _ he => he, fun _ => trivial⟩

theorem throws_lock {row : I.Row} : (lock u row).Throws E := ⟨fun _ he => he, fun _ => trivial⟩

theorem throws_write {update : I.Store → I.Store} : (write u update).Throws E :=
  ⟨fun _ he => he, fun _ => trivial⟩

theorem throws_commit : (commit u).Throws E := ⟨fun _ he => he, fun _ => trivial⟩

theorem throws_close : (close u).Throws E := ⟨fun _ he => he, fun _ => trivial⟩

theorem Throws.uow {body : Prog I α} (hbody : body.Throws E) : (uow u body).Throws E :=
  hbody.attempt_bind (fun _ => throws_close.bind fun _ => trivial)
    fun _ he => throws_close.bind fun _ => he

end Operations

end Prog

/-! ## Joined postconditions -/

namespace Contract

variable {C : Contract I} {Fault : I.Error → Prop} {Q : Except I.Error α → Local I → I.Store → Prop}
  {l : Local I} {s : I.Store} {p : Prog I α}

theorem safe_throws (hE : ∀ e, Fault e → E e) (hp : p.Throws E) (h : C.safe Fault Q p l s) :
    C.safe Fault (fun r l' s' => Q r l' s' ∧ ∀ e, r = .error e → E e) p l s := by
  induction p generalizing l s with
  | ret a => exact ⟨h, fun e he => by cases he⟩
  | raise e =>
    refine ⟨h, fun e' he => ?_⟩
    cases he
    exact hp
  | ask q k ih => exact fun s' hs => ⟨(h s' hs).1, fun a => ih a (hp a) ((h s' hs).2 a)⟩
  | db u op k ih =>
    intro s' hs
    obtain ⟨hcut, hguar, hdid⟩ := h s' hs
    exact ⟨fun e he => ih _ (hp.1 e (hE e he)) (hcut e he), hguar, ih _ (hp.2 _) hdid⟩

/-- The event may have happened before the store became `s`. -/
def Precedes (C : Contract I) (Fault : I.Error → Prop) (s : I.Store) : Event I → Prop
  | .asked _ _ => True
  | .did _ _ before _ => Relation.ReflTransGen C.step before s
  | .cut _ _ e => Fault e

theorem Precedes.steps {ev : Event I} {s s' : I.Store} (h : C.Precedes Fault s ev)
    (hsteps : Relation.ReflTransGen C.step s s') : C.Precedes Fault s' ev := by
  cases ev with
  | asked q a => trivial
  | did u op before after => exact h.trans hsteps
  | cut u op e => exact h

/-- What a program has added to its trace since the store was `s`. -/
structure Extends (C : Contract I) (Fault : I.Error → Prop) (l : Local I) (s : I.Store)
    (l' : Local I) (s' : I.Store) : Prop where
  steps : Relation.ReflTransGen C.step s s'
  trace : ∃ new, l'.trace = new ++ l.trace ∧ ∀ ev ∈ new, C.Precedes Fault s' ev

theorem Extends.refl : C.Extends Fault l s l s :=
  ⟨.refl, [], rfl, fun _ h => absurd h List.not_mem_nil⟩

theorem Extends.trans {l₁ l₂ : Local I} {s₁ s₂ : I.Store} (h : C.Extends Fault l s l₁ s₁)
    (h' : C.Extends Fault l₁ s₁ l₂ s₂) : C.Extends Fault l s l₂ s₂ := by
  obtain ⟨hsteps, old, hold, hprecedes⟩ := h
  obtain ⟨hsteps', new, hnew, hprecedes'⟩ := h'
  refine ⟨hsteps.trans hsteps', new ++ old, by rw [hnew, hold, List.append_assoc], fun ev hev => ?_⟩
  rcases List.mem_append.1 hev with hev | hev
  · exact hprecedes' ev hev
  · exact (hprecedes ev hev).steps hsteps'

theorem Extends.of_cons {l' : Local I} {s' : I.Store} {ev : Event I}
    (hsteps : Relation.ReflTransGen C.step s s') (htrace : l'.trace = ev :: l.trace)
    (hprecedes : C.Precedes Fault s' ev) : C.Extends Fault l s l' s' :=
  ⟨hsteps, [ev], htrace, fun _ h => List.mem_singleton.1 h ▸ hprecedes⟩

theorem Extends.mem {l' : Local I} {s' : I.Store} (h : C.Extends Fault l s l' s') {ev : Event I}
    (hev : ev ∈ l.trace) : ev ∈ l'.trace := by
  obtain ⟨new, htrace, -⟩ := h.trace
  rw [htrace]
  exact List.mem_append_right new hev

/-- What has happened stays in the trace, and what happens next is told by the contract. -/
theorem safe_extends (h : C.safe Fault Q p l s) :
    C.safe Fault (fun r l' s' => Q r l' s' ∧ C.Extends Fault l s l' s') p l s := by
  induction p generalizing l s with
  | ret a => exact ⟨h, .refl⟩
  | raise e => exact ⟨h, .refl⟩
  | ask q k ih =>
    refine fun s' hs => ⟨(h s' hs).1, fun a => safe_mono (fun r l' s'' hpost => ?_)
      (ih a ((h s' hs).2 a))⟩
    have hasked : C.Extends Fault l s (l.asked q a) s' := .of_cons hs.steps rfl trivial
    exact ⟨hpost.1, hasked.trans hpost.2⟩
  | db u op k ih =>
    intro s' hs
    obtain ⟨hcut, hguar, hdid⟩ := h s' hs
    -- A commit is a step by its guarantee, and the other operations leave the store as it is.
    have hcommitted : Relation.ReflTransGen C.step s' (op.committed (l.pending s') s') := by
      cases op with
      | commit => exact .single (hguar rfl).step
      | select | lock row | write update | close => exact .refl
    refine ⟨fun e he => safe_mono (fun r l' s'' hpost => ?_) (ih _ (hcut e he)), hguar,
      safe_mono (fun r l' s'' hpost => ?_) (ih _ hdid)⟩
    · have hcut' : C.Extends Fault l s (l.cut u op e) s' := .of_cons hs.steps rfl he
      exact ⟨hpost.1, hcut'.trans hpost.2⟩
    · have hdid' : C.Extends Fault l s (l.did u op s') (op.committed (l.pending s') s') :=
        .of_cons (hs.steps.trans hcommitted) rfl hcommitted
      exact ⟨hpost.1, hdid'.trans hpost.2⟩

end Contract

end Txn

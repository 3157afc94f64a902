-- SUMMARY: What a program may ask, open and write, read off its tree, and what its runs do then.
import NexusMcp.Txn.Session

/-!
# Programs within a Vocabulary

`Within` bounds the nodes of a program. What happens in a run then stays within the
same bound, whatever the environment does.
-/

namespace Txn

variable {I : Interface} {α β : Type}

/-- The questions, the units of work and the writes that a program may use, and whether it
    may close a unit of work. -/
structure Vocabulary (I : Interface) where
  asks : I.Query → Prop
  opens : I.Scope → Prop
  writes : (I.Store → I.Store) → Prop
  closes : Prop

/-- The event is one of a program within `v`. -/
def Event.Within (v : Vocabulary I) : Event I → Prop
  | .asked q _ => v.asks q
  | .did u op _ _ => v.opens u ∧ (op = .close → v.closes)
  | .cut u op _ => v.opens u ∧ (op = .close → v.closes)

/-- Every node of the program is within `v`. -/
def Prog.Within (v : Vocabulary I) : Prog I α → Prop
  | .ret _ => True
  | .raise _ => True
  | .ask q k => v.asks q ∧ ∀ a, (k a).Within v
  | .db u op k =>
    v.opens u ∧ (op = .close → v.closes) ∧ (∀ update, op = .write update → v.writes update) ∧
      ∀ r, (k r).Within v

namespace Prog

variable {v v' : Vocabulary I}

theorem Within.mono {p : Prog I α} (hasks : ∀ q, v.asks q → v'.asks q)
    (hopens : ∀ u, v.opens u → v'.opens u) (hwrites : ∀ update, v.writes update → v'.writes update)
    (hcloses : v.closes → v'.closes) (h : p.Within v) : p.Within v' := by
  induction p with
  | ret a => trivial
  | raise e => trivial
  | ask q k ih => exact ⟨hasks q h.1, fun a => ih a (h.2 a)⟩
  | db u op k ih =>
    exact ⟨hopens u h.1, fun hop => hcloses (h.2.1 hop),
      fun update hop => hwrites update (h.2.2.1 update hop), fun r => ih r (h.2.2.2 r)⟩

theorem Within.bind {p : Prog I β} {f : β → Prog I α} (hp : p.Within v)
    (hf : ∀ b, (f b).Within v) : (p.bind f).Within v := by
  induction p with
  | ret a => exact hf a
  | raise e => trivial
  | ask q k ih => exact ⟨hp.1, fun a => ih a (hp.2 a)⟩
  | db u op k ih => exact ⟨hp.1, hp.2.1, hp.2.2.1, fun r => ih r (hp.2.2.2 r)⟩

theorem Within.attempt {p : Prog I α} (hp : p.Within v) : p.attempt.Within v := by
  induction p with
  | ret a => trivial
  | raise e => trivial
  | ask q k ih => exact ⟨hp.1, fun a => ih a (hp.2 a)⟩
  | db u op k ih => exact ⟨hp.1, hp.2.1, hp.2.2.1, fun r => ih r (hp.2.2.2 r)⟩

theorem Within.tryCatch {p : Prog I α} {handler : I.Error → Prog I α} (hp : p.Within v)
    (hh : ∀ e, (handler e).Within v) : (p.tryCatch handler).Within v := by
  refine hp.attempt.bind fun r => ?_
  cases r with
  | ok a => trivial
  | error e => exact hh e

theorem within_lift (r : Except I.Error α) : (lift r).Within v := by
  cases r <;> trivial

theorem within_lift_bind {r : Except I.Error β} {f : β → Prog I α}
    (hf : ∀ b, r = .ok b → (f b).Within v) : ((lift r).bind f).Within v := by
  cases r with
  | ok b => exact hf b rfl
  | error e => trivial

theorem within_raiseIf (c : Prop) [Decidable c] (e : I.Error) : (raiseIf c e).Within v := by
  unfold raiseIf
  split <;> trivial

theorem within_orRaise (a? : Option α) (e : I.Error) : (orRaise a? e).Within v := by
  cases a? <;> trivial

section Operations

variable {u : I.Scope}

theorem within_select : (select u).Within v ↔ v.opens u :=
  ⟨fun h => h.1, fun h =>
    ⟨h, fun hop => (by cases hop), fun _ hop => (by cases hop), within_lift⟩⟩

theorem within_lock {row : I.Row} : (lock u row).Within v ↔ v.opens u :=
  ⟨fun h => h.1, fun h =>
    ⟨h, fun hop => (by cases hop), fun _ hop => (by cases hop), within_lift⟩⟩

theorem within_write {update : I.Store → I.Store} :
    (write u update).Within v ↔ v.opens u ∧ v.writes update := by
  constructor
  · rintro ⟨hu, -, hwrites, -⟩
    exact ⟨hu, hwrites update rfl⟩
  · rintro ⟨hu, hwrites⟩
    refine ⟨hu, fun hop => (by cases hop), ?_, fun r => (within_lift r).bind fun _ => trivial⟩
    rintro _ ⟨⟩
    exact hwrites

theorem within_commit : (commit u).Within v ↔ v.opens u :=
  ⟨fun h => h.1, fun h => ⟨h, fun hop => (by cases hop), fun _ hop => (by cases hop),
    fun r => (within_lift r).bind fun _ => trivial⟩⟩

theorem within_close : (close u).Within v ↔ v.opens u ∧ v.closes :=
  ⟨fun h => ⟨h.1, h.2.1 rfl⟩, fun h => ⟨h.1, fun _ => h.2, fun _ hop => (by cases hop),
    fun r => (within_lift r).bind fun _ => trivial⟩⟩

theorem Within.uow {body : Prog I α} (hu : v.opens u) (hcloses : v.closes)
    (hbody : body.Within v) : (uow u body).Within v :=
  hbody.attempt.bind fun r => (within_close.2 ⟨hu, hcloses⟩).bind fun _ => within_lift r

end Operations

end Prog

/-- What a run adds to the trace is within the vocabulary of the program. -/
theorem run_within {v : Vocabulary I} (env : Env I) {p : Prog I α} (h : p.Within v)
    (σ : Session I) :
    ∃ new, (run env p σ).2.trace = new ++ σ.trace ∧ ∀ ev ∈ new, ev.Within v := by
  have hnil : ∀ ev ∈ ([] : List (Event I)), ev.Within v := fun _ h => absurd h List.not_mem_nil
  -- the first event comes last in what the run adds
  have hcons : ∀ (ev : Event I) {trace new old : List (Event I)}, ev.Within v →
      trace = new ++ ev :: old → (∀ ev' ∈ new, ev'.Within v) →
      ∃ new', trace = new' ++ old ∧ ∀ ev' ∈ new', ev'.Within v := by
    intro ev trace new old hev htrace hnew
    refine ⟨new ++ [ev], by rw [htrace, List.append_assoc, List.singleton_append], ?_⟩
    intro ev' hmem
    rcases List.mem_append.1 hmem with hmem | hmem
    · exact hnew ev' hmem
    · exact (List.mem_singleton.1 hmem) ▸ hev
  induction p generalizing σ with
  | ret a => exact ⟨[], rfl, hnil⟩
  | raise e => exact ⟨[], rfl, hnil⟩
  | ask q k ih =>
    obtain ⟨new, htrace, hnew⟩ := ih (env.answer σ q) (h.2 _) (σ.asked q _)
    exact hcons (.asked q _) h.1 htrace hnew
  | db u op k ih =>
    rw [run]
    cases env.fault σ u op with
    | some e =>
      obtain ⟨new, htrace, hnew⟩ := ih (.error e) (h.2.2.2 _) (σ.cut u op e)
      exact hcons (.cut u op e) ⟨h.1, h.2.1⟩ htrace hnew
    | none =>
      obtain ⟨new, htrace, hnew⟩ := ih (.ok _) (h.2.2.2 _) (σ.did u op)
      exact hcons (.did u op _ _) ⟨h.1, h.2.1⟩ htrace hnew

/-- A unit of work that ends well was closed: what was interrupted before, its body handled. -/
theorem wp_uow_closed {v : Vocabulary I} {env : Env I} {u : I.Scope} {body : Prog I α}
    (hbody : body.Within v) (hv : ¬ v.closes) (σ : Session I) :
    wp env (Prog.uow u body) (fun r σ' => r.isOk →
      ∀ u' x, .cut u' .close x ∈ σ'.trace → .cut u' .close x ∈ σ.trace) σ := by
  refine wp_uow ⟨fun x _ h => (by cases h), fun _ _ u' x hmem => ?_⟩
  obtain ⟨new, htrace, hnew⟩ := run_within env hbody σ
  cases hmem with
  | tail _ hmem =>
    rw [htrace] at hmem
    exact (List.mem_append.1 hmem).resolve_left fun hmem => hv ((hnew _ hmem).2 rfl)

/-- Where no operation is interrupted, no interruption is recorded. -/
theorem Env.Faultless.uncut {env : Env I} (henv : env.Faultless) (p : Prog I α) (σ : Session I)
    {u : I.Scope} {op : Op I} {e : I.Error} (h : .cut u op e ∈ (run env p σ).2.trace) :
    .cut u op e ∈ σ.trace := by
  induction p generalizing σ with
  | ret a => exact h
  | raise e => exact h
  | ask q k ih =>
    cases ih _ _ h with
    | tail _ hmem => exact hmem
  | db u' op' k ih =>
    rw [run, henv] at h
    cases ih _ _ h with
    | tail _ hmem => exact hmem

/-- A run keeps what each of its writes keeps. -/
theorem run_preserves {v : Vocabulary I} (env : Env I) {P : I.Store → Prop}
    (hP : ∀ update, v.writes update → ∀ s, P s → P (update s)) {p : Prog I α} (h : p.Within v)
    {σ : Session I} (hcommitted : P σ.committed) (hview : P σ.view) :
    P (run env p σ).2.committed ∧ P (run env p σ).2.view := by
  induction p generalizing σ with
  | ret a => exact ⟨hcommitted, hview⟩
  | raise e => exact ⟨hcommitted, hview⟩
  | ask q k ih => exact ih _ (h.2 _) hcommitted hview
  | db u op k ih =>
    rw [run]
    cases env.fault σ u op with
    | some e =>
      refine ih (.error e) (h.2.2.2 _) hcommitted ?_
      cases op with
      | close => exact hcommitted
      | select | lock row | write update | commit => exact hview
    | none =>
      refine ih (.ok _) (h.2.2.2 _) ?_ ?_
      · cases op with
        | commit => exact hview
        | select | lock row | write update | close => exact hcommitted
      · cases op with
        | write update => exact hP update (h.2.2.1 update rfl) σ.view hview
        | close => exact hcommitted
        | select | lock row | commit => exact hview

/-- A run leaves alone what none of its writes changes. -/
theorem run_keeps {v : Vocabulary I} (env : Env I) {γ : Type} {f : I.Store → γ}
    (hf : ∀ update, v.writes update → ∀ s, f (update s) = f s) {p : Prog I α} (h : p.Within v)
    {σ : Session I} (hσ : f σ.view = f σ.committed) :
    f (run env p σ).2.committed = f σ.committed ∧ f (run env p σ).2.view = f σ.committed :=
  run_preserves env (fun update hupdate s hs => (hf update hupdate s).trans hs) h rfl hσ

end Txn

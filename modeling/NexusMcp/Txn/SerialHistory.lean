-- SUMMARY: What each transaction of a run does, given what its process has done before it.
import NexusMcp.Txn.SerialOrder

/-!
# Histories of Serial Transactions

A later transaction of a program knows what the earlier ones did, but not what others did
in between. `Follows` bounds each transaction by that knowledge, and `Explained` says that
the commits of a run are all within such bounds.
-/

namespace Txn

namespace Serial

variable {S E α β : Type}

/-- Each transaction relates the store before it to the one that it commits by `R`, given the
    stores before and after the earlier ones, newest first. -/
def Follows (R : List (S × S) → S → S → Prop) : Serial S E α → List (S × S) → Prop
  | .done _, _ => True
  | .transaction body k, seen =>
    (∀ s b s', body s = .ok (b, s') → R seen s s' ∧ (k (.ok b)).Follows R ((s, s') :: seen)) ∧
      ∀ e, (k (.error e)).Follows R seen

variable {R : List (S × S) → S → S → Prop} {seen : List (S × S)}

@[simp] theorem follows_done {result : Except E α} :
    (.done result : Serial S E α).Follows R seen := trivial

@[simp] theorem follows_pure {a : α} : (pure a : Serial S E α).Follows R seen := trivial

theorem follows_atomically_bind {body : Transaction S E β} {f : β → Serial S E α} :
    (atomically body >>= f).Follows R seen ↔
      ∀ s b s', body s = .ok (b, s') → R seen s s' ∧ (f b).Follows R ((s, s') :: seen) :=
  and_iff_left fun _ => trivial

theorem follows_atomically {body : Transaction S E α} :
    (atomically body).Follows R seen ↔ ∀ s b s', body s = .ok (b, s') → R seen s s' := by
  simp [atomically, Follows]

/-- A bound that does not look at the past. -/
theorem Commits.follows {R : S → S → Prop} {R' : List (S × S) → S → S → Prop}
    {p : Serial S E α} (h : p.Commits R) (hR : ∀ seen s s', R s s' → R' seen s s') :
    p.Follows R' seen := by
  induction p generalizing seen with
  | done result => trivial
  | transaction body k ih =>
    exact ⟨fun s b s' hbody => ⟨hR _ _ _ (h.1 s b s' hbody), ih _ (h.2 _)⟩,
      fun e => ih _ (h.2 _)⟩

theorem follows_lift_bind {result : Except E β} {g : β → Serial S E α} :
    (lift result >>= g).Follows R seen ↔ ∀ b, result = .ok b → (g b).Follows R seen := by
  cases result with
  | error e => simp
  | ok b => simp

end Serial

namespace SerialWorld

variable {S E Pid : Type} {δ : Pid → Type} [DecidableEq Pid]
variable {Fault : E → Prop} {w w' : SerialWorld S E Pid δ}

/-- The stores before and after each commit of a process, newest first. -/
def seenBy (commits : List (Commit S Pid)) (p : Pid) : List (S × S) :=
  (commits.filter (·.pid = p)).map fun c => (c.before, c.after)

theorem seenBy_append (newer older : List (Commit S Pid)) (p : Pid) :
    seenBy (newer ++ older) p = seenBy newer p ++ seenBy older p := by
  simp [seenBy]

theorem seenBy_cons_self (c : Commit S Pid) (older : List (Commit S Pid)) :
    seenBy (c :: older) c.pid = (c.before, c.after) :: seenBy older c.pid := by
  simp [seenBy]

theorem seenBy_cons_of_ne {c : Commit S Pid} {older : List (Commit S Pid)} {p : Pid}
    (h : p ≠ c.pid) : seenBy (c :: older) p = seenBy older p := by
  simp [seenBy, h.symm]

theorem seenBy_eq_nil {commits : List (Commit S Pid)} {p : Pid} :
    seenBy commits p = [] ↔ ∀ c ∈ commits, c.pid ≠ p := by
  simp [seenBy]

/-- The only commit of a process, and those after it. -/
theorem exists_of_seenBy {commits : List (Commit S Pid)} {p : Pid} {s s' : S}
    (h : seenBy commits p = [(s, s')]) :
    ∃ newer c older, commits = newer ++ c :: older ∧ c.pid = p ∧ c.before = s ∧ c.after = s' ∧
      ∀ x ∈ newer, x.pid ≠ p := by
  obtain ⟨c, hfilter, hc⟩ := List.map_eq_singleton_iff.1 h
  obtain ⟨newer, older, hcommits, hnewer, hpid, -⟩ := List.filter_eq_cons_iff.1 hfilter
  cases hc
  exact ⟨newer, c, older, hcommits, of_decide_eq_true hpid, rfl, rfl,
    fun x hx => of_decide_eq_false (Bool.eq_false_iff.2 (hnewer x hx))⟩

/-- Each commit is within the bound of its process, given its earlier commits. -/
def Explained (R : Pid → List (S × S) → S → S → Prop) : List (Commit S Pid) → Prop
  | [] => True
  | c :: earlier => R c.pid (seenBy earlier c.pid) c.before c.after ∧ Explained R earlier

variable {R : Pid → List (S × S) → S → S → Prop}

theorem Explained.of_append {newer older : List (Commit S Pid)}
    (h : Explained R (newer ++ older)) : Explained R older := by
  induction newer with
  | nil => exact h
  | cons c newer ih => exact ih h.2

omit [DecidableEq Pid] in
/-- The commits up to one of them lead to the store before it. -/
theorem Linked.of_append {newer older : List (Commit S Pid)} {c : Commit S Pid} {s s' : S}
    (h : Linked s (newer ++ c :: older) s') : Linked s older c.before := by
  induction newer generalizing s' with
  | nil => exact h.2
  | cons d newer ih => exact ih h.2

theorem Explained.step (hprocs : ∀ p, (w.procs p).Follows (R p) (w.history p))
    (hcommits : Explained R w.commits) (hstep : Step Fault w w') :
    (∀ p, (w'.procs p).Follows (R p) (w'.history p)) ∧ Explained R w'.commits := by
  cases hstep with
  | @committed p _ body k b s hproc hbody hstore hself hothers hlog =>
    have hp := hprocs p
    rw [hproc] at hp
    obtain ⟨hrel, hrest⟩ := hp.1 _ _ _ hbody
    refine ⟨?_, ?_⟩
    · intro q
      by_cases hqp : q = p
      · subst hqp
        rw [hself, history_committed hlog]
        exact hrest
      · rw [hothers q hqp, history_other hqp hlog]
        exact hprocs q
    · rw [hlog]
      exact ⟨hrel, hcommits⟩
  | @rolledBack p _ body k e hproc herror hstore hself hothers hlog =>
    -- Nothing was committed, and a history is made of commits.
    have hhistory : ∀ q, w'.history q = w.history q := by
      intro q
      simp [history, hlog]
    refine ⟨?_, ?_⟩
    · intro q
      rw [hhistory]
      by_cases hqp : q = p
      · subst hqp
        have hq := hprocs q
        rw [hproc] at hq
        rw [hself]
        exact hq.2 e
      · rw [hothers q hqp]
        exact hprocs q
    · rw [hlog]
      exact hcommits

/-- In every run, each commit is within the bound of its process. -/
theorem explained_of_reaches {s : S} {procs : (p : Pid) → Serial S E (δ p)}
    (hprocs : ∀ p, (procs p).Follows (R p) []) (h : Reaches Fault (start s procs) w) :
    Explained R w.commits := by
  have hboth : (∀ p, (w.procs p).Follows (R p) (w.history p)) ∧ Explained R w.commits := by
    induction h with
    | refl => exact ⟨hprocs, trivial⟩
    | tail _ hstep ih => exact ih.2.step ih.1 hstep
  exact hboth.2

/-! ## What was seen before -/

section Seen

variable {I : S → Prop} {P : S → S → Prop} {s s' : S} {commits : List (Commit S Pid)}

omit [DecidableEq Pid] in
/-- A relation that every commit makes leads from every earlier store to the present one. -/
theorem Linked.related (hrefl : ∀ s, P s s) (htrans : ∀ s s' s'', P s s' → P s' s'' → P s s'')
    (hcommits : ∀ c ∈ commits, P c.before c.after) (hlinked : Linked s commits s') :
    ∀ c ∈ commits, P c.before s' ∧ P c.after s' := by
  induction commits generalizing s' with
  | nil => exact fun c hc => absurd hc List.not_mem_nil
  | cons commit earlier ih =>
    obtain ⟨rfl, hearlier⟩ := hlinked
    rw [List.forall_mem_cons] at hcommits
    intro c hc
    rcases List.mem_cons.1 hc with rfl | hc
    · exact ⟨hcommits.1, hrefl _⟩
    · obtain ⟨hbefore, hafter⟩ := ih hcommits.2 hearlier c hc
      exact ⟨htrans _ _ _ hbefore hcommits.1, htrans _ _ _ hafter hcommits.1⟩

theorem Explained.related (hR : ∀ p seen s s', R p seen s s' → P s s')
    (h : Explained R commits) : ∀ c ∈ commits, P c.before c.after := by
  induction commits with
  | nil => exact fun c hc => absurd hc List.not_mem_nil
  | cons commit earlier ih =>
    rw [List.forall_mem_cons]
    exact ⟨hR _ _ _ _ h.1, ih h.2⟩

/-- The rule for programs that check in one transaction and write in a later one: a commit may
    rely on what its process saw, which held then and has changed by `P` only. -/
theorem Explained.invariant (hrefl : ∀ s, P s s)
    (htrans : ∀ s s' s'', P s s' → P s' s'' → P s s'')
    (hR : ∀ p seen s s', R p seen s s' → P s s')
    (hkept : ∀ p seen s s', R p seen s s' → (∀ t ∈ seen, I t.2 ∧ P t.2 s) → I s → I s')
    (h : Explained R commits) (hlinked : Linked s commits s') (hstart : I s) :
    I s' ∧ ∀ c ∈ commits, I c.before ∧ I c.after := by
  induction commits generalizing s' with
  | nil =>
    obtain rfl := hlinked
    exact ⟨hstart, fun c hc => absurd hc List.not_mem_nil⟩
  | cons commit earlier ih =>
    obtain ⟨rfl, hearlier⟩ := hlinked
    obtain ⟨hbefore, hall⟩ := ih h.2 hearlier
    have hseen : ∀ t ∈ seenBy earlier commit.pid, I t.2 ∧ P t.2 commit.before := by
      intro t ht
      obtain ⟨c, hc, rfl⟩ := List.mem_map.1 ht
      have hmem := List.mem_of_mem_filter hc
      exact ⟨(hall c hmem).2, (Linked.related hrefl htrans (h.2.related hR) hearlier c hmem).2⟩
    have hafter : I commit.after := hkept _ _ _ _ h.1 hseen hbefore
    refine ⟨hafter, fun c hc => ?_⟩
    rcases List.mem_cons.1 hc with rfl | hc
    · exact ⟨hbefore, hafter⟩
    · exact hall c hc

end Seen

end SerialWorld

end Txn

-- SUMMARY: Runs with a clock that never goes backwards: when each event happened, and what a process read.
import NexusMcp.Txn.Traced
import Mathlib.Order.Lattice

/-!
# Timelines

A timeline gives the events of a run the times at which they happened, newest first.
The clock never goes backwards, and whoever reads it is shown the time of the reading.
Everything else about time is arbitrary: a step may take, and a lock may be waited
for, as long as it likes.
-/

namespace Txn

variable {I : Interface} {Pid T : Type}

/-- What happened, to whom and when, newest first. -/
abbrev Timeline (I : Interface) (Pid T : Type) := List ((Pid × Event I) × T)

namespace Timeline

/-- What the clock shows after the last event of a timeline that started at `t₀`. -/
def clock (t₀ : T) : Timeline I Pid T → T
  | [] => t₀
  | entry :: _ => entry.2

section Order

variable [LinearOrder T]

/-- The clock never went backwards, and every reading is the time it was made at. -/
def Timed (reading : Event I → Option T) (t₀ : T) : Timeline I Pid T → Prop
  | [] => True
  | entry :: older => clock t₀ older ≤ entry.2 ∧
      (∀ t ∈ reading entry.1.2, t = entry.2) ∧ Timed reading t₀ older

instance (reading : Event I → Option T) (t₀ : T) :
    (timeline : Timeline I Pid T) → Decidable (Timed reading t₀ timeline)
  | [] => isTrue trivial
  | _ :: older => haveI := instDecidableTimed reading t₀ older; inferInstanceAs (Decidable (_ ∧ _))

variable {reading : Event I → Option T} {t₀ : T} {newer older timeline : Timeline I Pid T}
  {entry entry' : (Pid × Event I) × T}

theorem Timed.of_append (h : Timed reading t₀ (newer ++ older)) : Timed reading t₀ older := by
  induction newer with
  | nil => exact h
  | cons entry newer ih => exact ih h.2.2

theorem Timed.clock_le (h : Timed reading t₀ (newer ++ older)) :
    clock t₀ older ≤ clock t₀ (newer ++ older) := by
  induction newer with
  | nil => exact le_refl _
  | cons entry newer ih => exact (ih h.2.2).trans h.1

/-- An entry happened before what follows it. -/
theorem Timed.le_of_mem (h : Timed reading t₀ (newer ++ entry :: older)) (hmem : entry' ∈ newer) :
    entry.2 ≤ entry'.2 := by
  obtain ⟨after, before, rfl⟩ := List.append_of_mem hmem
  rw [List.append_assoc, List.cons_append] at h
  have hlast := h.of_append
  exact hlast.2.2.clock_le.trans hlast.1

theorem Timed.le_clock (h : Timed reading t₀ timeline) (hmem : entry ∈ timeline) :
    entry.2 ≤ clock t₀ timeline := by
  obtain ⟨newer, older, rfl⟩ := List.append_of_mem hmem
  exact h.clock_le

theorem Timed.reading_eq (h : Timed reading t₀ timeline) (hmem : entry ∈ timeline) {t : T}
    (ht : reading entry.1.2 = some t) : t = entry.2 := by
  obtain ⟨newer, older, rfl⟩ := List.append_of_mem hmem
  exact h.of_append.2.1 t ht

end Order

/-! ## The part of one process -/

variable [DecidableEq Pid]

/-- What happened to `p`. -/
def events (p : Pid) (timeline : Timeline I Pid T) : List (Event I) :=
  timeline.filterMap fun entry => if entry.1.1 = p then some entry.1.2 else none

theorem events_cons_self (p : Pid) (ev : Event I) (t : T) (older : Timeline I Pid T) :
    events p (((p, ev), t) :: older) = ev :: events p older := by
  simp [events]

theorem events_cons_ne {p p' : Pid} (h : p' ≠ p) (ev : Event I) (t : T)
    (older : Timeline I Pid T) : events p (((p', ev), t) :: older) = events p older := by
  simp [events, h]

theorem mem_events {p : Pid} {ev : Event I} {timeline : Timeline I Pid T} :
    ev ∈ events p timeline ↔ ∃ t, ((p, ev), t) ∈ timeline := by
  simp only [events, List.mem_filterMap, Option.ite_none_right_eq_some, Option.some.injEq]
  exact ⟨fun ⟨entry, hmem, hp, hev⟩ => ⟨entry.2, by rwa [← hp, ← hev]⟩,
    fun ⟨t, hmem⟩ => ⟨_, hmem, rfl, rfl⟩⟩

/-- An event of a process is an entry, and what the process did before and after it stands
    before and after that entry. -/
theorem exists_entry {p : Pid} {ev : Event I} {newer older : List (Event I)}
    {timeline : Timeline I Pid T} (h : events p timeline = newer ++ ev :: older) :
    ∃ newer' t older', timeline = newer' ++ ((p, ev), t) :: older' ∧
      events p newer' = newer ∧ events p older' = older := by
  obtain ⟨newer', rest, rfl, hnewer, hrest⟩ := List.filterMap_eq_append_iff.1 h
  obtain ⟨others, entry, older', rfl, hothers, hentry, holder⟩ :=
    List.filterMap_eq_cons_iff.1 hrest
  obtain ⟨⟨p', ev'⟩, t⟩ := entry
  obtain ⟨rfl, rfl⟩ : p' = p ∧ ev' = ev := by simpa using hentry
  refine ⟨newer' ++ others, t, older', by simp, ?_, holder⟩
  have hnone : events p' others = [] := List.filterMap_eq_nil_iff.2 hothers
  calc events p' (newer' ++ others) = events p' newer' ++ events p' others :=
        List.filterMap_append
    _ = newer := by rw [hnone, List.append_nil]; exact hnewer

/-- The entries of a process are its trace. -/
theorem events_eq_trace {δ : Pid → Type} {Fault : I.Error → Prop} {s : I.Store}
    {progs : (p : Pid) → Prog I (δ p)} {w : World I Pid δ}
    (h : World.Reaches Fault (.start s progs) w) {timeline : Timeline I Pid T}
    (hlog : timeline.map (·.1) = w.log) (p : Pid) : events p timeline = (w.procs p).loc.trace := by
  induction h generalizing timeline with
  | refl =>
    rw [List.map_eq_nil_iff.1 hlog]
    rfl
  | tail _ hstep ih =>
    obtain ⟨p', ev, hproc, hothers, hlog'⟩ := hstep
    rw [hlog'] at hlog
    obtain ⟨entry, older, rfl, hentry, holder⟩ := List.map_eq_cons_iff.1 hlog
    obtain ⟨_, t⟩ := entry
    subst hentry
    by_cases hp : p' = p
    · subst hp
      rw [events_cons_self, ih holder, Contract.trace_step hproc]
    · rw [events_cons_ne hp, ih holder, hothers p (Ne.symm hp)]

/-! ## Held rows -/

/-- The entry at which a row was locked. -/
theorem exists_grant {p : Pid} {timeline : Timeline I Pid T} {l : Local I} {row : I.Row}
    {s : I.Store} {newer older : List (Event I)} (h : events p timeline = l.trace)
    (hlocked : l.Locked row s newer older) :
    ∃ newer' u after t older', timeline = newer' ++ ((p, .did u (.lock row) s after), t) :: older' ∧
      events p newer' = newer ∧ events p older' = older := by
  obtain ⟨-, u, after, htrace⟩ := hlocked
  obtain ⟨newer', t, older', hentry⟩ := exists_entry (h.trans htrace)
  exact ⟨newer', u, after, t, older', hentry⟩

/-- The process `p` was granted `row` at `t`, when the committed store was `s` and `older`
    had happened, and has not given it up. -/
def Holds (timeline : Timeline I Pid T) (p : Pid) (row : I.Row) (s : I.Store) (t : T)
    (older : Timeline I Pid T) : Prop :=
  ∃ newer u after, timeline = newer ++ ((p, .did u (.lock row) s after), t) :: older ∧
    ∀ ev ∈ events p newer, ¬ ev.Releases

end Timeline

end Txn

-- SUMMARY: The members of a list that have the highest score.
import Mathlib.Data.List.MinMax
import Mathlib.Data.List.Perm.Basic

/-!
# Highest Scores

A selection that scores its candidates and keeps those with the highest score. It does not
depend on the order of the candidates, except for the order of the result.
-/

namespace Select

variable {α β : Type} [LinearOrder β]

/-- The members that have a score, with it. -/
def scored (score : α → Option β) (members : List α) : List (β × α) :=
  members.filterMap fun a => (score a).map (·, a)

/-- The candidates of the highest score. -/
def top (candidates : List (β × α)) : List α :=
  match (candidates.map Prod.fst).max? with
  | none => []
  | some best => (candidates.filter (·.1 = best)).map Prod.snd

variable {score : α → Option β} {members members' : List α} {candidates : List (β × α)} {a : α}

omit [LinearOrder β] in
theorem mem_scored {s : β} : (s, a) ∈ scored score members ↔ a ∈ members ∧ score a = some s := by
  simp only [scored, List.mem_filterMap, Option.map_eq_some_iff, Prod.mk.injEq]
  constructor
  · rintro ⟨a', ha', s', hs, rfl, rfl⟩
    exact ⟨ha', hs⟩
  · rintro ⟨ha, hs⟩
    exact ⟨a, ha, s, hs, rfl, rfl⟩

omit [LinearOrder β] in
/-- Members without a score may be left out before. -/
theorem scored_filter {p : α → Bool} (hp : ∀ a, (score a).isSome → p a) :
    scored score (members.filter p) = scored score members := by
  induction members with
  | nil => rfl
  | cons a members ih =>
    cases hscore : score a with
    | none =>
      rw [List.filter_cons]
      split <;> simpa [scored, hscore] using ih
    | some s =>
      rw [List.filter_cons_of_pos (hp a (by simp [hscore]))]
      simpa [scored, hscore] using ih

omit [LinearOrder β] in
theorem scored_perm (h : members.Perm members') :
    (scored score members).Perm (scored score members') :=
  h.filterMap _

theorem mem_top : a ∈ top candidates ↔
    ∃ s, (s, a) ∈ candidates ∧ ∀ t b, (t, b) ∈ candidates → t ≤ s := by
  unfold top
  split
  · next hnone =>
    rw [List.max?_eq_none_iff, List.map_eq_nil_iff] at hnone
    subst hnone
    simp
  · next best hbest =>
    obtain ⟨hmem, hle⟩ := List.max?_eq_some_iff.1 hbest
    simp only [List.mem_map, List.mem_filter, decide_eq_true_eq, Prod.exists]
    constructor
    · rintro ⟨s, a', ⟨ha, rfl⟩, rfl⟩
      exact ⟨s, ha, fun t b hb => hle t (List.mem_map_of_mem hb)⟩
    · rintro ⟨s, ha, hmax⟩
      obtain ⟨⟨t, b⟩, hb, rfl⟩ := List.mem_map.1 hmem
      exact ⟨s, a, ⟨ha, le_antisymm (hle s (List.mem_map_of_mem ha)) (hmax t b hb)⟩, rfl⟩

theorem top_eq_nil : top candidates = [] ↔ candidates = [] := by
  unfold top
  split
  · next hnone =>
    rw [List.max?_eq_none_iff, List.map_eq_nil_iff] at hnone
    simp [hnone]
  · next best hbest =>
    obtain ⟨hmem, -⟩ := List.max?_eq_some_iff.1 hbest
    obtain ⟨c, hc, rfl⟩ := List.mem_map.1 hmem
    refine iff_of_false ?_ (List.ne_nil_of_mem hc)
    exact List.ne_nil_of_mem (List.mem_map_of_mem (List.mem_filter.2 ⟨hc, by simp⟩))

theorem top_perm {candidates' : List (β × α)} (h : candidates.Perm candidates') :
    (top candidates).Perm (top candidates') := by
  have hmax : (candidates.map Prod.fst).max? = (candidates'.map Prod.fst).max? := by
    ext best
    simp only [List.max?_eq_some_iff, (h.map Prod.fst).mem_iff]
  unfold top
  rw [hmax]
  split
  · exact List.Perm.refl _
  · exact (h.filter _).map _

/-- What is scored highest, among the members. -/
theorem mem_top_scored : a ∈ top (scored score members) ↔
    a ∈ members ∧ ∃ s, score a = some s ∧ ∀ b ∈ members, ∀ t, score b = some t → t ≤ s := by
  simp only [mem_top, mem_scored]
  constructor
  · rintro ⟨s, ⟨ha, hs⟩, hmax⟩
    exact ⟨ha, s, hs, fun b hb t ht => hmax t b ⟨hb, ht⟩⟩
  · rintro ⟨ha, s, hs, hmax⟩
    exact ⟨s, ⟨ha, hs⟩, fun t b hb => hmax b hb.1 t hb.2⟩

theorem top_scored_eq_nil : top (scored score members) = [] ↔
    ∀ a ∈ members, score a = none := by
  rw [top_eq_nil]
  simp [scored, List.filterMap_eq_nil_iff]

/-- With the highest score known, the members that have it. -/
theorem top_scored_eq_filter {best : β} (ha : a ∈ members) (hscore : score a = some best)
    (hmax : ∀ b ∈ members, ∀ t, score b = some t → t ≤ best) :
    top (scored score members) = members.filter (score · = some best) := by
  have hbest : ((scored score members).map Prod.fst).max? = some best := by
    refine List.max?_eq_some_iff.2 ⟨List.mem_map_of_mem (mem_scored.2 ⟨ha, hscore⟩), ?_⟩
    intro t ht
    obtain ⟨⟨t, b⟩, hb, rfl⟩ := List.mem_map.1 ht
    obtain ⟨hb, ht⟩ := mem_scored.1 hb
    exact hmax b hb t ht
  unfold top
  rw [hbest]
  clear hbest hmax ha
  induction members with
  | nil => rfl
  | cons b members ih =>
    cases hb : score b with
    | none => simpa [scored, hb] using ih
    | some t =>
      by_cases ht : t = best
      · simpa [scored, hb, ht] using ih
      · simpa [scored, hb, ht] using ih

end Select

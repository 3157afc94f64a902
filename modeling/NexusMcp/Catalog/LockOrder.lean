-- SUMMARY: In which order reviews and publications lock rows, and when none wait in a circle.
import NexusMcp.Catalog.RowLocks
import NexusMcp.Catalog.Runs

/-!
# Lock Order

A publication locks the tool, the version, its binding and the upstream, and then the current
version with its binding. A review locks the upstream before the tool, and a direct publication
of an accepted operation locks the version before the tool.
-/

namespace NexusMcp

open Txn (Locking Locker Lockers)
open Txn.Locking (take)
open Relation (ReflTransGen)

/-! ## References -/

/-- The columns that are never updated: the tool of a version, the version of a binding, and
    the upstream that the binding of a version has. -/
structure References where
  toolOf : Id → Id
  versionOf : Id → Id
  upstreamOf : Id → Id

/-- The rows have these references. -/
structure References.Agree (refs : References) (c : CatalogTables) : Prop where
  toolOf : ∀ v ∈ c.versions, v.val.toolId = refs.toolOf v.val.id
  versionOf : ∀ b ∈ c.bindings, b.val.toolVersionId = refs.versionOf b.val.id
  upstreamOf : ∀ b ∈ c.bindings, b.val.upstreamServiceId = refs.upstreamOf b.val.toolVersionId

/-- The tables may be seen after others: the references are the same, and no version is gone. -/
structure References.Later (refs : References) (c c' : CatalogTables) : Prop where
  agree : refs.Agree c'
  kept : ∀ v ∈ c.versions, ∃ w ∈ c'.versions, w.val.id = v.val.id ∧ w.val.tenantId = v.val.tenantId

namespace References

variable {refs : References} {c c' : CatalogTables} {tenantId : Id} {u : Unit}

theorem Later.of_rows (h : refs.Agree c) (hversions : c'.versions = c.versions)
    (hbindings : c'.bindings = c.bindings) : refs.Later c c' where
  agree := by
    constructor
    · rw [hversions]
      exact h.toolOf
    · rw [hbindings]
      exact h.versionOf
    · rw [hbindings]
      exact h.upstreamOf
  kept := by
    intro v hv
    exact ⟨v, by rw [hversions]; exact hv, rfl, rfl⟩

theorem Agree.saveVersion (h : refs.Agree c) {w : ToolVersion}
    (hw : w.val.toolId = refs.toolOf w.val.id)
    (hsave : NexusMcp.saveVersion tenantId w c = .ok (u, c')) : refs.Later c c' := by
  obtain ⟨htenant, ⟨v, hv⟩, -, hrows⟩ := saveVersion_eq_ok.1 hsave
  obtain ⟨hmem, hid, hvtenant⟩ := inTenant_eq_some.1 hv
  refine ⟨⟨?_, ?_, ?_⟩, ?_⟩
  · intro x hx
    rw [hrows, mem_replaceRow hmem hid] at hx
    rcases hx with ⟨hx, -⟩ | rfl
    · exact h.toolOf x hx
    · exact hw
  · rw [hrows]
    exact h.versionOf
  · rw [hrows]
    exact h.upstreamOf
  · intro x hx
    rw [hrows]
    by_cases hkey : x.val.id = w.val.id
    · have hxv : x = v := Txn.Table.eq_of_key_eq hx hmem (hkey.trans hid.symm)
      refine ⟨w, (mem_replaceRow hmem hid).2 (.inr rfl), hkey.symm, ?_⟩
      rw [hxv, hvtenant, htenant]
    · exact ⟨x, (mem_replaceRow hmem hid).2 (.inl ⟨hx, hkey⟩), rfl, rfl⟩

theorem Agree.saveBinding (h : refs.Agree c) {b d : ToolBinding}
    (hversionOf : b.val.toolVersionId = refs.versionOf b.val.id)
    (hupstreamOf : b.val.upstreamServiceId = refs.upstreamOf b.val.toolVersionId)
    (hidentity : d.identity = b.identity)
    (hsave : NexusMcp.saveBinding tenantId d c = .ok (u, c')) : refs.Later c c' := by
  obtain ⟨-, ⟨v, hv⟩, hrows⟩ := saveBinding_eq_ok.1 hsave
  obtain ⟨hmem, hid, -⟩ := inTenant_eq_some.1 hv
  obtain ⟨hkey, -, hversion, hservice⟩ := ToolBinding.id_of_identity hidentity
  refine ⟨⟨?_, ?_, ?_⟩, ?_⟩
  · rw [hrows]
    exact h.toolOf
  · intro x hx
    rw [hrows, mem_replaceRow hmem hid] at hx
    rcases hx with ⟨hx, -⟩ | rfl
    · exact h.versionOf x hx
    · rw [hversion, hkey, hversionOf]
  · intro x hx
    rw [hrows, mem_replaceRow hmem hid] at hx
    rcases hx with ⟨hx, -⟩ | rfl
    · exact h.upstreamOf x hx
    · rw [hversion, hservice, hupstreamOf]
  · intro x hx
    exact ⟨x, by rw [hrows]; exact hx, rfl, rfl⟩

theorem Agree.saveTool (h : refs.Agree c) {w : Tool}
    (hsave : NexusMcp.saveTool tenantId w c = .ok (u, c')) : refs.Later c c' := by
  obtain ⟨-, -, hrows⟩ := saveTool_eq_ok.1 hsave
  exact .of_rows h (by rw [hrows]) (by rw [hrows])

theorem Agree.saveOperation (h : refs.Agree c) {o : ImportedOperation}
    (hsave : NexusMcp.saveOperation tenantId o c = .ok (u, c')) : refs.Later c c' := by
  obtain ⟨-, -, hrows⟩ := saveOperation_eq_ok.1 hsave
  exact .of_rows h (by rw [hrows]) (by rw [hrows])

/-- A version that is found has the references of its identifier. -/
theorem Agree.version (h : refs.Agree c) {id : Id} {v : ToolVersion}
    (hv : getVersionForUpdate tenantId id c = .ok (some v, c')) :
    v.val.id = id ∧ v.val.toolId = refs.toolOf id := by
  obtain ⟨hmem, rfl, -⟩ := inTenant_eq_some.1 (getVersionForUpdate_eq_ok.1 hv).1.symm
  exact ⟨rfl, h.toolOf v hmem⟩

/-- So has a binding that is found by its version. -/
theorem Agree.binding (h : refs.Agree c) {id : Id} {b : ToolBinding}
    (hb : getBindingByToolVersionForUpdate tenantId id c = .ok (some b, c')) :
    b.val.toolVersionId = id ∧ refs.versionOf b.val.id = id ∧
      b.val.upstreamServiceId = refs.upstreamOf id := by
  obtain ⟨hmem, -, rfl⟩ := mem_of_bindingOf (getBindingByToolVersionForUpdate_eq_ok.1 hb).1.symm
  exact ⟨rfl, (h.versionOf b hmem).symm, h.upstreamOf b hmem⟩

/-- The version can be found in the tables. -/
def Has (tenantId id : Id) (c : CatalogTables) : Prop :=
  ∃ v ∈ c.versions, v.val.id = id ∧ v.val.tenantId = tenantId

theorem Later.has {id : Id} (h : refs.Later c c') (hc : Has tenantId id c) :
    Has tenantId id c' := by
  obtain ⟨v, hv, hid, htenant⟩ := hc
  obtain ⟨w, hw, hwid, hwtenant⟩ := h.kept v hv
  exact ⟨w, hw, hwid.trans hid, hwtenant.trans htenant⟩

theorem has_of_found {id : Id} {v : ToolVersion}
    (hv : getVersionForUpdate tenantId id c = .ok (some v, c')) : Has tenantId id c := by
  obtain ⟨hmem, hid, htenant⟩ := inTenant_eq_some.1 (getVersionForUpdate_eq_ok.1 hv).1.symm
  exact ⟨v, hmem, hid, htenant⟩

theorem found_of_has {id : Id} {r : Option ToolVersion} (h : Has tenantId id c)
    (hr : getVersionForUpdate tenantId id c = .ok (r, c')) : ∃ v, r = some v := by
  obtain ⟨v, hv, rfl, rfl⟩ := h
  exact ⟨v, (getVersionForUpdate_eq_ok.1 hr).1.trans (inTenant_eq_some.2 ⟨hv, rfl, rfl⟩)⟩

end References

/-! ## Rules -/

section Rules

variable {refs : References} {D : Locking.Discipline CatalogRow} {α β ν : Type}
  {Q : α → CatalogTables → List CatalogRow → Prop} {seen : CatalogTables} {held : List CatalogRow}

abbrev CatalogLocking.Follows (refs : References) (D : Locking.Discipline CatalogRow)
    (p : CatalogLocking α) (Q : α → CatalogTables → List CatalogRow → Prop) (seen : CatalogTables)
    (held : List CatalogRow) : Prop :=
  Locking.Follows refs.Later D Q p seen held

theorem map_fst_eq_ok {get : CatalogM β} {c : CatalogTables} {b : β}
    (h : (get c).map (·.1) = .ok b) : ∃ c', get c = .ok (b, c') := by
  cases hget : get c with
  | error e =>
    rw [hget] at h
    cases h
  | ok result =>
    rw [hget] at h
    cases h
    exact ⟨result.2, rfl⟩

theorem map_snd_eq_ok {change : CatalogM Unit} {c c' : CatalogTables}
    (h : (change c).map (·.2) = .ok c') : change c = .ok ((), c') := by
  cases hchange : change c with
  | error e =>
    rw [hchange] at h
    cases h
  | ok result =>
    rw [hchange] at h
    cases h
    rfl

theorem found_eq_some {row : ν → CatalogRow} {result : Except Exc (Option ν × CatalogTables)}
    {row' : CatalogRow} (h : CatalogLocking.found row result = some row') :
    ∃ v c', result = .ok (some v, c') ∧ row v = row' := by
  unfold CatalogLocking.found at h
  split at h
  · obtain ⟨v, rfl, hrow⟩ := Option.map_eq_some_iff.1 h
    exact ⟨v, _, rfl, hrow⟩
  · cases h

theorem follows_select {get : CatalogM β} {k : β → CatalogLocking α}
    (h : ∀ c c' b, refs.Later seen c → get c = .ok (b, c') → (k b).Follows refs D Q c held) :
    (CatalogLocking.select get >>= k).Follows refs D Q seen held := by
  refine Locking.follows_bind fun c hc => ⟨nofun, Locking.follows_lift fun b hb => ?_⟩
  obtain ⟨c', hget⟩ := map_fst_eq_ok hb
  exact h c c' b hc hget

theorem follows_forUpdate {row : ν → CatalogRow} {get : CatalogM (Option ν)}
    {k : Option ν → CatalogLocking α}
    (h : ∀ c c' r, refs.Later seen c → get c = .ok (r, c') →
      (∀ v, r = some v → row v ∉ held → D.asks held (row v)) ∧
        (k r).Follows refs D Q c (take held (r.map row))) :
    (CatalogLocking.forUpdate row get >>= k).Follows refs D Q seen held := by
  refine Locking.follows_bind fun c hc => ⟨fun row' hrow' => ?_, ?_⟩
  · obtain ⟨v, c', hget, rfl⟩ := found_eq_some hrow'
    exact (h c c' (some v) hc hget).1 v rfl
  · refine Locking.follows_lift fun r hr => ?_
    obtain ⟨c', hget⟩ := map_fst_eq_ok hr
    dsimp only
    rw [hget]
    exact (h c c' r hc hget).2

theorem follows_lift {x : Except Exc β} {k : β → CatalogLocking α}
    (h : ∀ b, x = .ok b → (k b).Follows refs D Q seen held) :
    (CatalogLocking.lift x >>= k).Follows refs D Q seen held :=
  Locking.follows_bind (Locking.follows_lift h)

theorem follows_orRaise {x : Option β} {e : Exc} {k : β → CatalogLocking α}
    (h : ∀ b, x = some b → (k b).Follows refs D Q seen held) :
    (CatalogLocking.orRaise x e >>= k).Follows refs D Q seen held := by
  refine follows_lift fun b hb => h b ?_
  cases x with
  | none => cases hb
  | some b' => exact congrArg some (Except.ok.inj hb)

theorem follows_raiseIf {p : Prop} {_ : Decidable p} {e : Exc} {k : Unit → CatalogLocking α}
    (h : ¬ p → (k ()).Follows refs D Q seen held) :
    (CatalogLocking.raiseIf p e >>= k).Follows refs D Q seen held :=
  follows_lift fun _ hok => h (raiseIf_eq_ok.1 hok)

/-- A row is locked that must be there. -/
theorem follows_require {row : ν → CatalogRow} {get : CatalogM (Option ν)} {e : Exc}
    {k : ν → CatalogLocking α}
    (h : ∀ c c' v, refs.Later seen c → get c = .ok (some v, c') →
      (row v ∉ held → D.asks held (row v)) ∧ (k v).Follows refs D Q c (take held (some (row v)))) :
    (CatalogLocking.forUpdate row get >>= fun r => CatalogLocking.orRaise r e >>= k).Follows
      refs D Q seen held := by
  refine follows_forUpdate fun c c' r hc hget => ⟨fun v hv => ?_, follows_orRaise fun v hv => ?_⟩
  · subst hv
    exact (h c c' v hc hget).1
  · subst hv
    exact (h c c' v hc hget).2

theorem follows_save {change : CatalogM Unit}
    {Q : Unit → CatalogTables → List CatalogRow → Prop}
    (hkeeps : ∀ c c', refs.Later seen c → change c = .ok ((), c') → refs.Later c c')
    (h : ∀ c', refs.Agree c' → Q () c' held) :
    (CatalogLocking.save change).Follows refs D Q seen held := by
  intro c c' hc hupdate
  refine ⟨fun _ => hkeeps c c' hc (map_snd_eq_ok hupdate), fun hc' => ⟨nofun, h c' hc'.agree⟩⟩

theorem follows_add {row : CatalogRow} {change : CatalogM Unit}
    {Q : Unit → CatalogTables → List CatalogRow → Prop}
    (h : ∀ c c', change c = .ok ((), c') → refs.Agree c' →
      D.inserts held row ∧ Q () c' (take held (some row))) :
    (CatalogLocking.add row change).Follows refs D Q seen held := by
  intro c c' hc hupdate
  refine ⟨nofun, fun hc' => ?_⟩
  obtain ⟨hinserts, hQ⟩ := h c c' (map_snd_eq_ok hupdate) hc'.agree
  refine ⟨fun row' hrow' => ?_, hQ⟩
  cases hrow'
  exact hinserts

/-- A version is saved again with another status. -/
theorem follows_saveVersion {tenantId : Id} {w : ToolVersion} {k : Unit → CatalogLocking α}
    (hw : w.val.toolId = refs.toolOf w.val.id)
    (h : ∀ c, (k ()).Follows refs D Q c held) :
    (CatalogLocking.save (saveVersion tenantId w) >>= k).Follows refs D Q seen held :=
  Locking.follows_bind (follows_save (fun _ _ hc => hc.agree.saveVersion hw) fun c _ => h c)

theorem follows_saveBinding {tenantId : Id} {b d : ToolBinding} {k : Unit → CatalogLocking α}
    {versionId : Id} (hversion : b.val.toolVersionId = versionId)
    (hversionOf : refs.versionOf b.val.id = versionId)
    (hupstreamOf : b.val.upstreamServiceId = refs.upstreamOf versionId)
    (hidentity : d.identity = b.identity) (h : ∀ c, (k ()).Follows refs D Q c held) :
    (CatalogLocking.save (saveBinding tenantId d) >>= k).Follows refs D Q seen held := by
  refine Locking.follows_bind (follows_save (fun c c' hc hsave => ?_) fun c _ => h c)
  exact hc.agree.saveBinding (hversion.trans hversionOf.symm) (by rw [hversion, hupstreamOf])
    hidentity hsave

end Rules

/-! ## Disciplines -/

namespace LockOrder

variable {refs : References} {seen : CatalogTables} {held : List CatalogRow}

def HoldsTool (held : List CatalogRow) : Prop := ∃ id, .tool id ∈ held

def HoldsVersion (held : List CatalogRow) : Prop := ∃ id, .version id ∈ held

def HoldsUpstream (held : List CatalogRow) : Prop := ∃ id, .upstream id ∈ held

/-- The tool of every version that is held is held as well. -/
def Coherent (refs : References) (held : List CatalogRow) : Prop :=
  ∀ id, .version id ∈ held → .tool (refs.toolOf id) ∈ held

/-- Which rows are asked for with which rows held. -/
def Asks (refs : References) (held : List CatalogRow) : CatalogRow → Prop
  | .operation _ => held = []
  | .tool id => ¬ HoldsTool held ∧ (held = [] ∨ (HoldsUpstream held ∧ ¬ HoldsVersion held) ∨
      (HoldsVersion held ∧ ¬ HoldsUpstream held ∧
        ∀ v, .version v ∈ held → refs.toolOf v = id))
  | .version id => (¬ HoldsVersion held ∧ ¬ HoldsUpstream held) ∨
      (HoldsUpstream held ∧ Coherent refs held ∧ .tool (refs.toolOf id) ∈ held)
  | .binding id => .version (refs.versionOf id) ∈ held
  | .upstream _ => ¬ HoldsUpstream held

/-- A binding is added for a version that is held. -/
def Inserts (refs : References) (held : List CatalogRow) : CatalogRow → Prop
  | .binding id => .version (refs.versionOf id) ∈ held
  | _ => True

/-- How publications lock. -/
def publications (refs : References) : Locking.Discipline CatalogRow := ⟨Asks refs, Inserts refs⟩

/-- How reviews and submissions lock: nothing more once they hold a tool. -/
def reviews (refs : References) : Locking.Discipline CatalogRow :=
  ⟨fun held row => Asks refs held row ∧ ¬ HoldsTool held, Inserts refs⟩

/-- The version of a binding that is held is held as well. -/
theorem version_of_binding {D : Locking.Discipline CatalogRow} (h : Locking.Built D held)
    (hasks : ∀ held row, D.asks held row → Asks refs held row)
    (hinserts : ∀ held row, D.inserts held row → Inserts refs held row) {id : Id}
    (hid : .binding id ∈ held) : .version (refs.versionOf id) ∈ held := by
  induction h with
  | nil => cases hid
  | @cons held row _ hrow ih =>
    rcases List.mem_cons.1 hid with rfl | hid
    · rcases hrow with hrow | hrow
      · exact List.mem_cons_of_mem _ (hasks _ _ hrow)
      · exact List.mem_cons_of_mem _ (hinserts _ _ hrow)
    · exact List.mem_cons_of_mem _ (ih hid)

/-! ## The transactions keep to them -/

theorem submitToolVersionForReview_follows (now : Time)
    (command : SubmitToolVersionForReviewCommand) :
    (RowLocks.submitToolVersionForReview now command).Follows refs (reviews refs)
      (fun _ _ _ => True) seen [] := by
  refine follows_require fun c c' v hc hget => ⟨fun _ => ⟨.inl ⟨?_, ?_⟩, ?_⟩, ?_⟩
  · rintro ⟨_, ⟨⟩⟩
  · rintro ⟨_, ⟨⟩⟩
  · rintro ⟨_, ⟨⟩⟩
  · refine follows_raiseIf fun _ => follows_lift fun w hw => ?_
    -- The saved version has the tool of the one that was read.
    obtain ⟨hid, htool⟩ := hc.agree.version hget
    obtain ⟨-, hval⟩ := ToolVersion.submitForReview_eq_ok.1 hw
    refine follows_save (fun c c' hc hsave => hc.agree.saveVersion ?_ hsave) fun _ _ => trivial
    rw [hval]
    exact htool.trans (congrArg refs.toolOf hid.symm)

/-- What a publication of the version holds when it has locked the tool and the version: no
    version of another tool, nor another upstream than the binding's. -/
structure Publishing (refs : References) (toolId toolVersionId : Id) (held : List CatalogRow) :
    Prop where
  tool : .tool toolId ∈ held
  version : .version toolVersionId ∈ held
  versions : ∀ v, .version v ∈ held → v = toolVersionId ∨ refs.toolOf v = toolId
  upstreams : ∀ u, .upstream u ∈ held → u = refs.upstreamOf toolVersionId

theorem Publishing.binding {toolId toolVersionId id : Id}
    (h : Publishing refs toolId toolVersionId held) :
    Publishing refs toolId toolVersionId (take held (some (.binding id))) where
  tool := Locking.mem_take.2 (.inl h.tool)
  version := Locking.mem_take.2 (.inl h.version)
  versions := by
    intro v hv
    rcases Locking.mem_take.1 hv with hv | ⟨⟨⟩⟩
    exact h.versions v hv
  upstreams := by
    intro u hu
    rcases Locking.mem_take.1 hu with hu | ⟨⟨⟩⟩
    exact h.upstreams u hu

theorem retireVersion_follows {tenantId : Id} {current target : ToolVersion} {at_ : Time}
    (hupstream : HoldsUpstream held) (hcoherent : Coherent refs held)
    (htool : .tool (refs.toolOf current.val.id) ∈ held) :
    (RowLocks.retireVersion tenantId current target at_).Follows refs (publications refs)
      (fun _ _ _ => True) seen held := by
  refine follows_raiseIf fun _ => follows_forUpdate fun c c' r hc hget => ⟨?_, ?_⟩
  · rintro v rfl -
    obtain ⟨hid, -⟩ := hc.agree.version hget
    exact .inr ⟨hupstream, hcoherent, by rw [hid]; exact htool⟩
  · refine follows_orRaise fun v hv => ?_
    obtain ⟨rfl, -⟩ := Option.filter_eq_some_iff.1 hv
    obtain ⟨hid, hversionTool⟩ := hc.agree.version hget
    -- Its binding may be locked, since the version is held by now.
    refine follows_require fun c₁ c₁' b hc₁ hgetBinding => ⟨fun _ => ?_, ?_⟩
    · obtain ⟨-, hversionOf, -⟩ := hc₁.agree.binding hgetBinding
      exact Locking.mem_take.2 (.inr (by rw [hversionOf]; rfl))
    · obtain ⟨hversion, hversionOf, hupstreamOf⟩ := hc₁.agree.binding hgetBinding
      refine follows_raiseIf fun _ => follows_lift fun w hw => follows_saveVersion ?_ fun _ => ?_
      · obtain ⟨-, hval⟩ := ToolVersion.retire_eq_ok.1 hw
        rw [hval, hversionTool, hid]
      · refine follows_lift fun d hd => follows_saveBinding hversion hversionOf hupstreamOf ?_
          fun _ => trivial
        obtain ⟨-, hval⟩ := ToolBinding.disable_eq_ok.1 hd
        unfold ToolBinding.identity
        rw [hval]

theorem retireCurrentVersion_follows {tenantId : Id} {tool : Tool} {target : ToolVersion}
    {at_ : Time} (hupstream : HoldsUpstream held) (hcoherent : Coherent refs held)
    (htool : .tool tool.val.id ∈ held) :
    (RowLocks.retireCurrentVersion tenantId tool target at_).Follows refs (publications refs)
      (fun _ _ _ => True) seen held := by
  refine follows_select fun c _ r hc hget => ?_
  cases r with
  | none => trivial
  | some current =>
    obtain ⟨hmem, -, hcurrent, -⟩ :=
      mem_of_publishedOf (getPublishedVersion_eq_ok.1 hget).1.symm
    refine Locking.follows_bind ((retireVersion_follows hupstream hcoherent ?_).mono ?_)
    · rw [← hc.agree.toolOf current hmem, hcurrent]
      exact htool
    · exact fun _ _ _ _ => trivial

/-- A publication locks its tool and its version first, unless it holds both. -/
theorem Publishing.start {toolId toolVersionId : Id}
    (h : held = [] ∨ Publishing refs toolId toolVersionId held) :
    Publishing refs toolId toolVersionId
      (take (take held (some (.tool toolId))) (some (.version toolVersionId))) := by
  rcases h with rfl | h
  · constructor
    · simp [take]
    · simp [take]
    · intro v hv
      simp [take] at hv
      exact .inl hv
    · intro u hu
      simp [take] at hu
  · have htool : take held (some (.tool toolId)) = held := if_pos h.tool
    have hversion : take held (some (.version toolVersionId)) = held := if_pos h.version
    rw [htool, hversion]
    exact h

theorem publishToolInTransaction_follows [Sha256] {command : PublishToolCommand} {at_ : Time}
    (hheld : held = [] ∨ Publishing refs command.toolId command.toolVersionId held) :
    (RowLocks.publishToolInTransaction command at_).Follows refs (publications refs)
      (fun _ _ _ => True) seen held := by
  refine follows_require fun c₁ _ tool hc₁ hgetTool => ⟨fun hnew => ?_, ?_⟩
  all_goals obtain ⟨htoolMem, htoolId, -⟩ :=
    inTenant_eq_some.1 (getToolForUpdate_eq_ok.1 hgetTool).1.symm
  · rcases hheld with rfl | hheld
    · exact ⟨by rintro ⟨_, ⟨⟩⟩, .inl rfl⟩
    -- A tool that is held already is not waited for.
    · exact absurd (htoolId ▸ hheld.tool) hnew
  have hheld₁ := Publishing.start hheld
  rw [htoolId]
  refine follows_require fun c₂ _ version hc₂ hgetVersion => ⟨fun hnew => ?_, ?_⟩
  all_goals obtain ⟨hversionId, hversionTool⟩ := hc₂.agree.version hgetVersion
  · rw [hversionId] at hnew ⊢
    rcases hheld with rfl | hheld
    · exact .inl ⟨by rintro ⟨_, h⟩; simp [take] at h, by rintro ⟨_, h⟩; simp [take] at h⟩
    · exact absurd (Locking.mem_take.2 (.inl hheld.version)) hnew
  rw [hversionId]
  -- From here on it does not matter which rows were held before, only that tool and version are.
  generalize take (take held _) _ = held₁ at hheld₁ ⊢
  refine follows_require fun c₃ _ binding hc₃ hgetBinding => ⟨fun hnew => ?_, ?_⟩
  all_goals obtain ⟨hversion, hversionOf, hupstreamOf⟩ := hc₃.agree.binding hgetBinding
  · change CatalogRow.version (refs.versionOf binding.val.id) ∈ held₁
    rw [hversionOf]
    exact hheld₁.version
  have hheld₂ : Publishing refs command.toolId command.toolVersionId
    (take held₁ (some (.binding binding.val.id))) := hheld₁.binding
  generalize take held₁ _ = held₂ at hheld₂ ⊢
  refine follows_require fun c₄ _ upstream hc₄ hgetUpstream => ⟨fun hnew => ?_, ?_⟩
  all_goals obtain ⟨hupstreamMem, hupstreamId, -⟩ :=
    inTenant_eq_some.1 (getUpstreamForUpdate_eq_ok.1 hgetUpstream).1.symm
  -- If an upstream is held, it is the binding's, and there is nothing to wait for.
  · rintro ⟨u, hu⟩
    rw [hupstreamId, hupstreamOf, ← hheld₂.upstreams u hu] at hnew
    exact hnew hu
  refine follows_lift fun _ hvalid => ?_
  have htool := (validatePublishSnapshot_eq_ok hvalid).toolId
  -- The snapshot has been checked: the version belongs to the tool, so the rows that are held are
  -- coherent, and the current version may be locked after the upstream.
  have hversions : ∀ v, .version v ∈ held₂ → refs.toolOf v = command.toolId := by
    intro v hv
    rcases hheld₂.versions v hv with rfl | hv
    · rw [← hversionTool, htool, htoolId]
    · exact hv
  refine Locking.follows_bind ((retireCurrentVersion_follows ?_ ?_ ?_).mono fun _ _ _ _ => ?_)
  · exact ⟨_, Locking.mem_take.2 (.inr rfl)⟩
  · intro v hv
    rcases Locking.mem_take.1 hv with hv | ⟨⟨⟩⟩
    rw [hversions v hv]
    exact Locking.mem_take.2 (.inl hheld₂.tool)
  · rw [htoolId]
    exact Locking.mem_take.2 (.inl hheld₂.tool)
  refine follows_lift fun w hw => follows_saveVersion ?_ fun _ => ?_
  · obtain ⟨-, hval⟩ := ToolVersion.publish_eq_ok.1 hw
    rw [hval, hversionTool, hversionId]
  refine follows_lift fun d hd => follows_saveBinding hversion hversionOf hupstreamOf ?_ fun _ => ?_
  · obtain ⟨-, hval⟩ := ToolBinding.publish_eq_ok.1 hd
    unfold ToolBinding.identity
    rw [hval]
  refine follows_lift fun t _ => Locking.follows_bind ?_
  exact follows_save (fun _ _ hc hsave => hc.agree.saveTool hsave) fun _ _ => trivial

/-- What a transaction holds when it has reviewed: what a publication of the version needs, or
    no more than the operation, which had been accepted before. -/
def Reviewed (refs : References) (tenantId : Id) (reviewed : ReviewImportedOperationResult)
    (seen : CatalogTables) (held : List CatalogRow) : Prop :=
  Publishing refs reviewed.toolId reviewed.toolVersionId held ∨
    ((∃ id, held = [.operation id]) ∧ reviewed.toolId = refs.toolOf reviewed.toolVersionId ∧
      References.Has tenantId reviewed.toolVersionId seen)

theorem existingResult_follows {D : Locking.Discipline CatalogRow} {tenantId operationId : Id}
    {operation : ImportedOperation} :
    (RowLocks.existingResult tenantId operation).Follows refs D (Reviewed refs tenantId) seen
      [.operation operationId] := by
  unfold RowLocks.existingResult
  split
  · refine follows_select fun c₁ _ version? hc₁ hgetVersion => ?_
    refine follows_select fun c₂ _ binding? hc₂ hgetBinding => ?_
    cases version? <;> cases binding?
    case some.some version binding =>
      refine follows_select fun c₃ _ tool? hc₃ hgetTool => follows_orRaise fun tool htool => ?_
      subst htool
      obtain ⟨hid, hversionTool⟩ := hc₁.agree.version hgetVersion
      obtain ⟨-, htoolId, -⟩ := inTenant_eq_some.1 (getToolForUpdate_eq_ok.1 hgetTool).1.symm
      -- The results of an earlier review are read without locks: only the operation is held.
      refine .inr ⟨⟨operationId, rfl⟩, ?_, ?_⟩
      · change tool.val.id = refs.toolOf version.val.id
        rw [htoolId, hversionTool, hid]
      · refine hc₃.has (hc₂.has ?_)
        change References.Has tenantId version.val.id c₁
        rw [hid]
        exact References.has_of_found hgetVersion
    all_goals exact Locking.follows_lift nofun
  · exact Locking.follows_lift nofun

theorem getOrAddTool_follows {env : ReviewEnv} {command : ReviewImportedOperationCommand}
    {upstream : UpstreamService} {name : String} {upstreamId operationId : Id} :
    (RowLocks.getOrAddTool env command upstream name).Follows refs (reviews refs)
      (fun tool _ held => held = [.tool tool.val.id, .upstream upstreamId, .operation operationId])
      seen [.upstream upstreamId, .operation operationId] := by
  have htake (tool : Tool) :
      take [CatalogRow.upstream upstreamId, .operation operationId] (some (.tool tool.val.id)) =
        [.tool tool.val.id, .upstream upstreamId, .operation operationId] := by
    simp [take]
  -- The tool is locked while the upstream is held and no version is.
  refine follows_forUpdate fun c _ tool? hc hget => ⟨fun tool _ hnew => ?_, ?_⟩
  · refine ⟨⟨?_, .inr (.inl ⟨⟨upstreamId, by simp⟩, ?_⟩)⟩, ?_⟩
    all_goals
      rintro ⟨_, h⟩
      simp at h
  · cases tool? with
    | some tool => exact htake tool
    | none =>
      refine follows_lift fun tool _ => Locking.follows_bind (follows_add fun _ _ _ _ => ?_)
      exact ⟨trivial, htake tool⟩

theorem draft_follows [Sha256] {env : ReviewEnv} {command : ReviewImportedOperationCommand}
    {operation : ImportedOperation} {tenantId operationId : Id} :
    (RowLocks.draft env command operation).Follows refs (reviews refs) (Reviewed refs tenantId) seen
      [.operation operationId] := by
  refine follows_raiseIf fun _ => follows_orRaise fun name _ => ?_
  refine follows_require fun c₁ _ upstream hc₁ hgetUpstream => ⟨fun _ => ⟨?_, ?_⟩, ?_⟩
  · rintro ⟨_, h⟩
    simp at h
  · rintro ⟨_, h⟩
    simp at h
  obtain ⟨-, hupstreamId, -⟩ :=
    inTenant_eq_some.1 (getUpstreamForUpdate_eq_ok.1 hgetUpstream).1.symm
  refine follows_raiseIf fun _ => Locking.follows_bind (getOrAddTool_follows.mono ?_)
  rintro tool _ _ rfl
  refine follows_select fun _ _ number _ _ => ?_
  refine follows_lift fun version hversion => follows_lift fun binding hbinding => ?_
  have hdrafts := drafts_of_build hversion hbinding
  refine follows_lift fun accepted _ => Locking.follows_bind (follows_add fun _ c₂ hadd hc₂ => ?_)
  refine ⟨trivial, Locking.follows_bind (follows_add fun _ c₃ haddBinding hc₃ => ?_)⟩
  -- The references know the rows that were inserted, since they agree with every later catalogue.
  have htoolOf : refs.toolOf version.val.id = tool.val.id := by
    obtain ⟨-, -, hfresh, hrows⟩ := addVersion_eq_ok.1 hadd
    rw [← hc₂.toolOf version (by rw [hrows]; exact (Txn.Table.mem_insert hfresh).2 (.inr rfl)),
      hdrafts.versionTool]
  obtain ⟨-, hfresh, hrows⟩ := addBinding_eq_ok.1 haddBinding
  have hmem : binding ∈ c₃.bindings := by
    rw [hrows]
    exact (Txn.Table.mem_insert hfresh).2 (.inr rfl)
  have hversionOf : refs.versionOf binding.val.id = version.val.id := by
    rw [← hc₃.versionOf binding hmem, hdrafts.bindingVersion]
  have hupstreamOf : refs.upstreamOf version.val.id = upstream.val.id := by
    rw [← hdrafts.bindingVersion, ← hc₃.upstreamOf binding hmem, hdrafts.bindingUpstream,
      hupstreamId]
  refine ⟨?_, Locking.follows_bind ?_⟩
  · change CatalogRow.version (refs.versionOf binding.val.id) ∈ _
    rw [hversionOf]
    exact Locking.mem_take.2 (.inr rfl)
  refine follows_save (fun _ _ hc hsave => hc.agree.saveOperation hsave) fun _ _ => .inl ?_
  refine ⟨?_, ?_, ?_, ?_⟩
  · simp [take, ReviewImportedOperation.result]
  · simp [take, ReviewImportedOperation.result]
  · intro v hv
    simp [take] at hv
    exact .inl hv
  · intro u hu
    simp [take] at hu
    exact hu.trans hupstreamOf.symm

theorem executeInTransaction_follows [Sha256] {env : ReviewEnv}
    {command : ReviewImportedOperationCommand} :
    (RowLocks.executeInTransaction env command).Follows refs (reviews refs)
      (Reviewed refs command.context.tenantId) seen [] := by
  refine follows_require fun c _ operation hc hget => ⟨fun _ => ⟨rfl, by rintro ⟨_, ⟨⟩⟩⟩, ?_⟩
  have htake : take [] (some (CatalogRow.operation operation.id)) = [.operation operation.id] := by
    simp [take]
  rw [htake]
  split
  · exact existingResult_follows
  · exact draft_follows

/-- What a direct publication holds before it locks the tool: all that a publication needs, or
    the version of an accepted operation, without the tool. -/
def Locked (refs : References) (toolId toolVersionId : Id) (held : List CatalogRow) : Prop :=
  Publishing refs toolId toolVersionId held ∨
    (toolId = refs.toolOf toolVersionId ∧ .version toolVersionId ∈ held ∧ ¬ HoldsTool held ∧
      ¬ HoldsUpstream held ∧ ∀ v, .version v ∈ held → v = toolVersionId)

theorem Locked.version {toolId toolVersionId : Id} (h : Locked refs toolId toolVersionId held) :
    .version toolVersionId ∈ held := by
  rcases h with h | ⟨-, h, -⟩
  · exact h.version
  · exact h

theorem Locked.binding {toolId toolVersionId id : Id} (h : Locked refs toolId toolVersionId held) :
    Locked refs toolId toolVersionId (take held (some (.binding id))) := by
  rcases h with h | ⟨htool, hversion, hnoTool, hnoUpstream, hversions⟩
  · exact .inl h.binding
  · refine .inr ⟨htool, Locking.mem_take.2 (.inl hversion), ?_, ?_, ?_⟩
    · rintro ⟨t, ht⟩
      rcases Locking.mem_take.1 ht with ht | ⟨⟨⟩⟩
      exact hnoTool ⟨t, ht⟩
    · rintro ⟨u, hu⟩
      rcases Locking.mem_take.1 hu with hu | ⟨⟨⟩⟩
      exact hnoUpstream ⟨u, hu⟩
    · intro v hv
      rcases Locking.mem_take.1 hv with hv | ⟨⟨⟩⟩
      exact hversions v hv

theorem Locked.tool {toolId toolVersionId : Id} (h : Locked refs toolId toolVersionId held) :
    Publishing refs toolId toolVersionId (take held (some (.tool toolId))) := by
  rcases h with h | ⟨htool, hversion, -, hnoUpstream, hversions⟩
  · have htake : take held (some (.tool toolId)) = held := if_pos h.tool
    rw [htake]
    exact h
  · refine ⟨Locking.mem_take.2 (.inr rfl), Locking.mem_take.2 (.inl hversion), ?_, ?_⟩
    · intro v hv
      rcases Locking.mem_take.1 hv with hv | ⟨⟨⟩⟩
      exact .inl (hversions v hv)
    · intro u hu
      rcases Locking.mem_take.1 hu with hu | ⟨⟨⟩⟩
      exact absurd ⟨u, hu⟩ hnoUpstream

/-- A reviewed operation has its version, which is locked now. -/
theorem Reviewed.locked {tenantId : Id} {reviewed : ReviewImportedOperationResult}
    {c c' : CatalogTables} {r : Option ToolVersion}
    (h : Reviewed refs tenantId reviewed seen held) (hc : refs.Later seen c)
    (hget : getVersionForUpdate tenantId reviewed.toolVersionId c = .ok (r, c')) :
    Locked refs reviewed.toolId reviewed.toolVersionId (take held (r.map (.version ·.val.id))) := by
  rcases h with h | ⟨⟨id, rfl⟩, htool, hhas⟩
  · cases r with
    | none => exact .inl h
    | some v =>
      obtain ⟨hid, -⟩ := hc.agree.version hget
      have htake : take held (some (.version reviewed.toolVersionId)) = held := if_pos h.version
      rw [Option.map_some, hid, htake]
      exact .inl h
  · obtain ⟨v, rfl⟩ := References.found_of_has (hc.has hhas) hget
    obtain ⟨hid, -⟩ := hc.agree.version hget
    rw [Option.map_some, hid]
    refine .inr ⟨htool, Locking.mem_take.2 (.inr rfl), ?_, ?_, ?_⟩
    · rintro ⟨t, ht⟩
      simp [take] at ht
    · rintro ⟨u, hu⟩
      simp [take] at hu
    · intro v hv
      simpa [take] using hv

theorem submit_follows {tenantId : Id} {version : ToolVersion} {at_ : Time}
    {D : Locking.Discipline CatalogRow} {Q : Unit → CatalogTables → List CatalogRow → Prop}
    (hversion : version.val.toolId = refs.toolOf version.val.id) (h : ∀ seen, Q () seen held) :
    (RowLocks.submit tenantId version at_).Follows refs D Q seen held := by
  unfold RowLocks.submit
  split
  · refine follows_lift fun w hw => follows_save (fun c c' hc hsave => ?_) fun c _ => h c
    refine hc.agree.saveVersion ?_ hsave
    obtain ⟨-, hval⟩ := ToolVersion.submitForReview_eq_ok.1 hw
    rw [hval, hversion]
  · exact h seen
  · exact Locking.follows_lift nofun

theorem directPublish_follows [Sha256] {env : ReviewEnv} {at_ : Time}
    {command : DirectPublishImportedOperationCommand} :
    (RowLocks.directPublish env at_ command).Follows refs (publications refs)
      (fun _ _ _ => True) seen [] := by
  refine Locking.follows_bind ((executeInTransaction_follows.weaken ?_ ?_).mono ?_)
  · exact fun _ _ h => h.1
  · exact fun _ _ h => h
  intro reviewed seen held hreviewed
  refine follows_forUpdate fun c₁ _ version? hc₁ hgetVersion => ⟨?_, ?_⟩
  · rintro version rfl hnew
    obtain ⟨hid, -⟩ := hc₁.agree.version hgetVersion
    rw [hid] at hnew ⊢
    -- A version drafted just now is held already. One of an earlier review is waited for while no
    -- tool and no upstream is held.
    rcases hreviewed with h | ⟨⟨_, rfl⟩, -, -⟩
    · exact absurd h.version hnew
    · refine .inl ⟨?_, ?_⟩
      all_goals
        rintro ⟨_, h⟩
        simp at h
  have hheld₁ := hreviewed.locked hc₁ hgetVersion
  generalize take held _ = held₁ at hheld₁ ⊢
  refine follows_forUpdate fun c₂ _ binding? hc₂ hgetBinding => ⟨?_, ?_⟩
  · rintro binding rfl -
    obtain ⟨-, hversionOf, -⟩ := hc₂.agree.binding hgetBinding
    change CatalogRow.version (refs.versionOf binding.val.id) ∈ held₁
    rw [hversionOf]
    exact hheld₁.version
  have hheld₂ : Locked refs reviewed.toolId reviewed.toolVersionId
      (take held₁ (binding?.map (.binding ·.val.id))) := by
    cases binding? with
    | none => exact hheld₁
    | some binding => exact hheld₁.binding
  generalize take held₁ _ = held₂ at hheld₂ ⊢
  refine follows_forUpdate fun c₃ _ tool? hc₃ hgetTool => ⟨?_, ?_⟩
  · rintro tool rfl hnew
    obtain ⟨-, hid, -⟩ := inTenant_eq_some.1 (getToolForUpdate_eq_ok.1 hgetTool).1.symm
    rw [hid] at hnew ⊢
    rcases hheld₂ with h | ⟨htool, hversion, hnoTool, hnoUpstream, hversions⟩
    · exact absurd h.tool hnew
    -- The order that the source takes for an accepted operation: the tool after its version.
    · refine ⟨hnoTool, .inr (.inr ⟨⟨_, hversion⟩, hnoUpstream, fun v hv => ?_⟩)⟩
      rw [hversions v hv, htool]
  cases version? <;> cases binding? <;> cases tool?
  -- If one of the three is missing, the transaction raises.
  case some.some.some version binding tool =>
    obtain ⟨-, hid, -⟩ := inTenant_eq_some.1 (getToolForUpdate_eq_ok.1 hgetTool).1.symm
    have hheld₃ := hheld₂.tool
    rw [Option.map_some, hid]
    obtain ⟨hversionId, hversionTool⟩ := hc₁.agree.version hgetVersion
    dsimp only
    split
    · exact follows_raiseIf fun _ => follows_orRaise fun _ _ => trivial
    · refine Locking.follows_bind (submit_follows (hversionTool.trans (by rw [hversionId])) ?_)
      intro seen
      refine Locking.follows_bind ((publishToolInTransaction_follows (.inr hheld₃)).mono ?_)
      exact fun _ _ _ _ => trivial
  all_goals
    refine Locking.follows_lift fun _ h => ?_
    cases h

end LockOrder

/-! ## Runs -/

inductive CatalogTransaction where
  | publishTool (now : Time) (command : PublishToolCommand)
  | reviewImportedOperation (env : ReviewEnv) (command : ReviewImportedOperationCommand)
  | directPublishImportedOperation (env : ReviewEnv) (now : Time)
      (command : DirectPublishImportedOperationCommand)
  | submitToolVersionForReview (now : Time) (command : SubmitToolVersionForReviewCommand)

namespace CatalogTransaction

abbrev Result : CatalogTransaction → Type
  | publishTool _ _ => PublishToolResult
  | reviewImportedOperation _ _ => ReviewImportedOperationResult
  | directPublishImportedOperation _ _ _ => DirectPublishImportedOperationResult
  | submitToolVersionForReview _ _ => Unit

def program [Sha256] : (command : CatalogTransaction) → CatalogLocking command.Result
  | publishTool now command => RowLocks.publishToolInTransaction command now
  | reviewImportedOperation env command => RowLocks.executeInTransaction env command
  | directPublishImportedOperation env now command => RowLocks.directPublish env now command
  | submitToolVersionForReview now command => RowLocks.submitToolVersionForReview now command

/-- The transaction publishes a version. -/
def Publishes : CatalogTransaction → Bool
  | publishTool _ _ | directPublishImportedOperation _ _ _ => true
  | reviewImportedOperation _ _ | submitToolVersionForReview _ _ => false

def discipline (refs : References) (command : CatalogTransaction) :
    Locking.Discipline CatalogRow :=
  if command.Publishes then LockOrder.publications refs else LockOrder.reviews refs

theorem follows [Sha256] (refs : References) (command : CatalogTransaction) (c : CatalogTables) :
    command.program.Follows refs (command.discipline refs) (fun _ _ _ => True) c [] := by
  cases command with
  | publishTool now command => exact LockOrder.publishToolInTransaction_follows (.inl rfl)
  | reviewImportedOperation env command =>
    exact LockOrder.executeInTransaction_follows.mono fun _ _ _ _ => trivial
  | directPublishImportedOperation env now command => exact LockOrder.directPublish_follows
  | submitToolVersionForReview now command => exact LockOrder.submitToolVersionForReview_follows _ _

theorem asks_of_discipline {refs : References} {command : CatalogTransaction}
    {held : List CatalogRow} {row : CatalogRow} (h : (command.discipline refs).asks held row) :
    LockOrder.Asks refs held row := by
  unfold discipline at h
  split at h
  · exact h
  · exact h.1

theorem inserts_of_discipline {refs : References} {command : CatalogTransaction}
    {held : List CatalogRow} {row : CatalogRow} (h : (command.discipline refs).inserts held row) :
    LockOrder.Inserts refs held row := by
  unfold discipline at h
  split at h <;> exact h

/-- Only a publication locks more rows once it holds a tool. -/
theorem publishes_of_tool {refs : References} {command : CatalogTransaction}
    {held : List CatalogRow} {row : CatalogRow} (h : (command.discipline refs).asks held row)
    (htool : LockOrder.HoldsTool held) : command.Publishes := by
  unfold discipline at h
  split at h
  · assumption
  · exact absurd htool h.2

end CatalogTransaction

namespace LockOrder

variable {Pid : Type} {refs : References} {commands : Pid → CatalogTransaction}
  {w : Lockers CatalogTables CatalogRow Exc Pid fun p => (commands p).Result}

/-- Nobody waits against the order: a transaction that holds a version, or holds an upstream
    where the other does not yet, waits for no tool of a publication, and one that holds a
    version of another tool than it has locked waits for no upstream. -/
structure Orderly (refs : References) (commands : Pid → CatalogTransaction)
    (w : Lockers CatalogTables CatalogRow Exc Pid fun p => (commands p).Result) : Prop where
  tool : ∀ p q id, (w p).awaits = some (.tool id) → .tool id ∈ (w q).held →
    (commands q).Publishes → ¬ HoldsVersion (w p).held ∧
      (HoldsUpstream (w p).held → HoldsUpstream (w q).held)
  upstream : ∀ p id, (w p).awaits = some (.upstream id) → Coherent refs (w p).held

/-- How late a transaction is when it waits for the row. -/
def rank (held : List CatalogRow) : CatalogRow → Nat
  | .operation _ => 0
  | .tool _ =>
    if held = [] then 1 else if held.any (· matches .version _) then 3 else 5
  | .version _ => if held.any (· matches .upstream _) then 6 else 2
  | .upstream _ => 4
  | .binding _ => 0

theorem any_version {held : List CatalogRow} :
    held.any (· matches .version _) = true ↔ HoldsVersion held := by
  rw [List.any_eq_true]
  constructor
  · rintro ⟨row, hrow, h⟩
    cases row <;> simp at h
    exact ⟨_, hrow⟩
  · rintro ⟨id, hid⟩
    exact ⟨_, hid, rfl⟩

theorem any_upstream {held : List CatalogRow} :
    held.any (· matches .upstream _) = true ↔ HoldsUpstream held := by
  rw [List.any_eq_true]
  constructor
  · rintro ⟨row, hrow, h⟩
    cases row <;> simp at h
    exact ⟨_, hrow⟩
  · rintro ⟨id, hid⟩
    exact ⟨_, hid, rfl⟩

section

variable (hsound : Lockers.Sound refs.Later (fun p => (commands p).discipline refs) w)

include hsound

theorem asks_of_awaits {p : Pid} {row : CatalogRow} (h : (w p).awaits = some row) :
    Asks refs (w p).held row :=
  CatalogTransaction.asks_of_discipline ((hsound.procs p).awaits row h).2

/-- Nobody locks a binding before its version, so nobody waits for a binding. -/
theorem not_awaits_binding {p q : Pid} {id : Id} (hawaits : (w p).awaits = some (.binding id))
    (hheld : .binding id ∈ (w q).held) : False := by
  have hp : .version (refs.versionOf id) ∈ (w p).held := asks_of_awaits hsound hawaits
  have hq : .version (refs.versionOf id) ∈ (w q).held := by
    refine version_of_binding (hsound.procs q).held ?_ ?_ hheld
    · exact fun _ _ => CatalogTransaction.asks_of_discipline
    · exact fun _ _ => CatalogTransaction.inserts_of_discipline
  -- Both hold the version of the binding, so they are one transaction.
  have hpq := hsound.exclusive p q _ hp hq
  subst hpq
  exact ((hsound.procs p).awaits _ hawaits).1 hheld

theorem publishes_of_awaits {p : Pid} {row : CatalogRow} (h : (w p).awaits = some row)
    (htool : HoldsTool (w p).held) : (commands p).Publishes :=
  CatalogTransaction.publishes_of_tool ((hsound.procs p).awaits row h).2 htool

/-- Nobody holds the current version of a tool and waits, when the holder of the tool waits for
    that version. -/
theorem not_awaits_current (hord : Orderly refs commands w) {p q r : Pid} {id : Id}
    {row : CatalogRow} (hawaits : (w p).awaits = some (.version id)) (hupstream : HoldsUpstream (w p).held)
    (hheld : .version id ∈ (w q).held) (hawaits' : (w q).awaits = some row)
    (hrow : row ∈ (w r).held) : False := by
  have hp : .tool (refs.toolOf id) ∈ (w p).held := by
    rcases asks_of_awaits hsound hawaits with ⟨-, h⟩ | ⟨-, -, h⟩
    · exact absurd hupstream h
    · exact h
  -- A holder with the tools of all its versions would have the tool that the first one has.
  have hcoherent (h : Coherent refs (w q).held) : False := by
    have hpq := hsound.exclusive p q _ hp (h id hheld)
    subst hpq
    exact ((hsound.procs p).awaits _ hawaits).1 hheld
  have hasks := asks_of_awaits hsound hawaits'
  cases row with
  | operation o =>
    rw [show (w q).held = [] from hasks] at hheld
    cases hheld
  | tool t =>
    obtain ⟨-, h | ⟨-, h⟩ | ⟨-, -, h⟩⟩ := hasks
    · rw [h] at hheld
      cases hheld
    · exact h ⟨id, hheld⟩
    · -- it waits for the tool that the first one holds
      obtain rfl := h id hheld
      exact (hord.tool q p _ hawaits' hp (publishes_of_awaits hsound hawaits ⟨_, hp⟩)).1 ⟨id, hheld⟩
  | version v =>
    rcases hasks with ⟨h, -⟩ | ⟨-, h, -⟩
    · exact h ⟨id, hheld⟩
    · exact hcoherent h
  | binding b => exact not_awaits_binding hsound hawaits' hrow
  | upstream u => exact hcoherent (hord.upstream q u hawaits')

/-- Along a circle the ranks would grow. -/
theorem rank_lt (hord : Orderly refs commands w) {p q r : Pid} {row row' : CatalogRow}
    (hawaits : (w p).awaits = some row) (hheld : row ∈ (w q).held)
    (hawaits' : (w q).awaits = some row') (hrow' : row' ∈ (w r).held) :
    rank (w p).held row < rank (w q).held row' := by
  have hasks := asks_of_awaits hsound hawaits
  have hasks' := asks_of_awaits hsound hawaits'
  -- By the row that the first one waits for, then by the row that its holder waits for.
  have hne : (w q).held ≠ [] := List.ne_nil_of_mem hheld
  cases row with
  | operation o =>
    cases row' with
    | operation o' => exact absurd hasks' hne
    | binding b => exact absurd hrow' (not_awaits_binding hsound hawaits')
    | tool t | version v =>
      simp only [rank, if_neg hne]
      split <;> omega
    | upstream u => exact Nat.succ_pos 3
  | binding b => exact absurd hheld (not_awaits_binding hsound hawaits)
  | tool t =>
    -- The holder of a tool waits, so it is a publication, and the order binds who waits for it.
    have hpublishes (h : HoldsTool (w q).held) :=
      hord.tool p q t hawaits hheld (publishes_of_awaits hsound hawaits' h)
    obtain ⟨hnoVersion, hupstream⟩ := hpublishes ⟨t, hheld⟩
    have hrank : rank (w p).held (.tool t) = if (w p).held = [] then 1 else 5 := by
      simp only [rank, if_neg (mt any_version.1 hnoVersion)]
    have hupstream' (h : (w p).held ≠ []) : HoldsUpstream (w q).held := by
      obtain ⟨-, h' | ⟨h', -⟩ | ⟨h', -⟩⟩ := hasks
      · exact absurd h' h
      · exact hupstream h'
      · exact absurd h' hnoVersion
    rw [hrank]
    cases row' with
    | operation o' => exact absurd hasks' hne
    | binding b => exact absurd hrow' (not_awaits_binding hsound hawaits')
    | tool t' => exact absurd ⟨t, hheld⟩ hasks'.1
    | version v =>
      simp only [rank]
      split
      · split <;> omega
      -- Whoever waits for the tool with something in hand holds an upstream, hence the holder does.
      · next h =>
        rw [if_pos (any_upstream.2 (hupstream' h))]
        omega
    | upstream u =>
      simp only [rank]
      split
      · omega
      · next h => exact absurd (hupstream' h) hasks'
  | version v =>
    by_cases hupstream : HoldsUpstream (w p).held
    -- With an upstream in hand it waits for the current version of its tool, and whoever holds
    -- that does not wait.
    · exact (not_awaits_current hsound hord hawaits hupstream hheld hawaits' hrow').elim
    · have hrank : rank (w p).held (.version v) = 2 := by
        simp only [rank, if_neg (mt any_upstream.1 hupstream)]
      rw [hrank]
      cases row' with
      | operation o' => exact absurd hasks' hne
      | binding b => exact absurd hrow' (not_awaits_binding hsound hawaits')
      | tool t =>
        simp only [rank, if_neg hne]
        split <;> omega
      | upstream u => exact (by decide : 2 < 4)
      | version v' =>
        obtain ⟨h, -⟩ | ⟨h, -⟩ := hasks'
        · exact absurd ⟨v, hheld⟩ h
        · simp only [rank, if_pos (any_upstream.2 h)]
          omega
  | upstream u =>
    -- The holder has an upstream, which leaves it tools and versions to wait for.
    have hupstream : HoldsUpstream (w q).held := ⟨u, hheld⟩
    cases row' with
    | operation o' => exact absurd hasks' hne
    | binding b => exact absurd hrow' (not_awaits_binding hsound hawaits')
    | tool t =>
      obtain ⟨-, h | ⟨-, h⟩ | ⟨-, h, -⟩⟩ := hasks'
      · exact absurd h hne
      · simp only [rank, if_neg hne, if_neg (mt any_version.1 h)]
        omega
      · exact absurd hupstream h
    | version v =>
      simp only [rank, if_pos (any_upstream.2 hupstream)]
      omega
    | upstream u' => exact absurd hupstream hasks'

end

end LockOrder

section Runs

variable [Sha256] {Pid : Type} [DecidableEq Pid]

/-- No transactions wait for one another in a circle, if nobody ever waits against the order. -/
theorem lock_order_safe (refs : References) (commands : Pid → CatalogTransaction)
    (c : CatalogTables) {w : Lockers CatalogTables CatalogRow Exc Pid fun p => (commands p).Result}
    (hrun : ReflTransGen
      (fun w w' => Lockers.Step refs.Later w w' ∧ LockOrder.Orderly refs commands w')
      (fun p => Locker.start c (commands p).program) w) : ¬ w.Deadlocked := by
  -- The run keeps the discipline by itself, and the order by hypothesis.
  have hsound : Lockers.Sound refs.Later (fun p => (commands p).discipline refs) w ∧
      LockOrder.Orderly refs commands w := by
    induction hrun with
    | refl =>
      exact ⟨Lockers.sound_start fun p => (commands p).follows refs c, ⟨nofun, nofun⟩⟩
    | tail _ hstep ih => exact ⟨ih.1.step hstep.1, hstep.2⟩
  obtain ⟨hsound, hord⟩ := hsound
  apply Lockers.not_deadlocked_of_rank fun p =>
    ((w p).awaits.map (LockOrder.rank (w p).held)).getD 0
  rintro p q r ⟨row, hawaits, hheld⟩ ⟨row', hawaits', hheld'⟩
  rw [hawaits, hawaits']
  exact LockOrder.rank_lt hsound hord hawaits hheld hawaits' hheld'

end Runs

section Contention

attribute [local instance] zeroSha256 asciiUnicode

/-- The operation of the document is imported and reviewed, and imported again. -/
def contendedCommands : Fin 3 → CatalogCommand
  | 0 => .importOpenApi orderImport
    { context := adminContext, upstreamServiceId := "upstream-1", sourceRef := "orders.json" }
  | 1 => .reviewImportedOperation ⟨"tool-1", "version-1", "binding-1", 3, 3⟩
    { context := adminContext, operationId := "operation-0", owner := "team" }
  | 2 => .importOpenApi
    { orderImport with jobId := "job-2", operationId := fun i => "again-" ++ toString i }
    { context := adminContext, upstreamServiceId := "upstream-1", sourceRef := "orders.json" }

def contendedCatalog : CatalogTables :=
  ((catalogWorld contendedCommands registeredCatalog).runInOrder (List.finRange 3)).store

/-- The references of its version and its binding. -/
def contendedReferences : References where
  toolOf _ := "tool-1"
  versionOf _ := "version-1"
  upstreamOf _ := "upstream-1"

theorem contendedReferences_later :
    contendedReferences.Later contendedCatalog contendedCatalog where
  agree := ⟨by decide +kernel, by decide +kernel, by decide +kernel⟩
  kept v hv := ⟨v, hv, rfl, rfl⟩

def publishContended : CatalogTransaction :=
  .publishTool 5 ⟨adminContext, "tool-1", "version-1", "digest", "digest"⟩

/-- Two publications of one version: the second waits for the tool. -/
theorem lock_order_safe_twice :
    (Lockers.asks contendedCatalog (fun _ => publishContended.program) [false, true]
        true).awaits = some (.tool "tool-1") ∧
      ¬ (Lockers.asks contendedCatalog (fun _ : Bool => publishContended.program)
        [false, true]).Deadlocked := by
  refine ⟨by decide +kernel, lock_order_safe contendedReferences (fun _ => publishContended)
    contendedCatalog (Lockers.reaches_asks contendedReferences_later _ _ ?_)⟩
  intro schedule hschedule
  -- The order holds at each of the three points that the run goes through.
  have hparts : schedule ∈ [[], [false], [false, true]] := (List.mem_inits _ _).2 hschedule
  have hstate (schedule : List Bool) (h : schedule ∈ [[], [false], [false, true]]) :
      ((Lockers.asks contendedCatalog (fun _ => publishContended.program) schedule) false).awaits =
          none ∧
        ((Lockers.asks contendedCatalog (fun _ => publishContended.program) schedule) true).held =
          [] := by
    revert schedule
    decide +kernel
  obtain ⟨hawaits, hheld⟩ := hstate schedule hparts
  constructor
  · intro p q id hp hq hpublishes
    cases p with
    | false =>
      rw [hawaits] at hp
      cases hp
    | true =>
      rw [hheld]
      exact ⟨nofun, nofun⟩
  · intro p id hp
    cases p with
    | false =>
      rw [hawaits] at hp
      cases hp
    | true =>
      rw [hheld]
      exact nofun

def reviewContended : CatalogTransaction :=
  .reviewImportedOperation ⟨"tool-2", "version-2", "binding-2", 6, 6⟩
    { context := adminContext, operationId := "again-0", owner := "team" }

/-- The publication locks the tool and waits for the upstream, and the review of the second
    operation has locked the upstream and waits for the tool. -/
theorem review_waits_for_publication :
    ¬ ∀ (refs : References) (commands : Bool → CatalogTransaction) (c : CatalogTables)
      (w : Lockers CatalogTables CatalogRow Exc Bool fun p => (commands p).Result),
      ReflTransGen (Lockers.Step refs.Later) (fun p => Locker.start c (commands p).program) w →
      ¬ w.Deadlocked := by
  intro h
  let commands : Bool → CatalogTransaction := fun p => cond p reviewContended publishContended
  let schedule := [false, false, false, true, true, false, true]
  let w := Lockers.asks contendedCatalog (fun p => (commands p).program) schedule
  have hrun : ReflTransGen (fun w w' => Lockers.Step contendedReferences.Later w w' ∧ True)
      (fun p => Locker.start contendedCatalog (commands p).program) w :=
    Lockers.reaches_asks contendedReferences_later (fun _ => True) schedule fun _ _ => trivial
  have hpublication : (w false).awaits = some (.upstream "upstream-1") ∧
      .tool "tool-1" ∈ (w false).held := by
    decide +kernel
  have hreview : (w true).awaits = some (.tool "tool-1") ∧
      .upstream "upstream-1" ∈ (w true).held := by
    decide +kernel
  refine h contendedReferences commands contendedCatalog w
    (ReflTransGen.mono (fun _ _ => And.left) _ _ hrun) ⟨false, ?_⟩
  -- Each waits for what the other holds.
  have hto : w.WaitsFor false true := ⟨_, hpublication.1, hreview.2⟩
  have hback : w.WaitsFor true false := ⟨_, hreview.1, hpublication.2⟩
  exact .tail (.single hto) hback

end Contention

end NexusMcp

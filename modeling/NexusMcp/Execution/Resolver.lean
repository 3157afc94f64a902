-- SUMMARY: The resolution of a canonical name to the published tool that a call executes.
import NexusMcp.Catalog.Tables
import NexusMcp.Execution.CallTool

/-! # Resolving Executable Tools -/

namespace NexusMcp

/-! ## The query -/

/-- The condition of the join on a tool, a version, a binding and an upstream. -/
def ExecutableJoin (tenantId : Id) (canonicalName : String) (tool : Tool) (version : ToolVersion)
    (binding : ToolBinding) (upstream : UpstreamService) : Prop :=
  CatalogTables.PublishedJoin tenantId tool version binding ∧
    tool.val.canonicalName = canonicalName ∧
    upstream.val.id = binding.val.upstreamServiceId ∧ upstream.val.tenantId = tenantId ∧
    upstream.val.status = .active

instance (tenantId : Id) (canonicalName : String) (tool : Tool) (version : ToolVersion)
    (binding : ToolBinding) (upstream : UpstreamService) :
    Decidable (ExecutableJoin tenantId canonicalName tool version binding upstream) :=
  inferInstanceAs (Decidable (_ ∧ _))

/-- The tool that a row of the join describes. -/
def resolvedFromModels (tenantId : Id) (tool : Tool) (version : ToolVersion)
    (binding : ToolBinding) (upstream : UpstreamService) : ResolvedExecutableTool where
  tenantId := tenantId
  toolId := tool.val.id
  toolVersionId := version.val.id
  toolBindingId := binding.val.id
  upstreamServiceId := upstream.val.id
  canonicalName := tool.val.canonicalName
  version := version.val.version
  inputSchema := version.val.inputSchema
  outputSchema := version.val.outputSchema
  sideEffect := version.val.sideEffect
  visibility := version.val.visibility
  bindingType := binding.val.bindingType
  bindingConfig := binding.val.bindingConfig
  upstreamEndpoint := upstream.val.endpoint
  upstreamAuthScheme := upstream.val.authScheme

namespace CatalogTables

/-- The rows of the join. -/
def executableRows (c : CatalogTables) (tenantId : Id) (canonicalName : String) :
    List ResolvedExecutableTool :=
  c.tools.rows.flatMap fun tool => c.versions.rows.flatMap fun version =>
    c.bindings.rows.flatMap fun binding => c.upstreams.rows.flatMap fun upstream =>
      if ExecutableJoin tenantId canonicalName tool version binding upstream then
        [resolvedFromModels tenantId tool version binding upstream]
      else []

/-- `SqlAlchemyExecutableToolResolver.resolve`: `one_or_none` of the rows. -/
def resolve (c : CatalogTables) (tenantId : Id) (canonicalName : String) :
    Except Exc (Option ResolvedExecutableTool) :=
  match c.executableRows tenantId canonicalName with
  | [] => .ok none
  | [row] => .ok (some row)
  | _ => .error (.other "MultipleResultsFound")

/-! ## At most one row -/

theorem length_flatMap_le_one {α β : Type} {l : List α} {f : α → List β}
    (hone : ∀ a ∈ l, (f a).length ≤ 1) (hpair : l.Pairwise fun a b => f a = [] ∨ f b = []) :
    (l.flatMap f).length ≤ 1 := by
  induction l with
  | nil => simp
  | cons a l ih =>
    rw [List.pairwise_cons] at hpair
    rw [List.forall_mem_cons] at hone
    rw [List.flatMap_cons, List.length_append]
    by_cases ha : f a = []
    · rw [ha, List.length_nil, Nat.zero_add]
      exact ih hone.2 hpair.2
    · have hrest : l.flatMap f = [] := by
        rw [List.flatMap_eq_nil_iff]
        intro b hb
        exact (hpair.1 b hb).resolve_left ha
      rw [hrest, List.length_nil, Nat.add_zero]
      exact hone.1

/-- A join with a table has at most one row where only one row of the table contributes. -/
theorem length_flatMap_table {κ ν β : Type} {key : ν → κ} {t : Txn.Table key} {f : ν → List β}
    (hone : ∀ v ∈ t, (f v).length ≤ 1)
    (hunique : ∀ v ∈ t, ∀ w ∈ t, f v ≠ [] → f w ≠ [] → v = w) :
    (t.rows.flatMap f).length ≤ 1 := by
  apply length_flatMap_le_one hone
  apply (pairwise_of_table t).imp_of_mem
  intro v w hv hw hne
  by_contra hboth
  rw [not_or] at hboth
  have heq := hunique v hv w hw hboth.1 hboth.2
  exact hne (by rw [heq])

variable {c : CatalogTables} {tenantId : Id} {canonicalName : String}

theorem executableRows_length (c : CatalogTables) (tenantId : Id) (canonicalName : String) :
    (c.executableRows tenantId canonicalName).length ≤ 1 := by
  unfold executableRows
  apply length_flatMap_table
  · intro tool _
    apply length_flatMap_table
    · intro version _
      apply length_flatMap_table
      · intro binding _
        apply length_flatMap_table
        · intro upstream _
          split_ifs <;> simp
        · -- an upstream by its identifier
          intro u hu u' hu' h h'
          simp only [ne_eq, ite_eq_right_iff, List.cons_ne_nil, imp_false, not_not] at h h'
          exact Txn.Table.eq_of_key_eq hu hu' (h.2.2.1.trans h'.2.2.1.symm)
      · -- a binding by its version
        intro b hb b' hb' h h'
        simp only [ne_eq, List.flatMap_eq_nil_iff, not_forall, ite_eq_right_iff,
          List.cons_ne_nil, imp_false, not_not] at h h'
        obtain ⟨_, _, ⟨_, hversion, _⟩, _⟩ := h
        obtain ⟨_, _, ⟨_, hversion', _⟩, _⟩ := h'
        exact c.binding_eq_of_version hb hb' (hversion.trans hversion'.symm)
    · -- a published version by its tool
      intro v hv v' hv' h h'
      simp only [ne_eq, List.flatMap_eq_nil_iff, not_forall, ite_eq_right_iff,
        List.cons_ne_nil, imp_false, not_not] at h h'
      obtain ⟨_, _, _, _, ⟨htool, _, _, _, _, _, hstatus, _⟩, _⟩ := h
      obtain ⟨_, _, _, _, ⟨htool', _, _, _, _, _, hstatus', _⟩, _⟩ := h'
      exact c.version_eq_of_published hv hv' hstatus hstatus' (htool.trans htool'.symm)
  · -- a tool by its name
    intro t ht t' ht' h h'
    simp only [ne_eq, List.flatMap_eq_nil_iff, not_forall, ite_eq_right_iff,
      List.cons_ne_nil, imp_false, not_not] at h h'
    obtain ⟨_, _, _, _, _, _, ⟨_, _, htenant, _⟩, hname, _⟩ := h
    obtain ⟨_, _, _, _, _, _, ⟨_, _, htenant', _⟩, hname', _⟩ := h'
    exact c.tool_eq_of_name ht ht' (htenant.trans htenant'.symm) (hname.trans hname'.symm)

theorem mem_executableRows {row : ResolvedExecutableTool} :
    row ∈ c.executableRows tenantId canonicalName ↔
      ∃ tool ∈ c.tools, ∃ version ∈ c.versions, ∃ binding ∈ c.bindings, ∃ upstream ∈ c.upstreams,
        ExecutableJoin tenantId canonicalName tool version binding upstream ∧
          row = resolvedFromModels tenantId tool version binding upstream := by
  simp only [executableRows, List.mem_flatMap, Txn.Table.mem_rows]
  constructor
  · rintro ⟨tool, ht, version, hv, binding, hb, upstream, hu, hrow⟩
    split_ifs at hrow with hjoin
    · exact ⟨tool, ht, version, hv, binding, hb, upstream, hu, hjoin, List.mem_singleton.1 hrow⟩
    · cases hrow
  · rintro ⟨tool, ht, version, hv, binding, hb, upstream, hu, hjoin, rfl⟩
    refine ⟨tool, ht, version, hv, binding, hb, upstream, hu, ?_⟩
    rw [if_pos hjoin]
    exact List.mem_singleton_self _

/-- The resolver never sees more than one row: it finds the one there is, or none. -/
theorem resolve_eq_some {row : ResolvedExecutableTool} :
    c.resolve tenantId canonicalName = .ok (some row) ↔
      row ∈ c.executableRows tenantId canonicalName := by
  have hlength := c.executableRows_length tenantId canonicalName
  unfold resolve
  match hrows : c.executableRows tenantId canonicalName with
  | [] => simp
  | [_] => simp [eq_comm]
  | _ :: _ :: _ => simp [hrows] at hlength

end CatalogTables

end NexusMcp

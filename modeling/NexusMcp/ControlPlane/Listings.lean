-- SUMMARY: What the control plane lists of the tools, in every state that the commands commit.
import NexusMcp.ControlPlane.Queries
import NexusMcp.Net.UrlForm
import NexusMcp.Registry.Runs

/-!
# Listings of the Tools

The joins of the statements meet one row in each table, since the commands keep the tables
coherent. So a tool is listed once, as its latest version with the binding and the upstream
of that.
-/

namespace NexusMcp

open Net (Unicode Text replaceAll replaceAll_singleton)
open Relation (ReflTransGen)
open Select (Pages mem_join mem_leftJoin_some mem_leftJoin_none mem_groupMax)
open Txn (Serial SerialWorld Table)

/-! ## The text that is searched for -/

theorem escapeLike_eq {value : Text} : escapeLike value = likeMarks.escaped value := by
  simp only [escapeLike, Like.Marks.escaped]
  have hpercent : "%".toList = ['%'] := rfl
  have hunderscore : "_".toList = ['_'] := rfl
  have hbackslash : "\\".toList = ['\\'] := rfl
  rw [hpercent, hunderscore, hbackslash, replaceAll_singleton, replaceAll_singleton,
    replaceAll_singleton, List.flatMap_assoc, List.flatMap_assoc]
  -- One replacement after the other, on a text of one character.
  refine List.flatMap_congr fun c _ => ?_
  simp only [Like.Marks.IsMark, likeMarks]
  by_cases hb : c = '\\'
  · subst hb
    rfl
  · by_cases hp : c = '%'
    · subst hp
      rfl
    · by_cases hu : c = '_'
      · subst hu
        rfl
      · simp [hb, hp, hu]

/-- The query is looked for as it stands, up to case. -/
theorem ilike_likePattern [CaseFold] {query text : Text} : ilike (likePattern query) text ↔
    query.map CaseFold.fold <:+: text.map CaseFold.fold := by
  have h := Like.Marks.like_containing CaseFold.keeps query text
  have hpattern : likePattern query =
      likeMarks.many :: (likeMarks.escaped query ++ [likeMarks.many]) := by
    rw [likePattern, escapeLike_eq]
    rfl
  rw [ilike, hpattern, h, Option.some_inj, decide_eq_true_eq]

section Accepting

variable [CaseFold]

/-- The query is blank, or it stands in one of the texts of the row, up to case. -/
def ToolRow.Contains (row : ToolRow) (query : String) : Prop :=
  strip query = "" ∨ ∃ text ∈ row.searched,
    (strip query).toList.map CaseFold.fold <:+: text.map CaseFold.fold

/-- The row is one that the filter asks for. -/
structure ToolFilter.Accepts (filter : ToolFilter) (row : ToolRow) : Prop where
  query : ∀ query ∈ filter.query, row.Contains query
  fields : ({ filter with query := none } : ToolFilter).Passes row

theorem ToolFilter.passes_iff {filter : ToolFilter} {row : ToolRow} :
    filter.Passes row ↔ filter.Accepts row := by
  simp only [Passes, ilike_likePattern]
  constructor
  · rintro ⟨hquery, hfields⟩
    refine ⟨hquery, And.intro ?_ hfields⟩
    intro query hnone
    cases hnone
  · rintro ⟨hquery, -, hfields⟩
    exact ⟨hquery, hfields⟩

end Accepting

/-! ## Every tool has a version -/

namespace CatalogTables

def Versioned (c : CatalogTables) : Prop :=
  ∀ t ∈ c.tools, ∃ v ∈ c.versions, v.val.toolId = t.val.id

variable {c c' : CatalogTables}

theorem Versioned.same (hversioned : c.Versioned) (h : SameIdentities c c') : c'.Versioned := by
  intro t ht
  obtain ⟨t₀, ht₀, htt⟩ := exists_of_map_eq h.tools ht
  obtain ⟨v₀, hv₀, htool⟩ := hversioned t₀ ht₀
  obtain ⟨v, hv, hvv⟩ := exists_of_map_eq h.versions.symm hv₀
  refine ⟨v, hv, ?_⟩
  rw [(ToolVersion.id_of_identity hvv).2.2.1, htool, (Tool.id_of_identity htt).1]

variable [Sha256]

theorem Versioned.effect (hversioned : c.Versioned) (h : CatalogEffect c c') : c'.Versioned := by
  cases h with
  | quiet h =>
    intro t ht
    rw [h.tools] at ht
    rw [h.versions]
    exact hversioned t ht
  | drafting h =>
    obtain ⟨-, -, hnew⟩ := h.mem_tools
    intro t ht
    rcases hnew t ht with ht | ⟨rfl, -, -⟩
    · obtain ⟨v, hv, htool⟩ := hversioned t ht
      exact ⟨v, h.mem_versions.2 (.inl hv), htool⟩
    · exact ⟨_, h.mem_versions.2 (.inr rfl), h.drafts.versionTool⟩
  -- The submitted version is replaced by one of the same identity.
  | @submission v w h =>
    intro t ht
    have htools : c'.tools = c.tools := by rw [h.rows]
    rw [htools] at ht
    obtain ⟨x, hx, htool⟩ := hversioned t ht
    obtain ⟨hid, -, hwtool, -⟩ := ToolVersion.id_of_identity h.identity
    by_cases hkey : x.val.id = v.val.id
    · obtain rfl := Table.eq_of_key_eq hx h.version hkey
      exact ⟨w, h.mem_versions.2 (.inr rfl), hwtool.trans htool⟩
    · exact ⟨x, h.mem_versions.2 (.inl ⟨hx, hkey⟩), htool⟩
  | publication h =>
    obtain ⟨tool', w, hrepublished⟩ := h.republished
    exact hversioned.same hrepublished.same

theorem Versioned.command (hversioned : c.Versioned) {command : CatalogCommand}
    (h : command.Effect c c') : c'.Versioned := by
  have hchain (hchain : ReflTransGen CatalogEffect c c') : c'.Versioned := by
    clear h
    induction hchain with
    | refl => exact hversioned
    | tail _ hlast ih => exact ih.effect hlast
  cases command with
  | disableUpstream command =>
    obtain ⟨upstream, disabled, hdisable⟩ := h
    intro t ht
    have htools : c'.tools = c.tools := by rw [hdisable.rows]
    have hversions : c'.versions = c.versions := by rw [hdisable.rows]
    rw [htools] at ht
    rw [hversions]
    exact hversioned t ht
  | _ => exact hchain h

/-! ## The latest version -/

/-- The version whose number is the number of versions of the tool. -/
structure Latest (c : CatalogTables) (tool : Tool) (version : ToolVersion) : Prop where
  mem : version ∈ c.versions
  toolId : version.val.toolId = tool.val.id
  number : version.val.version = (c.numbersOf tool.val.id).length

omit [Sha256] in
theorem mem_numbersOf {toolId : Id} {n : Nat} :
    n ∈ c.numbersOf toolId ↔ ∃ v ∈ c.versions, v.val.toolId = toolId ∧ v.val.version = n := by
  simp only [numbersOf, List.mem_map, List.mem_filter, decide_eq_true_eq]
  constructor
  · rintro ⟨_, ⟨⟨v, hv, rfl⟩, htool⟩, hn⟩
    exact ⟨v, hv, htool, hn⟩
  · rintro ⟨v, hv, htool, hn⟩
    exact ⟨v.identity, ⟨⟨v, hv, rfl⟩, htool⟩, hn⟩

variable {tool : Tool} {version : ToolVersion}

omit [Sha256] in
theorem Latest.unique {w : ToolVersion} (h : Latest c tool version) (hw : Latest c tool w) :
    version = w :=
  List.inj_on_of_nodup_map c.unique.versionNumbers h.mem hw.mem
    (Prod.ext (h.toolId.trans hw.toolId.symm) (h.number.trans hw.number.symm))

theorem exists_latest (hinv : CatalogInvariant c) {v : ToolVersion} (hv : v ∈ c.versions)
    (hid : v.val.toolId = tool.val.id) : ∃ version, Latest c tool version := by
  have hperm := hinv.numbered tool.val.id
  have hpos : v.val.version ∈ List.range' 1 (c.numbersOf tool.val.id).length :=
    hperm.mem_iff.1 (mem_numbersOf.2 ⟨v, hv, hid, rfl⟩)
  rw [List.mem_range'_1] at hpos
  have hlast : (c.numbersOf tool.val.id).length ∈ c.numbersOf tool.val.id := by
    rw [hperm.mem_iff, List.mem_range'_1]
    omega
  obtain ⟨w, hw, hwid, hnumber⟩ := mem_numbersOf.1 hlast
  exact ⟨w, hw, hwid, hnumber⟩

theorem le_of_numbered (hinv : CatalogInvariant c) {v : ToolVersion} (hv : v ∈ c.versions) :
    v.val.version ≤ (c.numbersOf v.val.toolId).length := by
  have hmem : v.val.version ∈ List.range' 1 (c.numbersOf v.val.toolId).length :=
    (hinv.numbered v.val.toolId).mem_iff.1 (mem_numbersOf.2 ⟨v, hv, rfl, rfl⟩)
  rw [List.mem_range'_1] at hmem
  omega

/-- The versions of a tool are in its tenant. -/
theorem tenant_of_toolId (hinv : CatalogInvariant c) {v : ToolVersion} (htool : tool ∈ c.tools)
    (hv : v ∈ c.versions) (hid : v.val.toolId = tool.val.id) :
    v.val.tenantId = tool.val.tenantId := by
  obtain ⟨t, ht, htid, htenant⟩ := hinv.tooled v hv
  rw [← htenant, Table.eq_of_key_eq ht htool (htid.trans hid)]

theorem mem_latestRows (hinv : CatalogInvariant c) (htool : tool ∈ c.tools) {latest : Id × Nat} :
    ((tool, latest), version) ∈ c.latestRows tool.val.tenantId ↔
      Latest c tool version ∧ latest = (tool.val.id, version.val.version) := by
  obtain ⟨toolId, number⟩ := latest
  simp only [latestRows, mem_join, latestVersions, mem_groupMax, List.mem_filter,
    decide_eq_true_eq, Prod.mk.injEq]
  constructor
  · rintro ⟨⟨-, ⟨-, hmax⟩, rfl⟩, hv, hvtool, rfl⟩
    -- the highest number that the tenant sees is the highest of the tool
    have hle := le_of_numbered hinv hv
    rw [hvtool] at hle
    obtain ⟨last, hlast⟩ := exists_latest hinv hv hvtool
    have hge := hmax last ⟨hlast.mem, tenant_of_toolId hinv htool hlast.mem hlast.toolId⟩
      hlast.toolId
    rw [hlast.number] at hge
    exact ⟨⟨hv, hvtool, Nat.le_antisymm hle hge⟩, rfl, rfl⟩
  · rintro ⟨hlatest, rfl, rfl⟩
    refine ⟨⟨htool, ⟨⟨version, ⟨hlatest.mem, tenant_of_toolId hinv htool hlatest.mem
      hlatest.toolId⟩, hlatest.toolId, rfl⟩, ?_⟩, rfl⟩, hlatest.mem, hlatest.toolId, rfl⟩
    rintro v ⟨hv, -⟩ hid
    rw [hlatest.number, ← hid]
    exact le_of_numbered hinv hv

/-! ## The rows of the joins -/

/-- The binding is that of the version, and the upstream that of the binding. -/
structure Bound (c : CatalogTables) (version : ToolVersion) (binding : ToolBinding)
    (upstream : UpstreamService) : Prop where
  bindingMem : binding ∈ c.bindings
  toolVersionId : binding.val.toolVersionId = version.val.id
  upstreamMem : upstream ∈ c.upstreams
  upstreamServiceId : upstream.val.id = binding.val.upstreamServiceId

/-- A tool of the tenant as its latest version, with the binding and the upstream of that. -/
structure Shown (c : CatalogTables) (tenantId : Id) (row : ToolRow) : Prop where
  tool : row.tool ∈ c.tools
  tenantId : row.tool.val.tenantId = tenantId
  latest : Latest c row.tool row.version
  bound : ∃ binding upstream, Bound c row.version binding upstream ∧
    row.binding = some binding ∧ row.upstream = some upstream

theorem exists_bound (hinv : CatalogInvariant c) (hversion : version ∈ c.versions) :
    ∃ binding upstream, Bound c version binding upstream ∧
      binding.val.tenantId = version.val.tenantId ∧
      upstream.val.tenantId = version.val.tenantId := by
  obtain ⟨b, hb, hid, htenant, -⟩ := hinv.paired version hversion
  obtain ⟨u, hu, huid, hutenant⟩ := hinv.upstreamed b hb
  exact ⟨b, u, ⟨hb, hid, hu, huid⟩, htenant, hutenant.trans htenant⟩

omit [Sha256] in
theorem Bound.unique {binding binding' : ToolBinding} {upstream upstream' : UpstreamService}
    (h : Bound c version binding upstream) (h' : Bound c version binding' upstream') :
    binding = binding' ∧ upstream = upstream' := by
  obtain rfl := c.binding_eq_of_version h.bindingMem h'.bindingMem
    (h.toolVersionId.trans h'.toolVersionId.symm)
  exact ⟨rfl, Table.eq_of_key_eq h.upstreamMem h'.upstreamMem
    (h.upstreamServiceId.trans h'.upstreamServiceId.symm)⟩

omit [Sha256] in
theorem fst_of_mem_boundRows {tenantId : Id} {row : (Tool × (Id × Nat)) × ToolVersion}
    {binding : Option ToolBinding} {upstream : Option UpstreamService}
    (h : ((row, binding), upstream) ∈ c.boundRows tenantId) : row ∈ c.latestRows tenantId := by
  have hbinding : ∀ x, (x, upstream) ∈ c.boundRows tenantId →
      x ∈ Select.leftJoin (fun row binding => binding.val.tenantId = tenantId ∧
        binding.val.toolVersionId = row.2.val.id) (c.latestRows tenantId) c.bindings.rows := by
    intro x hx
    cases upstream with
    | none => exact (mem_leftJoin_none.1 hx).1
    | some u => exact (mem_leftJoin_some.1 hx).1
  have hmem := hbinding _ h
  cases binding with
  | none => exact (mem_leftJoin_none.1 hmem).1
  | some b => exact (mem_leftJoin_some.1 hmem).1

omit [Sha256] in
theorem tool_of_mem_latestRows {tenantId : Id} {latest : Id × Nat}
    (h : ((tool, latest), version) ∈ c.latestRows tenantId) : tool ∈ c.tools :=
  (mem_join.1 (mem_join.1 h).1).1

/-- No row of a version is without its binding or its upstream. -/
theorem mem_boundRows (hinv : CatalogInvariant c) (hversion : version ∈ c.versions)
    {latest : Id × Nat} {binding : Option ToolBinding} {upstream : Option UpstreamService} :
    ((((tool, latest), version), binding), upstream) ∈ c.boundRows version.val.tenantId ↔
      ((tool, latest), version) ∈ c.latestRows version.val.tenantId ∧
        ∃ b u, Bound c version b u ∧ binding = some b ∧ upstream = some u := by
  obtain ⟨b, u, hbound, hbtenant, hutenant⟩ := exists_bound hinv hversion
  constructor
  · intro h
    cases binding with
    -- A missing binding contradicts that each version is paired with one.
    | none =>
      have hunbound : (((tool, latest), version), none) ∈ Select.leftJoin (fun row binding =>
          binding.val.tenantId = version.val.tenantId ∧ binding.val.toolVersionId = row.2.val.id)
          (c.latestRows version.val.tenantId) c.bindings.rows := by
        cases upstream with
        | none => exact (mem_leftJoin_none.1 h).1
        | some u' => exact (mem_leftJoin_some.1 h).1
      exact absurd ⟨hbtenant, hbound.toolVersionId⟩
        ((mem_leftJoin_none.1 hunbound).2 b hbound.bindingMem)
    | some b' =>
      cases upstream with
      -- And a missing upstream that each binding has one.
      | none =>
        obtain ⟨hmem, hnone⟩ := mem_leftJoin_none.1 h
        obtain ⟨-, hb', -, hid⟩ := mem_leftJoin_some.1 hmem
        obtain rfl := c.binding_eq_of_version hb' hbound.bindingMem
          (hid.trans hbound.toolVersionId.symm)
        exact absurd ⟨hutenant, congrArg some hbound.upstreamServiceId.symm⟩
          (hnone u hbound.upstreamMem)
      | some u' =>
        obtain ⟨hmem, hu', -, huid⟩ := mem_leftJoin_some.1 h
        obtain ⟨hlatest, hb', -, hid⟩ := mem_leftJoin_some.1 hmem
        exact ⟨hlatest, b', u', ⟨hb', hid, hu', (Option.some_inj.1 huid).symm⟩, rfl, rfl⟩
  · rintro ⟨hlatest, b', u', hbound', rfl, rfl⟩
    obtain ⟨rfl, rfl⟩ := hbound.unique hbound'
    refine mem_leftJoin_some.2 ⟨?_, hbound.upstreamMem, hutenant,
      congrArg some hbound.upstreamServiceId.symm⟩
    exact mem_leftJoin_some.2 ⟨hlatest, hbound.bindingMem, hbtenant, hbound.toolVersionId⟩

theorem mem_toolRows (hinv : CatalogInvariant c) {tenantId : Id} {row : ToolRow} :
    row ∈ c.toolRows tenantId ∧ row.tool.val.tenantId = tenantId ↔ Shown c tenantId row := by
  obtain ⟨tool, version, binding, upstream⟩ := row
  simp only [toolRows, List.mem_map, ToolRow.mk.injEq]
  constructor
  · rintro ⟨⟨⟨⟨⟨⟨t, latest⟩, v⟩, b⟩, u⟩, hmem, rfl, rfl, rfl, rfl⟩, rfl⟩
    have hlatestRow := fst_of_mem_boundRows hmem
    have htool := tool_of_mem_latestRows hlatestRow
    obtain ⟨hlatest, -⟩ := (mem_latestRows hinv htool).1 hlatestRow
    rw [← tenant_of_toolId hinv htool hlatest.mem hlatest.toolId] at hmem
    exact ⟨htool, rfl, hlatest, ((mem_boundRows hinv hlatest.mem).1 hmem).2⟩
  · rintro ⟨htool, rfl, hlatest, hbound⟩
    dsimp only at htool hlatest hbound ⊢
    refine ⟨⟨((((tool, tool.val.id, version.val.version), version), binding), upstream), ?_, rfl,
      rfl, rfl, rfl⟩, rfl⟩
    rw [← tenant_of_toolId hinv htool hlatest.mem hlatest.toolId]
    refine (mem_boundRows hinv hlatest.mem).2 ⟨?_, hbound⟩
    rw [tenant_of_toolId hinv htool hlatest.mem hlatest.toolId]
    exact (mem_latestRows hinv htool).2 ⟨hlatest, rfl⟩

/-! ## Every tool once -/

section Once

omit [Sha256]

theorem nodup_rows {κ ν : Type} {key : ν → κ} (t : Table key) : t.rows.Nodup :=
  List.Nodup.of_map key t.nodup

theorem latestRows_pairwise (c : CatalogTables) (tenantId : Id) :
    (c.latestRows tenantId).Pairwise fun x y => x.1.1.val.id ≠ y.1.1.val.id := by
  have hnumbered : (Select.join (fun (tool : Tool) (latest : Id × Nat) => latest.1 = tool.val.id)
      c.tools.rows (c.latestVersions tenantId)).Pairwise fun x y => x.1.val.id ≠ y.1.val.id := by
    refine Select.pairwise_join (pairwise_of_table c.tools) Select.nodup_groupMax ?_
    rintro tool - ⟨k, m⟩ hm ⟨k', m'⟩ hm' rfl hkey
    cases hkey
    rw [Select.groupMax_unique hm hm']
  refine Select.pairwise_join hnumbered (nodup_rows c.versions) ?_
  rintro row - v hv w hw ⟨hvtool, hvnumber⟩ ⟨hwtool, hwnumber⟩
  exact List.inj_on_of_nodup_map c.unique.versionNumbers hv hw
    (Prod.ext (hvtool.trans hwtool.symm) (hvnumber.trans hwnumber.symm))

theorem toolRows_pairwise (c : CatalogTables) (tenantId : Id) :
    (c.toolRows tenantId).Pairwise fun x y => x.tool.val.id ≠ y.tool.val.id := by
  rw [toolRows, List.pairwise_map, boundRows]
  have hbound := Select.pairwise_leftJoin (c.latestRows_pairwise tenantId) (nodup_rows c.bindings)
    fun row _ b hb d hd (hbrow : b.val.tenantId = tenantId ∧ b.val.toolVersionId = row.2.val.id)
      hdrow => c.binding_eq_of_version hb hd (hbrow.2.trans hdrow.2.symm)
  refine Select.pairwise_leftJoin hbound (nodup_rows c.upstreams) ?_
  rintro row - u hu u' hu' ⟨-, hrow⟩ ⟨-, hrow'⟩
  exact Table.eq_of_key_eq hu hu' (Option.some_inj.1 (hrow.symm.trans hrow'))

end Once

/-! ## What is listed -/

section Listings

variable [CaseFold] [Collation] {tenantId : Id} {filter : ToolFilter}

/-- The rows that a listing of the tools of a tenant shows, page after page. -/
structure Lists (c : CatalogTables) (tenantId : Id) (filter : ToolFilter) (rows : List ToolRow) :
    Prop where
  sorted : rows.Pairwise fun x y => nameBefore x y ∧
    x.tool.val.canonicalName ≠ y.tool.val.canonicalName
  mem : ∀ row, row ∈ rows ↔ Shown c tenantId row ∧ filter.Accepts row
  pages : ∀ counted, Pages (fun offset limit =>
    (listTools counted c tenantId offset limit filter).items) (rows.map toolSummary)
  total : ∀ read offset limit,
    (listTools c read tenantId offset limit filter).total = rows.length

omit [Sha256] in
theorem mem_toolStatement {row : ToolRow} : row ∈ c.toolStatement tenantId filter ↔
    (row ∈ c.toolRows tenantId ∧ row.tool.val.tenantId = tenantId) ∧ filter.Accepts row := by
  rw [toolStatement, List.mem_insertionSort, List.mem_filter, decide_eq_true_eq,
    ToolFilter.passes_iff, and_assoc]

theorem lists_toolStatement (hinv : CatalogInvariant c) (tenantId : Id) (filter : ToolFilter) :
    Lists c tenantId filter (c.toolStatement tenantId filter) where
  sorted := by
    have hnames : ((c.toolRows tenantId).filter fun row =>
        row.tool.val.tenantId = tenantId ∧ filter.Passes row).Pairwise fun x y =>
        x.tool.val.canonicalName ≠ y.tool.val.canonicalName := by
      rw [List.pairwise_filter]
      apply (c.toolRows_pairwise tenantId).imp_of_mem
      intro x y hx hy hne hxt hyt hname
      rw [decide_eq_true_eq] at hxt hyt
      have hx := (mem_toolRows hinv).1 ⟨hx, hxt.1⟩
      have hy := (mem_toolRows hinv).1 ⟨hy, hyt.1⟩
      have heq := c.tool_eq_of_name hx.tool hy.tool (hx.tenantId.trans hy.tenantId.symm) hname
      exact hne (congrArg (·.val.id) heq)
    exact Select.pairwise_sorted (fun _ _ => Collation.total _ _)
      (fun _ _ _ => Collation.trans _ _ _) hnames
  mem row := by rw [mem_toolStatement, mem_toolRows hinv]
  pages _ := Select.pages_page.map toolSummary
  total _ _ _ := rfl

/-- The versions of a tool, page after page, the latest first. -/
structure History (c : CatalogTables) (tenantId : Id) (row : ToolRow)
    (versions : List ToolVersion) : Prop where
  mem : ∀ v, v ∈ versions ↔ v ∈ c.versions ∧ v.val.toolId = row.tool.val.id
  numbers : versions.map (·.val.version) = (List.range' 1 row.version.val.version).reverse
  latest : versions.head? = some row.version
  pages : ∀ counted, Pages (fun offset limit =>
    (listToolVersions counted c tenantId row.tool.val.id offset limit).items)
    (versions.map versionDetail)

section Versions

omit [CaseFold] [Collation]

variable {row : ToolRow}

theorem mem_toolVersionStatement (hinv : CatalogInvariant c) (hrow : Shown c tenantId row)
    {v : ToolVersion} : v ∈ c.toolVersionStatement tenantId row.tool.val.id ↔
      v ∈ c.versions ∧ v.val.toolId = row.tool.val.id := by
  rw [toolVersionStatement, List.mem_insertionSort, List.mem_filter, decide_eq_true_eq]
  constructor
  · rintro ⟨hv, -, hid⟩
    exact ⟨hv, hid⟩
  · rintro ⟨hv, hid⟩
    exact ⟨hv, (tenant_of_toolId hinv hrow.tool hv hid).trans hrow.tenantId, hid⟩

theorem numbers_toolVersionStatement (hinv : CatalogInvariant c) (hrow : Shown c tenantId row) :
    (c.toolVersionStatement tenantId row.tool.val.id).map (·.val.version) =
      (List.range' 1 row.version.val.version).reverse := by
  -- The numbers are 1 to n in some order, and sorting them leaves one order only.
  have hperm : ((c.toolVersionStatement tenantId row.tool.val.id).map (·.val.version)).Perm
      (List.range' 1 row.version.val.version).reverse := by
    rw [hrow.latest.number]
    refine (List.Perm.map _ (List.perm_insertionSort _ _)).trans ?_
    refine List.Perm.trans ?_ ((hinv.numbered row.tool.val.id).trans (List.reverse_perm _).symm)
    rw [← versionNumbers_eq fun v hv hid =>
      (tenant_of_toolId hinv hrow.tool hv hid).trans hrow.tenantId]
    exact List.Perm.refl _
  refine hperm.eq_of_pairwise (fun _ _ _ _ hle hge => Nat.le_antisymm hge hle) ?_ ?_
  · rw [List.pairwise_map]
    exact List.pairwise_insertionSort _ _
  · rw [List.pairwise_reverse]
    exact List.pairwise_le_range' 1

theorem head_toolVersionStatement (hinv : CatalogInvariant c) (hrow : Shown c tenantId row) :
    (c.toolVersionStatement tenantId row.tool.val.id).head? = some row.version := by
  have hpos : 0 < row.version.val.version := by
    have hmem : row.version.val.version ∈ c.numbersOf row.tool.val.id :=
      mem_numbersOf.2 ⟨row.version, hrow.latest.mem, hrow.latest.toolId, rfl⟩
    have hrange := (hinv.numbered row.tool.val.id).mem_iff.1 hmem
    rw [List.mem_range'_1] at hrange
    exact hrange.1
  have hhead : ((c.toolVersionStatement tenantId row.tool.val.id).map (·.val.version)).head? =
      some row.version.val.version := by
    obtain ⟨n, hn⟩ := Nat.exists_eq_succ_of_ne_zero hpos.ne'
    rw [numbers_toolVersionStatement hinv hrow, hn, List.range'_1_concat, List.reverse_concat,
      List.head?_cons, Nat.add_comm]
  rw [List.head?_map, Option.map_eq_some_iff] at hhead
  obtain ⟨v, hv, hnumber⟩ := hhead
  obtain ⟨hvmem, hvtool⟩ := (mem_toolVersionStatement hinv hrow).1 (List.mem_of_mem_head? hv)
  rw [hv, hrow.latest.unique ⟨hvmem, hvtool, hnumber.trans hrow.latest.number⟩]

theorem history_toolVersionStatement (hinv : CatalogInvariant c) (hrow : Shown c tenantId row) :
    History c tenantId row (c.toolVersionStatement tenantId row.tool.val.id) where
  mem _ := mem_toolVersionStatement hinv hrow
  numbers := numbers_toolVersionStatement hinv hrow
  latest := head_toolVersionStatement hinv hrow
  pages _ := Select.pages_page.map versionDetail

end Versions

omit [CaseFold] [Collation] in
theorem exists_shown (hinv : CatalogInvariant c) {v : ToolVersion} (htool : tool ∈ c.tools)
    (hv : v ∈ c.versions) (hid : v.val.toolId = tool.val.id) :
    ∃ row, Shown c tool.val.tenantId row ∧ row.tool = tool := by
  obtain ⟨version, hlatest⟩ := exists_latest hinv hv hid
  obtain ⟨b, u, hbound, -⟩ := exists_bound hinv hlatest.mem
  exact ⟨⟨tool, version, some b, some u⟩, ⟨htool, rfl, hlatest, b, u, hbound, rfl, rfl⟩, rfl⟩

/-- The versions that the dashboard counts are those of the active tools. -/
theorem publishedToolCount_eq (hinv : CatalogInvariant c) (tenantId : Id) :
    c.publishedToolCount tenantId =
      (c.toolStatement tenantId { status := some .active }).length := by
  have hlists := lists_toolStatement hinv tenantId { status := some .active }
  have hactive : ∀ row : ToolRow, ({ status := some .active } : ToolFilter).Accepts row ↔
      row.tool.val.status = .active := by
    intro row
    rw [← ToolFilter.passes_iff]
    simp [ToolFilter.Passes]
  have hrows : ((c.toolStatement tenantId { status := some .active }).map
      (·.tool.val.id)).Nodup := by
    refine List.pairwise_map.2 (hlists.sorted.imp_of_mem fun {x y} hx hy hxy hid => hxy.2 ?_)
    rw [Table.eq_of_key_eq ((hlists.mem x).1 hx).1.tool ((hlists.mem y).1 hy).1.tool hid]
  have hversions : ((c.versions.rows.filter fun v => decide (v.val.tenantId = tenantId ∧
      v.val.status = .published)).map (·.val.toolId)).Nodup := by
    refine c.unique.onePublished.sublist (List.Sublist.map _ ?_)
    refine List.monotone_filter_right _ fun v hv => ?_
    simp only [decide_eq_true_eq] at hv ⊢
    exact hv.2
  -- A tool is active exactly if one of its versions is published, so counting either is the same.
  have hsame : ((c.versions.rows.filter fun v => decide (v.val.tenantId = tenantId ∧
      v.val.status = .published)).map (·.val.toolId)).Perm
      ((c.toolStatement tenantId { status := some .active }).map (·.tool.val.id)) := by
    rw [List.perm_ext_iff_of_nodup hversions hrows]
    intro id
    simp only [List.mem_map, List.mem_filter, decide_eq_true_eq, hlists.mem, hactive]
    constructor
    · rintro ⟨v, ⟨hv, rfl, hpublished⟩, rfl⟩
      obtain ⟨t, ht, hid, htenant⟩ := hinv.tooled v hv
      obtain ⟨row, hrow, rfl⟩ := exists_shown hinv ht hv hid.symm
      exact ⟨row, ⟨htenant ▸ hrow, (hinv.active _ ht).2 ⟨v, hv, hid.symm, hpublished⟩⟩, hid⟩
    · rintro ⟨row, ⟨hrow, hstatus⟩, rfl⟩
      obtain ⟨v, hv, hid, hpublished⟩ := (hinv.active _ hrow.tool).1 hstatus
      exact ⟨v, ⟨hv, (tenant_of_toolId hinv hrow.tool hv hid).trans hrow.tenantId, hpublished⟩,
        hid⟩
  have hlength := hsame.length_eq
  rwa [List.length_map, List.length_map] at hlength

omit [CaseFold] [Collation] in
/-- The details of a row are found by its identifiers. -/
theorem details_of_shown (hinv : CatalogInvariant c) {row : ToolRow}
    (hrow : Shown c tenantId row) : ∃ binding upstream, Bound c row.version binding upstream ∧
      row.binding = some binding ∧ row.upstream = some upstream ∧
      c.getToolVersionBinding tenantId row.version.val.id = some (bindingDetail binding) ∧
      c.getUpstreamRow tenantId binding.val.upstreamServiceId = some upstream := by
  obtain ⟨b, u, hbound, hb, hu⟩ := hrow.bound
  obtain ⟨b', u', hbound', hbtenant, hutenant⟩ := exists_bound hinv hrow.latest.mem
  obtain ⟨rfl, rfl⟩ := hbound.unique hbound'
  have htenant := (tenant_of_toolId hinv hrow.tool hrow.latest.mem hrow.latest.toolId).trans
    hrow.tenantId
  rw [htenant] at hbtenant hutenant
  refine ⟨b, u, hbound, hb, hu, ?_, ?_⟩
  · have hfound : c.bindings.rows.find? (fun binding => decide (binding.val.tenantId = tenantId ∧
        binding.val.toolVersionId = row.version.val.id)) = some b := by
      refine (find?_eq_some_of_unique fun x hx y hy hxrow hyrow => ?_).2
        ⟨hbound.bindingMem, decide_eq_true ⟨hbtenant, hbound.toolVersionId⟩⟩
      exact c.binding_eq_of_version hx hy
        ((of_decide_eq_true hxrow).2.trans (of_decide_eq_true hyrow).2.symm)
    rw [getToolVersionBinding, hfound, Option.map_some]
  · refine (find?_eq_some_of_unique fun x hx y hy hxrow hyrow => ?_).2
      ⟨hbound.upstreamMem, decide_eq_true ⟨hutenant, hbound.upstreamServiceId⟩⟩
    exact Table.eq_of_key_eq hx hy
      ((of_decide_eq_true hxrow).2.trans (of_decide_eq_true hyrow).2.symm)

/-- What the control plane shows of the tools of a tenant. -/
structure ToolsListed (c : CatalogTables) (tenantId : Id) : Prop where
  listed : ∀ filter, ∃ rows, Lists c tenantId filter rows
  complete : ∀ tool ∈ c.tools, tool.val.tenantId = tenantId →
    ∃ row, Shown c tenantId row ∧ row.tool = tool
  history : ∀ row, Shown c tenantId row → ∃ versions, History c tenantId row versions
  details : ∀ row, Shown c tenantId row → ∃ binding upstream,
    Bound c row.version binding upstream ∧
      row.binding = some binding ∧ row.upstream = some upstream ∧
      c.getToolVersionBinding tenantId row.version.val.id = some (bindingDetail binding) ∧
      c.getUpstreamRow tenantId binding.val.upstreamServiceId = some upstream
  counted : ∀ read offset limit, c.publishedToolCount tenantId =
    (listTools c read tenantId offset limit { status := some .active }).total

theorem toolsListed (hinv : CatalogInvariant c) (hversioned : c.Versioned) (tenantId : Id) :
    ToolsListed c tenantId where
  listed filter := ⟨_, lists_toolStatement hinv tenantId filter⟩
  complete := by
    rintro tool htool rfl
    obtain ⟨v, hv, hid⟩ := hversioned tool htool
    exact exists_shown hinv htool hv hid
  history _ hrow := ⟨_, history_toolVersionStatement hinv hrow⟩
  details _ hrow := details_of_shown hinv hrow
  counted _ _ _ := publishedToolCount_eq hinv tenantId

end Listings

end CatalogTables

/-! ## Every run -/

section Runs

variable [Sha256] [Unicode] {Pid : Type}

/-- What a commit of the command does to the tables. -/
def RegistryCommand.Effect : RegistryCommand → CatalogTables → CatalogTables → Prop
  | registerUpstream _ _ _ => Quiet
  | catalog command => command.Effect

omit [Sha256] [Unicode] in
theorem add_quiet {command : RegisterUpstreamCommand} {id : Id} {u : UpstreamService}
    {c c' : CatalogTables} (h : RegisterUpstream.add command id c = .ok (u, c')) : Quiet c c' := by
  simp only [RegisterUpstream.add, addUpstream, CatalogM.bind_eq_ok, CatalogM.lift_eq_ok,
    requireMatchingTenant_eq_ok, CatalogM.read_eq_ok, CatalogM.raiseIf_eq_ok, update_eq_ok,
    CatalogM.pure_eq_ok] at h
  obtain ⟨upstream, _, ⟨-, rfl⟩, _, _, ⟨_, _, ⟨-, rfl⟩, _, _, htaken, _, _, ⟨rfl, rfl⟩,
    _, _, ⟨hfree, rfl⟩, hrows⟩, -, rfl⟩ := h
  obtain ⟨rfl, -⟩ := sameName_of_getUpstreamByName htaken
  simp only [not_or, Bool.not_eq_true, Option.isSome_eq_false_iff,
    Option.isNone_iff_eq_none] at hfree
  constructor
  · rw [hrows]
  · rw [hrows]
  · rw [hrows]
  · intro u hu
    rw [hrows]
    exact ⟨u, (Table.mem_insert hfree.2).2 (.inl hu), rfl, rfl, rfl⟩
  · intro o ho
    rw [hrows]
    exact ho
  · intro o ho
    rw [hrows] at ho
    exact .inl ho

theorem RegistryCommand.program_commits (command : RegistryCommand) :
    command.program.Commits command.Effect := by
  cases command with
  | registerUpstream endpointPolicy id command =>
    apply Serial.Commits.bind Serial.commits_lift
    intro _
    apply Serial.Commits.atomically_bind
    · intro c _ c' h
      simp only [RegisterUpstream.requireUnused, CatalogM.bind_eq_ok,
        CatalogM.raiseIf_eq_ok] at h
      obtain ⟨_, _, hfound, -, rfl⟩ := h
      obtain ⟨rfl, -⟩ := sameName_of_getUpstreamByName hfound
      exact Quiet.refl _
    · intro _
      exact Serial.commits_atomically.2 fun _ _ _ h => add_quiet h
  | catalog command => exact command.program_commits

/-- The tables are coherent, and every tool has a version. -/
structure Listable (c : CatalogTables) : Prop where
  invariant : CatalogInvariant c
  versioned : c.Versioned

omit [Unicode] in
theorem Listable.command {c c' : CatalogTables} (hlistable : Listable c)
    {command : RegistryCommand} (h : command.Effect c c') : Listable c' := by
  cases command with
  | registerUpstream _ _ _ =>
    exact ⟨hlistable.invariant.quiet h, hlistable.versioned.effect (.quiet h)⟩
  | catalog command => exact ⟨hlistable.invariant.command h, hlistable.versioned.command h⟩

/-- From a catalogue without tools, every run leads to states of which the control plane lists
    each tool once, and all that belongs to it. -/
theorem tools_listed [CaseFold] [Collation] (Fault : Exc → Prop) (commands : Pid → RegistryCommand)
    {c : CatalogTables} (hempty : c.Empty)
    {w : SerialWorld CatalogTables Exc Pid (fun p => (commands p).Result)}
    (hreaches : SerialWorld.Reaches Fault (registryWorld commands c) w) (tenantId : Id) :
    w.store.ToolsListed tenantId := by
  have hwithin := SerialWorld.within_of_reaches (fun p => (commands p).program_commits) hreaches
  -- The rules of the catalogue and a version for each tool: both are kept by every commit.
  have hstart : Listable c := by
    refine ⟨hempty.invariant, fun t ht => ?_⟩
    rw [hempty.tools] at ht
    exact absurd ht Table.not_mem_empty
  obtain ⟨hlistable, -⟩ := hwithin.linked.invariant hstart fun commit hcommit hbefore =>
    hbefore.command (hwithin.commits commit hcommit)
  exact CatalogTables.toolsListed hlistable.invariant hlistable.versioned tenantId

end Runs

section Orders

attribute [local instance] zeroSha256 asciiUnicode

theorem likeMarks_keeps_toLower : likeMarks.Keeps Char.toLower := by
  intro c m hm
  have hmark : Net.isAlpha m = false ∧ m.toLower = m := by
    rcases hm with rfl | rfl | rfl <;> decide
  constructor
  · rintro rfl
    exact (Net.toLower_eq_self hmark.1).symm
  · rintro rfl
    exact hmark.2

@[reducible] def asciiFold : CaseFold := ⟨Char.toLower, likeMarks_keeps_toLower⟩

@[reducible] def codePoints : Collation where
  le a b := decide (a ≤ b)
  total a b := by simpa using le_total a b
  trans a b c := by simpa using le_trans
  antisymm a b := by simpa using le_antisymm

attribute [local instance] asciiFold codePoints

theorem emptyCatalog_empty : emptyCatalog.Empty := ⟨rfl, rfl, rfl, rfl, rfl⟩

theorem tools_listed_orders :
    (CatalogTables.listTools registeredWorld.store registeredWorld.store "tenant-1" 0 50
      { query := some " RS.LI " }).items.map (fun tool =>
        (tool.canonicalName, tool.latestVersion, tool.upstreamName)) =
      [("orders.list", 1, some "Orders")] ∧
    (CatalogTables.listTools registeredWorld.store registeredWorld.store "tenant-1" 0 50
      { query := some "orders_list" }).total = 0 ∧
    registeredWorld.store.ToolsListed "tenant-1" :=
  ⟨by decide +kernel, by decide +kernel, tools_listed (fun _ => False) registryCommands
    emptyCatalog_empty (SerialWorld.reaches_runInOrder (registryWorld registryCommands emptyCatalog)
      [.registered, .imported, .published, .moved]) "tenant-1"⟩

end Orders

end NexusMcp

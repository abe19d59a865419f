/-
The node's default route (`pkg/cloud/aws/aws.go`).

What a subnet sends to the internet is charged for NAT processing if its default route
targets a NAT gateway.  The route table that decides is the one associated with the
subnet, else the main one of the VPC; the provider looks for it in what EC2 lists.

* `NodeRouting.Governs` — the table that decides for a subnet;
* `nodeTable_governs`, `not_governs_of_nodeTable` — the scan finds it, or there is none;
* `nodeRoutesViaNAT_governs` — the answer is that table's, in any order.
-/
import Tollwing.AWSTopology

/-! ### What EC2 lists -/

structure EC2RTAssociation where
  subnetID : String := ""
  main : Bool := false
  deriving DecidableEq

structure EC2Route where
  destinationCidrBlock : String
  gatewayID : String := ""
  natGatewayID : String := ""
  deriving DecidableEq

structure EC2RouteTable where
  routeTableID : String
  vpcID : String
  associations : List EC2RTAssociation
  routes : List EC2Route
  deriving DecidableEq

namespace EC2RouteTable

/-- `routeTableDefaultsToNAT`: the first default route decides. -/
def defaultsToNAT (rt : EC2RouteTable) : Bool :=
  match rt.routes.find? fun r => r.destinationCidrBlock = "0.0.0.0/0" with
  | some r => r.natGatewayID ≠ ""
  | none => false

/-- The table is associated with the subnet. -/
def Explicit (subnetID : String) (rt : EC2RouteTable) : Prop :=
  ∃ assoc ∈ rt.associations, assoc.subnetID = subnetID

/-- The table is a main one. -/
def Main (rt : EC2RouteTable) : Prop := ∃ assoc ∈ rt.associations, assoc.main = true

/-- A default route of the table targets a NAT gateway. -/
def NATDefault (rt : EC2RouteTable) : Prop :=
  ∃ r ∈ rt.routes, r.destinationCidrBlock = "0.0.0.0/0" ∧ r.natGatewayID ≠ ""

instance (subnetID : String) (rt : EC2RouteTable) : Decidable (rt.Explicit subnetID) :=
  inferInstanceAs (Decidable (∃ assoc ∈ rt.associations, assoc.subnetID = subnetID))

instance (rt : EC2RouteTable) : Decidable rt.Main :=
  inferInstanceAs (Decidable (∃ assoc ∈ rt.associations, assoc.main = true))

/-- With one default route, it is that route's target. -/
theorem defaultsToNAT_iff {rt : EC2RouteTable}
    (hone : ∀ r ∈ rt.routes, ∀ r' ∈ rt.routes, r.destinationCidrBlock = "0.0.0.0/0" →
      r'.destinationCidrBlock = "0.0.0.0/0" → r = r') :
    rt.defaultsToNAT = true ↔ rt.NATDefault := by
  rw [defaultsToNAT]
  cases hfind : rt.routes.find? fun r => r.destinationCidrBlock = "0.0.0.0/0" with
  | none =>
    have hnone := List.find?_eq_none.mp hfind
    simp only [decide_eq_true_eq] at hnone
    refine ⟨nofun, ?_⟩
    rintro ⟨r, hr, hdefault, -⟩
    exact absurd hdefault (hnone r hr)
  | some r =>
    have hr := List.mem_of_find?_eq_some hfind
    have hdefault := List.find?_some hfind
    simp only [decide_eq_true_eq] at hdefault
    simp only [decide_eq_true_eq]
    constructor
    · intro hnat
      exact ⟨r, hr, hdefault, hnat⟩
    · rintro ⟨r', hr', hdefault', hnat⟩
      rwa [hone r hr r' hr' hdefault hdefault']

end EC2RouteTable

/-! ### The provider -/

/-- The routing part of the AWS `Provider`: what EC2 lists for a VPC, if a client was set,
the configured node and the answers of the metadata service. -/
structure NodeRouting where
  describeRouteTables : Option (String → Except String (List EC2RouteTable))
  cfgSubnetID : String := ""
  cfgVPCID : String := ""
  cachedVPCID : String := ""
  imdsGet : String → Except String String

namespace NodeRouting

section Lookup

variable (p : NodeRouting)

def primaryMAC : Except String String :=
  match p.imdsGet "/latest/meta-data/mac" with
  | .error err => .error ("imds primary mac: " ++ err)
  | .ok mac => if mac = "" then .error "imds returned an empty primary mac" else .ok mac

def nodeSubnetID : Except String String :=
  if p.cfgSubnetID ≠ "" then .ok p.cfgSubnetID
  else p.primaryMAC.bind fun mac =>
    match p.imdsGet ("/latest/meta-data/network/interfaces/macs/" ++ mac ++ "/subnet-id") with
    | .error err => .error ("imds subnet-id for mac " ++ mac ++ ": " ++ err)
    | .ok subnetID => .ok subnetID

def nodeVPCID : Except String String :=
  if p.cfgVPCID ≠ "" then .ok p.cfgVPCID
  else if p.cachedVPCID ≠ "" then .ok p.cachedVPCID
  else p.primaryMAC.bind fun mac =>
    match p.imdsGet ("/latest/meta-data/network/interfaces/macs/" ++ mac ++ "/vpc-id") with
    | .error err => .error ("imds vpc-id for mac " ++ mac ++ ": " ++ err)
    | .ok vpcID =>
      if vpcID = "" then .error ("imds returned an empty vpc-id for mac " ++ mac) else .ok vpcID

end Lookup

/-- One association: its table decides if it is the subnet's, a main one is kept. -/
def scanAssociation (subnetID : String) (rt : EC2RouteTable) (mainTable : Option EC2RouteTable)
    (assoc : EC2RTAssociation) : Except EC2RouteTable (Option EC2RouteTable) :=
  if assoc.subnetID = subnetID then .error rt
  else .ok (if assoc.main then some rt else mainTable)

/-- One table; another VPC's is skipped. -/
def scanTable (subnetID vpcID : String) (mainTable : Option EC2RouteTable) (rt : EC2RouteTable) :
    Except EC2RouteTable (Option EC2RouteTable) :=
  if rt.vpcID ≠ "" ∧ rt.vpcID ≠ vpcID then .ok mainTable
  else rt.associations.foldlM (scanAssociation subnetID rt) mainTable

/-- The table that the scan ends with. -/
def nodeTable (subnetID vpcID : String) (tables : List EC2RouteTable) : Option EC2RouteTable :=
  match tables.foldlM (scanTable subnetID vpcID) none with
  | .error rt => some rt
  | .ok mainTable => mainTable

/-- `NodeRoutesViaNAT`. -/
def nodeRoutesViaNAT (p : NodeRouting) : Except String Bool :=
  match p.describeRouteTables with
  | none => .error "nat route detection: no EC2 client configured"
  | some describeRouteTables =>
    match p.nodeSubnetID with
    | .error err => .error ("resolve node subnet: " ++ err)
    | .ok subnetID =>
      match p.nodeVPCID with
      | .error err => .error ("resolve node vpc: " ++ err)
      | .ok vpcID =>
        match describeRouteTables vpcID with
        | .error err => .error ("describe route tables: " ++ err)
        | .ok tables => .ok ((nodeTable subnetID vpcID tables).any EC2RouteTable.defaultsToNAT)

/-! ### The scan -/

variable {subnetID vpcID : String} {tables : List EC2RouteTable} {rt : EC2RouteTable}

/-- An explicit association overrides what was kept before it. -/
theorem foldlM_scanAssociation (rt : EC2RouteTable) (assocs : List EC2RTAssociation) :
    ∀ mainTable, assocs.foldlM (scanAssociation subnetID rt) mainTable =
      if ∃ assoc ∈ assocs, assoc.subnetID = subnetID then .error rt
      else .ok (if ∃ assoc ∈ assocs, assoc.main = true then some rt else mainTable) := by
  induction assocs with
  | nil =>
    intro mainTable
    simp [pure, Except.pure]
  | cons assoc assocs ih =>
    intro mainTable
    rw [List.foldlM_cons, scanAssociation]
    by_cases hsubnet : assoc.subnetID = subnetID
    · simp [hsubnet, bind, Except.bind]
    · rw [if_neg hsubnet]
      dsimp only [bind, Except.bind]
      rw [ih]
      by_cases hmain : assoc.main = true
      · simp [hsubnet, hmain]
      · simp [hsubnet, hmain]

theorem scanTable_eq (mainTable : Option EC2RouteTable) (rt : EC2RouteTable) :
    scanTable subnetID vpcID mainTable rt =
      if rt.vpcID ≠ "" ∧ rt.vpcID ≠ vpcID then .ok mainTable
      else if rt.Explicit subnetID then .error rt
      else .ok (if rt.Main then some rt else mainTable) := by
  rw [scanTable, foldlM_scanAssociation]
  rfl

/-- The table of the VPC that decides for the subnet: the associated one, or the main one
if none is. -/
def Governs (subnetID vpcID : String) (tables : List EC2RouteTable) (rt : EC2RouteTable) :
    Prop :=
  rt ∈ tables ∧ rt.vpcID = vpcID ∧ (rt.Explicit subnetID ∨
    rt.Main ∧ ∀ rt' ∈ tables, rt'.vpcID = vpcID → ¬rt'.Explicit subnetID)

/-- Every table names its VPC. -/
def Named (tables : List EC2RouteTable) : Prop := ∀ rt ∈ tables, rt.vpcID ≠ ""

/-- The scan returns early at a table of the VPC that is associated with the subnet. -/
theorem explicit_of_scan (hnamed : Named tables) :
    ∀ {mainTable}, tables.foldlM (scanTable subnetID vpcID) mainTable = .error rt →
      rt ∈ tables ∧ rt.vpcID = vpcID ∧ rt.Explicit subnetID := by
  induction tables with
  | nil =>
    intro mainTable h
    cases h
  | cons first rest ih =>
    intro mainTable h
    obtain ⟨hfirst, hrest⟩ := List.forall_mem_cons.mp hnamed
    rw [List.foldlM_cons, scanTable_eq] at h
    split_ifs at h with hforeign hexplicit
    · -- another VPC's table is skipped
      obtain ⟨hmem, hrt⟩ := ih hrest h
      exact ⟨List.mem_cons_of_mem first hmem, hrt⟩
    · -- the early return; a table that names its VPC and is not skipped is of the node's
      have hvpc : first.vpcID = vpcID := by
        by_contra hvpc
        exact hforeign ⟨hfirst, hvpc⟩
      cases h
      exact ⟨List.mem_cons_self, hvpc, hexplicit⟩
    all_goals
      obtain ⟨hmem, hrt⟩ := ih hrest h
      exact ⟨List.mem_cons_of_mem first hmem, hrt⟩

/-- A scan that does not return early has seen no table of the subnet, and ends with a
main table of the VPC if it saw one. -/
theorem main_of_scan (hnamed : Named tables) :
    ∀ {mainTable result}, tables.foldlM (scanTable subnetID vpcID) mainTable = .ok result →
      (∀ rt ∈ tables, rt.vpcID = vpcID → ¬rt.Explicit subnetID) ∧
        (result = mainTable ∧ (∀ rt ∈ tables, rt.vpcID = vpcID → ¬rt.Main) ∨
          ∃ rt ∈ tables, rt.vpcID = vpcID ∧ rt.Main ∧ result = some rt) := by
  induction tables with
  | nil =>
    intro mainTable result h
    cases h
    exact ⟨nofun, Or.inl ⟨rfl, nofun⟩⟩
  | cons first rest ih =>
    intro mainTable result h
    obtain ⟨hfirst, hrest⟩ := List.forall_mem_cons.mp hnamed
    rw [List.foldlM_cons, scanTable_eq] at h
    simp only [List.forall_mem_cons, List.exists_mem_cons_iff]
    split_ifs at h with hforeign hexplicit hmain
    · -- another VPC's table changes nothing
      obtain ⟨hnone, hresult⟩ := ih hrest h
      refine ⟨⟨fun hvpc => absurd hvpc hforeign.2, hnone⟩, ?_⟩
      rcases hresult with ⟨hkept, hmain⟩ | hfound
      · exact Or.inl ⟨hkept, fun hvpc => absurd hvpc hforeign.2, hmain⟩
      · exact Or.inr (Or.inr hfound)
    · cases h
    · have hvpc : first.vpcID = vpcID := by
        by_contra hvpc
        exact hforeign ⟨hfirst, hvpc⟩
      obtain ⟨hnone, hresult⟩ := ih hrest h
      -- this main table is kept, or a later one overwrites it
      refine ⟨⟨fun _ => hexplicit, hnone⟩, Or.inr ?_⟩
      rcases hresult with ⟨hkept, -⟩ | hfound
      · exact Or.inl ⟨hvpc, hmain, hkept⟩
      · exact Or.inr hfound
    · obtain ⟨hnone, hresult⟩ := ih hrest h
      refine ⟨⟨fun _ => hexplicit, hnone⟩, ?_⟩
      rcases hresult with ⟨hkept, hmain'⟩ | hfound
      · exact Or.inl ⟨hkept, fun _ => hmain, hmain'⟩
      · exact Or.inr (Or.inr hfound)

/-- The scan finds a table of the VPC that is associated with the subnet, without one a
main table of the VPC, and nothing if there is none either. -/
theorem nodeTable_cases (subnetID vpcID : String) (hnamed : Named tables) :
    (∃ rt ∈ tables, rt.vpcID = vpcID ∧ rt.Explicit subnetID ∧
        nodeTable subnetID vpcID tables = some rt) ∨
      (∀ rt ∈ tables, rt.vpcID = vpcID → ¬rt.Explicit subnetID) ∧
        ((∃ rt ∈ tables, rt.vpcID = vpcID ∧ rt.Main ∧
            nodeTable subnetID vpcID tables = some rt) ∨
          (∀ rt ∈ tables, rt.vpcID = vpcID → ¬rt.Main) ∧
            nodeTable subnetID vpcID tables = none) := by
  rw [nodeTable]
  cases hscan : tables.foldlM (scanTable subnetID vpcID) none with
  | error rt =>
    obtain ⟨hmem, hvpc, hexplicit⟩ := explicit_of_scan hnamed hscan
    exact Or.inl ⟨rt, hmem, hvpc, hexplicit, rfl⟩
  | ok result =>
    obtain ⟨hnone, hresult⟩ := main_of_scan hnamed hscan
    refine Or.inr ⟨hnone, ?_⟩
    rcases hresult with ⟨hkept, hmain⟩ | hfound
    · exact Or.inr ⟨hmain, hkept⟩
    · exact Or.inl hfound

theorem nodeTable_governs (hnamed : Named tables)
    (h : nodeTable subnetID vpcID tables = some rt) : Governs subnetID vpcID tables rt := by
  obtain ⟨rt', hmem, hvpc, hexplicit, htable⟩ |
    ⟨hnone, ⟨rt', hmem, hvpc, hmain, htable⟩ | ⟨-, htable⟩⟩ :=
    nodeTable_cases subnetID vpcID hnamed
  · cases h.symm.trans htable
    exact ⟨hmem, hvpc, Or.inl hexplicit⟩
  · cases h.symm.trans htable
    exact ⟨hmem, hvpc, Or.inr ⟨hmain, hnone⟩⟩
  · exact absurd (h.symm.trans htable) (Option.some_ne_none rt)

theorem not_governs_of_nodeTable (hnamed : Named tables)
    (h : nodeTable subnetID vpcID tables = none) : ¬Governs subnetID vpcID tables rt := by
  rintro ⟨hmem, hvpc, hgoverns⟩
  obtain ⟨rt', -, -, -, htable⟩ | ⟨hnone, ⟨rt', -, -, -, htable⟩ | ⟨hmain, -⟩⟩ :=
    nodeTable_cases subnetID vpcID hnamed
  · exact Option.some_ne_none rt' (htable.symm.trans h)
  · exact Option.some_ne_none rt' (htable.symm.trans h)
  · rcases hgoverns with hexplicit | ⟨hmain', -⟩
    · exact hnone rt hmem hvpc hexplicit
    · exact hmain rt hmem hvpc hmain'

/-! ### The governing table -/

/-- What EC2 keeps to: every table names its VPC and has at most one default route, the
subnet has at most one association and each VPC at most one main table. -/
structure WellFormed (subnetID : String) (tables : List EC2RouteTable) : Prop where
  named : Named tables
  default_unique : ∀ rt ∈ tables, ∀ r ∈ rt.routes, ∀ r' ∈ rt.routes,
    r.destinationCidrBlock = "0.0.0.0/0" → r'.destinationCidrBlock = "0.0.0.0/0" → r = r'
  explicit_unique : ∀ rt ∈ tables, ∀ rt' ∈ tables,
    rt.Explicit subnetID → rt'.Explicit subnetID → rt = rt'
  main_unique : ∀ rt ∈ tables, ∀ rt' ∈ tables, rt.vpcID = rt'.vpcID →
    rt.Main → rt'.Main → rt = rt'

/-- At most one table governs. -/
theorem Governs.unique {rt' : EC2RouteTable} (hwf : WellFormed subnetID tables)
    (h : Governs subnetID vpcID tables rt) (h' : Governs subnetID vpcID tables rt') :
    rt = rt' := by
  obtain ⟨hmem, hvpc, hexplicit | ⟨hmain, hnone⟩⟩ := h
  · obtain ⟨hmem', -, hexplicit' | ⟨-, hnone'⟩⟩ := h'
    · exact hwf.explicit_unique rt hmem rt' hmem' hexplicit hexplicit'
    · exact absurd hexplicit (hnone' rt hmem hvpc)
  · obtain ⟨hmem', hvpc', hexplicit' | ⟨hmain', -⟩⟩ := h'
    · exact absurd hexplicit' (hnone rt' hmem' hvpc')
    · exact hwf.main_unique rt hmem rt' hmem' (hvpc.trans hvpc'.symm) hmain hmain'

/-- Two lists with the same tables of the VPC. -/
def SameLocal (vpcID : String) (tables tables' : List EC2RouteTable) : Prop :=
  (tables.filter fun rt => rt.vpcID = vpcID).Perm (tables'.filter fun rt => rt.vpcID = vpcID)

theorem SameLocal.mem_iff {tables' : List EC2RouteTable} (h : SameLocal vpcID tables tables')
    (hvpc : rt.vpcID = vpcID) : rt ∈ tables ↔ rt ∈ tables' := by
  have hfilter := List.Perm.mem_iff (a := rt) h
  simpa [hvpc] using hfilter

/-- Foreign tables and the order have no say in it. -/
theorem SameLocal.governs_iff {tables' : List EC2RouteTable}
    (h : SameLocal vpcID tables tables') :
    Governs subnetID vpcID tables rt ↔ Governs subnetID vpcID tables' rt := by
  have hnone : (∀ rt' ∈ tables, rt'.vpcID = vpcID → ¬rt'.Explicit subnetID)
      ↔ ∀ rt' ∈ tables', rt'.vpcID = vpcID → ¬rt'.Explicit subnetID := by
    constructor
    · exact fun hnone rt' hmem hvpc => hnone rt' ((h.mem_iff hvpc).mpr hmem) hvpc
    · exact fun hnone rt' hmem hvpc => hnone rt' ((h.mem_iff hvpc).mp hmem) hvpc
  rw [Governs, Governs, hnone]
  constructor
  · rintro ⟨hmem, hvpc, hgoverns⟩
    exact ⟨(h.mem_iff hvpc).mp hmem, hvpc, hgoverns⟩
  · rintro ⟨hmem, hvpc, hgoverns⟩
    exact ⟨(h.mem_iff hvpc).mpr hmem, hvpc, hgoverns⟩

theorem nodeTable_congr {tables' : List EC2RouteTable} (hwf : WellFormed subnetID tables)
    (hnamed : Named tables') (h : SameLocal vpcID tables tables') :
    nodeTable subnetID vpcID tables' = nodeTable subnetID vpcID tables := by
  cases htable' : nodeTable subnetID vpcID tables' with
  | none =>
    have hnone' (rt : EC2RouteTable) : ¬Governs subnetID vpcID tables rt := fun hgoverns =>
      not_governs_of_nodeTable hnamed htable' (h.governs_iff.mp hgoverns)
    exact (Option.eq_none_iff_forall_ne_some.mpr fun rt htable =>
      hnone' rt (nodeTable_governs hwf.named htable)).symm
  | some rt' =>
    have hgoverns := h.governs_iff.mpr (nodeTable_governs hnamed htable')
    cases htable : nodeTable subnetID vpcID tables with
    | none => exact absurd hgoverns (not_governs_of_nodeTable hwf.named htable)
    | some rt => rw [hgoverns.unique hwf (nodeTable_governs hwf.named htable)]

/-- The provider's answer, once it knows the node and EC2 has listed the tables. -/
theorem nodeRoutesViaNAT_eq {p : NodeRouting} (hsubnet : p.nodeSubnetID = .ok subnetID)
    (hvpc : p.nodeVPCID = .ok vpcID) {describe : String → Except String (List EC2RouteTable)}
    (hec2 : p.describeRouteTables = some describe) (htables : describe vpcID = .ok tables) :
    p.nodeRoutesViaNAT
      = .ok ((nodeTable subnetID vpcID tables).any EC2RouteTable.defaultsToNAT) := by
  rw [nodeRoutesViaNAT, hec2, hsubnet, hvpc]
  dsimp only
  rw [htables]

/-- **The governing table answers.**  The node routes via NAT exactly if the table that
governs its subnet sends the default route to a NAT gateway; another order of the tables
and other tables of other VPCs give the same answer. -/
theorem nodeRoutesViaNAT_governs {p : NodeRouting} (hsubnet : p.nodeSubnetID = .ok subnetID)
    (hvpc : p.nodeVPCID = .ok vpcID) {describe : String → Except String (List EC2RouteTable)}
    (hec2 : p.describeRouteTables = some describe) (htables : describe vpcID = .ok tables)
    (hwf : WellFormed subnetID tables) :
    ∃ viaNAT, p.nodeRoutesViaNAT = .ok viaNAT ∧
      (viaNAT = true ↔ ∃ rt, Governs subnetID vpcID tables rt ∧ rt.NATDefault) ∧
      (∀ rt, Governs subnetID vpcID tables rt → (viaNAT = true ↔ rt.NATDefault)) ∧
      ∀ describe' tables', describe' vpcID = .ok tables' → Named tables' →
        SameLocal vpcID tables tables' →
          nodeRoutesViaNAT { p with describeRouteTables := some describe' } = .ok viaNAT := by
  have hanswer : (nodeTable subnetID vpcID tables).any EC2RouteTable.defaultsToNAT = true ↔
      ∃ rt, Governs subnetID vpcID tables rt ∧ rt.NATDefault := by
    cases htable : nodeTable subnetID vpcID tables with
    | none =>
      refine ⟨nofun, ?_⟩
      rintro ⟨rt, hgoverns, -⟩
      exact absurd hgoverns (not_governs_of_nodeTable hwf.named htable)
    | some rt =>
      have hgoverns := nodeTable_governs hwf.named htable
      have hdefault := EC2RouteTable.defaultsToNAT_iff (hwf.default_unique rt hgoverns.1)
      constructor
      · intro hany
        exact ⟨rt, hgoverns, hdefault.mp hany⟩
      · rintro ⟨rt', hgoverns', hnat⟩
        rw [hgoverns'.unique hwf hgoverns] at hnat
        exact hdefault.mpr hnat
  refine ⟨_, nodeRoutesViaNAT_eq hsubnet hvpc hec2 htables, hanswer, ?_, ?_⟩
  · intro rt hgoverns
    rw [hanswer]
    constructor
    · rintro ⟨rt', hgoverns', hnat⟩
      rwa [hgoverns.unique hwf hgoverns']
    · intro hnat
      exact ⟨rt, hgoverns, hnat⟩
  · intro describe' tables' htables' hnamed' hlocal
    rw [← nodeTable_congr hwf hnamed' hlocal]
    exact nodeRoutesViaNAT_eq (p := { p with describeRouteTables := some describe' }) hsubnet hvpc
      rfl htables'

/-- The main tables of two VPCs, the node's behind a NAT gateway. -/
def twoMainTables : List EC2RouteTable :=
  [⟨"rtb-main-local", "vpc-local", [{ main := true }], [⟨"0.0.0.0/0", "", "nat-abc"⟩]⟩,
    ⟨"rtb-main-foreign", "vpc-foreign", [{ main := true }], [⟨"0.0.0.0/0", "igw-xyz", ""⟩]⟩]

theorem wellFormed_twoMainTables : WellFormed "subnet-orphan" twoMainTables :=
  ⟨by rw [Named]; decide, by decide, by decide, by decide⟩

/-- A subnet with no association follows its own VPC's main table. -/
theorem nodeRoutesViaNAT_orphan :
    ∃ viaNAT, nodeRoutesViaNAT
        { describeRouteTables := some fun _ => .ok twoMainTables
          cfgSubnetID := "subnet-orphan"
          cfgVPCID := "vpc-local"
          imdsGet := fun _ => .error "no metadata" } = .ok viaNAT ∧ viaNAT = true := by
  obtain ⟨viaNAT, hanswer, hiff, -⟩ := nodeRoutesViaNAT_governs
    (p := { describeRouteTables := some fun _ => .ok twoMainTables
            cfgSubnetID := "subnet-orphan"
            cfgVPCID := "vpc-local"
            imdsGet := fun _ => .error "no metadata" })
    rfl rfl rfl rfl wellFormed_twoMainTables
  refine ⟨viaNAT, hanswer, hiff.mpr ⟨_, ⟨List.mem_cons_self, rfl, Or.inr ⟨?_, ?_⟩⟩, ?_⟩⟩
  · exact ⟨_, List.mem_singleton_self _, rfl⟩
  · decide
  · exact ⟨_, List.mem_singleton_self _, rfl, by decide⟩

end NodeRouting

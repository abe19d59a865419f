/-
The estimator of Terraform plans (`pkg/terraform/parser.go`,
`pkg/terraform/estimator.go`).

`extractNetworkChanges` expands the actions of each resource into changes and
`estimate` prices the changes, each on its own against one traffic profile.  Dollars
and gigabytes are exact rationals, where the source computes in floats.

* `estimateChange_delta` — a change costs the price of creating its kind of
  resource, by the sign of its action;
* `totalDeltaUSD_extract` — a plan costs the sum over its resources of their net
  number of creations at that price;
* `estimate_algebra` — so exchanging creations with deletions negates the total,
  replacements cancel, and the order of the resources does not matter;
* `savings_and_charges_iff` — what endpoints save and gateways are charged stays
  within the measured traffic just for one endpoint and one gateway.
-/
import Tollwing.FinMap
import Tollwing.FixedPoint

namespace Terraform

/-! ### The plan -/

/-- A value of a resource's state; the parser reads strings only. -/
inductive StateValue
  | str (s : String)
  | other
  deriving DecidableEq

/-- A resource's state; there is none before it is created or after it is deleted. -/
abbrev ResourceState := Option (FinMap String StateValue)

structure Change where
  actions : List String
  before : ResourceState := none
  after : ResourceState := none

structure ResourceChange where
  address : String := ""
  type : String
  change : Change

structure Plan where
  resourceChanges : List ResourceChange

/-- `NetworkChange`. -/
structure NetworkChange where
  address : String := ""
  type : String := ""
  action : String := ""
  description : String := ""
  cidr : String := ""
  zone : String := ""
  serviceName : String := ""
  region : String := ""
  deriving DecidableEq

/-- `networkResourceTypes`. -/
def networkResourceTypes : String → Option String
  | "aws_subnet" => some "subnet"
  | "aws_nat_gateway" => some "nat_gateway"
  | "aws_vpc_endpoint" => some "vpc_endpoint"
  | "aws_vpc_peering_connection" => some "vpc_peering"
  | "aws_ec2_transit_gateway" => some "transit_gateway"
  | "aws_ec2_transit_gateway_vpc_attachment" => some "transit_gateway_attachment"
  | "aws_route" => some "route"
  | "aws_route_table" => some "route_table"
  | "google_compute_subnetwork" => some "subnet"
  | "google_compute_router_nat" => some "nat_gateway"
  | "google_compute_network_peering" => some "vpc_peering"
  | "azurerm_subnet" => some "subnet"
  | "azurerm_nat_gateway" => some "nat_gateway"
  | "azurerm_virtual_network_peering" => some "vpc_peering"
  | _ => none

/-- `state[key].(string)`. -/
def stringAt (state : FinMap String StateValue) (key : String) : Option String :=
  match state.lookup key with
  | some (.str s) => some s
  | _ => none

namespace NetworkChange

/-- `extractDetails`; a later field wins over an earlier one. -/
def extractDetails (nc : NetworkChange) (resourceType : String)
    (state : FinMap String StateValue) : NetworkChange :=
  if Strings.contains resourceType "subnet" then
    { nc with
      cidr := (stringAt state "address_prefix").getD
        ((stringAt state "ip_cidr_range").getD ((stringAt state "cidr_block").getD nc.cidr))
      zone := (stringAt state "availability_zone").getD nc.zone
      region := (stringAt state "region").getD nc.region }
  else if Strings.contains resourceType "nat_gateway" then
    match stringAt state "subnet_id" with
    | some subnet => { nc with serviceName := "NAT Gateway (subnet: " ++ subnet ++ ")" }
    | none => nc
  else if Strings.contains resourceType "vpc_endpoint" then
    { nc with serviceName := (stringAt state "service_name").getD nc.serviceName }
  else if Strings.contains resourceType "peering" then
    match stringAt state "peer_virtual_network_id", stringAt state "peer_vpc_id" with
    | some peer, _ => { nc with serviceName := "VNet Peering to " ++ peer }
    | none, some peer => { nc with serviceName := "VPC Peering to " ++ peer }
    | none, none => nc
  else nc

/-- `describeChange`. -/
def describeChange (nc : NetworkChange) : String :=
  let verb :=
    match nc.action with
    | "create" => "Create"
    | "delete" => "Delete"
    | "update" => "Update"
    | _ => "Modify"
  let detail := nc.type
  let detail := if nc.cidr ≠ "" then detail ++ " " ++ nc.cidr else detail
  let detail := if nc.zone ≠ "" then detail ++ " in " ++ nc.zone else detail
  let detail :=
    if nc.serviceName ≠ "" then detail ++ " (" ++ nc.serviceName ++ ")" else detail
  verb ++ " " ++ nc.address ++ ": " ++ detail

end NetworkChange

/-- One round of the inner loop of `ExtractNetworkChanges`. -/
def extractChange (rc : ResourceChange) (category action : String) : Option NetworkChange :=
  if action = "no-op" ∨ action = "read" then none
  else
    let nc : NetworkChange := { address := rc.address, type := category, action := action }
    -- a deleted resource is described by what it was
    let nc :=
      match if action = "delete" then rc.change.before else rc.change.after with
      | some state => nc.extractDetails rc.type state
      | none => nc
    some { nc with description := nc.describeChange }

/-- And of the outer one. -/
def extractResource (rc : ResourceChange) : List NetworkChange :=
  match networkResourceTypes rc.type with
  | none => []
  | some category => rc.change.actions.filterMap (extractChange rc category)

/-- `ExtractNetworkChanges`. -/
def extractNetworkChanges (plan : Plan) : List NetworkChange :=
  plan.resourceChanges.flatMap extractResource

/-! ### The estimator -/

/-- `CostImpact`. -/
structure CostImpact where
  change : NetworkChange := {}
  estimatedDeltaUSD : ℚ := 0
  explanation : String := ""
  affectedServices : List String := []
  confidence : String := ""
  deriving DecidableEq

/-- `EstimateResult`. -/
structure EstimateResult where
  changes : List CostImpact
  totalDeltaUSD : ℚ
  monthlyImpactUSD : ℚ
  analyzedResources : ℕ
  networkChanges : ℕ

/-- `TrafficData`, gigabytes of a month; the services affected may be left out. -/
structure TrafficData where
  monthlyNATEgressGB : ℚ := 0
  monthlyPeeringGB : ℚ := 0
  monthlyTransitGWGB : ℚ := 0
  affectedServices : Option (FinMap String (List String)) := none

/-- `DefaultRates`, dollars of a gigabyte; no estimator reads the rate across zones. -/
structure Rates where
  natGatewayPerGB : ℚ := 45 / 1000
  vpcEndpointPerGB : ℚ := 1 / 100
  peeringPerGB : ℚ := 1 / 100
  transitGWPerGB : ℚ := 2 / 100

def defaultRates : Rates := {}

/-- `%.df` in a text. -/
def money (d : ℕ) (q : ℚ) : String := String.ofList (FixedPoint.print d q)

/-- What is measured, or a guess where nothing is. -/
def orDefault (gb guess : ℚ) : ℚ := if gb = 0 then guess else gb

def estimateNATGateway (change : NetworkChange) (traffic : TrafficData) : CostImpact :=
  let monthlyGB := orDefault traffic.monthlyNATEgressGB 100
  let monthlyCost := monthlyGB * defaultRates.natGatewayPerGB
  match change.action with
  | "create" =>
    { estimatedDeltaUSD := monthlyCost
      explanation := "New NAT gateway: ~" ++ money 0 monthlyGB ++ " GB/month × $"
        ++ money 3 defaultRates.natGatewayPerGB ++ "/GB = $" ++ money 2 monthlyCost
        ++ "/month data processing + hourly charges"
      confidence := "medium" }
  | "delete" =>
    { estimatedDeltaUSD := -monthlyCost
      explanation := "Removing NAT gateway saves ~$" ++ money 2 monthlyCost
        ++ "/month in data processing charges"
      confidence := "medium" }
  | _ =>
    { explanation :=
        "NAT gateway modification — cost impact depends on traffic routing changes"
      confidence := "low" }

def estimateVPCEndpoint (change : NetworkChange) (traffic : TrafficData) : CostImpact :=
  let monthlyGB := orDefault traffic.monthlyNATEgressGB 100
  let saved := defaultRates.natGatewayPerGB - defaultRates.vpcEndpointPerGB
  match change.action with
  | "create" =>
    let savings := monthlyGB * saved
    { estimatedDeltaUSD := -savings
      explanation := "VPC endpoint for " ++ change.serviceName ++ ": saves $" ++ money 3 saved
        ++ "/GB vs NAT gateway, ~$" ++ money 2 savings ++ "/month savings"
      confidence := "high" }
  | "delete" =>
    let cost := monthlyGB * saved
    { estimatedDeltaUSD := cost
      explanation := "Removing VPC endpoint: traffic falls back to NAT gateway, ~$"
        ++ money 2 cost ++ "/month increase"
      confidence := "high" }
  | _ => { explanation := "VPC endpoint update", confidence := "low" }

def estimateVPCPeering (change : NetworkChange) (traffic : TrafficData) : CostImpact :=
  let monthlyGB := orDefault traffic.monthlyPeeringGB 50
  let cost := monthlyGB * defaultRates.peeringPerGB
  match change.action with
  | "create" =>
    { estimatedDeltaUSD := cost
      explanation := "New VPC peering: ~" ++ money 0 monthlyGB ++ " GB/month × $"
        ++ money 3 defaultRates.peeringPerGB ++ "/GB = $" ++ money 2 cost ++ "/month"
      confidence := "medium" }
  | "delete" =>
    { estimatedDeltaUSD := -cost
      explanation := "Removing VPC peering saves ~$" ++ money 2 cost ++ "/month"
      confidence := "medium" }
  | _ => { explanation := "VPC peering update", confidence := "low" }

def estimateTransitGW (change : NetworkChange) (traffic : TrafficData) : CostImpact :=
  let monthlyGB := orDefault traffic.monthlyTransitGWGB 100
  let cost := monthlyGB * defaultRates.transitGWPerGB
  match change.action with
  | "create" =>
    { estimatedDeltaUSD := cost
      explanation := "New transit gateway attachment: ~" ++ money 0 monthlyGB
        ++ " GB/month × $" ++ money 3 defaultRates.transitGWPerGB ++ "/GB = $"
        ++ money 2 cost ++ "/month + hourly charges"
      confidence := "medium" }
  | "delete" =>
    { estimatedDeltaUSD := -cost
      explanation := "Removing transit gateway saves ~$" ++ money 2 cost ++ "/month"
      confidence := "medium" }
  | _ => { explanation := "Transit gateway modification", confidence := "low" }

/-- `estimateSubnet`, which reads no traffic. -/
def estimateSubnet (change : NetworkChange) : CostImpact :=
  match change.action with
  | "create" =>
    { explanation := "New subnet " ++ change.cidr ++ " in " ++ change.zone
        ++ " — cost depends on workload placement and cross-AZ traffic patterns"
      confidence := "low" }
  | "delete" =>
    { explanation := "Removing subnet " ++ change.cidr
        ++ " — workloads must relocate, may change cross-AZ costs"
      confidence := "low" }
  | _ => { explanation := "Subnet modification", confidence := "low" }

def estimateChange (change : NetworkChange) (traffic : TrafficData) : CostImpact :=
  let impact :=
    match change.type with
    | "nat_gateway" => estimateNATGateway change traffic
    | "vpc_endpoint" => estimateVPCEndpoint change traffic
    | "vpc_peering" => estimateVPCPeering change traffic
    | "transit_gateway" => estimateTransitGW change traffic
    | "transit_gateway_attachment" => estimateTransitGW change traffic
    | "subnet" => estimateSubnet change
    | _ => { explanation := "No cost model for this resource type", confidence := "low" }
  { impact with
    change := change
    affectedServices :=
      match traffic.affectedServices.bind fun services => services.lookup change.address with
      | some svcs => svcs
      | none => impact.affectedServices }

/-- `Estimate`; without a profile nothing is measured. -/
def estimate (changes : List NetworkChange) (traffic : Option TrafficData) : EstimateResult :=
  let traffic := traffic.getD {}
  let impacts := changes.map fun change => estimateChange change traffic
  let totalDelta := impacts.foldl (fun total impact => total + impact.estimatedDeltaUSD) 0
  { changes := impacts
    totalDeltaUSD := totalDelta
    monthlyImpactUSD := totalDelta
    analyzedResources := changes.length
    networkChanges := changes.length }

/-! ### What a change costs -/

/-- How an action counts: a creation once, a deletion against it. -/
def actionSign (action : String) : ℚ :=
  if action = "create" then 1 else if action = "delete" then -1 else 0

@[simp] theorem actionSign_create : actionSign "create" = 1 := rfl

@[simp] theorem actionSign_delete : actionSign "delete" = -1 := rfl

/-- What creating a resource of a kind costs. -/
def createDelta (traffic : TrafficData) : String → ℚ
  | "nat_gateway" =>
    orDefault traffic.monthlyNATEgressGB 100 * defaultRates.natGatewayPerGB
  | "vpc_endpoint" =>
    -(orDefault traffic.monthlyNATEgressGB 100
      * (defaultRates.natGatewayPerGB - defaultRates.vpcEndpointPerGB))
  | "vpc_peering" => orDefault traffic.monthlyPeeringGB 50 * defaultRates.peeringPerGB
  | "transit_gateway" => orDefault traffic.monthlyTransitGWGB 100 * defaultRates.transitGWPerGB
  | "transit_gateway_attachment" =>
    orDefault traffic.monthlyTransitGWGB 100 * defaultRates.transitGWPerGB
  | _ => 0

/-- An estimator that takes opposite amounts for the two actions, and nothing for the
others, counts by the sign. -/
theorem delta_of_signed {f : String → CostImpact} {x : ℚ}
    (hcreate : (f "create").estimatedDeltaUSD = x)
    (hdelete : (f "delete").estimatedDeltaUSD = -x)
    (hother : ∀ action, action ≠ "create" → action ≠ "delete" →
      (f action).estimatedDeltaUSD = 0) (action : String) :
    (f action).estimatedDeltaUSD = actionSign action * x := by
  rw [actionSign]
  by_cases hc : action = "create"
  · rw [if_pos hc, hc, hcreate, one_mul]
  · by_cases hd : action = "delete"
    · rw [if_neg hc, if_pos hd, hd, hdelete, neg_one_mul]
    · rw [if_neg hc, if_neg hd, hother action hc hd, zero_mul]

section
variable (change : NetworkChange) (traffic : TrafficData)

theorem estimateNATGateway_delta : (estimateNATGateway change traffic).estimatedDeltaUSD
    = actionSign change.action * createDelta traffic "nat_gateway" :=
  delta_of_signed (f := fun a => estimateNATGateway { change with action := a } traffic)
    rfl rfl (fun a hc hd => by simp [estimateNATGateway]) change.action

theorem estimateVPCEndpoint_delta : (estimateVPCEndpoint change traffic).estimatedDeltaUSD
    = actionSign change.action * createDelta traffic "vpc_endpoint" :=
  delta_of_signed (f := fun a => estimateVPCEndpoint { change with action := a } traffic)
    rfl (neg_neg _).symm (fun a hc hd => by simp [estimateVPCEndpoint]) change.action

theorem estimateVPCPeering_delta : (estimateVPCPeering change traffic).estimatedDeltaUSD
    = actionSign change.action * createDelta traffic "vpc_peering" :=
  delta_of_signed (f := fun a => estimateVPCPeering { change with action := a } traffic)
    rfl rfl (fun a hc hd => by simp [estimateVPCPeering]) change.action

theorem estimateTransitGW_delta : (estimateTransitGW change traffic).estimatedDeltaUSD
    = actionSign change.action * createDelta traffic "transit_gateway" :=
  delta_of_signed (f := fun a => estimateTransitGW { change with action := a } traffic)
    rfl rfl (fun a hc hd => by simp [estimateTransitGW]) change.action

theorem estimateSubnet_delta : (estimateSubnet change).estimatedDeltaUSD = 0 := by
  rw [estimateSubnet]
  split <;> rfl

/-- A change costs the price of creating its kind of resource, by the sign of its
action. -/
theorem estimateChange_delta : (estimateChange change traffic).estimatedDeltaUSD
    = actionSign change.action * createDelta traffic change.type := by
  rw [estimateChange]
  dsimp only
  split
  case h_1 htype => rw [htype, estimateNATGateway_delta]
  case h_2 htype => rw [htype, estimateVPCEndpoint_delta]
  case h_3 htype => rw [htype, estimateVPCPeering_delta]
  case h_4 htype => rw [htype, estimateTransitGW_delta]
  case h_5 htype => rw [htype, estimateTransitGW_delta]; rfl
  case h_6 htype => rw [htype, estimateSubnet_delta]; exact (mul_zero _).symm
  case h_7 => simp [createDelta, *]

end

/-! ### What a plan costs -/

theorem totalDeltaUSD_eq (changes : List NetworkChange) (traffic : Option TrafficData) :
    (estimate changes traffic).totalDeltaUSD = (changes.map fun c =>
      actionSign c.action * createDelta (traffic.getD {}) c.type).sum := by
  rw [estimate]
  simp only [List.foldl_map, estimateChange_delta]
  rw [List.sum_eq_foldl, List.foldl_map]

/-- The creations among some actions less the deletions. -/
def netCreations (actions : List String) : ℚ := (actions.map actionSign).sum

/-- What a resource adds to the total. -/
def resourceDelta (traffic : TrafficData) (rc : ResourceChange) : ℚ :=
  match networkResourceTypes rc.type with
  | none => 0
  | some category => netCreations rc.change.actions * createDelta traffic category

/-- The details leave a change's kind and action. -/
theorem NetworkChange.extractDetails_kind (nc : NetworkChange) (resourceType : String)
    (state : FinMap String StateValue) :
    (nc.extractDetails resourceType state).type = nc.type ∧
      (nc.extractDetails resourceType state).action = nc.action := by
  rw [NetworkChange.extractDetails]
  split_ifs
  · exact ⟨rfl, rfl⟩
  · split <;> exact ⟨rfl, rfl⟩
  · exact ⟨rfl, rfl⟩
  · split <;> exact ⟨rfl, rfl⟩
  · exact ⟨rfl, rfl⟩

theorem extractChange_cases (rc : ResourceChange) (category action : String) :
    extractChange rc category action = none ∧ actionSign action = 0 ∨
      ∃ nc, extractChange rc category action = some nc ∧ nc.type = category ∧
        nc.action = action := by
  rw [extractChange]
  split_ifs with hskip
  · refine Or.inl ⟨rfl, ?_⟩
    rcases hskip with rfl | rfl <;> rfl
  all_goals
    refine Or.inr ⟨_, rfl, ?_⟩
    dsimp only
    split
    · exact NetworkChange.extractDetails_kind _ _ _
    · exact ⟨rfl, rfl⟩

theorem sum_extractChange (traffic : TrafficData) (rc : ResourceChange) (category : String)
    (actions : List String) :
    ((actions.filterMap (extractChange rc category)).map fun c =>
      actionSign c.action * createDelta traffic c.type).sum
      = netCreations actions * createDelta traffic category := by
  induction actions with
  | nil => exact (zero_mul _).symm
  | cons action actions ih =>
    rw [netCreations, List.map_cons, List.sum_cons, add_mul, ← netCreations, ← ih]
    rcases extractChange_cases rc category action with ⟨hnone, hsign⟩ | ⟨nc, hsome, rfl, rfl⟩
    · rw [List.filterMap_cons_none hnone, hsign, zero_mul, zero_add]
    · rw [List.filterMap_cons_some hsome, List.map_cons, List.sum_cons]

theorem sum_extractResource (traffic : TrafficData) (rc : ResourceChange) :
    ((extractResource rc).map fun c => actionSign c.action * createDelta traffic c.type).sum
      = resourceDelta traffic rc := by
  rw [extractResource, resourceDelta]
  split
  · rfl
  · exact sum_extractChange traffic rc _ rc.change.actions

/-- A plan costs what its resources do. -/
theorem totalDeltaUSD_extract (plan : Plan) (traffic : Option TrafficData) :
    (estimate (extractNetworkChanges plan) traffic).totalDeltaUSD
      = (plan.resourceChanges.map (resourceDelta (traffic.getD {}))).sum := by
  rw [totalDeltaUSD_eq, extractNetworkChanges, List.map_flatMap, List.flatMap,
    List.sum_flatten, List.map_map]
  exact congrArg List.sum (List.map_congr_left fun rc _ =>
    sum_extractResource (traffic.getD {}) rc)

/-! ### The algebra of plans -/

/-- A creation for a deletion and a deletion for a creation. -/
def exchangeAction (action : String) : String :=
  if action = "create" then "delete" else if action = "delete" then "create" else action

def ResourceChange.exchange (rc : ResourceChange) : ResourceChange :=
  { rc with change := { rc.change with actions := rc.change.actions.map exchangeAction } }

def Plan.exchange (plan : Plan) : Plan := ⟨plan.resourceChanges.map ResourceChange.exchange⟩

theorem actionSign_exchangeAction (action : String) :
    actionSign (exchangeAction action) = -actionSign action := by
  rw [exchangeAction]
  by_cases hc : action = "create"
  · rw [if_pos hc, hc]
    rfl
  · by_cases hd : action = "delete"
    · rw [if_neg hc, if_pos hd, hd]
      exact (neg_neg _).symm
    · rw [if_neg hc, if_neg hd, actionSign, if_neg hc, if_neg hd, neg_zero]

theorem resourceDelta_exchange (traffic : TrafficData) (rc : ResourceChange) :
    resourceDelta traffic rc.exchange = -resourceDelta traffic rc := by
  have hnet : netCreations (rc.change.actions.map exchangeAction)
      = -netCreations rc.change.actions := by
    rw [netCreations, netCreations, List.sum_neg, List.map_map, List.map_map]
    exact congrArg List.sum (List.map_congr_left fun action _ =>
      actionSign_exchangeAction action)
  rw [resourceDelta, resourceDelta]
  dsimp only [ResourceChange.exchange]
  split
  · exact neg_zero.symm
  · rw [hnet, neg_mul]

theorem resourceDelta_of_netCreations {traffic : TrafficData} {rc : ResourceChange}
    (h : netCreations rc.change.actions = 0) : resourceDelta traffic rc = 0 := by
  rw [resourceDelta]
  split
  · rfl
  · rw [h, zero_mul]

theorem netCreations_of_not_mem {actions : List String} (hcreate : "create" ∉ actions)
    (hdelete : "delete" ∉ actions) : netCreations actions = 0 := by
  refine List.sum_eq_zero fun x hx => ?_
  obtain ⟨action, hmem, rfl⟩ := List.mem_map.mp hx
  rw [actionSign, if_neg (fun h : action = "create" => hcreate (h ▸ hmem)),
    if_neg (fun h : action = "delete" => hdelete (h ▸ hmem))]

/-- Exchanging creations with deletions negates the total; a resource that is replaced,
or neither created nor deleted, adds nothing; and the totals of two lists of resources add
up, in any order. -/
theorem estimate_algebra (traffic : Option TrafficData) :
    (∀ plan : Plan, (estimate (extractNetworkChanges plan.exchange) traffic).totalDeltaUSD
      = -(estimate (extractNetworkChanges plan) traffic).totalDeltaUSD) ∧
    (∀ (before : List ResourceChange) (rc : ResourceChange) (after : List ResourceChange),
      rc.change.actions = ["delete", "create"] ∨ rc.change.actions = ["create", "delete"] ∨
          "create" ∉ rc.change.actions ∧ "delete" ∉ rc.change.actions →
        (estimate (extractNetworkChanges ⟨before ++ rc :: after⟩) traffic).totalDeltaUSD
          = (estimate (extractNetworkChanges ⟨before ++ after⟩) traffic).totalDeltaUSD) ∧
    (∀ p q : List ResourceChange,
      (estimate (extractNetworkChanges ⟨p ++ q⟩) traffic).totalDeltaUSD
        = (estimate (extractNetworkChanges ⟨p⟩) traffic).totalDeltaUSD
          + (estimate (extractNetworkChanges ⟨q⟩) traffic).totalDeltaUSD) ∧
    ∀ p q : List ResourceChange, p.Perm q →
      (estimate (extractNetworkChanges ⟨p⟩) traffic).totalDeltaUSD
        = (estimate (extractNetworkChanges ⟨q⟩) traffic).totalDeltaUSD := by
  simp only [totalDeltaUSD_extract]
  refine ⟨fun plan => ?_, fun before rc after hactions => ?_, fun p q => ?_, fun p q hperm => ?_⟩
  · rw [List.sum_neg, Plan.exchange, List.map_map, List.map_map]
    exact congrArg List.sum (List.map_congr_left fun rc _ => resourceDelta_exchange _ rc)
  · have hnet : netCreations rc.change.actions = 0 := by
      rcases hactions with h | h | ⟨hcreate, hdelete⟩
      · rw [h]
        simp [netCreations]
      · rw [h]
        simp [netCreations]
      · exact netCreations_of_not_mem hcreate hdelete
    rw [List.map_append, List.sum_append, List.map_cons, List.sum_cons,
      resourceDelta_of_netCreations hnet, zero_add, List.map_append, List.sum_append]
  · rw [List.map_append, List.sum_append]
  · exact (hperm.map _).sum_eq

/-! ### Endpoints and gateways beside each other -/

/-- The planned creations of resources of a kind. -/
def creations (type : String) (changes : List NetworkChange) : List NetworkChange :=
  changes.filter fun c => c.type = type && c.action = "create"

/-- What the estimate of all changes has for them. -/
def creationImpacts (type : String) (changes : List NetworkChange) (traffic : TrafficData) :
    List CostImpact :=
  (estimate changes (some traffic)).changes.filter fun impact =>
    impact.change.type = type && impact.change.action = "create"

/-- What the planned endpoints are estimated to save together. -/
def endpointSavings (changes : List NetworkChange) (traffic : TrafficData) : ℚ :=
  -((creationImpacts "vpc_endpoint" changes traffic).map CostImpact.estimatedDeltaUSD).sum

/-- What the planned gateways are charged together. -/
def gatewayCharges (changes : List NetworkChange) (traffic : TrafficData) : ℚ :=
  ((creationImpacts "nat_gateway" changes traffic).map CostImpact.estimatedDeltaUSD).sum

/-- The processing of the measured traffic through gateways. -/
def natProcessingCost (traffic : TrafficData) : ℚ :=
  traffic.monthlyNATEgressGB * defaultRates.natGatewayPerGB

/-- The other changes have no part in it: it is the estimate of the creations alone. -/
theorem creationImpacts_eq (type : String) (changes : List NetworkChange)
    (traffic : TrafficData) :
    creationImpacts type changes traffic
      = (estimate (creations type changes) (some traffic)).changes := by
  show (changes.map fun change => estimateChange change traffic).filter _
    = (creations type changes).map fun change => estimateChange change traffic
  rw [List.filter_map, creations]
  rfl

theorem sum_creationImpacts (type : String) (changes : List NetworkChange)
    (traffic : TrafficData) :
    ((creationImpacts type changes traffic).map CostImpact.estimatedDeltaUSD).sum
      = (creations type changes).length * createDelta traffic type := by
  have htotal : (estimate (creations type changes) (some traffic)).totalDeltaUSD
      = ((creationImpacts type changes traffic).map CostImpact.estimatedDeltaUSD).sum := by
    rw [creationImpacts_eq, List.sum_eq_foldl, List.foldl_map]
    rfl
  rw [← htotal, totalDeltaUSD_eq, ← nsmul_eq_mul, ← List.sum_replicate, ← List.map_const']
  refine congrArg List.sum (List.map_congr_left fun c hc => ?_)
  have hkind := (List.mem_filter.mp hc).2
  rw [Bool.and_eq_true, decide_eq_true_eq, decide_eq_true_eq] at hkind
  rw [hkind.1, hkind.2]
  exact one_mul _

/-- With traffic through gateways measured, the planned endpoints save no more than its
processing costs, and the planned gateways are charged for it once at most, just when one
endpoint and one gateway are planned at most. -/
theorem savings_and_charges_iff (changes : List NetworkChange) (traffic : TrafficData)
    (hnat : 0 < traffic.monthlyNATEgressGB) :
    (endpointSavings changes traffic ≤ natProcessingCost traffic ∧
        gatewayCharges changes traffic ≤ natProcessingCost traffic) ↔
      (creations "vpc_endpoint" changes).length ≤ 1 ∧
        (creations "nat_gateway" changes).length ≤ 1 := by
  have hmeasured : orDefault traffic.monthlyNATEgressGB 100 = traffic.monthlyNATEgressGB :=
    if_neg hnat.ne'
  have hsavings : endpointSavings changes traffic
      = (creations "vpc_endpoint" changes).length * (traffic.monthlyNATEgressGB * (35 / 1000)) := by
    rw [endpointSavings, sum_creationImpacts, createDelta, hmeasured]
    norm_num [defaultRates]
  have hcharges : gatewayCharges changes traffic
      = (creations "nat_gateway" changes).length * natProcessingCost traffic := by
    rw [gatewayCharges, sum_creationImpacts, createDelta, hmeasured, natProcessingCost]
  have hcost : natProcessingCost traffic = traffic.monthlyNATEgressGB * (45 / 1000) := rfl
  have hpos : 0 < natProcessingCost traffic := by rw [hcost]; positivity
  refine and_congr ?_ ?_
  · rw [hsavings, hcost]
    generalize (creations "vpc_endpoint" changes).length = n
    constructor
    · intro hle
      -- two endpoints save seventy where the traffic costs forty-five
      by_contra hmore
      have htwo : (2 : ℚ) ≤ n := by exact_mod_cast not_le.mp hmore
      nlinarith
    · intro hone
      have hone' : (n : ℚ) ≤ 1 := by exact_mod_cast hone
      nlinarith
  · rw [hcharges, mul_le_iff_le_one_left hpos]
    exact_mod_cast Iff.rfl

/-- Two endpoints save seventy dollars of traffic that costs forty-five, and two gateways
are charged for it twice. -/
theorem two_planned_exceed_cost :
    natProcessingCost { monthlyNATEgressGB := 1000 } = 45 ∧
      endpointSavings [⟨"aws_vpc_endpoint.s3", "vpc_endpoint", "create", "", "", "", "", ""⟩,
        ⟨"aws_vpc_endpoint.ecr", "vpc_endpoint", "create", "", "", "", "", ""⟩]
        { monthlyNATEgressGB := 1000 } = 70 ∧
      gatewayCharges [⟨"aws_nat_gateway.a", "nat_gateway", "create", "", "", "", "", ""⟩,
        ⟨"aws_nat_gateway.b", "nat_gateway", "create", "", "", "", "", ""⟩]
        { monthlyNATEgressGB := 1000 } = 90 := by
  decide +kernel

/-- One endpoint and one gateway, with an update beside them, stay within the traffic. -/
theorem one_planned_within_cost :
    endpointSavings [⟨"a", "vpc_endpoint", "create", "", "", "", "", ""⟩,
        ⟨"b", "vpc_endpoint", "update", "", "", "", "", ""⟩,
        ⟨"c", "nat_gateway", "create", "", "", "", "", ""⟩] { monthlyNATEgressGB := 1000 }
        ≤ natProcessingCost { monthlyNATEgressGB := 1000 } ∧
      gatewayCharges [⟨"a", "vpc_endpoint", "create", "", "", "", "", ""⟩,
        ⟨"b", "vpc_endpoint", "update", "", "", "", "", ""⟩,
        ⟨"c", "nat_gateway", "create", "", "", "", "", ""⟩] { monthlyNATEgressGB := 1000 }
        ≤ natProcessingCost { monthlyNATEgressGB := 1000 } :=
  (savings_and_charges_iff _ { monthlyNATEgressGB := 1000 } (by decide)).mpr
    ⟨by decide, by decide⟩

end Terraform

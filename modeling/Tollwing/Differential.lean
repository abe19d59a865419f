/-
The differential of the simulation (`test/sim/oracle.go`, `test/sim/harness.go`).

`measure` runs a scenario's traffic through the product's classifier and cost engine, and
`oracle` derives types and costs from the scenario itself, with a decision chain, a price
sheet and a tier walk of its own.

* `Sim.Scenario.Separated` — what keeps a scenario from being ambiguous;
* `Sim.classify_eq_oracleClassify` — one edge: the same traffic type;
* `Sim.measure_eq_oracle` — every valid scenario that is separated: the same results.
-/
import Tollwing.ClassifierSpec
import Tollwing.PricingOracle
import Tollwing.Scenario

namespace Sim

/-- `EdgeResult`. -/
structure EdgeResult where
  src : String
  dst : String
  type : TrafficType
  costUSD : ℚ
  deriving DecidableEq

/-! ### The oracle -/

/-- `prefixContains`. -/
def prefixContains (ps : List Prefix) (a : Addr) : Bool := ps.any fun p => p.contains a

namespace Scenario

variable (s : Scenario)

/-- The zone of a service, `""` if there is none. -/
def zoneOf (name : String) : String := (s.services.lookup name).elim "" Service.zone

/-- The region of a zone, `""` if there is none. -/
def regionOf (zone : String) : String := (s.zones.lookup zone).elim "" Zone.region

end Scenario

/-- `zoneBased`. -/
def zoneBased (s : Scenario) (src dst : String) : TrafficType :=
  let srcZone := s.zoneOf src
  let dstZone := s.zoneOf dst
  if srcZone = "" ∨ dstZone = "" then .unknown
  else if srcZone = dstZone then .sameZone
  else if s.regionOf srcZone = s.regionOf dstZone then .crossAZ
  else .crossRegion

/-- The first category whose prefixes contain the address. -/
def oracleTopology (s : Scenario) (dst : Addr) : Option TrafficType :=
  if prefixContains s.peeringPrefixes dst then some .vpcPeering
  else if prefixContains s.tgwPrefixes dst then some .transitGateway
  else if prefixContains s.endpointPrefixes dst then some .vpcEndpoint
  else none

/-- `oracleClassify`. -/
def oracleClassify (s : Scenario) (e : Edge) : TrafficType :=
  if e.sidecar then .serviceMeshInternal
  else if e.intraNode then .intraNode
  else if e.cloudServicePublic then .cloudServicePublic
  else if e.dst ∈ s.services then zoneBased s e.src e.dst
  else
    match s.dstIP e.dst with
    | none => .unknown
    | some dst =>
      if dst.isLoopback then .intraNode
      else if prefixContains s.clusterPrefixes dst then .unknown
      else if dst.isPrivate || dst.isLinkLocalUnicast then
        if dst ∈ s.natAddrs then .natGatewayEgress else (oracleTopology s dst).getD .unknown
      else
        (oracleTopology s dst).getD
          (if s.defaultRouteNAT then .natGatewayEgress else .internetEgress)

/-- The loop of `Oracle`, with the egress metered so far. -/
def oracleLoop (s : Scenario) (sheet : OracleSheet) (singleMeter : Bool) :
    ℚ → List Edge → List EdgeResult
  | _, [] => []
  | cumEgressGiB, e :: es =>
    let tt := oracleClassify s e
    let (cst, egressGiB) := oracleCost sheet tt (toGiB e.bytes.1) (toGiB e.bytes.2) singleMeter
      cumEgressGiB
    ⟨e.src, e.dst, tt, cst⟩ :: oracleLoop s sheet singleMeter (cumEgressGiB + egressGiB) es

/-- `Oracle`. -/
def oracle (s : Scenario) : List EdgeResult :=
  oracleLoop s (sheetFor s.provider) (s.pricingMode = "single_meter") 0 s.traffic

/-! ### The product -/

/-- `addrToNBO`: the four bytes of an address, loaded in the host's order.  `As4` panics
for an address without four bytes. -/
def addrToNBO (host : ByteOrder) (a : Addr) : Option UInt32 :=
  match a.unmap with
  | .v4 bits => some ⟨host.putUint32 ⟨bits⟩⟩
  | _ => none

/-- `pricingMode`. -/
def pricingMode (s : Scenario) : PricingMode :=
  if s.pricingMode = "single_meter" then .singleMeter else .marginal

/-- The calls that tell the resolver the zones of the services. -/
def zoneCalls (s : Scenario) (order : RangeOrder String) : List ConfigCall :=
  (s.services.listed order).filterMap fun (name, svc) =>
    (s.serviceIP name).map fun ip => .setIPZone ip svc.zone

/-- The calls that tell the classifier the cloud topology. -/
def topologyCalls (s : Scenario) : List ConfigCall :=
  [.setNATGatewayIPs s.natAddrs, .setVPCPeeringCIDRs s.peeringPrefixes,
    .setTransitGatewayCIDRs s.tgwPrefixes, .setVPCEndpointCIDRs s.endpointPrefixes,
    .setDefaultRouteNAT s.defaultRouteNAT]

/-- The call that tells the classifier the cluster, if there is something to tell. -/
def clusterCalls (s : Scenario) : List ConfigCall :=
  if 0 < s.clusterPrefixes.length then [.setClusterCIDRs s.clusterPrefixes] else []

/-- The calls that configure the classifier. -/
def configCalls (s : Scenario) (order : RangeOrder String) : List ConfigCall :=
  zoneCalls s order ++ topologyCalls s ++ clusterCalls s

section
variable (host : ByteOrder) (s : Scenario) (cls : Classifier) (card : ExactCard)

/-- The type that the product gives an edge; `none` is a panic. -/
def measureType (e : Edge) : Option TrafficType := do
  let srcIP ← addrToNBO host ((s.serviceIP e.src).getD .zero)
  let dstIP ← addrToNBO host ((s.dstIP e.dst).getD .zero)
  let res := cls.classify host
    { srcIP := srcIP, dstIP := dstIP, isSidecar := e.sidecar, intraNode := e.intraNode }
  some (if e.cloudServicePublic then .cloudServicePublic else res.type)

/-- The loop of `measure`; every edge is priced at a time of its own. -/
def measureLoop : Engine → List (Time × Edge) → Option (List EdgeResult)
  | _, [] => some []
  | engine, (now, e) :: es => do
    let tt ← measureType host s cls e
    let (engine, costs) := engine.calculate card.provider card.region
      [(now, ⟨tt, e.bytes.1, e.bytes.2⟩)]
    let rest ← measureLoop engine es
    some (⟨e.src, e.dst, tt, costs.headD 0⟩ :: rest)

end

/-- `Measure`, started at a time, with the times when the edges are priced. -/
def measure (host : ByteOrder) (s : Scenario) (order : RangeOrder String) (started : Time)
    (clock : ℕ → Time) : Option (List EdgeResult) :=
  let card := rateCard s.provider s.region
  measureLoop host s (.configure (configCalls s order)) card
    (measureEngine card (pricingMode s) started)
    (s.traffic.zipIdx.map fun (e, i) => (clock i, e))

/-! ### Separated scenarios -/

/-- The prefixes of at most one category contain the address. -/
def OneCategory (s : Scenario) (a : Addr) : Prop :=
  (prefixContains s.peeringPrefixes a → ¬prefixContains s.tgwPrefixes a) ∧
    (prefixContains s.peeringPrefixes a → ¬prefixContains s.endpointPrefixes a) ∧
    (prefixContains s.tgwPrefixes a → ¬prefixContains s.endpointPrefixes a)

instance (s : Scenario) (a : Addr) : Decidable (OneCategory s a) :=
  inferInstanceAs (Decidable (_ ∧ _ ∧ _))

/-- What keeps a scenario from being ambiguous: the zone names tell the regions, an edge to
a public cloud service has no other hint, the synthetic addresses of the services are their
own and are not claimed by the cloud topology, and an external endpoint is an IPv4 address
of at most one topology category. -/
structure Scenario.Separated (s : Scenario) : Prop where
  services : s.services.keys.card ≤ 256
  regions : ∀ z ∈ s.zones.keys, ∀ z' ∈ s.zones.keys,
    (regionFromZone z = regionFromZone z' ↔ s.regionOf z = s.regionOf z')
  hints : ∀ e ∈ s.traffic, e.cloudServicePublic → ¬e.sidecar ∧ ¬e.intraNode
  internal : ∀ name ∈ s.services.keys, ∀ ip ∈ s.serviceIP name,
    prefixContains s.clusterPrefixes ip ∨ ip ∉ s.natAddrs ∧ oracleTopology s ip = none
  external : ∀ e ∈ s.traffic, e.dst ∉ s.services → ∀ ip ∈ s.dstIP e.dst,
    is4 ip ∧ (∀ name ∈ s.services.keys, s.serviceIP name ≠ some ip) ∧ OneCategory s ip
  bytes : ∀ e ∈ s.traffic, e.bytes.1.toNat + e.bytes.2.toNat < 2 ^ 64

/-! ### The configured classifier -/

section
open History

variable {s : Scenario} {order : RangeOrder String}

theorem mem_zoneCalls {x : ConfigCall} :
    x ∈ zoneCalls s order ↔ ∃ name svc ip, s.services.lookup name = some svc ∧
      s.serviceIP name = some ip ∧ x = .setIPZone ip svc.zone := by
  rw [zoneCalls, List.mem_filterMap]
  constructor
  · rintro ⟨⟨name, svc⟩, hlisted, hx⟩
    obtain ⟨ip, hip, rfl⟩ := Option.map_eq_some_iff.mp hx
    exact ⟨name, svc, ip, FinMap.mem_listed.mp hlisted, hip, rfl⟩
  · rintro ⟨name, svc, ip, hsvc, hip, rfl⟩
    exact ⟨(name, svc), FinMap.mem_listed.mpr hsvc, Option.map_eq_some_iff.mpr ⟨ip, hip, rfl⟩⟩

theorem mem_clusterCalls {x : ConfigCall} (hx : x ∈ clusterCalls s) :
    x = .setClusterCIDRs s.clusterPrefixes := by
  rw [clusterCalls] at hx
  split_ifs at hx
  · exact List.mem_singleton.mp hx
  · exact absurd hx List.not_mem_nil

/-- What is set neither by a zone nor by the cluster is set by the topology. -/
theorem lastValue_configCalls {ν : Type} {setting : ConfigCall → Option ν} (d : ν)
    (hzone : ∀ ip zone, setting (.setIPZone ip zone) = none)
    (hcluster : ∀ cidrs, setting (.setClusterCIDRs cidrs) = none) :
    lastValue setting d (configCalls s order) = lastValue setting d (topologyCalls s) := by
  have hzones : ∀ x ∈ zoneCalls s order, setting x = none := by
    intro x hx
    obtain ⟨name, svc, ip, -, -, rfl⟩ := mem_zoneCalls.mp hx
    exact hzone ip svc.zone
  have hlast : ∀ x ∈ clusterCalls s, setting x = none := by
    intro x hx
    rw [mem_clusterCalls hx]
    exact hcluster _
  rw [configCalls, lastValue_append, lastValue_append, lastValue_of_unset hzones,
    lastValue_of_unset hlast]

theorem peeringCIDRs_configCalls : peeringCIDRs (configCalls s order) = s.peeringPrefixes :=
  lastValue_configCalls [] (fun _ _ => rfl) fun _ => rfl

theorem tgwCIDRs_configCalls : tgwCIDRs (configCalls s order) = s.tgwPrefixes :=
  lastValue_configCalls [] (fun _ _ => rfl) fun _ => rfl

theorem endpointCIDRs_configCalls : endpointCIDRs (configCalls s order) = s.endpointPrefixes :=
  lastValue_configCalls [] (fun _ _ => rfl) fun _ => rfl

theorem natGatewayIPs_configCalls : natGatewayIPs (configCalls s order) = s.natAddrs :=
  lastValue_configCalls [] (fun _ _ => rfl) fun _ => rfl

theorem defaultRouteNAT_configCalls :
    defaultRouteNAT (configCalls s order) = s.defaultRouteNAT :=
  lastValue_configCalls false (fun _ _ => rfl) fun _ => rfl

theorem clusterCIDRs_configCalls : clusterCIDRs (configCalls s order) = s.clusterPrefixes := by
  rw [clusterCIDRs]
  by_cases hcluster : 0 < s.clusterPrefixes.length
  · rw [configCalls, clusterCalls, if_pos hcluster]
    exact sinceReset_concat_reset rfl
  · -- nothing sets the list, which is empty
    have hempty := List.length_eq_zero_iff.mp (Nat.eq_zero_of_not_pos hcluster)
    rw [configCalls, clusterCalls, if_neg hcluster, List.append_nil, hempty]
    refine sinceReset_of_unset fun x hx => ?_
    rcases List.mem_append.mp hx with hzone | hrest
    · obtain ⟨name, svc, ip, -, -, rfl⟩ := mem_zoneCalls.mp hzone
      exact ⟨rfl, rfl⟩
    · have htopology : ∀ x ∈ topologyCalls s, x.clusterReset = none ∧ x.clusterAdded = [] := by
        simp [topologyCalls, ConfigCall.clusterReset, ConfigCall.clusterAdded]
      exact htopology x hrest

/-- The zone of an address is what the zone calls say. -/
theorem documentedZone_configCalls (addr : Addr) :
    documentedZone (configCalls s order) addr
      = (lastValue (ConfigCall.ipZoneSet addr) none (zoneCalls s order)).getD "" := by
  -- only the zone calls are about zones
  have htopology : ∀ x ∈ topologyCalls s ++ clusterCalls s, x ≠ .addLocalIP addr ∧
      x.cidrZonesReset = none ∧ x.cidrZonesAdded = [] ∧ x.ipZoneSet addr = none := by
    intro x hx
    rcases List.mem_append.mp hx with hx | hx
    · rw [topologyCalls] at hx
      simp only [List.mem_cons, List.not_mem_nil, or_false] at hx
      rcases hx with rfl | rfl | rfl | rfl | rfl <;> exact ⟨by simp, rfl, rfl, rfl⟩
    · rw [mem_clusterCalls hx]
      exact ⟨by simp, rfl, rfl, rfl⟩
  have hlocal : ConfigCall.addLocalIP addr ∉ configCalls s order := by
    rw [configCalls, List.append_assoc]
    intro hx
    rcases List.mem_append.mp hx with hzone | hrest
    · obtain ⟨name, svc, ip, -, -, heq⟩ := mem_zoneCalls.mp hzone
      exact absurd heq (by simp)
    · exact (htopology _ hrest).1 rfl
  have hcidrs : sinceReset ConfigCall.cidrZonesReset ConfigCall.cidrZonesAdded
      (configCalls s order) = [] := by
    rw [configCalls, List.append_assoc]
    refine sinceReset_of_unset fun x hx => ?_
    rcases List.mem_append.mp hx with hzone | hrest
    · obtain ⟨name, svc, ip, -, -, rfl⟩ := mem_zoneCalls.mp hzone
      exact ⟨rfl, rfl⟩
    · exact ⟨(htopology x hrest).2.1, (htopology x hrest).2.2.1⟩
  have hzones : lastValue (ConfigCall.ipZoneSet addr) none (configCalls s order)
      = lastValue (ConfigCall.ipZoneSet addr) none (zoneCalls s order) := by
    rw [configCalls, List.append_assoc, lastValue_append]
    exact lastValue_of_unset fun x hx => (htopology x hx).2.2.2
  rw [documentedZone, if_neg hlocal, hcidrs, hzones]
  rfl

/-- The address of a service is in the zone of the service. -/
theorem documentedZone_service (hcard : s.services.keys.card ≤ 256) {name : String} {ip : Addr}
    (hip : s.serviceIP name = some ip) :
    documentedZone (configCalls s order) ip = s.zoneOf name := by
  obtain ⟨svc, -, -, hsvc, -⟩ := Scenario.serviceIP_eq_some hip
  have hzone : s.zoneOf name = svc.zone := by
    rw [Scenario.zoneOf, hsvc]
    rfl
  rw [documentedZone_configCalls, hzone]
  have hset : lastValue (ConfigCall.ipZoneSet ip) none (zoneCalls s order) = some svc.zone := by
    refine lastValue_of_mem (mem_zoneCalls.mpr ⟨name, svc, ip, hsvc, hip, rfl⟩) (if_pos rfl) ?_
    intro x hx zone hx'
    obtain ⟨name', svc', ip', hsvc', hip', rfl⟩ := mem_zoneCalls.mp hx
    rw [ConfigCall.ipZoneSet] at hx'
    split_ifs at hx' with heq
    -- another service has another address
    obtain rfl := Scenario.serviceIP_injective hcard (heq ▸ hip') hip
    rw [← Option.some.inj hx', Option.some.inj (hsvc'.symm.trans hsvc)]
  rw [hset]
  rfl

/-- An address that is no service's is in no zone. -/
theorem documentedZone_other {ip : Addr}
    (hip : ∀ name ∈ s.services.keys, s.serviceIP name ≠ some ip) :
    documentedZone (configCalls s order) ip = "" := by
  rw [documentedZone_configCalls, lastValue_of_unset]
  · rfl
  · intro x hx
    obtain ⟨name, svc, ip', hsvc, hip', rfl⟩ := mem_zoneCalls.mp hx
    rw [ConfigCall.ipZoneSet, if_neg]
    rintro rfl
    exact hip name (FinMap.mem_keys_iff_lookup.mpr (hsvc ▸ Option.some_ne_none svc)) hip'

end

/-! ### One edge -/

section

variable {s : Scenario} {order : RangeOrder String} {host : ByteOrder}

theorem longestMatch_eq_bot_iff {cidrs : List Prefix} {a : Addr} :
    longestMatch cidrs a = ⊥ ↔ ¬prefixContains cidrs a := by
  rw [longestMatch, LongestMatch.maxKey, List.maximum_eq_bot, List.map_eq_nil_iff,
    List.filter_eq_nil_iff, prefixContains, List.any_eq_true]
  simp

/-- With one category there is nothing to choose. -/
theorem topologyType_eq_oracleTopology {a : Addr} (h : OneCategory s a) :
    topologyType s.peeringPrefixes s.tgwPrefixes s.endpointPrefixes a = oracleTopology s a := by
  obtain ⟨hptgw, hpendpoint, htendpoint⟩ := h
  rw [topologyType, oracleTopology]
  by_cases hpeering : prefixContains s.peeringPrefixes a
  · have htgw := longestMatch_eq_bot_iff.mpr (hptgw hpeering)
    have hendpoint := longestMatch_eq_bot_iff.mpr (hpendpoint hpeering)
    have hsome : longestMatch s.peeringPrefixes a ≠ ⊥ := fun hbot =>
      longestMatch_eq_bot_iff.mp hbot hpeering
    simp [hpeering, htgw, hendpoint, hsome]
  have hpbot := longestMatch_eq_bot_iff.mpr hpeering
  by_cases htgw : prefixContains s.tgwPrefixes a
  · have hendpoint := longestMatch_eq_bot_iff.mpr (htendpoint htgw)
    have hsome : longestMatch s.tgwPrefixes a ≠ ⊥ := fun hbot =>
      longestMatch_eq_bot_iff.mp hbot htgw
    simp [hpeering, htgw, hpbot, hendpoint, hsome, hsome.symm]
  have htbot := longestMatch_eq_bot_iff.mpr htgw
  by_cases hendpoint : prefixContains s.endpointPrefixes a
  · have hsome : longestMatch s.endpointPrefixes a ≠ ⊥ := fun hbot =>
      longestMatch_eq_bot_iff.mp hbot hendpoint
    simp [hpeering, htgw, hendpoint, hpbot, htbot, hsome, hsome.symm]
  · have hebot := longestMatch_eq_bot_iff.mpr hendpoint
    simp [hpeering, htgw, hendpoint, hpbot, htbot, hebot]

/-- The zones of two services decide as their regions do. -/
theorem zoneType_eq_zoneBased (hvalid : s.Valid) (hsep : s.Separated) {src dst : String}
    (hsrc : src ∈ s.services) (hdst : dst ∈ s.services) :
    zoneType (s.zoneOf src) (s.zoneOf dst) = zoneBased s src dst := by
  have hdeclared : ∀ {name}, name ∈ s.services → s.zoneOf name ∈ s.zones.keys := by
    intro name hname
    obtain ⟨svc, hsvc⟩ := Finmap.mem_iff.mp hname
    rw [Scenario.zoneOf, hsvc]
    exact Finmap.mem_keys.mpr (hvalid.zones name svc hsvc)
  have hregions := hsep.regions _ (hdeclared hsrc) _ (hdeclared hdst)
  rw [zoneType, zoneBased]
  simp only [hregions]

/-- The classifier reads the address that was loaded. -/
theorem exists_addrToNBO (host : ByteOrder) (bits : BitVec 32) :
    ∃ v, addrToNBO host (.v4 bits) = some v ∧ nboToAddr host v = .v4 bits :=
  ⟨_, rfl, congrArg Addr.v4 (ByteOrder.putUint32_putUint32 host bits)⟩

/-- The private ranges of IPv4, as the oracle asks for them. -/
theorem private_v4_iff (bits : BitVec 32) :
    (Addr.v4 bits).isPrivate || (Addr.v4 bits).isLinkLocalUnicast ↔
      ∃ p ∈ privateRanges, p.contains (.v4 bits) := by
  rw [Bool.or_eq_true, Addr.isPrivate_v4_iff, Addr.isLinkLocalUnicast_v4_iff, privateRanges]
  simp [or_assoc]

/-- The documented chain on the classifier that `measure` configures. -/
theorem documentedType_configCalls (flow : FlowInfo) {src dst : Addr}
    (hsrc : nboToAddr host flow.srcIP = src) (hdst : nboToAddr host flow.dstIP = dst) :
    documentedType (configCalls s order) host flow =
      let zones := zoneType (documentedZone (configCalls s order) src)
        (documentedZone (configCalls s order) dst)
      let topology := topologyType s.peeringPrefixes s.tgwPrefixes s.endpointPrefixes dst
      if flow.isSidecar then .serviceMeshInternal
      else if flow.intraNode ∨ loopbackRange.contains dst then .intraNode
      else if ∃ p ∈ s.clusterPrefixes, p.contains dst then zones
      else if ∃ p ∈ privateRanges, p.contains dst then
        if dst ∈ s.natAddrs then .natGatewayEgress else topology.getD zones
      else topology.getD (if s.defaultRouteNAT then .natGatewayEgress else .internetEgress) := by
  rw [documentedType, hsrc, hdst]
  simp only [peeringCIDRs_configCalls, tgwCIDRs_configCalls, endpointCIDRs_configCalls,
    natGatewayIPs_configCalls, defaultRouteNAT_configCalls, clusterCIDRs_configCalls]

/-- A flow to a service: the product finds the zones, as the oracle does. -/
theorem documentedType_service (hvalid : s.Valid) (hsep : s.Separated) (flow : FlowInfo)
    {src dst : String} {srcIP dstIP : Addr} (hsrc : s.serviceIP src = some srcIP)
    (hdst : s.serviceIP dst = some dstIP) (hsrcIP : nboToAddr host flow.srcIP = srcIP)
    (hdstIP : nboToAddr host flow.dstIP = dstIP) (hside : ¬flow.isSidecar)
    (hnode : ¬flow.intraNode) :
    documentedType (configCalls s order) host flow = zoneBased s src dst := by
  have hmem : ∀ {name ip}, s.serviceIP name = some ip → name ∈ s.services := by
    intro name ip hip
    obtain ⟨svc, -, -, hsvc, -⟩ := Scenario.serviceIP_eq_some hip
    exact Finmap.mem_of_lookup_eq_some hsvc
  obtain ⟨bits, rfl, hoctet⟩ := Scenario.serviceIP_private hdst
  have hloopback : ¬loopbackRange.contains (.v4 bits) := by
    rw [loopbackRange, ← Addr.isLoopback_v4_iff]
    show ¬(Addr.octet bits 0 == 127)
    rw [hoctet]
    decide
  have hprivate : ∃ p ∈ privateRanges, p.contains (.v4 bits) := by
    have hten : (Addr.octet bits 0 == 10) = true := by rw [hoctet]; rfl
    rw [← private_v4_iff, Addr.isPrivate, Addr.unmap_v4]
    simp only [hten, Bool.true_or]
  rw [documentedType_configCalls flow hsrcIP hdstIP]
  simp only [documentedZone_service hsep.services hsrc, documentedZone_service hsep.services hdst,
    zoneType_eq_zoneBased hvalid hsep (hmem hsrc) (hmem hdst)]
  rw [if_neg hside, if_neg (not_or.mpr ⟨hnode, hloopback⟩), if_pos hprivate]
  rcases hsep.internal dst (Finmap.mem_keys.mpr (hmem hdst)) _ hdst with hcluster | ⟨hnat, hnone⟩
  · rw [if_pos (by simpa [prefixContains] using hcluster)]
  · -- outside of the cluster's ranges nothing else claims the address
    have hone : OneCategory s (.v4 bits) := by
      simp only [oracleTopology] at hnone
      split_ifs at hnone with hpeering htgw hendpoint
      exact ⟨fun h => absurd h hpeering, fun h => absurd h hpeering, fun h => absurd h htgw⟩
    rw [if_neg hnat, topologyType_eq_oracleTopology hone, hnone, Option.getD_none, ite_self]

/-- A flow to an external endpoint: by its address, and it has no zone. -/
theorem documentedType_external (flow : FlowInfo) {srcIP : Addr} {bits : BitVec 32}
    (hother : ∀ name ∈ s.services.keys, s.serviceIP name ≠ some (.v4 bits))
    (hone : OneCategory s (.v4 bits))
    (hsrcIP : nboToAddr host flow.srcIP = srcIP) (hdstIP : nboToAddr host flow.dstIP = .v4 bits)
    (hside : ¬flow.isSidecar) (hnode : ¬flow.intraNode) :
    documentedType (configCalls s order) host flow =
      if (Addr.v4 bits).isLoopback then .intraNode
      else if prefixContains s.clusterPrefixes (.v4 bits) then .unknown
      else if (Addr.v4 bits).isPrivate || (Addr.v4 bits).isLinkLocalUnicast then
        if .v4 bits ∈ s.natAddrs then .natGatewayEgress
        else (oracleTopology s (.v4 bits)).getD .unknown
      else
        (oracleTopology s (.v4 bits)).getD
          (if s.defaultRouteNAT then .natGatewayEgress else .internetEgress) := by
  have hzones : ∀ zone, zoneType zone "" = .unknown := fun zone => if_pos (Or.inr rfl)
  have hcluster : (∃ p ∈ s.clusterPrefixes, p.contains (.v4 bits)) ↔
      prefixContains s.clusterPrefixes (.v4 bits) := by
    rw [prefixContains, List.any_eq_true]
  rw [documentedType_configCalls flow hsrcIP hdstIP]
  simp only [documentedZone_other hother, hzones, topologyType_eq_oracleTopology hone, hcluster,
    ← private_v4_iff, loopbackRange, ← Addr.isLoopback_v4_iff]
  rw [if_neg hside]
  simp only [hnode, Bool.false_eq_true, false_or]

/-- **One edge** gets the type that the oracle gives it. -/
theorem measureType_eq_oracleClassify (hvalid : s.Valid) (hsep : s.Separated) {e : Edge}
    (he : e ∈ s.traffic) :
    measureType host s (.configure (configCalls s order)) e = some (oracleClassify s e) := by
  obtain ⟨srcIP, hsrc⟩ := hvalid.serviceIP (hvalid.src e he)
  obtain ⟨srcBits, rfl, -⟩ := Scenario.serviceIP_private hsrc
  have hdst : ∃ bits, s.dstIP e.dst = some (.v4 bits) := by
    by_cases hservice : e.dst ∈ s.services
    · obtain ⟨ip, hip⟩ := hvalid.serviceIP hservice
      obtain ⟨bits, rfl, -⟩ := Scenario.serviceIP_private hip
      exact ⟨bits, by rw [Scenario.dstIP, if_pos hservice, hip]⟩
    · obtain ⟨ext, hext⟩ := Finmap.mem_iff.mp ((hvalid.dst e he).resolve_left hservice)
      obtain ⟨ip, hip⟩ := Option.isSome_iff_exists.mp (hvalid.external e.dst ext hext)
      have hdst : s.dstIP e.dst = some ip := by
        rw [Scenario.dstIP, if_neg hservice, hext, Option.bind_some, hip]
      have his4 := (hsep.external e he hservice ip hdst).1
      cases ip with
      | v4 bits => exact ⟨bits, hdst⟩
      | zero => exact absurd his4 (by simp [is4])
      | v6 bits zone => exact absurd his4 (by simp [is4])
  obtain ⟨bits, hdst⟩ := hdst
  obtain ⟨src, hsrcNBO, hsrcIP⟩ := exists_addrToNBO host srcBits
  obtain ⟨dst, hdstNBO, hdstIP⟩ := exists_addrToNBO host bits
  rw [measureType, hsrc, hdst, Option.getD_some, Option.getD_some, hsrcNBO, hdstNBO]
  simp only [Option.bind_eq_bind, Option.bind_some, classify_type_eq]
  congr 1
  generalize hflow : (⟨src, dst, 0, 0, 0, 0, e.intraNode, e.sidecar⟩ : FlowInfo) = flow
  replace hsrcIP : nboToAddr host flow.srcIP = .v4 srcBits := hflow ▸ hsrcIP
  replace hdstIP : nboToAddr host flow.dstIP = .v4 bits := hflow ▸ hdstIP
  have hflowSide : flow.isSidecar = e.sidecar := hflow ▸ rfl
  have hflowNode : flow.intraNode = e.intraNode := hflow ▸ rfl
  by_cases hside : e.sidecar
  · have hcloud : ¬e.cloudServicePublic := fun h => (hsep.hints e he h).1 hside
    rw [if_neg hcloud, documentedType_configCalls flow hsrcIP hdstIP, oracleClassify, hflowSide,
      if_pos hside, if_pos hside]
  by_cases hnode : e.intraNode
  · have hcloud : ¬e.cloudServicePublic := fun h => (hsep.hints e he h).2 hnode
    rw [if_neg hcloud, documentedType_configCalls flow hsrcIP hdstIP, oracleClassify, hflowSide,
      if_neg hside, if_neg hside, if_pos hnode, hflowNode, if_pos (Or.inl hnode)]
  rw [oracleClassify, if_neg hside, if_neg hnode]
  by_cases hcloud : e.cloudServicePublic
  · rw [if_pos hcloud, if_pos hcloud]
  rw [if_neg hcloud, if_neg hcloud]
  by_cases hservice : e.dst ∈ s.services
  · rw [if_pos hservice]
    rw [Scenario.dstIP, if_pos hservice] at hdst
    exact documentedType_service hvalid hsep flow hsrc hdst hsrcIP hdstIP
      (hflowSide ▸ hside) (hflowNode ▸ hnode)
  · rw [if_neg hservice, hdst]
    obtain ⟨-, hother, hone⟩ := hsep.external e he hservice _ hdst
    exact documentedType_external flow hother hone hsrcIP hdstIP (hflowSide ▸ hside)
      (hflowNode ▸ hnode)

/-! ### A scenario -/

/-- The rest of a scenario: the meters stay together, and the results agree. -/
theorem measureLoop_eq_oracleLoop (hvalid : s.Valid) (hsep : s.Separated) {card : ExactCard}
    {sheet : OracleSheet} {mode : PricingMode} {month : ℤ} (h : Transcribes card sheet)
    {es : List (Time × Edge)} (hes : ∀ x ∈ es, x.1.month = month ∧ x.2 ∈ s.traffic)
    {engine : Engine} {cumGiB : ℚ} (hagree : MetersAgree card mode month engine cumGiB)
    (hcard : engine.store.get card.provider card.region = some card) :
    measureLoop host s (.configure (configCalls s order)) card engine es
      = some (oracleLoop s sheet (mode = .singleMeter) cumGiB (es.map Prod.snd)) := by
  induction es generalizing engine cumGiB with
  | nil => rfl
  | cons x es ih =>
    obtain ⟨now, e⟩ := x
    obtain ⟨hnow, he⟩ := hes (now, e) List.mem_cons_self
    set flow : FlowRecord := ⟨oracleClassify s e, e.bytes.1, e.bytes.2⟩ with hflow
    have hlt : flow.txBytes.toNat + flow.rxBytes.toNat < 2 ^ 64 := hsep.bytes e he
    obtain ⟨hcost, hmeters⟩ := calculateFlow_eq_oracle h hagree hnow hlt
    have hstore := (Engine.calculateFlow_store engine now card flow).1
    have hrest := ih (fun y hy => hes y (List.mem_cons_of_mem _ hy)) hmeters (hstore ▸ hcard)
    have hcalc : engine.calculate card.provider card.region [(now, flow)]
        = ((engine.calculateFlow now card flow).1, [(engine.calculateFlow now card flow).2]) := by
      rw [Engine.calculate, hcard]
      rfl
    rw [measureLoop, measureType_eq_oracleClassify hvalid hsep he]
    simp only [Option.bind_eq_bind, Option.bind_some, ← hflow, hcalc, hrest, List.headD_cons, hcost]
    rfl

end

/-- **The product agrees with the oracle**: for every scenario that is valid and separated,
on hosts of either byte order, in whatever order its maps are ranged over, and if it is
priced within one month, `Measure` does not panic and returns what `Oracle` does, the types
and the costs of all edges. -/
theorem measure_eq_oracle (host : ByteOrder) (s : Scenario) (order order' : RangeOrder String)
    (started : Time) (clock : ℕ → Time) (hvalid : s.validate order' = none)
    (hsep : s.Separated) (hclock : ∀ i < s.traffic.length, (clock i).month = started.month) :
    measure host s order started clock = some (oracle s) := by
  have hvalid := (Scenario.validate_eq_none_iff order').mp hvalid
  have hmode : decide (pricingMode s = .singleMeter) = decide (s.pricingMode = "single_meter") := by
    rw [pricingMode]
    split_ifs with hsingle <;> simp [hsingle]
  have hedges : (s.traffic.zipIdx.map fun (e, i) => (clock i, e)).map Prod.snd = s.traffic := by
    rw [List.map_map]
    exact List.zipIdx_map_fst 0 s.traffic
  have hes : ∀ x ∈ s.traffic.zipIdx.map fun (e, i) => (clock i, e),
      x.1.month = started.month ∧ x.2 ∈ s.traffic := by
    intro x hx
    obtain ⟨⟨e, i⟩, hei, rfl⟩ := List.mem_map.mp hx
    have hi := List.mem_zipIdx_iff_getElem?.mp hei
    obtain ⟨hlt, -⟩ := List.getElem?_eq_some_iff.mp hi
    exact ⟨hclock i hlt, List.mem_of_getElem? hi⟩
  have hagree : MetersAgree (rateCard s.provider s.region) (pricingMode s) started.month
      (measureEngine (rateCard s.provider s.region) (pricingMode s) started) 0 :=
    ⟨rfl, rfl, le_rfl, fun _ => rfl⟩
  rw [measure, oracle]
  refine (measureLoop_eq_oracleLoop hvalid hsep (transcribes_rateCard s.provider s.region) hes
    hagree (RateCardStore.get_set _ _)).trans ?_
  rw [hedges, hmode]

/-- Two services in two zones, and an endpoint behind a NAT gateway. -/
def shop : Scenario where
  name := "shop"
  provider := "aws"
  region := "us-east-1"
  zones := .ofList [("us-east-1b", ⟨"us-east-1"⟩), ("us-east-1a", ⟨"us-east-1"⟩)]
  services := .ofList [("web", ⟨"us-east-1a"⟩), ("api", ⟨"us-east-1b"⟩)]
  external := .ofList [("api-endpoint", ⟨"93.184.216.34"⟩)]
  traffic :=
    [{ src := "web", dst := "api", requests := 1048576, requestBytes := 512,
        responseBytes := 512 },
      { src := "api", dst := "api-endpoint", txBytes := 2147483648 }]
  natGatewayIPs := []
  vpcPeeringCIDRs := ["10.200.0.0/16"]
  transitGatewayCIDRs := []
  vpcEndpointCIDRs := []
  clusterCIDRs := []
  defaultRouteNAT := true
  pricingMode := ""

theorem measure_eq_oracle_shop :
    measure .little shop byName ⟨0, 0⟩ (fun i => ⟨0, i⟩) = some
      [⟨"web", "api", .crossAZ, 0.01⟩, ⟨"api", "api-endpoint", .natGatewayEgress, 0.27⟩] := by
  have hvalid : shop.validate byName = none := by decide +kernel
  have hsep : shop.Separated :=
    ⟨by decide +kernel, by decide +kernel, by decide +kernel, by decide +kernel, by decide +kernel,
      by decide +kernel⟩
  refine (measure_eq_oracle .little shop byName byName ⟨0, 0⟩ _ hvalid hsep fun _ _ => rfl).trans ?_
  decide +kernel

end Sim

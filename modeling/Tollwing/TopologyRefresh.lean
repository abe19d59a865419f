/-
The topology refresher (`pkg/cloud/topology.go`).

A refresh asks the provider for each part of the topology and hands what is answered to
the classifier and its zone resolver.  A call that fails leaves its part as it is.

* `Topology` — what is known of each part: the last snapshot of its feed;
* `TopologyRefresher.foldl_refresh` — the classifier after any refreshes has that;
* `TopologyRefresher.refresh_isolates` — and a feed that fails changes nothing else.
-/
import Tollwing.ClassifierSpec
import Tollwing.PrefixOverlap

/-! ### What a provider reports -/

structure NATGateway where
  id : String := ""
  name : String := ""
  privateIP : Addr := .zero
  publicIP : Addr := .zero
  subnetID : String := ""
  vpcID : String := ""
  zone : String := ""
  deriving DecidableEq

structure VPCPeering where
  id : String := ""
  peerVPCID : String := ""
  peerAccountID : String := ""
  peerRegion : String := ""
  peerCIDRs : List Prefix := []
  status : String := ""
  deriving DecidableEq

structure TransitGateway where
  id : String := ""
  transitGWID : String := ""
  attachmentType : String := ""
  resourceID : String := ""
  cidrs : List Prefix := []
  deriving DecidableEq

/-- What the calls of one refresh are answered, nothing for a call that fails.  The
zone map is listed in the order its iteration takes. -/
structure TopologyAnswers where
  natGateways : Option (List NATGateway)
  nodeRoutesViaNAT : Option Bool
  vpcPeerings : Option (List VPCPeering)
  localVPCCIDRs : Option (List Prefix)
  transitGateways : Option (List TransitGateway)
  subnetZones : Option (List (Prefix × String))

/-- The optional capabilities of a provider. -/
structure ProviderCapabilities where
  natRouteDetector : Bool
  localVPCCIDRSource : Bool
  deriving DecidableEq

/-! ### The refresher -/

/-- The refresher with the classifier and the resolver it updates. -/
structure TopologyRefresher where
  classifier : Classifier
  natGWs : List NATGateway

namespace TopologyRefresher

variable (provider : ProviderCapabilities) (t : TopologyRefresher)

def refreshNATGateways : Option (List NATGateway) → TopologyRefresher
  | none => t
  | some gateways =>
    { natGWs := gateways
      classifier := t.classifier.setNATGatewayIPs
        ((gateways.map NATGateway.privateIP).filter Addr.isValid) }

def refreshNATRoute (answer : Option Bool) : TopologyRefresher :=
  if provider.natRouteDetector then
    match answer with
    | none => t
    | some viaNAT => { t with classifier := t.classifier.setDefaultRouteNAT viaNAT }
  else t

/-- `localVPCCIDRs`: none when the provider cannot report them or fails to. -/
def localVPCCIDRs (answer : Option (List Prefix)) : List Prefix :=
  if provider.localVPCCIDRSource then answer.getD [] else []

/-- The prefixes of the peerings but those that overlap a local one. -/
def peeringPrefixes (localCIDRs : List Prefix) (peerings : List VPCPeering) : List Prefix :=
  peerings.flatMap fun p => p.peerCIDRs.filter fun cidr => (overlapsAny cidr localCIDRs).isNone

/-- The local prefixes are only asked for when there are peerings. -/
def refreshVPCPeerings (answer : Option (List VPCPeering))
    (localAnswer : Option (List Prefix)) : TopologyRefresher :=
  match answer with
  | none => t
  | some peerings =>
    let cidrs := peeringPrefixes (localVPCCIDRs provider localAnswer) peerings
    { t with classifier := t.classifier.setVPCPeeringCIDRs cidrs }

def refreshTransitGateways : Option (List TransitGateway) → TopologyRefresher
  | none => t
  | some gateways =>
    { t with
      classifier := t.classifier.setTransitGatewayCIDRs (gateways.flatMap TransitGateway.cidrs) }

/-- An empty zone map is not taken over. -/
def refreshSubnetZones : Option (List (Prefix × String)) → TopologyRefresher
  | none => t
  | some mapping =>
    if mapping = [] then t
    else
      { t with
        classifier :=
          { t.classifier with resolver := t.classifier.resolver.setCIDRZones mapping } }

/-- `refresh`. -/
def refresh (x : TopologyAnswers) : TopologyRefresher :=
  let t := t.refreshNATGateways x.natGateways
  let t := t.refreshNATRoute provider x.nodeRoutesViaNAT
  let t := t.refreshVPCPeerings provider x.vpcPeerings x.localVPCCIDRs
  let t := t.refreshTransitGateways x.transitGateways
  t.refreshSubnetZones x.subnetZones

end TopologyRefresher

/-! ### What is known of the topology -/

/-- The parts of the topology. -/
structure Topology where
  natGatewayIPs : Set Addr
  defaultRouteNAT : Bool
  peerings : Set Prefix
  transitGateways : Set Prefix
  zones : List (Prefix × String)

/-- The topology a classifier works with. -/
def Classifier.topology (c : Classifier) : Topology :=
  { natGatewayIPs := {ip | ip ∈ c.natGatewayIPs}
    defaultRouteNAT := c.defaultRouteNAT
    peerings := {p | p ∈ c.peeringCIDRs}
    transitGateways := {p | p ∈ c.tgwCIDRs}
    zones := c.resolver.cidrZones }

namespace TopologyAnswers

variable (provider : ProviderCapabilities) (x : TopologyAnswers)

/-- The NAT gateways' addresses, if their feed answers. -/
def natIPs : Option (Set Addr) :=
  x.natGateways.map fun gateways => {ip | ip.isValid = true ∧ ∃ gw ∈ gateways, gw.privateIP = ip}

/-- Whether the default route goes through a NAT gateway. -/
def viaNAT : Option Bool := if provider.natRouteDetector then x.nodeRoutesViaNAT else none

/-- The local prefixes that this refresh learns. -/
def locals : List Prefix := if provider.localVPCCIDRSource then x.localVPCCIDRs.getD [] else []

/-- The prefixes of the peers, none of which shares an address with the local ones. -/
def peers : Option (Set Prefix) :=
  x.vpcPeerings.map fun peerings =>
    {p | p.isValid = true ∧ (∃ peering ∈ peerings, p ∈ peering.peerCIDRs) ∧
      ∀ o ∈ x.locals provider, ¬p.Overlaps o}

/-- The prefixes behind the transit gateways. -/
def attached : Option (Set Prefix) :=
  x.transitGateways.map fun gateways =>
    {p | p.isValid = true ∧ ∃ gw ∈ gateways, p ∈ gw.cidrs}

/-- The zones of the subnets. -/
def zones : Option (List (Prefix × String)) := x.subnetZones.filter (· ≠ [])

end TopologyAnswers

/-- A feed with a part of the topology of its own. -/
inductive Feed
  | natGateways
  | natRoute
  | vpcPeerings
  | transitGateways
  | subnetZones

/-- The answers with a feed failing. -/
def TopologyAnswers.fail (x : TopologyAnswers) : Feed → TopologyAnswers
  | .natGateways => { x with natGateways := none }
  | .natRoute => { x with nodeRoutesViaNAT := none }
  | .vpcPeerings => { x with vpcPeerings := none }
  | .transitGateways => { x with transitGateways := none }
  | .subnetZones => { x with subnetZones := none }

namespace Topology

variable (provider : ProviderCapabilities)

/-- What is known after a refresh: each part from its feed, or as before. -/
def update (s : Topology) (x : TopologyAnswers) : Topology :=
  { natGatewayIPs := x.natIPs.getD s.natGatewayIPs
    defaultRouteNAT := (x.viaNAT provider).getD s.defaultRouteNAT
    peerings := (x.peers provider).getD s.peerings
    transitGateways := x.attached.getD s.transitGateways
    zones := x.zones.getD s.zones }

/-- What is known after some refreshes: the last snapshot of each feed. -/
def known (s : Topology) (answers : List TopologyAnswers) : Topology :=
  { natGatewayIPs := History.lastValue TopologyAnswers.natIPs s.natGatewayIPs answers
    defaultRouteNAT :=
      History.lastValue (TopologyAnswers.viaNAT provider) s.defaultRouteNAT answers
    peerings := History.lastValue (TopologyAnswers.peers provider) s.peerings answers
    transitGateways := History.lastValue TopologyAnswers.attached s.transitGateways answers
    zones := History.lastValue TopologyAnswers.zones s.zones answers }

/-- One part replaced by that of another topology. -/
def replace (s s' : Topology) : Feed → Topology
  | .natGateways => { s with natGatewayIPs := s'.natGatewayIPs }
  | .natRoute => { s with defaultRouteNAT := s'.defaultRouteNAT }
  | .vpcPeerings => { s with peerings := s'.peerings }
  | .transitGateways => { s with transitGateways := s'.transitGateways }
  | .subnetZones => { s with zones := s'.zones }

theorem known_concat (s : Topology) (answers : List TopologyAnswers) (x : TopologyAnswers) :
    s.known provider (answers ++ [x]) = (s.known provider answers).update provider x := by
  simp only [known, update, History.lastValue_concat]

/-- A failed feed leaves its part, and nothing else, as it was. -/
theorem update_fail (s : Topology) (x : TopologyAnswers) (feed : Feed) :
    s.update provider (x.fail feed) = (s.update provider x).replace s feed := by
  cases feed with
  | natRoute =>
    have hfail : (x.fail .natRoute).viaNAT provider = none := ite_self none
    rw [update, hfail]
    rfl
  | _ => rfl

end Topology

namespace TopologyRefresher

variable (provider : ProviderCapabilities) (t : TopologyRefresher)

/-! ### One refresh -/

theorem topology_refreshNATGateways (x : TopologyAnswers) :
    (t.refreshNATGateways x.natGateways).classifier.topology
      = { t.classifier.topology with
          natGatewayIPs := x.natIPs.getD t.classifier.topology.natGatewayIPs } := by
  rw [TopologyAnswers.natIPs]
  cases x.natGateways with
  | none => rfl
  | some gateways =>
    have hset : {ip | ip ∈ ((gateways.map NATGateway.privateIP).filter Addr.isValid).toFinset}
        = {ip | ip.isValid = true ∧ ∃ gw ∈ gateways, gw.privateIP = ip} := by
      ext ip
      rw [Set.mem_ofPred_eq, List.mem_toFinset, List.mem_filter, List.mem_map, and_comm]
      rfl
    exact congrArg (fun ips => { t.classifier.topology with natGatewayIPs := ips }) hset

theorem topology_refreshNATRoute (x : TopologyAnswers) :
    (t.refreshNATRoute provider x.nodeRoutesViaNAT).classifier.topology
      = { t.classifier.topology with
          defaultRouteNAT :=
            (x.viaNAT provider).getD t.classifier.topology.defaultRouteNAT } := by
  rw [TopologyAnswers.viaNAT]
  cases x.nodeRoutesViaNAT with
  | none =>
    rw [refreshNATRoute, ite_self, ite_self]
    rfl
  | some viaNAT =>
    rw [refreshNATRoute]
    split_ifs <;> rfl

theorem mem_peeringPrefixes {localCIDRs : List Prefix} {peerings : List VPCPeering} {p : Prefix} :
    p ∈ peeringPrefixes localCIDRs peerings ↔
      (∃ peering ∈ peerings, p ∈ peering.peerCIDRs) ∧ ∀ o ∈ localCIDRs, ¬p.Overlaps o := by
  have hguard : (overlapsAny p localCIDRs).isNone = true ↔ ∀ o ∈ localCIDRs, ¬p.Overlaps o := by
    rw [← Option.not_isSome, Bool.not_eq_true', Bool.eq_false_iff, ne_eq, overlapsAny_isSome_iff]
    exact ⟨fun h o ho hoverlap => h ⟨o, ho, hoverlap⟩, fun h ⟨o, ho, hoverlap⟩ => h o ho hoverlap⟩
  rw [peeringPrefixes, List.mem_flatMap]
  simp only [List.mem_filter, hguard]
  exact ⟨fun ⟨peering, hpeering, hp, hlocal⟩ => ⟨⟨peering, hpeering, hp⟩, hlocal⟩,
    fun ⟨⟨peering, hpeering, hp⟩, hlocal⟩ => ⟨peering, hpeering, hp, hlocal⟩⟩

theorem topology_refreshVPCPeerings (x : TopologyAnswers) :
    (t.refreshVPCPeerings provider x.vpcPeerings x.localVPCCIDRs).classifier.topology
      = { t.classifier.topology with
          peerings := (x.peers provider).getD t.classifier.topology.peerings } := by
  rw [TopologyAnswers.peers]
  cases x.vpcPeerings with
  | none => rfl
  | some peerings =>
    have hset : {p | p ∈ Classifier.clonePrefixes
          (peeringPrefixes (localVPCCIDRs provider x.localVPCCIDRs) peerings)}
        = {p | p.isValid = true ∧ (∃ peering ∈ peerings, p ∈ peering.peerCIDRs) ∧
            ∀ o ∈ x.locals provider, ¬p.Overlaps o} := by
      ext p
      rw [Set.mem_ofPred_eq, Classifier.clonePrefixes, List.mem_filter, mem_peeringPrefixes,
        and_comm]
      rfl
    exact congrArg (fun ps => { t.classifier.topology with peerings := ps }) hset

theorem topology_refreshTransitGateways (x : TopologyAnswers) :
    (t.refreshTransitGateways x.transitGateways).classifier.topology
      = { t.classifier.topology with
          transitGateways := x.attached.getD t.classifier.topology.transitGateways } := by
  rw [TopologyAnswers.attached]
  cases x.transitGateways with
  | none => rfl
  | some gateways =>
    have hset : {p | p ∈ Classifier.clonePrefixes (gateways.flatMap TransitGateway.cidrs)}
        = {p | p.isValid = true ∧ ∃ gw ∈ gateways, p ∈ gw.cidrs} := by
      ext p
      rw [Set.mem_ofPred_eq, Classifier.clonePrefixes, List.mem_filter, List.mem_flatMap, and_comm]
      rfl
    exact congrArg (fun ps => { t.classifier.topology with transitGateways := ps }) hset

theorem topology_refreshSubnetZones (x : TopologyAnswers) :
    (t.refreshSubnetZones x.subnetZones).classifier.topology
      = { t.classifier.topology with
          zones := x.zones.getD t.classifier.topology.zones } := by
  rw [TopologyAnswers.zones]
  cases x.subnetZones with
  | none => rfl
  | some mapping =>
    rw [refreshSubnetZones]
    by_cases hempty : mapping = []
    · rw [if_pos hempty, hempty]
      rfl
    · rw [if_neg hempty, Option.filter_some, if_pos (decide_eq_true hempty)]
      rfl

/-- **One refresh** takes over what is answered. -/
theorem topology_refresh (x : TopologyAnswers) :
    (t.refresh provider x).classifier.topology = t.classifier.topology.update provider x := by
  rw [refresh, topology_refreshSubnetZones, topology_refreshTransitGateways,
    topology_refreshVPCPeerings, topology_refreshNATRoute, topology_refreshNATGateways]
  rfl

/-! ### What a refresh leaves alone -/

/-- The two classifiers differ in their topology only, and the table of the second is
that of its categories if this is so for the first. -/
structure Retargets (c c' : Classifier) : Prop where
  endpointCIDRs : c'.endpointCIDRs = c.endpointCIDRs
  clusterPrefixes : c'.clusterPrefixes = c.clusterPrefixes
  resolver : c'.resolver = { c.resolver with cidrZones := c'.resolver.cidrZones }
  table : ∀ {addr}, c.prefixTree.lookup addr
      = topologyType c.peeringCIDRs c.tgwCIDRs c.endpointCIDRs addr →
    c'.prefixTree.lookup addr = topologyType c'.peeringCIDRs c'.tgwCIDRs c'.endpointCIDRs addr

theorem Retargets.refl (c : Classifier) : Retargets c c := ⟨rfl, rfl, rfl, id⟩

theorem Retargets.trans {c c' c'' : Classifier} (h : Retargets c c') (h' : Retargets c' c'') :
    Retargets c c'' where
  endpointCIDRs := h'.endpointCIDRs.trans h.endpointCIDRs
  clusterPrefixes := h'.clusterPrefixes.trans h.clusterPrefixes
  resolver := by rw [h'.resolver, h.resolver]
  table hc := h'.table (h.table hc)

/-- A category that is set builds the table anew. -/
theorem retargets_rebuild (c : Classifier) (peering tgw : List Prefix) :
    Retargets c { c with peeringCIDRs := peering, tgwCIDRs := tgw }.rebuildPrefixTree where
  endpointCIDRs := rfl
  clusterPrefixes := rfl
  resolver := rfl
  table _ := by
    rw [Classifier.rebuildPrefixTree_prefixTree, lookup_table]
    rfl

theorem retargets_refreshNATGateways (answer : Option (List NATGateway)) :
    Retargets t.classifier (t.refreshNATGateways answer).classifier := by
  cases answer with
  | none => exact .refl _
  | some gateways => exact ⟨rfl, rfl, rfl, id⟩

theorem retargets_refreshNATRoute (answer : Option Bool) :
    Retargets t.classifier (t.refreshNATRoute provider answer).classifier := by
  cases answer with
  | none =>
    rw [refreshNATRoute]
    split_ifs <;> exact .refl _
  | some viaNAT =>
    rw [refreshNATRoute]
    split_ifs <;> exact ⟨rfl, rfl, rfl, id⟩

theorem retargets_refreshVPCPeerings (answer : Option (List VPCPeering))
    (locals : Option (List Prefix)) :
    Retargets t.classifier (t.refreshVPCPeerings provider answer locals).classifier := by
  cases answer with
  | none => exact .refl _
  | some peerings => exact retargets_rebuild t.classifier _ t.classifier.tgwCIDRs

theorem retargets_refreshTransitGateways (answer : Option (List TransitGateway)) :
    Retargets t.classifier (t.refreshTransitGateways answer).classifier := by
  cases answer with
  | none => exact .refl _
  | some gateways => exact retargets_rebuild t.classifier t.classifier.peeringCIDRs _

theorem retargets_refreshSubnetZones (answer : Option (List (Prefix × String))) :
    Retargets t.classifier (t.refreshSubnetZones answer).classifier := by
  cases answer with
  | none => exact .refl _
  | some mapping =>
    rw [refreshSubnetZones]
    split_ifs <;> exact ⟨rfl, rfl, rfl, id⟩

theorem retargets_refresh (x : TopologyAnswers) :
    Retargets t.classifier (t.refresh provider x).classifier := by
  have hnat := (t.retargets_refreshNATGateways x.natGateways).trans
    (retargets_refreshNATRoute provider _ x.nodeRoutesViaNAT)
  have hpeering := hnat.trans
    (retargets_refreshVPCPeerings provider _ x.vpcPeerings x.localVPCCIDRs)
  exact (hpeering.trans (retargets_refreshTransitGateways _ x.transitGateways)).trans
    (retargets_refreshSubnetZones _ x.subnetZones)

/-! ### Any refreshes -/

theorem retargets_foldl (answers : List TopologyAnswers) :
    Retargets t.classifier (answers.foldl (refresh provider) t).classifier := by
  induction answers generalizing t with
  | nil => exact .refl _
  | cons x answers ih => exact (t.retargets_refresh provider x).trans (ih _)

/-- **Any refreshes**: the classifier has the last snapshot of each feed. -/
theorem foldl_refresh (answers : List TopologyAnswers) :
    (answers.foldl (refresh provider) t).classifier.topology
      = t.classifier.topology.known provider answers := by
  induction answers using List.reverseRecOn with
  | nil => rfl
  | append_singleton answers x ih =>
    rw [List.foldl_append, List.foldl_cons, List.foldl_nil, topology_refresh, ih,
      Topology.known_concat]

/-- The prefix table is that of the categories. -/
theorem lookup_foldl_refresh (calls : List ConfigCall) (natGWs : List NATGateway)
    (answers : List TopologyAnswers) (addr : Addr) :
    let t := answers.foldl (refresh provider) ⟨.configure calls, natGWs⟩
    t.classifier.prefixTree.lookup addr = topologyType t.classifier.peeringCIDRs
      t.classifier.tgwCIDRs t.classifier.endpointCIDRs addr := by
  refine (retargets_foldl provider ⟨.configure calls, natGWs⟩ answers).table ?_
  show (Classifier.configure calls).prefixTree.lookup addr = _
  rw [Classifier.configure_prefixTree, lookup_table]

/-- **A refresh isolates failures.**  From any configured classifier and after any
refreshes, the classifier's NAT addresses, default route, peerings, transit gateways and
subnet zones are those of each feed's last snapshot, its prefix table is that of its
categories and the rest is as it was; and a refresh whose feed fails leaves this part as
it was and all others as if the feed had answered. -/
theorem refresh_isolates (calls : List ConfigCall) (natGWs : List NATGateway)
    (answers : List TopologyAnswers) :
    let start : TopologyRefresher := ⟨.configure calls, natGWs⟩
    let t := answers.foldl (refresh provider) start
    t.classifier.topology = start.classifier.topology.known provider answers ∧
      (∀ addr, t.classifier.prefixTree.lookup addr = topologyType t.classifier.peeringCIDRs
        t.classifier.tgwCIDRs t.classifier.endpointCIDRs addr) ∧
      t.classifier.endpointCIDRs = start.classifier.endpointCIDRs ∧
      t.classifier.clusterPrefixes = start.classifier.clusterPrefixes ∧
      ∀ x feed, (t.refresh provider (x.fail feed)).classifier.topology
        = (t.refresh provider x).classifier.topology.replace t.classifier.topology feed := by
  intro start t
  have hrest : Retargets start.classifier t.classifier := start.retargets_foldl provider answers
  refine ⟨start.foldl_refresh provider answers, lookup_foldl_refresh provider calls natGWs answers,
    hrest.endpointCIDRs, hrest.clusterPrefixes, fun x feed => ?_⟩
  rw [topology_refresh, topology_refresh, Topology.update_fail]

end TopologyRefresher

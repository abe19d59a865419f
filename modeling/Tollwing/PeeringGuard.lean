/-
The guard of the local subnets (`pkg/cloud/topology.go`).

A refresh drops the peering prefixes that overlap a local one.  What it keeps goes
through the prefix table and the classification order, and other feeds and callers
change the classifier before and after it.

* `ProviderEvent` — one part of a refresh, or a call of the classifier;
* `Guarded` — no peering prefix overlaps a local one, kept until the peerings are set
  again;
* `guard_protects` — no flow to a local subnet is priced as peering.
-/
import Tollwing.AWSTopology

/-- What changes the classifier: a call, or the answer that one part of a refresh gets. -/
inductive ProviderEvent
  | call (x : ConfigCall)
  | natGateways (answer : Option (List NATGateway))
  | natRoute (answer : Option Bool)
  | vpcPeerings (answer : Option (List VPCPeering)) (locals : Option (List Prefix))
  | transitGateways (answer : Option (List TransitGateway))
  | subnetZones (answer : Option (List (Prefix × String)))

/-- The event sets the peering prefixes. -/
def ProviderEvent.SetsPeerings : ProviderEvent → Prop
  | .call x => x.peeringSet ≠ none
  | .vpcPeerings answer _ => answer ≠ none
  | _ => False

namespace TopologyRefresher

section
variable (provider : ProviderCapabilities)

def step (t : TopologyRefresher) : ProviderEvent → TopologyRefresher
  | .call x => { t with classifier := t.classifier.call x }
  | .natGateways answer => t.refreshNATGateways answer
  | .natRoute answer => t.refreshNATRoute provider answer
  | .vpcPeerings answer locals => t.refreshVPCPeerings provider answer locals
  | .transitGateways answer => t.refreshTransitGateways answer
  | .subnetZones answer => t.refreshSubnetZones answer

/-- A new classifier after some events. -/
def run (events : List ProviderEvent) : TopologyRefresher :=
  events.foldl (step provider) ⟨.configure [], []⟩

/-- A refresh is its parts in turn. -/
def refreshEvents (x : TopologyAnswers) : List ProviderEvent :=
  [.natGateways x.natGateways, .natRoute x.nodeRoutesViaNAT,
    .vpcPeerings x.vpcPeerings x.localVPCCIDRs, .transitGateways x.transitGateways,
    .subnetZones x.subnetZones]

theorem foldl_refreshEvents (t : TopologyRefresher) (x : TopologyAnswers) :
    (refreshEvents x).foldl (step provider) t = t.refresh provider x := rfl

end

/-! ### The table and the peerings -/

/-- The prefix table is that of the categories. -/
def Tabled (c : Classifier) : Prop :=
  ∀ addr, c.prefixTree.lookup addr
    = topologyType c.peeringCIDRs c.tgwCIDRs c.endpointCIDRs addr

theorem tabled_rebuild (c : Classifier) : Tabled c.rebuildPrefixTree := by
  intro addr
  rw [Classifier.rebuildPrefixTree_prefixTree, lookup_table]
  rfl

theorem Tabled.call {c : Classifier} (h : Tabled c) (x : ConfigCall) : Tabled (c.call x) := by
  -- the setters of a category build the table anew, the other calls leave all four alone
  cases x with
  | setVPCPeeringCIDRs cidrs => exact tabled_rebuild _
  | setTransitGatewayCIDRs cidrs => exact tabled_rebuild _
  | setVPCEndpointCIDRs cidrs => exact tabled_rebuild _
  | addClusterCIDR cidr =>
    obtain ⟨cidrs, hcidrs, -⟩ := addClusterCIDR_eq c cidr
    rw [Classifier.call, hcidrs]
    exact h
  | _ => exact h

variable {provider : ProviderCapabilities} {t : TopologyRefresher} {locals : List Prefix}

theorem Tabled.step (h : Tabled t.classifier) (e : ProviderEvent) :
    Tabled (t.step provider e).classifier := by
  intro addr
  cases e with
  | call x => exact h.call x addr
  | natGateways answer => exact (t.retargets_refreshNATGateways answer).table (h addr)
  | natRoute answer => exact (t.retargets_refreshNATRoute provider answer).table (h addr)
  | vpcPeerings answer locals =>
    exact (t.retargets_refreshVPCPeerings provider answer locals).table (h addr)
  | transitGateways answer => exact (t.retargets_refreshTransitGateways answer).table (h addr)
  | subnetZones answer => exact (t.retargets_refreshSubnetZones answer).table (h addr)

theorem tabled_run (events : List ProviderEvent) : Tabled (run provider events).classifier := by
  induction events using List.reverseRecOn with
  | nil =>
    intro addr
    exact lookup_table [] [] [] addr
  | append_singleton events e ih =>
    rw [run, List.foldl_append, List.foldl_cons, List.foldl_nil]
    exact ih.step e

/-- No peering prefix overlaps a local one. -/
def Guarded (locals : List Prefix) (c : Classifier) : Prop :=
  ∀ p ∈ c.peeringCIDRs, ∀ o ∈ locals, ¬p.Overlaps o

/-- The refresh of the peerings drops what overlaps. -/
theorem guarded_refreshVPCPeerings (hsource : provider.localVPCCIDRSource = true)
    (peerings : List VPCPeering) (locals : List Prefix) :
    Guarded locals (t.refreshVPCPeerings provider (some peerings) (some locals)).classifier := by
  intro p hp
  have hkept : p ∈ Classifier.clonePrefixes
      (peeringPrefixes (localVPCCIDRs provider (some locals)) peerings) := hp
  rw [localVPCCIDRs, if_pos hsource] at hkept
  exact (mem_peeringPrefixes.mp (List.mem_of_mem_filter hkept)).2

/-- Only an event that sets the peerings changes them. -/
theorem peeringCIDRs_step {e : ProviderEvent} (he : ¬e.SetsPeerings) :
    (t.step provider e).classifier.peeringCIDRs = t.classifier.peeringCIDRs := by
  cases e with
  | call x =>
    rw [step, (call_set t.classifier x).1, not_not.mp he]
    rfl
  | natGateways answer => cases answer <;> rfl
  | natRoute answer =>
    cases answer with
    | none =>
      rw [step, refreshNATRoute, ite_self]
    | some viaNAT =>
      rw [step, refreshNATRoute]
      split_ifs <;> rfl
  | vpcPeerings answer locals =>
    rw [not_not.mp he]
    rfl
  | transitGateways answer => cases answer <;> rfl
  | subnetZones answer =>
    cases answer with
    | none => rfl
    | some mapping =>
      rw [step, refreshSubnetZones]
      split_ifs <;> rfl

theorem Guarded.foldl {later : List ProviderEvent} (hlater : ∀ e ∈ later, ¬e.SetsPeerings) :
    ∀ {t : TopologyRefresher}, Guarded locals t.classifier →
      Guarded locals (later.foldl (step provider) t).classifier := by
  induction later with
  | nil => exact id
  | cons e later ih =>
    intro t h
    obtain ⟨he, hrest⟩ := List.forall_mem_cons.mp hlater
    refine ih hrest ?_
    rw [Guarded, peeringCIDRs_step he]
    exact h

/-- A guarded table never answers peering for a local address. -/
theorem Guarded.lookup_ne {c : Classifier} (h : Guarded locals c) (htable : Tabled c)
    {addr : Addr} (hlocal : ∃ o ∈ locals, o.contains addr = true) :
    c.prefixTree.lookup addr ≠ some .vpcPeering := by
  -- the best match would be a peering prefix that shares the address with a local one
  intro hpeering
  rw [htable] at hpeering
  obtain ⟨p, hp, hcontains⟩ := exists_of_topologyType_vpcPeering hpeering
  obtain ⟨o, ho, hlocal⟩ := hlocal
  exact h p hp o ho ⟨addr, hcontains, hlocal⟩

/-- **The guard protects local subnets.**  The test finds a local prefix exactly if one
shares an address; and from a refresh of the peerings with the local prefixes at hand
until the peerings are set again, whatever was done before and is done besides, no
address of a local prefix and no flow to it is peering. -/
theorem guard_protects (hsource : provider.localVPCCIDRSource = true)
    (before : List ProviderEvent) (peerings : List VPCPeering) (locals : List Prefix)
    {later : List ProviderEvent} (hlater : ∀ e ∈ later, ¬e.SetsPeerings) :
    let c := (run provider
      (before ++ .vpcPeerings (some peerings) (some locals) :: later)).classifier
    (∀ pfx, (overlapsAny pfx locals).isSome = true ↔
        ∃ o ∈ locals, ∃ addr, pfx.contains addr = true ∧ o.contains addr = true) ∧
      (∀ addr, (∃ o ∈ locals, o.contains addr = true) →
        c.prefixTree.lookup addr ≠ some .vpcPeering) ∧
      ∀ host flow, (∃ o ∈ locals, o.contains (nboToAddr host flow.dstIP) = true) →
        (c.classify host flow).type ≠ .vpcPeering := by
  intro c
  have hguarded : Guarded locals c := by
    dsimp only [c]
    rw [run, List.foldl_append, List.foldl_cons]
    exact (guarded_refreshVPCPeerings hsource peerings locals).foldl hlater
  have hlookup : ∀ addr, (∃ o ∈ locals, o.contains addr = true) →
      c.prefixTree.lookup addr ≠ some .vpcPeering :=
    fun addr hlocal => hguarded.lookup_ne (tabled_run _) hlocal
  refine ⟨fun pfx => overlapsAny_isSome_iff, hlookup, fun host flow hlocal htype => ?_⟩
  exact hlookup _ hlocal (Classifier.lookup_of_classify_vpcPeering htype)

/-- A peer that claims the whole private range does not take the local subnet over. -/
theorem guard_protects_local :
    let t := (⟨.configure [], []⟩ : TopologyRefresher).refresh awsCapabilities
      { natGateways := none
        nodeRoutesViaNAT := some true
        vpcPeerings := some [{ peerCIDRs := [.v4 0x0a000000#32 8, .v4 0xac1f0000#32 16] }]
        localVPCCIDRs := some [.v4 0x0a000103#32 24]
        transitGateways := some []
        subnetZones := none }
    (t.classifier.classify .big { srcIP := 0xac1f0009, dstIP := 0x0a000105 }).type
      ≠ .vpcPeering := by
  intro t
  -- the refresh is its parts, and two of them follow that of the peerings
  have hlater : ∀ e ∈ [ProviderEvent.transitGateways (some []), .subnetZones none],
      ¬e.SetsPeerings := by
    simp [ProviderEvent.SetsPeerings]
  dsimp only [t]
  rw [← foldl_refreshEvents]
  exact (guard_protects rfl [.natGateways none, .natRoute (some true)] _ _ hlater).2.2 .big _
    ⟨_, List.mem_singleton_self _, by decide⟩

end TopologyRefresher

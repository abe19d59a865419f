/-
The classifier decides the documented priority chain.

The chain is stated on the history of configuration calls alone: what the last
call in each category configured (`clusterCIDRs`, `peeringCIDRs`, ...,
`documentedZone`), the longest matching prefix of each topology category
(`longestMatch`, `topologyType`) and the order of the rules (`documentedType`).
No table, no insertion sort and no rebuilt state occur in it.

* `Classifier.configure_prefixTree` — the prefix table after any run of calls is
  the one the three category lists in force give;
* `lookup_table` — its first-match scan is the longest match, ties to peering,
  then transit gateway, then endpoints;
* `Classifier.classify_eq_documented` — after every run of calls every flow gets
  the documented type, cluster destinations are decided by zones only, and
  replacing one category leaves the others' entries in the table.
-/
import Tollwing.Classifier
import Tollwing.History

open History

/-! ### The configuration in force -/

namespace ConfigCall

def clusterReset : ConfigCall → Option (List Prefix)
  | .setClusterCIDRs cidrs => some cidrs
  | _ => none

def clusterAdded : ConfigCall → List Prefix
  | .addClusterCIDR cidr => [cidr]
  | _ => []

def peeringSet : ConfigCall → Option (List Prefix)
  | .setVPCPeeringCIDRs cidrs => some cidrs
  | _ => none

def tgwSet : ConfigCall → Option (List Prefix)
  | .setTransitGatewayCIDRs cidrs => some cidrs
  | _ => none

def endpointSet : ConfigCall → Option (List Prefix)
  | .setVPCEndpointCIDRs cidrs => some cidrs
  | _ => none

def natSet : ConfigCall → Option (List Addr)
  | .setNATGatewayIPs ips => some ips
  | _ => none

def defaultRouteSet : ConfigCall → Option Bool
  | .setDefaultRouteNAT viaNAT => some viaNAT
  | _ => none

def localZoneSet : ConfigCall → Option String
  | .setLocalZone zone => some zone
  | _ => none

def ipZoneSet (addr : Addr) : ConfigCall → Option (Option String)
  | .setIPZone addr' zone => if addr' = addr then some (some zone) else none
  | _ => none

def cidrZonesReset : ConfigCall → Option (List (Prefix × String))
  | .setCIDRZones entries => some entries
  | _ => none

def cidrZonesAdded : ConfigCall → List (Prefix × String)
  | .addCIDRZone pfx zone => [(pfx, zone)]
  | _ => []

end ConfigCall

section
variable (calls : List ConfigCall)

/-- The cluster CIDRs: the last list set, and every CIDR added after it. -/
def clusterCIDRs : List Prefix := sinceReset ConfigCall.clusterReset ConfigCall.clusterAdded calls

def peeringCIDRs : List Prefix := lastValue ConfigCall.peeringSet [] calls

def tgwCIDRs : List Prefix := lastValue ConfigCall.tgwSet [] calls

def endpointCIDRs : List Prefix := lastValue ConfigCall.endpointSet [] calls

def natGatewayIPs : List Addr := lastValue ConfigCall.natSet [] calls

def defaultRouteNAT : Bool := lastValue ConfigCall.defaultRouteSet false calls

/-- The zone of an address: the node's own for its own addresses, else the zone
last set for the address, else that of the first zone CIDR that contains it. -/
def documentedZone (addr : Addr) : String :=
  if ConfigCall.addLocalIP addr ∈ calls then lastValue ConfigCall.localZoneSet "" calls
  else
    (lastValue (ConfigCall.ipZoneSet addr) none calls).getD
      (((sinceReset ConfigCall.cidrZonesReset ConfigCall.cidrZonesAdded calls).find?
        fun e => e.1.contains addr).elim "" Prod.snd)

end

/-! ### The documented chain -/

/-- The length of the longest prefix of the list that contains the address,
`⊥` when none does. -/
def longestMatch (cidrs : List Prefix) (addr : Addr) : WithBot ℤ :=
  LongestMatch.maxKey Prefix.bits (fun p => p.contains addr) cidrs

/-- The topology category with the longest match; equal lengths go to peering
before transit gateway before endpoints. -/
def topologyType (peering tgw endpoint : List Prefix) (addr : Addr) : Option TrafficType :=
  let longest := max (longestMatch peering addr)
    (max (longestMatch tgw addr) (longestMatch endpoint addr))
  if longest = ⊥ then none
  else if longestMatch peering addr = longest then some .vpcPeering
  else if longestMatch tgw addr = longest then some .transitGateway
  else some .vpcEndpoint

def loopbackRange : Prefix := .v4 0x7f000000#32 8

/-- RFC 1918 and the link-local range. -/
def privateRanges : List Prefix :=
  [.v4 0x0a000000#32 8, .v4 0xac100000#32 12, .v4 0xc0a80000#32 16, .v4 0xa9fe0000#32 16]

/-- The zone rule on the two zones. -/
def zoneType (srcZone dstZone : String) : TrafficType :=
  if srcZone = "" ∨ dstZone = "" then .unknown
  else if srcZone = dstZone then .sameZone
  else if regionFromZone srcZone = regionFromZone dstZone then .crossAZ
  else .crossRegion

/-- The type the documentation gives a flow after the listed calls. -/
def documentedType (calls : List ConfigCall) (host : ByteOrder) (flow : FlowInfo) : TrafficType :=
  let dst := nboToAddr host flow.dstIP
  let zones := zoneType (documentedZone calls (nboToAddr host flow.srcIP))
    (documentedZone calls dst)
  let topology := topologyType (peeringCIDRs calls) (tgwCIDRs calls) (endpointCIDRs calls) dst
  if flow.isSidecar then .serviceMeshInternal
  else if flow.intraNode ∨ loopbackRange.contains dst then .intraNode
  else if ∃ p ∈ clusterCIDRs calls, p.contains dst then zones
  else if ∃ p ∈ privateRanges, p.contains dst then
    if dst ∈ natGatewayIPs calls then .natGatewayEgress
    else topology.getD zones
  else topology.getD (if defaultRouteNAT calls then .natGatewayEgress else .internetEgress)

/-! ### The prefix table -/

/-- The entries of the table: peering, then transit gateway, then endpoints. -/
def tableEntries (peering tgw endpoint : List Prefix) : List PrefixEntry :=
  (peering.map fun p => ⟨p, .vpcPeering⟩) ++
    ((tgw.map fun p => ⟨p, .transitGateway⟩) ++ endpoint.map fun p => ⟨p, .vpcEndpoint⟩)

/-- The largest key a list of prefixes of one type offers is its longest match. -/
theorem maxKey_map_entry (tt : TrafficType) (cidrs : List Prefix) (addr : Addr) :
    LongestMatch.maxKey (fun e : PrefixEntry => e.pfx.bits) (fun e => e.pfx.contains addr)
      (cidrs.map fun p => ⟨p, tt⟩) = longestMatch cidrs addr := by
  rw [longestMatch, LongestMatch.maxKey, LongestMatch.maxKey, List.filter_map, List.map_map]
  rfl

/-- The best match of a list of prefixes of one type has that type. -/
theorem best_map_entry (tt : TrafficType) (cidrs : List Prefix) (addr : Addr) :
    (LongestMatch.best (fun e : PrefixEntry => e.pfx.bits) (fun e => e.pfx.contains addr)
      (cidrs.map fun p => ⟨p, tt⟩)).map PrefixEntry.trafficType
      = if longestMatch cidrs addr = ⊥ then none else some tt := by
  have hrank := LongestMatch.rank_best (fun e : PrefixEntry => e.pfx.bits)
    (fun e => e.pfx.contains addr) (cidrs.map fun p => ⟨p, tt⟩)
  rw [maxKey_map_entry] at hrank
  cases hb : LongestMatch.best (fun e : PrefixEntry => e.pfx.bits)
      (fun e => e.pfx.contains addr) (cidrs.map fun p => ⟨p, tt⟩) with
  | none =>
    have hbot : longestMatch cidrs addr = ⊥ := by rw [← hrank, hb]; rfl
    rw [if_pos hbot]
    rfl
  | some e =>
    rw [hb] at hrank
    rw [if_neg (by rw [← hrank]; exact WithBot.coe_ne_bot)]
    obtain ⟨p, -, rfl⟩ := List.mem_map.mp (LongestMatch.mem_of_best_eq_some _ hb)
    rfl

/-- The first-match scan of the built table is the longest match over the three
categories, ties in table order. -/
theorem lookup_table (peering tgw endpoint : List Prefix) (addr : Addr) :
    (PrefixTree.build ⟨tableEntries peering tgw endpoint⟩).lookup addr
      = topologyType peering tgw endpoint addr := by
  set key : PrefixEntry → ℤ := fun e => e.pfx.bits
  set m : PrefixEntry → Bool := fun e => e.pfx.contains addr
  have htail : LongestMatch.maxKey key m
      ((tgw.map fun p => ⟨p, .transitGateway⟩) ++ endpoint.map fun p => ⟨p, .vpcEndpoint⟩)
        = max (longestMatch tgw addr) (longestMatch endpoint addr) := by
    rw [LongestMatch.maxKey_append, maxKey_map_entry, maxKey_map_entry]
  rw [PrefixTree.lookup_build, tableEntries, LongestMatch.best_append, htail, maxKey_map_entry,
    LongestMatch.best_append, maxKey_map_entry, maxKey_map_entry, topologyType]
  set lp := longestMatch peering addr with hlp
  set lt := longestMatch tgw addr with hlt
  set le := longestMatch endpoint addr with hle
  by_cases hp : max lt le ≤ lp
  · -- peering has the longest match, or nothing matches
    rw [if_pos hp, best_map_entry, ← hlp, max_eq_left hp, if_pos rfl]
  · have hlt_max : lp < max lt le := not_le.mp hp
    rw [if_neg hp, max_eq_right hlt_max.le, if_neg hlt_max.ne_bot, if_neg hlt_max.ne]
    by_cases ht : le ≤ lt
    · rw [max_eq_left ht] at hlt_max
      rw [if_pos ht, best_map_entry, ← hlt, max_eq_left ht, if_pos rfl, if_neg hlt_max.ne_bot]
    · have hle_max : lt < le := not_le.mp ht
      rw [if_neg ht, best_map_entry, ← hle, max_eq_right hle_max.le, if_neg hle_max.ne,
        if_neg hle_max.ne_bot]

theorem longestMatch_clonePrefixes (cidrs : List Prefix) (addr : Addr) :
    longestMatch (Classifier.clonePrefixes cidrs) addr = longestMatch cidrs addr := by
  have hfilter : (Classifier.clonePrefixes cidrs).filter (fun p => p.contains addr)
      = cidrs.filter fun p => p.contains addr := by
    rw [Classifier.clonePrefixes, List.filter_filter]
    refine List.filter_congr fun p _ => ?_
    cases hc : p.contains addr with
    | false => rfl
    | true => rw [Prefix.isValid_of_contains hc]; rfl
  rw [longestMatch, longestMatch, LongestMatch.maxKey, LongestMatch.maxKey, hfilter]

namespace Classifier

theorem rebuildPrefixTree_prefixTree (c : Classifier) :
    c.rebuildPrefixTree.prefixTree
      = PrefixTree.build ⟨tableEntries c.peeringCIDRs c.tgwCIDRs c.endpointCIDRs⟩ := by
  rw [rebuildPrefixTree]
  simp only [PrefixTree.foldl_add, PrefixTree.new, List.nil_append, List.append_assoc]
  rfl

theorem mem_dedupValid {p : Prefix} : ∀ {cidrs : List Prefix} {seen : Finset Prefix},
    p ∈ dedupValid cidrs seen ↔ p ∈ cidrs ∧ p.isValid = true ∧ p ∉ seen := by
  intro cidrs
  induction cidrs with
  | nil => simp [dedupValid]
  | cons q cidrs ih =>
    intro seen
    rw [dedupValid]
    by_cases hv : q.isValid = false
    · rw [if_pos hv, ih, List.mem_cons]
      constructor
      · rintro ⟨hp, hpv, hps⟩
        exact ⟨Or.inr hp, hpv, hps⟩
      · rintro ⟨rfl | hp, hpv, hps⟩
        · rw [hv] at hpv
          cases hpv
        · exact ⟨hp, hpv, hps⟩
    · rw [if_neg hv]
      by_cases hq : q ∈ seen
      · rw [if_pos hq, ih, List.mem_cons]
        constructor
        · rintro ⟨hp, hpv, hps⟩
          exact ⟨Or.inr hp, hpv, hps⟩
        · rintro ⟨rfl | hp, hpv, hps⟩
          · exact absurd hq hps
          · exact ⟨hp, hpv, hps⟩
      · rw [if_neg hq, List.mem_cons, List.mem_cons, ih, Finset.mem_insert]
        constructor
        · rintro (rfl | ⟨hp, hpv, hps⟩)
          · exact ⟨Or.inl rfl, by simpa using hv, hq⟩
          · exact ⟨Or.inr hp, hpv, fun h => hps (Or.inr h)⟩
        · rintro ⟨hp, hpv, hps⟩
          by_cases hpq : p = q
          · exact Or.inl hpq
          · exact Or.inr ⟨hp.resolve_left hpq, hpv, fun h => h.elim hpq hps⟩

/-! ### The state after a run of calls -/

/-- The table always is the one its category lists give. -/
theorem configure_prefixTree (calls : List ConfigCall) :
    (configure calls).prefixTree = PrefixTree.build
      ⟨tableEntries (configure calls).peeringCIDRs (configure calls).tgwCIDRs
        (configure calls).endpointCIDRs⟩ := by
  induction calls using List.reverseRecOn with
  | nil => rfl
  | append_singleton calls x ih =>
    rw [configure, List.foldl_append, List.foldl_cons, List.foldl_nil, ← configure]
    cases x with
    | setVPCPeeringCIDRs cidrs => exact rebuildPrefixTree_prefixTree _
    | setTransitGatewayCIDRs cidrs => exact rebuildPrefixTree_prefixTree _
    | setVPCEndpointCIDRs cidrs => exact rebuildPrefixTree_prefixTree _
    | addClusterCIDR cidr =>
      rw [call, addClusterCIDR]
      split_ifs <;> exact ih
    | _ => exact ih

end Classifier

/-- Adding a cluster CIDR touches the cluster list only, and adds exactly a
valid prefix to it. -/
theorem addClusterCIDR_eq (c : Classifier) (cidr : Prefix) :
    ∃ cidrs, c.addClusterCIDR cidr = { c with clusterPrefixes := cidrs } ∧
      ∀ p, p ∈ cidrs ↔ p ∈ c.clusterPrefixes ∨ p = cidr ∧ cidr.isValid = true := by
  rw [Classifier.addClusterCIDR]
  by_cases hv : cidr.isValid = false
  · rw [if_pos hv]
    exact ⟨c.clusterPrefixes, rfl, fun p => by simp [hv]⟩
  · rw [if_neg hv]
    by_cases hmem : cidr ∈ c.clusterPrefixes
    · rw [if_pos hmem]
      refine ⟨c.clusterPrefixes, rfl, fun p => ⟨Or.inl, ?_⟩⟩
      rintro (hp | ⟨rfl, -⟩)
      · exact hp
      · exact hmem
    · rw [if_neg hmem]
      refine ⟨c.clusterPrefixes ++ [cidr], rfl, fun p => ?_⟩
      simp [hv]

/-- What one call does to the parts of the classifier that it sets as a whole:
each has one kind of call that sets it, and the others keep it. -/
theorem call_set (c : Classifier) (x : ConfigCall) :
    (c.call x).peeringCIDRs = x.peeringSet.elim c.peeringCIDRs Classifier.clonePrefixes ∧
    (c.call x).tgwCIDRs = x.tgwSet.elim c.tgwCIDRs Classifier.clonePrefixes ∧
    (c.call x).endpointCIDRs = x.endpointSet.elim c.endpointCIDRs Classifier.clonePrefixes ∧
    (c.call x).natGatewayIPs = x.natSet.elim c.natGatewayIPs List.toFinset ∧
    (c.call x).defaultRouteNAT = x.defaultRouteSet.elim c.defaultRouteNAT id ∧
    (c.call x).resolver.localZone = x.localZoneSet.elim c.resolver.localZone id := by
  cases x with
  | addClusterCIDR cidr =>
    obtain ⟨cidrs, hcidrs, -⟩ := addClusterCIDR_eq c cidr
    rw [Classifier.call, hcidrs]
    exact ⟨rfl, rfl, rfl, rfl, rfl, rfl⟩
  | _ => exact ⟨rfl, rfl, rfl, rfl, rfl, rfl⟩

/-- What one call does to what the resolver knows of an address. -/
theorem call_resolver (c : Classifier) (x : ConfigCall) (addr : Addr) :
    (c.call x).resolver.ipToZone.lookup addr
        = (x.ipZoneSet addr).elim (c.resolver.ipToZone.lookup addr) id ∧
    (addr ∈ (c.call x).resolver.localIPs ↔ addr ∈ c.resolver.localIPs ∨ x = .addLocalIP addr) := by
  have hkept : ∀ x' : ConfigCall, x' ≠ .addLocalIP addr →
      (addr ∈ c.resolver.localIPs ↔ addr ∈ c.resolver.localIPs ∨ x' = .addLocalIP addr) :=
    fun x' hx' => (or_iff_left hx').symm
  cases x with
  | setIPZone addr' zone =>
    refine ⟨?_, hkept _ nofun⟩
    show (c.resolver.ipToZone.insert addr' zone).lookup addr = _
    rw [FinMap.lookup_insert_ite, ConfigCall.ipZoneSet]
    by_cases h : addr' = addr
    · rw [if_pos h, if_pos h.symm]
      rfl
    · rw [if_neg h, if_neg (Ne.symm h)]
      rfl
  | addLocalIP addr' =>
    refine ⟨rfl, ?_⟩
    show addr ∈ insert addr' c.resolver.localIPs ↔ _
    rw [Finset.mem_insert, ConfigCall.addLocalIP.injEq, eq_comm, or_comm]
  | addClusterCIDR cidr =>
    obtain ⟨cidrs, hcidrs, -⟩ := addClusterCIDR_eq c cidr
    rw [Classifier.call, hcidrs]
    exact ⟨rfl, hkept _ nofun⟩
  | _ => exact ⟨rfl, hkept _ nofun⟩

/-- The zone CIDRs are replaced or extended. -/
theorem call_cidrZones (c : Classifier) (x : ConfigCall) :
    (c.call x).resolver.cidrZones
      = x.cidrZonesReset.getD (c.resolver.cidrZones ++ x.cidrZonesAdded) := by
  cases x with
  | setCIDRZones entries => rfl
  | addCIDRZone pfx zone => rfl
  | addClusterCIDR cidr =>
    obtain ⟨cidrs, hcidrs, -⟩ := addClusterCIDR_eq c cidr
    rw [Classifier.call, hcidrs]
    exact (List.append_nil _).symm
  | _ => exact (List.append_nil _).symm

section
variable (calls : List ConfigCall)

theorem configure_peeringCIDRs :
    (Classifier.configure calls).peeringCIDRs = Classifier.clonePrefixes (peeringCIDRs calls) :=
  foldl_lastValue Classifier.peeringCIDRs _ (fun c x => (call_set c x).1) rfl calls

theorem configure_tgwCIDRs :
    (Classifier.configure calls).tgwCIDRs = Classifier.clonePrefixes (tgwCIDRs calls) :=
  foldl_lastValue Classifier.tgwCIDRs _ (fun c x => (call_set c x).2.1) rfl calls

theorem configure_endpointCIDRs :
    (Classifier.configure calls).endpointCIDRs
      = Classifier.clonePrefixes (endpointCIDRs calls) :=
  foldl_lastValue Classifier.endpointCIDRs _ (fun c x => (call_set c x).2.2.1) rfl calls

theorem configure_natGatewayIPs :
    (Classifier.configure calls).natGatewayIPs = (natGatewayIPs calls).toFinset :=
  foldl_lastValue Classifier.natGatewayIPs _ (fun c x => (call_set c x).2.2.2.1) rfl calls

theorem configure_defaultRouteNAT :
    (Classifier.configure calls).defaultRouteNAT = defaultRouteNAT calls :=
  foldl_lastValue Classifier.defaultRouteNAT id (fun c x => (call_set c x).2.2.2.2.1) rfl calls

theorem configure_localZone :
    (Classifier.configure calls).resolver.localZone
      = lastValue ConfigCall.localZoneSet "" calls :=
  foldl_lastValue (fun c => c.resolver.localZone) id (fun c x => (call_set c x).2.2.2.2.2) rfl calls

theorem configure_ipToZone (addr : Addr) :
    (Classifier.configure calls).resolver.ipToZone.lookup addr
      = lastValue (ConfigCall.ipZoneSet addr) none calls :=
  foldl_lastValue (fun c => c.resolver.ipToZone.lookup addr) id
    (fun c x => (call_resolver c x addr).1) rfl calls

theorem configure_cidrZones :
    (Classifier.configure calls).resolver.cidrZones
      = sinceReset ConfigCall.cidrZonesReset ConfigCall.cidrZonesAdded calls := by
  refine foldl_sinceReset (R := fun (c : Classifier) v => c.resolver.cidrZones = v) ?_ ?_ rfl calls
  · intro c x l hx
    rw [call_cidrZones, hx]
    rfl
  · intro c x l hx hc
    rw [call_cidrZones, hx, hc]
    rfl

theorem mem_configure_localIPs (addr : Addr) :
    addr ∈ (Classifier.configure calls).resolver.localIPs ↔ .addLocalIP addr ∈ calls := by
  induction calls using List.reverseRecOn with
  | nil => exact ⟨fun h => absurd h (Finset.notMem_empty addr), fun h => absurd h List.not_mem_nil⟩
  | append_singleton calls x ih =>
    rw [Classifier.configure, List.foldl_append, List.foldl_cons, List.foldl_nil,
      ← Classifier.configure, (call_resolver _ x addr).2, ih, List.mem_append,
      List.mem_singleton, eq_comm]

/-- The zones the resolver gives are the documented ones. -/
theorem resolve_configure (addr : Addr) :
    (Classifier.configure calls).resolver.resolve addr = documentedZone calls addr := by
  rw [ZoneResolver.resolve, documentedZone, configure_localZone, configure_ipToZone,
    configure_cidrZones]
  by_cases hlocal : ConfigCall.addLocalIP addr ∈ calls
  · rw [if_pos hlocal, if_pos ((mem_configure_localIPs calls addr).mpr hlocal)]
  · rw [if_neg hlocal, if_neg (mt (mem_configure_localIPs calls addr).mp hlocal)]
    cases lastValue (ConfigCall.ipZoneSet addr) none calls with
    | some zone => rfl
    | none =>
      cases (sinceReset ConfigCall.cidrZonesReset ConfigCall.cidrZonesAdded calls).find?
          fun e => e.1.contains addr with
      | none => rfl
      | some e => rfl

/-- The cluster list holds the valid ones among the CIDRs in force. -/
theorem mem_configure_clusterPrefixes (p : Prefix) :
    p ∈ (Classifier.configure calls).clusterPrefixes ↔
      p ∈ clusterCIDRs calls ∧ p.isValid = true := by
  refine foldl_sinceReset
    (R := fun (c : Classifier) v => p ∈ c.clusterPrefixes ↔ p ∈ v ∧ p.isValid = true)
    ?_ ?_ (by simp [Classifier.new]) calls
  · intro c x l hx
    cases x <;> cases hx
    show p ∈ Classifier.dedupValid _ ∅ ↔ _
    rw [Classifier.mem_dedupValid]
    simp
  · intro c x l hx hc
    cases x with
    | setClusterCIDRs cidrs => cases hx
    | addClusterCIDR cidr =>
      obtain ⟨cidrs, hcidrs, hmem⟩ := addClusterCIDR_eq c cidr
      show p ∈ (c.addClusterCIDR cidr).clusterPrefixes ↔ p ∈ l ++ [cidr] ∧ _
      rw [hcidrs]
      show p ∈ cidrs ↔ _
      rw [hmem, hc, List.mem_append, List.mem_singleton]
      constructor
      · rintro (⟨hp, hv⟩ | ⟨rfl, hv⟩)
        · exact ⟨Or.inl hp, hv⟩
        · exact ⟨Or.inr rfl, hv⟩
      · rintro ⟨hp | rfl, hv⟩
        · exact Or.inl ⟨hp, hv⟩
        · exact Or.inr ⟨rfl, hv⟩
    | _ =>
      show _ ↔ p ∈ l ++ [] ∧ _
      rw [List.append_nil]
      exact hc

end

/-! ### Classification -/

theorem mem_tableEntries {peering tgw endpoint : List Prefix} {e : PrefixEntry} :
    e ∈ tableEntries peering tgw endpoint ↔
      e.trafficType = .vpcPeering ∧ e.pfx ∈ peering ∨
      e.trafficType = .transitGateway ∧ e.pfx ∈ tgw ∨
      e.trafficType = .vpcEndpoint ∧ e.pfx ∈ endpoint := by
  obtain ⟨p, tt⟩ := e
  simp only [tableEntries, List.mem_append, List.mem_map, PrefixEntry.mk.injEq]
  constructor
  · rintro (⟨q, hq, rfl, rfl⟩ | ⟨q, hq, rfl, rfl⟩ | ⟨q, hq, rfl, rfl⟩)
    · exact Or.inl ⟨rfl, hq⟩
    · exact Or.inr (Or.inl ⟨rfl, hq⟩)
    · exact Or.inr (Or.inr ⟨rfl, hq⟩)
  · rintro (⟨rfl, hq⟩ | ⟨rfl, hq⟩ | ⟨rfl, hq⟩)
    · exact Or.inl ⟨p, hq, rfl, rfl⟩
    · exact Or.inr (Or.inl ⟨p, hq, rfl, rfl⟩)
    · exact Or.inr (Or.inr ⟨p, hq, rfl, rfl⟩)

/-- The table answers with the longest match over the lists in force. -/
theorem lookup_configure (calls : List ConfigCall) (addr : Addr) :
    (Classifier.configure calls).prefixTree.lookup addr
      = topologyType (peeringCIDRs calls) (tgwCIDRs calls) (endpointCIDRs calls) addr := by
  rw [Classifier.configure_prefixTree, lookup_table, configure_peeringCIDRs, configure_tgwCIDRs,
    configure_endpointCIDRs]
  simp only [topologyType, longestMatch_clonePrefixes]

theorem isClusterInternal_configure (calls : List ConfigCall) (addr : Addr) :
    (Classifier.configure calls).isClusterInternal addr = true ↔
      ∃ p ∈ clusterCIDRs calls, p.contains addr = true := by
  rw [Classifier.isClusterInternal, List.any_eq_true]
  constructor
  · rintro ⟨p, hp, hc⟩
    exact ⟨p, ((mem_configure_clusterPrefixes calls p).mp hp).1, hc⟩
  · rintro ⟨p, hp, hc⟩
    exact ⟨p, (mem_configure_clusterPrefixes calls p).mpr ⟨hp, Prefix.isValid_of_contains hc⟩, hc⟩

theorem classifyInternal_configure (calls : List ConfigCall) (host : ByteOrder) (flow : FlowInfo)
    (dst : Addr) :
    ((Classifier.configure calls).classifyInternal host flow dst).type
      = zoneType (documentedZone calls (nboToAddr host flow.srcIP)) (documentedZone calls dst) := by
  rw [Classifier.classifyInternal, zoneType]
  simp only [resolve_configure]
  split_ifs <;> rfl

theorem isLoopback_nboToAddr (host : ByteOrder) (v : UInt32) :
    (nboToAddr host v).isLoopback = true ↔ loopbackRange.contains (nboToAddr host v) = true :=
  Addr.isLoopback_v4_iff _

/-- Past the loopback rule, `isPrivate` is RFC 1918 or link-local. -/
theorem isPrivate_nboToAddr {host : ByteOrder} {v : UInt32}
    (h : ¬(nboToAddr host v).isLoopback = true) :
    isPrivate (nboToAddr host v) = true ↔
      ∃ p ∈ privateRanges, p.contains (nboToAddr host v) = true := by
  rw [isPrivate, Bool.or_eq_true, Bool.or_eq_true, or_iff_left h, privateRanges, nboToAddr,
    Addr.isPrivate_v4_iff, Addr.isLinkLocalUnicast_v4_iff]
  simp [or_assoc]

/-- Every flow gets the type of the documented chain. -/
theorem classify_type_eq (calls : List ConfigCall) (host : ByteOrder) (flow : FlowInfo) :
    ((Classifier.configure calls).classify host flow).type = documentedType calls host flow := by
  rw [Classifier.classify, documentedType]
  by_cases hside : flow.isSidecar
  · simp [hside]
  rw [if_neg hside, if_neg hside]
  by_cases hnode : flow.intraNode ∨ loopbackRange.contains (nboToAddr host flow.dstIP)
  · rw [if_pos hnode, if_pos (by rwa [isLoopback_nboToAddr])]
  have hloop : ¬(nboToAddr host flow.dstIP).isLoopback = true := fun h =>
    hnode (Or.inr ((isLoopback_nboToAddr host flow.dstIP).mp h))
  rw [if_neg hnode, if_neg (by rwa [isLoopback_nboToAddr])]
  by_cases hcluster : ∃ p ∈ clusterCIDRs calls, p.contains (nboToAddr host flow.dstIP) = true
  · rw [if_pos hcluster, if_pos ((isClusterInternal_configure calls _).mpr hcluster),
      classifyInternal_configure]
  rw [if_neg hcluster, if_neg (mt (isClusterInternal_configure calls _).mp hcluster)]
  by_cases hpriv : ∃ p ∈ privateRanges, p.contains (nboToAddr host flow.dstIP) = true
  · -- a private destination: NAT addresses, the table, the zones
    rw [if_pos hpriv, if_pos ((isPrivate_nboToAddr hloop).mpr hpriv), Classifier.classifyPrivate,
      configure_natGatewayIPs, lookup_configure]
    by_cases hnat : nboToAddr host flow.dstIP ∈ natGatewayIPs calls
    · rw [if_pos hnat, if_pos (List.mem_toFinset.mpr hnat)]
    · rw [if_neg hnat, if_neg (mt List.mem_toFinset.mp hnat)]
      cases topologyType (peeringCIDRs calls) (tgwCIDRs calls) (endpointCIDRs calls)
          (nboToAddr host flow.dstIP) with
      | none => exact classifyInternal_configure calls host flow _
      | some tt => rfl
  · -- any other destination: the table, the default route, the internet
    rw [if_neg hpriv, if_neg (mt (isPrivate_nboToAddr hloop).mp hpriv),
      Classifier.classifyExternal, configure_defaultRouteNAT, lookup_configure]
    cases topologyType (peeringCIDRs calls) (tgwCIDRs calls) (endpointCIDRs calls)
        (nboToAddr host flow.dstIP) with
    | none =>
      show (if defaultRouteNAT calls then _ else _ : ClassifyResult).type = _
      split_ifs <;> rfl
    | some tt => rfl

/-- Peering, transit gateway, endpoint, NAT and internet: the types that need a
destination outside the cluster CIDRs. -/
def leavesCluster : TrafficType → Bool
  | .vpcPeering | .transitGateway | .vpcEndpoint | .natGatewayEgress | .internetEgress => true
  | _ => false

theorem leavesCluster_zoneType (src dst : String) : leavesCluster (zoneType src dst) = false := by
  rw [zoneType]
  split_ifs <;> rfl

theorem leavesCluster_documentedType {calls : List ConfigCall} {host : ByteOrder}
    {flow : FlowInfo}
    (h : ∃ p ∈ clusterCIDRs calls, p.contains (nboToAddr host flow.dstIP) = true) :
    leavesCluster (documentedType calls host flow) = false := by
  rw [documentedType, if_pos h]
  split_ifs
  · rfl
  · rfl
  · exact leavesCluster_zoneType _ _

/-- The topology category a call replaces. -/
def ConfigCall.topologyCategory : ConfigCall → Option TrafficType
  | .setVPCPeeringCIDRs _ => some .vpcPeering
  | .setTransitGatewayCIDRs _ => some .transitGateway
  | .setVPCEndpointCIDRs _ => some .vpcEndpoint
  | _ => none

theorem mem_entries_configure (calls : List ConfigCall) (e : PrefixEntry) :
    e ∈ (Classifier.configure calls).prefixTree.entries ↔
      e.pfx.isValid = true ∧
        (e.trafficType = .vpcPeering ∧ e.pfx ∈ peeringCIDRs calls ∨
        e.trafficType = .transitGateway ∧ e.pfx ∈ tgwCIDRs calls ∨
        e.trafficType = .vpcEndpoint ∧ e.pfx ∈ endpointCIDRs calls) := by
  rw [Classifier.configure_prefixTree, PrefixTree.mem_build, mem_tableEntries,
    configure_peeringCIDRs, configure_tgwCIDRs, configure_endpointCIDRs]
  simp only [Classifier.clonePrefixes, List.mem_filter]
  tauto

/-- A call that replaces another category leaves an entry where it is. -/
theorem mem_entries_concat {calls : List ConfigCall} {x : ConfigCall} {e : PrefixEntry}
    (hx : x.topologyCategory ≠ some e.trafficType)
    (he : e ∈ (Classifier.configure calls).prefixTree.entries) :
    e ∈ (Classifier.configure (calls ++ [x])).prefixTree.entries := by
  rw [mem_entries_configure] at he ⊢
  obtain ⟨hvalid, he⟩ := he
  refine ⟨hvalid, ?_⟩
  rw [peeringCIDRs, tgwCIDRs, endpointCIDRs, lastValue_concat, lastValue_concat, lastValue_concat]
  rcases he with ⟨htype, hmem⟩ | ⟨htype, hmem⟩ | ⟨htype, hmem⟩ <;> rw [htype] at hx
  · have hkept : x.peeringSet = none := by cases x <;> first | rfl | exact absurd rfl hx
    exact Or.inl ⟨htype, by rw [hkept]; exact hmem⟩
  · have hkept : x.tgwSet = none := by cases x <;> first | rfl | exact absurd rfl hx
    exact Or.inr (Or.inl ⟨htype, by rw [hkept]; exact hmem⟩)
  · have hkept : x.endpointSet = none := by cases x <;> first | rfl | exact absurd rfl hx
    exact Or.inr (Or.inr ⟨htype, by rw [hkept]; exact hmem⟩)

theorem natGatewayIPs_concat {calls : List ConfigCall} {x : ConfigCall} (hx : x.natSet = none) :
    (Classifier.configure (calls ++ [x])).natGatewayIPs
      = (Classifier.configure calls).natGatewayIPs := by
  rw [configure_natGatewayIPs, configure_natGatewayIPs, natGatewayIPs, lastValue_concat, hx]
  rfl

theorem mem_clusterPrefixes_concat {calls : List ConfigCall} {x : ConfigCall} {p : Prefix}
    (hx : x.clusterReset = none) (hp : p ∈ (Classifier.configure calls).clusterPrefixes) :
    p ∈ (Classifier.configure (calls ++ [x])).clusterPrefixes := by
  rw [mem_configure_clusterPrefixes] at hp ⊢
  rw [clusterCIDRs, sinceReset_concat_added hx]
  exact ⟨List.mem_append_left _ hp.1, hp.2⟩

/-- **The classifier specification.**  After every run of configuration calls,
(1) every flow gets the type of the documented chain on the configuration in
force, (2) no flow to a cluster CIDR gets a type that leaves the cluster, and
(3) one more call keeps the table entries of every category it does not
replace, the NAT addresses unless it sets those, and the cluster CIDRs unless
it replaces those. -/
theorem Classifier.classify_eq_documented (host : ByteOrder) (calls : List ConfigCall) :
    (∀ flow, ((configure calls).classify host flow).type = documentedType calls host flow) ∧
    (∀ flow p, p ∈ clusterCIDRs calls → p.contains (nboToAddr host flow.dstIP) = true →
      leavesCluster ((configure calls).classify host flow).type = false) ∧
    (∀ x : ConfigCall,
      (∀ e ∈ (configure calls).prefixTree.entries, x.topologyCategory ≠ some e.trafficType →
        e ∈ (configure (calls ++ [x])).prefixTree.entries) ∧
      (x.natSet = none →
        (configure (calls ++ [x])).natGatewayIPs = (configure calls).natGatewayIPs) ∧
      (x.clusterReset = none → ∀ p ∈ (configure calls).clusterPrefixes,
        p ∈ (configure (calls ++ [x])).clusterPrefixes)) := by
  refine ⟨fun flow => classify_type_eq calls host flow, ?_, fun x => ⟨?_, ?_, ?_⟩⟩
  · intro flow p hp hc
    rw [classify_type_eq]
    exact leavesCluster_documentedType ⟨p, hp, hc⟩
  · intro e he hx
    exact mem_entries_concat hx he
  · exact natGatewayIPs_concat
  · intro hx p hp
    exact mem_clusterPrefixes_concat hx hp

/-- A peering /16 inside a transit-gateway /8 and an endpoint list with the same
/16: the longest match is peering's, by the fixed order. -/
example :
    ((Classifier.configure
      [.setTransitGatewayCIDRs [.v4 0x0a000000#32 8],
        .setVPCEndpointCIDRs [.v4 0x0a010000#32 16],
        .setVPCPeeringCIDRs [.invalid, .v4 0x0a010000#32 16]]).classify .big
      { srcIP := 0x0a020001, dstIP := 0x0a010203 }).type = .vpcPeering := by
  decide

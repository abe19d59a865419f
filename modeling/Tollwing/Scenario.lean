/-
Simulation scenarios (`test/sim/scenario/scenario.go`).

A scenario declares zones, services and external endpoints, the traffic between them and
the cloud topology around them.  Services have no addresses of their own; `serviceIP` makes
one up from the sorted names.

* `Sim.Scenario.validate_eq_none_iff` — what a scenario that passes declares, in whatever
  order its maps are ranged over;
* `Sim.Scenario.serviceIP_injective` — up to 256 services get addresses of their own.
-/
import Mathlib.Data.String.Basic
import Mathlib.Data.List.Sort
import Mathlib.Tactic.SplitIfs
import Tollwing.FinMap
import Tollwing.ParseAddr

namespace ByteOrder

/-! The four bytes of a word. -/

variable (a b c d : BitVec 8)

theorem extract_first : (a ++ b ++ c ++ d).extractLsb' 24 8 = a := by
  rw [BitVec.extractLsb'_append_eq_of_le (by omega), BitVec.extractLsb'_append_eq_of_le (by omega)]
  exact BitVec.extractLsb'_append_eq_left

theorem extract_second : (a ++ b ++ c ++ d).extractLsb' 16 8 = b := by
  rw [BitVec.extractLsb'_append_eq_of_le (by omega), BitVec.extractLsb'_append_eq_of_le (by omega)]
  exact BitVec.extractLsb'_append_eq_right

theorem extract_third : (a ++ b ++ c ++ d).extractLsb' 8 8 = c := by
  rw [BitVec.extractLsb'_append_eq_of_le (by omega)]
  exact BitVec.extractLsb'_append_eq_right

theorem extract_fourth : (a ++ b ++ c ++ d).extractLsb' 0 8 = d :=
  BitVec.extractLsb'_append_eq_right

theorem append_extract (bits : BitVec 32) : bits.extractLsb' 24 8 ++ bits.extractLsb' 16 8
    ++ bits.extractLsb' 8 8 ++ bits.extractLsb' 0 8 = bits := by
  have hfirst : bits.extractLsb' 24 8 ++ bits.extractLsb' 16 8 = bits.extractLsb' 16 16 :=
    BitVec.extractLsb'_append_extractLsb'_eq_extractLsb' rfl
  have hthree : bits.extractLsb' 16 16 ++ bits.extractLsb' 8 8 = bits.extractLsb' 8 24 :=
    BitVec.extractLsb'_append_extractLsb'_eq_extractLsb' rfl
  have hall : bits.extractLsb' 8 24 ++ bits.extractLsb' 0 8 = bits.extractLsb' 0 32 :=
    BitVec.extractLsb'_append_extractLsb'_eq_extractLsb' rfl
  rw [hfirst, hthree, hall, BitVec.extractLsb'_eq_self]

/-- Writing a word that was read gives its bytes back. -/
theorem putUint32_putUint32 (host : ByteOrder) (bits : BitVec 32) :
    host.putUint32 ⟨host.putUint32 ⟨bits⟩⟩ = bits := by
  cases host with
  | big => rfl
  | little =>
    simp only [putUint32]
    rw [extract_first, extract_second, extract_third, extract_fourth]
    exact append_extract bits

end ByteOrder

namespace Sim

/-- `Zone`: a fake availability zone. -/
structure Zone where
  region : String
  deriving DecidableEq, Repr

/-- `Service`, as far as the simulation reads it. -/
structure Service where
  zone : String
  deriving DecidableEq, Repr

/-- `External`: a destination outside the cluster. -/
structure External where
  ip : String
  deriving DecidableEq, Repr

/-- `Edge`: one directed traffic flow, `From` the source `To` the destination. -/
structure Edge where
  src : String
  dst : String
  requests : UInt64 := 0
  requestBytes : UInt64 := 0
  responseBytes : UInt64 := 0
  txBytes : UInt64 := 0
  rxBytes : UInt64 := 0
  sidecar : Bool := false
  intraNode : Bool := false
  cloudServicePublic : Bool := false
  deriving DecidableEq, Repr

/-- `Bytes`: what the source sent and what it received. -/
def Edge.bytes (e : Edge) : UInt64 × UInt64 :=
  if 0 < e.requests then (e.requests * e.requestBytes, e.requests * e.responseBytes)
  else (e.txBytes, e.rxBytes)

/-- `Scenario`, without what is only pinned by its tests. -/
structure Scenario where
  name : String
  provider : String
  region : String
  zones : FinMap String Zone
  services : FinMap String Service
  external : FinMap String External
  traffic : List Edge
  natGatewayIPs : List String
  vpcPeeringCIDRs : List String
  transitGatewayCIDRs : List String
  vpcEndpointCIDRs : List String
  clusterCIDRs : List String
  defaultRouteNAT : Bool
  pricingMode : String

/-- What `Validate` complains about. -/
inductive ScenarioError
  | nameRequired
  | undeclaredZone (service zone : String)
  | externalIP (name ip : String)
  | undeclaredService (i : ℕ) (name : String)
  | undeclaredDestination (i : ℕ) (name : String)
  | natGatewayIP (ip : String)
  | cidr (cidr : String)
  | pricingMode (mode : String)
  deriving DecidableEq, Repr

/-- `Is4`. -/
def is4 : Addr → Bool
  | .v4 _ => true
  | _ => false

/-- `AddrFrom4`. -/
def addrFrom4 (a b c d : BitVec 8) : Addr := .v4 (a ++ b ++ c ++ d)

/-- `sort.Strings` of names that are all different, in whatever order they come. -/
def sortStrings (names : Finset String) : List String :=
  Quot.liftOn names.val (fun names => names.insertionSort (· ≤ ·)) fun a b hperm =>
    List.Perm.eq_of_pairwise (fun _ _ _ _ => le_antisymm) (List.pairwise_insertionSort _ a)
      (List.pairwise_insertionSort _ b)
      (((List.perm_insertionSort _ a).trans hperm).trans (List.perm_insertionSort _ b).symm)

theorem coe_sortStrings (names : Finset String) :
    (sortStrings names : Multiset String) = names.val := by
  rw [sortStrings]
  generalize names.val = names
  induction names using Quotient.inductionOn with
  | h names => exact Multiset.coe_eq_coe.mpr (List.perm_insertionSort _ names)

theorem mem_sortStrings {names : Finset String} {name : String} :
    name ∈ sortStrings names ↔ name ∈ names := by
  rw [← Multiset.mem_coe, coe_sortStrings, Finset.mem_val]

theorem length_sortStrings (names : Finset String) : (sortStrings names).length = names.card := by
  rw [← Multiset.coe_card, coe_sortStrings, Finset.card_val]

/-- The order of the names. -/
def byName : RangeOrder String where
  keys := sortStrings
  nodup names := Multiset.coe_nodup.mp (coe_sortStrings names ▸ names.nodup)
  mem_keys _ _ := mem_sortStrings

/-- `sortedIndex`, on the sorted keys; `none` is `-1`. -/
def sortedIndex (keys : List String) (target : String) : Option ℕ := keys.idxOf? target

namespace Scenario

variable (s : Scenario)

/-- `isDestination`. -/
def isDestination (name : String) : Bool := name ∈ s.services ∨ name ∈ s.external

/-- Every set of CIDRs, one after the other. -/
def cidrs : List String :=
  s.vpcPeeringCIDRs ++ s.transitGatewayCIDRs ++ s.vpcEndpointCIDRs ++ s.clusterCIDRs

/-- `Validate`: the first complaint; the maps are ranged over in some order. -/
def validate (order : RangeOrder String) : Option ScenarioError :=
  if s.name = "" then some .nameRequired
  else
    ((s.services.listed order).findSome? fun (name, svc) =>
      if svc.zone ∈ s.zones then none else some (.undeclaredZone name svc.zone)) <|>
    ((s.external.listed order).findSome? fun (name, ext) =>
      if (parseAddr ext.ip).isSome then none else some (.externalIP name ext.ip)) <|>
    (s.traffic.zipIdx.findSome? fun (e, i) =>
      if e.src ∉ s.services then some (.undeclaredService i e.src)
      else if s.isDestination e.dst then none
      else some (.undeclaredDestination i e.dst)) <|>
    (s.natGatewayIPs.findSome? fun ip =>
      if (parseAddr ip).isSome then none else some (.natGatewayIP ip)) <|>
    (s.cidrs.findSome? fun c => if (parsePrefix c).isSome then none else some (.cidr c)) <|>
    if s.pricingMode ∈ ["", "marginal", "single_meter"] then none
    else some (.pricingMode s.pricingMode)

/-- `ServiceIP`: an address in 10.0.0.0/8 made of the places of the zone and the service
among the sorted names. -/
def serviceIP (name : String) : Option Addr := do
  let svc ← s.services.lookup name
  let zoneIdx ← sortedIndex (sortStrings s.zones.keys) svc.zone
  let svcIdx ← sortedIndex (sortStrings s.services.keys) name
  some (addrFrom4 10 (BitVec.ofNat 8 (zoneIdx + 1)) 0 (BitVec.ofNat 8 (svcIdx + 1)))

/-- `DstIP`: a service before an external endpoint. -/
def dstIP (name : String) : Option Addr :=
  if name ∈ s.services then s.serviceIP name
  else (s.external.lookup name).bind fun ext => parseAddr ext.ip

def natAddrs : List Addr := s.natGatewayIPs.filterMap parseAddr

def peeringPrefixes : List Prefix := s.vpcPeeringCIDRs.filterMap parsePrefix

def tgwPrefixes : List Prefix := s.transitGatewayCIDRs.filterMap parsePrefix

def endpointPrefixes : List Prefix := s.vpcEndpointCIDRs.filterMap parsePrefix

def clusterPrefixes : List Prefix := s.clusterCIDRs.filterMap parsePrefix

/-! ### Valid scenarios -/

/-- What a valid scenario declares. -/
structure Valid : Prop where
  named : s.name ≠ ""
  zones : ∀ name svc, s.services.lookup name = some svc → svc.zone ∈ s.zones
  external : ∀ name ext, s.external.lookup name = some ext → (parseAddr ext.ip).isSome
  src : ∀ e ∈ s.traffic, e.src ∈ s.services
  dst : ∀ e ∈ s.traffic, e.dst ∈ s.services ∨ e.dst ∈ s.external
  nat : ∀ ip ∈ s.natGatewayIPs, (parseAddr ip).isSome
  cidr : ∀ c ∈ s.cidrs, (parsePrefix c).isSome
  mode : s.pricingMode ∈ ["", "marginal", "single_meter"]

variable {s}

/-- **Validation** passes exactly the valid scenarios, in every order of the maps. -/
theorem validate_eq_none_iff (order : RangeOrder String) :
    s.validate order = none ↔ s.Valid := by
  have hguard : ∀ {p : Prop} [Decidable p] (e : ScenarioError),
      (if p then none else some e) = none ↔ p := by
    intro p _ e
    split_ifs with h
    · exact iff_of_true rfl h
    · exact iff_of_false (by simp) h
  have htraffic : (s.traffic.zipIdx.findSome? fun (e, i) =>
      if e.src ∉ s.services then some (ScenarioError.undeclaredService i e.src)
      else if s.isDestination e.dst then none
      else some (.undeclaredDestination i e.dst)) = none ↔
      ∀ e ∈ s.traffic, e.src ∈ s.services ∧ (e.dst ∈ s.services ∨ e.dst ∈ s.external) := by
    have hedge : ∀ (e : Edge) (i : ℕ),
        (if e.src ∉ s.services then some (ScenarioError.undeclaredService i e.src)
          else if s.isDestination e.dst then none
          else some (.undeclaredDestination i e.dst)) = none ↔
        e.src ∈ s.services ∧ (e.dst ∈ s.services ∨ e.dst ∈ s.external) := by
      intro e i
      by_cases hsrc : e.src ∈ s.services
      · rw [if_neg (not_not.mpr hsrc), hguard, isDestination, decide_eq_true_eq, and_iff_right hsrc]
      · rw [if_pos hsrc]
        exact iff_of_false (by simp) fun h => hsrc h.1
    rw [List.findSome?_eq_none_iff]
    constructor
    · intro h e he
      obtain ⟨i, hi⟩ := List.mem_iff_getElem?.mp he
      exact (hedge e i).mp (h (e, i) (List.mem_zipIdx_iff_getElem?.mpr hi))
    · intro h x hx
      exact (hedge x.1 x.2).mpr (h x.1 (List.fst_mem_of_mem_zipIdx hx))
  by_cases hname : s.name = ""
  · rw [validate, if_pos hname]
    exact iff_of_false (by simp) fun h => h.named hname
  rw [validate, if_neg hname]
  simp only [Option.orElse_eq_orElse, Option.orElse_eq_or, Option.or_eq_none_iff, htraffic, hguard,
    List.findSome?_eq_none_iff, Prod.forall, FinMap.mem_listed]
  constructor
  · rintro ⟨hzones, hexternal, htraffic, hnat, hcidr, hmode⟩
    exact ⟨hname, hzones, hexternal, fun e he => (htraffic e he).1, fun e he => (htraffic e he).2,
      hnat, hcidr, hmode⟩
  · intro h
    exact ⟨h.zones, h.external, fun e he => ⟨h.src e he, h.dst e he⟩, h.nat, h.cidr, h.mode⟩

/-! ### Service addresses -/

/-- The place of a name that is there. -/
theorem sortedIndex_eq_some {keys : List String} {target : String} (h : target ∈ keys) :
    ∃ i, sortedIndex keys target = some i :=
  Option.isSome_iff_exists.mp (Option.isSome_iff_ne_none.mpr fun hnone =>
    List.idxOf?_eq_none_iff.mp hnone h)

/-- A place has one name. -/
theorem sortedIndex_injective {keys : List String} {a b : String} {i : ℕ}
    (ha : sortedIndex keys a = some i) (hb : sortedIndex keys b = some i) :
    i < keys.length ∧ a = b := by
  obtain ⟨hi, ha, _⟩ := List.idxOf?_eq_some_iff.mp ha
  obtain ⟨_, hb, _⟩ := List.idxOf?_eq_some_iff.mp hb
  exact ⟨hi, ha.symm.trans hb⟩

/-- What the address of a service is made of. -/
theorem serviceIP_eq_some {name : String} {ip : Addr} (h : s.serviceIP name = some ip) :
    ∃ svc zoneIdx svcIdx, s.services.lookup name = some svc ∧
      sortedIndex (sortStrings s.services.keys) name = some svcIdx ∧
      ip = addrFrom4 10 (BitVec.ofNat 8 (zoneIdx + 1)) 0 (BitVec.ofNat 8 (svcIdx + 1)) := by
  rw [serviceIP] at h
  obtain ⟨svc, hsvc, h⟩ := Option.bind_eq_some_iff.mp h
  obtain ⟨zoneIdx, -, h⟩ := Option.bind_eq_some_iff.mp h
  obtain ⟨svcIdx, hidx, h⟩ := Option.bind_eq_some_iff.mp h
  exact ⟨svc, zoneIdx, svcIdx, hsvc, hidx, (Option.some.inj h).symm⟩

/-- Every service of a valid scenario has an address. -/
theorem Valid.serviceIP (h : s.Valid) {name : String} (hname : name ∈ s.services) :
    ∃ ip, s.serviceIP name = some ip := by
  obtain ⟨svc, hsvc⟩ := Finmap.mem_iff.mp hname
  obtain ⟨zoneIdx, hzone⟩ := sortedIndex_eq_some
    (mem_sortStrings.mpr (Finmap.mem_keys.mpr (h.zones name svc hsvc)))
  obtain ⟨svcIdx, hidx⟩ := sortedIndex_eq_some
    (mem_sortStrings.mpr (Finmap.mem_keys.mpr hname))
  rw [Scenario.serviceIP]
  simp only [hsvc, hzone, hidx, Option.bind_eq_bind, Option.bind_some]
  exact ⟨_, rfl⟩

/-- **Addresses are unique**: the last octet tells up to 256 services apart. -/
theorem serviceIP_injective (hcard : s.services.keys.card ≤ 256) {a b : String} {ip : Addr}
    (ha : s.serviceIP a = some ip) (hb : s.serviceIP b = some ip) : a = b := by
  obtain ⟨_, _, i, _, hi, rfl⟩ := serviceIP_eq_some ha
  obtain ⟨_, _, j, _, hj, heq⟩ := serviceIP_eq_some hb
  have hlast := congrArg (BitVec.extractLsb' 0 8) (Addr.v4.inj heq)
  rw [ByteOrder.extract_fourth, ByteOrder.extract_fourth] at hlast
  have hbyte := congrArg BitVec.toNat hlast
  rw [BitVec.toNat_ofNat, BitVec.toNat_ofNat] at hbyte
  have hilt := (sortedIndex_injective hi hi).1
  have hjlt := (sortedIndex_injective hj hj).1
  rw [length_sortStrings] at hilt hjlt
  have hij : i = j := by omega
  exact (sortedIndex_injective hi (hij ▸ hj)).2

/-- The addresses of services are private ones. -/
theorem serviceIP_private {name : String} {ip : Addr} (h : s.serviceIP name = some ip) :
    ∃ bits, ip = .v4 bits ∧ Addr.octet bits 0 = 10#8 := by
  obtain ⟨_, zoneIdx, svcIdx, _, _, rfl⟩ := serviceIP_eq_some h
  exact ⟨_, rfl, ByteOrder.extract_first ..⟩

end Scenario

end Sim

/-
The zones of the subnets (`pkg/cloud/aws/aws.go`).

EC2 lists the subnets of all VPCs of the account.  The provider makes a map of their
zones by CIDR, and a refresh hands it to the resolver, which scans it in the order of
some iteration.  Neither step asks for the VPC.

* `getSubnetZoneMapping` — the map, the last subnet of a CIDR;
* `SubnetsResolve` — the addresses of the node's VPC resolve to their subnets' zones,
  however the subnets are listed and the map is ranged over;
* `subnets_resolve_iff` — exactly if no subnet of another zone contains the address.
-/
import Tollwing.AWSTopology

/-- `ec2Subnet`, with its zone. -/
structure EC2ZonedSubnet extends EC2Subnet where
  availabilityZone : String
  deriving DecidableEq

/-- One round of the loop; what is no CIDR is skipped. -/
def addSubnetZone (result : FinMap Prefix String) (s : EC2ZonedSubnet) : FinMap Prefix String :=
  match parsePrefix s.cidrBlock with
  | none => result
  | some pfx => result.insert pfx s.availabilityZone

/-- The map of the listed subnets. -/
def subnetZoneMap (subnets : List EC2ZonedSubnet) : FinMap Prefix String :=
  subnets.foldl addSubnetZone ∅

/-- `GetSubnetZoneMapping`: nothing if the listing fails, an empty map without a client. -/
def getSubnetZoneMapping : Option (Option (List EC2ZonedSubnet)) → Option (FinMap Prefix String)
  | none => some ∅
  | some none => none
  | some (some subnets) => some (subnetZoneMap subnets)

namespace EC2ZonedSubnet

/-- The subnet's CIDR contains the address. -/
def Holds (s : EC2ZonedSubnet) (addr : Addr) : Prop :=
  ∃ p, parsePrefix s.cidrBlock = some p ∧ p.contains addr = true

/-! ### The map -/

variable {subnets : List EC2ZonedSubnet} {p : Prefix} {zone : String}

theorem subnetZoneMap_concat (subnets : List EC2ZonedSubnet) (s : EC2ZonedSubnet) :
    subnetZoneMap (subnets ++ [s]) = addSubnetZone (subnetZoneMap subnets) s :=
  List.foldl_append

/-- Every entry is that of a subnet. -/
theorem exists_of_lookup : (subnetZoneMap subnets).lookup p = some zone →
    ∃ s ∈ subnets, parsePrefix s.cidrBlock = some p ∧ s.availabilityZone = zone := by
  induction subnets using List.reverseRecOn with
  | nil => exact fun h => absurd h nofun
  | append_singleton subnets s ih =>
    rw [subnetZoneMap_concat, addSubnetZone]
    intro h
    have hold (h : (subnetZoneMap subnets).lookup p = some zone) :
        ∃ s' ∈ subnets ++ [s], parsePrefix s'.cidrBlock = some p ∧ s'.availabilityZone = zone := by
      obtain ⟨s', hs', hentry⟩ := ih h
      exact ⟨s', List.mem_append_left _ hs', hentry⟩
    cases hparse : parsePrefix s.cidrBlock with
    | none =>
      rw [hparse] at h
      exact hold h
    | some q =>
      rw [hparse] at h
      rcases FinMap.lookup_insert_eq_some.mp h with ⟨rfl, hzone⟩ | ⟨-, h⟩
      · exact ⟨s, List.mem_append_right _ (List.mem_singleton_self s), hparse, hzone⟩
      · exact hold h

/-- Every subnet's CIDR has an entry. -/
theorem lookup_ne_none {s : EC2ZonedSubnet} (hs : s ∈ subnets)
    (hp : parsePrefix s.cidrBlock = some p) :
    (subnetZoneMap subnets).lookup p ≠ none := by
  induction subnets using List.reverseRecOn with
  | nil => cases hs
  | append_singleton subnets s' ih =>
    rw [subnetZoneMap_concat, addSubnetZone]
    rcases List.mem_append.mp hs with hs | hs
    · cases parsePrefix s'.cidrBlock with
      | none => exact ih hs
      | some q =>
        dsimp only
        rw [FinMap.lookup_insert_ite]
        split_ifs
        · exact Option.some_ne_none _
        · exact ih hs
    · rw [← List.mem_singleton.mp hs, hp]
      dsimp only
      rw [Finmap.lookup_insert]
      exact Option.some_ne_none _

/-- The subnet listed last has its zone in the map. -/
theorem lookup_last (subnets : List EC2ZonedSubnet) {s : EC2ZonedSubnet}
    (hp : parsePrefix s.cidrBlock = some p) :
    (subnetZoneMap (subnets ++ [s])).lookup p = some s.availabilityZone := by
  rw [subnetZoneMap_concat, addSubnetZone, hp]
  exact Finmap.lookup_insert _

end EC2ZonedSubnet

/-! ### After a refresh -/

/-- What a refresh is answered, the subnets listed like this and their map ranged over in
this order. -/
def TopologyAnswers.withSubnets (x : TopologyAnswers) (subnets : List EC2ZonedSubnet)
    (order : RangeOrder Prefix) : TopologyAnswers :=
  { x with
    subnetZones := (getSubnetZoneMapping (some (some subnets))).map fun m => m.listed order }

section
variable {provider : ProviderCapabilities} {t : TopologyRefresher} {x : TopologyAnswers}
  {subnets : List EC2ZonedSubnet} {addr : Addr}

/-- What the address resolves to after a refresh on these answers. -/
def TopologyRefresher.zoneAfter (t : TopologyRefresher) (provider : ProviderCapabilities)
    (x : TopologyAnswers) (addr : Addr) : String :=
  (t.refresh provider x).classifier.resolver.resolve addr

/-- The map's zones take the place of those before, if there are some. -/
theorem zoneAfter_eq (hdirect : t.classifier.resolver.ipToZone.lookup addr = none)
    {order : RangeOrder Prefix} (hne : (subnetZoneMap subnets).listed order ≠ []) :
    t.zoneAfter provider (x.withSubnets subnets order) addr =
      if addr ∈ t.classifier.resolver.localIPs then t.classifier.resolver.localZone
      else (((subnetZoneMap subnets).listed order).find? fun e => e.1.contains addr).elim ""
        Prod.snd := by
  have hzones : (t.refresh provider (x.withSubnets subnets order)).classifier.resolver.cidrZones
      = (subnetZoneMap subnets).listed order := by
    have hlisted : (x.withSubnets subnets order).zones
        = some ((subnetZoneMap subnets).listed order) :=
      if_pos (decide_eq_true hne)
    have htopology := congrArg Topology.zones
      (t.topology_refresh provider (x.withSubnets subnets order))
    rw [Topology.update, hlisted] at htopology
    exact htopology
  rw [TopologyRefresher.zoneAfter, (t.retargets_refresh provider _).resolver, hzones,
    ZoneResolver.resolve]
  dsimp only
  rw [hdirect]
  split_ifs
  · rfl
  · cases ((subnetZoneMap subnets).listed order).find? fun e => e.1.contains addr <;> rfl

theorem listed_ne_nil {s : EC2ZonedSubnet} (hs : s ∈ subnets) {p : Prefix}
    (hp : parsePrefix s.cidrBlock = some p) (order : RangeOrder Prefix) :
    (subnetZoneMap subnets).listed order ≠ [] := by
  obtain ⟨zone, hzone⟩ := Option.ne_none_iff_exists'.mp (EC2ZonedSubnet.lookup_ne_none hs hp)
  exact List.ne_nil_of_mem (FinMap.mem_listed.mpr hzone)

/-- However the subnets are listed and their map is ranged over, the address resolves to
the zone of the subnets of the VPC that hold it. -/
def SubnetsResolve (provider : ProviderCapabilities) (t : TopologyRefresher)
    (x : TopologyAnswers) (vpc : String) (subnets : List EC2ZonedSubnet) (addr : Addr) : Prop :=
  ∀ s ∈ subnets, s.vpcID = vpc → s.Holds addr → ∀ listing, listing.Perm subnets → ∀ order,
    t.zoneAfter provider (x.withSubnets listing order) addr = s.availabilityZone

/-- Any subnet that holds the address decides its zone in some listing and some order. -/
theorem exists_zoneAfter (provider : ProviderCapabilities) (x : TopologyAnswers)
    (hdirect : t.classifier.resolver.ipToZone.lookup addr = none)
    (hlocal : addr ∉ t.classifier.resolver.localIPs) {s : EC2ZonedSubnet} (hs : s ∈ subnets)
    (hholds : s.Holds addr) :
    ∃ listing, listing.Perm subnets ∧ ∃ order,
      t.zoneAfter provider (x.withSubnets listing order) addr = s.availabilityZone := by
  obtain ⟨p, hp, hcontains⟩ := hholds
  -- listed last, its zone is the map's; ranged over first, its CIDR is the scan's
  have hlast : (subnets.erase s ++ [s]).Perm subnets :=
    (List.perm_append_singleton s _).trans (List.perm_cons_erase hs).symm
  obtain ⟨order, rest, hfirst⟩ :=
    FinMap.exists_listed_cons (EC2ZonedSubnet.lookup_last (subnets.erase s) hp)
  refine ⟨_, hlast, order, ?_⟩
  have hne : (subnetZoneMap (subnets.erase s ++ [s])).listed order ≠ [] := by
    rw [hfirst]
    exact List.cons_ne_nil _ rest
  rw [zoneAfter_eq hdirect hne, if_neg hlocal, hfirst, List.find?_cons_of_pos]
  · rfl
  · exact hcontains

/-- If all subnets that hold the address are in one zone, it resolves to it. -/
theorem zoneAfter_of_one_zone {listing : List EC2ZonedSubnet} {zone : String}
    (hdirect : t.classifier.resolver.ipToZone.lookup addr = none)
    (hlocal : addr ∉ t.classifier.resolver.localIPs) {s : EC2ZonedSubnet} (hs : s ∈ listing)
    (hholds : s.Holds addr) (hzone : ∀ s' ∈ listing, s'.Holds addr → s'.availabilityZone = zone)
    (order : RangeOrder Prefix) :
    t.zoneAfter provider (x.withSubnets listing order) addr = zone := by
  obtain ⟨p, hp, hcontains⟩ := hholds
  rw [zoneAfter_eq hdirect (listed_ne_nil hs hp order), if_neg hlocal]
  cases hfind : ((subnetZoneMap listing).listed order).find? fun e => e.1.contains addr with
  | none =>
    obtain ⟨found, hfound⟩ := Option.ne_none_iff_exists'.mp (EC2ZonedSubnet.lookup_ne_none hs hp)
    have hmem : (p, found) ∈ (subnetZoneMap listing).listed order := FinMap.mem_listed.mpr hfound
    exact absurd hcontains (List.find?_eq_none.mp hfind (p, found) hmem)
  | some e =>
    -- whichever entry comes first is that of a listed subnet
    obtain ⟨s', hs', hp', hzone'⟩ := EC2ZonedSubnet.exists_of_lookup
      (FinMap.mem_listed.mp (List.mem_of_find?_eq_some hfind))
    have hcontains' : e.1.contains addr = true := by simpa using List.find?_some hfind
    exact hzone'.symm.trans (hzone s' hs' ⟨e.1, hp', hcontains'⟩)

/-- **Subnet zones are right** for an address without a zone of its own, exactly if the
node's own zone is that of its subnet, and for other addresses every listed subnet that
holds it, of whatever VPC, is in the zone of the node's VPC's subnet. -/
theorem subnets_resolve_iff (vpc : String) (subnets : List EC2ZonedSubnet)
    (hdirect : t.classifier.resolver.ipToZone.lookup addr = none) :
    SubnetsResolve provider t x vpc subnets addr ↔
      ∀ s ∈ subnets, s.vpcID = vpc → s.Holds addr →
        if addr ∈ t.classifier.resolver.localIPs then
          t.classifier.resolver.localZone = s.availabilityZone
        else ∀ s' ∈ subnets, s'.Holds addr → s'.availabilityZone = s.availabilityZone := by
  constructor
  · intro h s hs hvpc hholds
    split_ifs with hlocal
    · obtain ⟨order⟩ : Nonempty (RangeOrder Prefix) := RangeOrder.nonempty
      obtain ⟨p, hp, -⟩ := id hholds
      have hresolve := h s hs hvpc hholds subnets (List.Perm.refl _) order
      rwa [zoneAfter_eq hdirect (listed_ne_nil hs hp order), if_pos hlocal] at hresolve
    · intro s' hs' hholds'
      obtain ⟨listing, hperm, order, hzone⟩ :=
        exists_zoneAfter provider x hdirect hlocal hs' hholds'
      exact hzone.symm.trans (h s hs hvpc hholds listing hperm order)
  · intro h s hs hvpc hholds listing hperm order
    have hs' := hperm.mem_iff.mpr hs
    by_cases hlocal : addr ∈ t.classifier.resolver.localIPs
    · obtain ⟨p, hp, -⟩ := id hholds
      have hzone := h s hs hvpc hholds
      rw [if_pos hlocal] at hzone
      rwa [zoneAfter_eq hdirect (listed_ne_nil hs' hp order), if_pos hlocal]
    · have hzone := h s hs hvpc hholds
      rw [if_neg hlocal] at hzone
      exact zoneAfter_of_one_zone hdirect hlocal hs' hholds
        (fun s' hs' => hzone s' (hperm.mem_iff.mp hs')) order

end

/-- A subnet of the node's VPC. -/
def ownSubnet : EC2ZonedSubnet := ⟨⟨"10.0.1.0/24", "vpc-local"⟩, "us-east-1a"⟩

/-- A subnet of another VPC with the same CIDR. -/
def foreignSubnet : EC2ZonedSubnet := ⟨⟨"10.0.1.0/24", "vpc-foreign"⟩, "us-east-1b"⟩

/-- Before the first refresh, and what the other feeds of a refresh are answered. -/
def noTopology : TopologyRefresher × TopologyAnswers :=
  (⟨.configure [], []⟩, ⟨none, none, none, none, none, none⟩)

/-- A subnet alone gives its addresses its zone. -/
theorem subnets_resolve_alone :
    SubnetsResolve awsCapabilities noTopology.1 noTopology.2 "vpc-local" [ownSubnet]
      (.v4 0x0a000105#32) := by
  refine (subnets_resolve_iff "vpc-local" [ownSubnet] rfl).mpr fun s hs _ _ => ?_
  have hlocal : Addr.v4 0x0a000105#32 ∉ noTopology.1.classifier.resolver.localIPs :=
    Finset.notMem_empty _
  rw [if_neg hlocal]
  intro s' hs' _
  rw [List.mem_singleton.mp hs, List.mem_singleton.mp hs']

/-- Another VPC's subnet with the same CIDR may take its zone over. -/
theorem foreign_subnet_decides :
    ¬SubnetsResolve awsCapabilities noTopology.1 noTopology.2 "vpc-local"
      [ownSubnet, foreignSubnet] (.v4 0x0a000105#32) := by
  intro h
  have hholds (s : EC2ZonedSubnet) (hcidr : s.cidrBlock = "10.0.1.0/24") :
      s.Holds (.v4 0x0a000105#32) := by
    rw [EC2ZonedSubnet.Holds, hcidr]
    exact ⟨.v4 0x0a000100#32 24, by decide +kernel, by decide⟩
  obtain ⟨listing, hperm, order, hzone⟩ := exists_zoneAfter (t := noTopology.1) awsCapabilities
    noTopology.2 rfl (Finset.notMem_empty _) (List.mem_cons_of_mem ownSubnet
      (List.mem_singleton_self foreignSubnet)) (hholds foreignSubnet rfl)
  have hown := h ownSubnet List.mem_cons_self rfl (hholds ownSubnet rfl) listing hperm order
  exact absurd (hown.symm.trans hzone) (by decide)

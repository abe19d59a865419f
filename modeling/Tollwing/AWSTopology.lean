/-
The topology of an AWS node (`pkg/cloud/aws/aws.go`).

The provider reads what EC2 lists for the account.  NAT gateways and transit gateway
attachments count while they are available; of a peering connection the side that is not
the node's VPC is reported, whatever state the connection is in.

* `AWSTopology.peers_eq` — the peering prefixes that a refresh learns;
* `peerings_exact_iff` — when they are those of the active connections;
* `pending_peering_priced` — a connection that was never accepted.
-/
import Tollwing.ParseAddr
import Tollwing.TopologyRefresh

/-! ### What EC2 lists -/

/-- `ec2Subnet`, without its identifier and its zone. -/
structure EC2Subnet where
  cidrBlock : String
  vpcID : String
  deriving DecidableEq

structure EC2NatAddress where
  privateIP : String
  publicIP : String
  deriving DecidableEq

structure EC2NatGateway where
  natGatewayID : String
  subnetID : String
  vpcID : String
  state : String
  addresses : List EC2NatAddress
  deriving DecidableEq

/-- `ec2PeeringVpc`: one side of a peering connection. -/
structure EC2PeeringVpc where
  vpcID : String := ""
  ownerID : String := ""
  cidrBlock : String := ""
  region : String := ""
  deriving DecidableEq

structure EC2VpcPeering where
  peeringID : String
  status : String
  requesterVpc : EC2PeeringVpc
  accepterVpc : EC2PeeringVpc
  deriving DecidableEq

structure EC2TGWAttachment where
  transitGatewayAttachmentID : String
  transitGatewayID : String
  resourceType : String
  resourceID : String
  state : String
  deriving DecidableEq

/-- `ec2Client`: what each call is answered, nothing for one that fails. -/
structure EC2Client where
  describeSubnets : Option (List EC2Subnet)
  describeNatGateways : Option (List EC2NatGateway)
  describeVpcPeeringConnections : Option (List EC2VpcPeering)
  describeTransitGatewayAttachments : Option (List EC2TGWAttachment)

/-! ### The provider -/

/-- The address that a text is, if it is one. -/
def addrOf (s : String) : Addr := if s ≠ "" then (parseAddr s).getD .zero else .zero

/-- The gateways reported for a NAT gateway, one for each address. -/
def EC2NatGateway.gateways (ng : EC2NatGateway) : List NATGateway :=
  if ng.state ≠ "available" then []
  else ng.addresses.map fun addr =>
    { id := ng.natGatewayID
      subnetID := ng.subnetID
      vpcID := ng.vpcID
      privateIP := addrOf addr.privateIP
      publicIP := addrOf addr.publicIP }

namespace EC2VpcPeering

/-- The side of the connection that is not the local VPC, if the other one is. -/
def peer (localVPC : String) (pc : EC2VpcPeering) : Option EC2PeeringVpc :=
  if localVPC = pc.requesterVpc.vpcID then some pc.accepterVpc
  else if localVPC = pc.accepterVpc.vpcID then some pc.requesterVpc
  else none

/-- The peering reported for a connection. -/
def peering (localVPC : String) (pc : EC2VpcPeering) : Option VPCPeering :=
  (pc.peer localVPC).map fun peer =>
    { id := pc.peeringID
      peerVPCID := peer.vpcID
      peerAccountID := peer.ownerID
      peerRegion := peer.region
      peerCIDRs := if peer.cidrBlock ≠ "" then (parsePrefix peer.cidrBlock).toList else []
      status := pc.status }

end EC2VpcPeering

/-- The prefix of a subnet of the VPC. -/
def EC2Subnet.localPrefix (vpcID : String) (s : EC2Subnet) : Option Prefix :=
  if s.vpcID ≠ vpcID then none else parsePrefix s.cidrBlock

def EC2TGWAttachment.gateway (a : EC2TGWAttachment) : Option TransitGateway :=
  if a.state ≠ "available" then none
  else some
    { id := a.transitGatewayAttachmentID
      transitGWID := a.transitGatewayID
      attachmentType := a.resourceType
      resourceID := a.resourceID }

/-- The topology part of the AWS `Provider`: its EC2 client, if one was set, and the
node's VPC, if the metadata service tells it. -/
structure AWSTopology where
  ec2 : Option EC2Client
  nodeVPCID : Option String

namespace AWSTopology

variable (p : AWSTopology)

def getNATGateways : Option (List NATGateway) :=
  match p.ec2 with
  | none => some []
  | some ec2 => ec2.describeNatGateways.map fun natGWs => natGWs.flatMap EC2NatGateway.gateways

def getVPCPeerings : Option (List VPCPeering) :=
  match p.ec2 with
  | none => some []
  | some ec2 => p.nodeVPCID.bind fun localVPC =>
    ec2.describeVpcPeeringConnections.map fun peerings =>
      peerings.filterMap (EC2VpcPeering.peering localVPC)

/-- `LocalVPCCIDRs`. -/
def localVPCCIDRs : Option (List Prefix) :=
  match p.ec2 with
  | none => some []
  | some ec2 => p.nodeVPCID.bind fun vpcID =>
    ec2.describeSubnets.map fun subnets => subnets.filterMap (EC2Subnet.localPrefix vpcID)

def getTransitGateways : Option (List TransitGateway) :=
  match p.ec2 with
  | none => some []
  | some ec2 => ec2.describeTransitGatewayAttachments.map fun attachments =>
    attachments.filterMap EC2TGWAttachment.gateway

/-- What a refresh is answered; `x` has the answers of the other feeds. -/
def answers (x : TopologyAnswers) : TopologyAnswers :=
  { x with
    natGateways := p.getNATGateways
    vpcPeerings := p.getVPCPeerings
    localVPCCIDRs := p.localVPCCIDRs
    transitGateways := p.getTransitGateways }

end AWSTopology

/-- `aws.Provider` has both optional capabilities. -/
def awsCapabilities : ProviderCapabilities := ⟨true, true⟩

/-! ### Flows priced as peering -/

/-- A longest match is one. -/
theorem exists_of_longestMatch_ne_bot {cidrs : List Prefix} {addr : Addr}
    (h : longestMatch cidrs addr ≠ ⊥) : ∃ p ∈ cidrs, p.contains addr = true := by
  by_contra hnone
  refine h ?_
  have hfilter : cidrs.filter (fun p => p.contains addr) = [] :=
    List.filter_eq_nil_iff.mpr fun p hp hc => hnone ⟨p, hp, hc⟩
  rw [longestMatch, LongestMatch.maxKey, hfilter]
  rfl

theorem exists_of_topologyType_vpcPeering {peering tgw endpoint : List Prefix} {addr : Addr}
    (h : topologyType peering tgw endpoint addr = some .vpcPeering) :
    ∃ p ∈ peering, p.contains addr = true := by
  refine exists_of_longestMatch_ne_bot fun hbot => ?_
  rw [topologyType] at h
  split_ifs at h with hnone hpeering
  · exact hnone (hpeering.symm.trans hbot)
  · cases h
  · cases h

namespace Classifier

variable {c : Classifier} {host : ByteOrder} {flow : FlowInfo}

/-- The zone rule never says so. -/
theorem classifyInternal_type_ne (dstAddr : Addr) :
    (c.classifyInternal host flow dstAddr).type ≠ .vpcPeering := by
  have hzones : (c.classifyInternal host flow dstAddr).type
      = zoneType (c.resolver.resolve (nboToAddr host flow.srcIP)) (c.resolver.resolve dstAddr) := by
    rw [classifyInternal, zoneType]
    split_ifs <;> rfl
  intro htype
  have hstays := leavesCluster_zoneType (c.resolver.resolve (nboToAddr host flow.srcIP))
    (c.resolver.resolve dstAddr)
  rw [← hzones, htype] at hstays
  exact absurd hstays.symm Bool.false_ne_true

/-- Only the prefix table says that a flow is peering. -/
theorem lookup_of_classify_vpcPeering (h : (c.classify host flow).type = .vpcPeering) :
    c.prefixTree.lookup (nboToAddr host flow.dstIP) = some .vpcPeering := by
  rw [classify] at h
  -- the type is one of the table's where it is not a constant or a zone type
  split_ifs at h
  · exact absurd h (classifyInternal_type_ne _)
  · rw [classifyPrivate] at h
    split_ifs at h
    split at h
    · rename_i tt hlookup
      rw [hlookup]
      exact congrArg some h
    · exact absurd h (classifyInternal_type_ne _)
  · rw [classifyExternal] at h
    split at h
    · rename_i tt hlookup
      rw [hlookup]
      exact congrArg some h
    · split_ifs at h

end Classifier

/-! ### Peers -/

/-- A side of a connection whose other side is the VPC. -/
def EC2VpcPeering.NonLocal (vpc : String) (pc : EC2VpcPeering) (side : EC2PeeringVpc) : Prop :=
  pc.requesterVpc.vpcID = vpc ∧ side = pc.accepterVpc ∨
    pc.accepterVpc.vpcID = vpc ∧ side = pc.requesterVpc

/-- No connection has the VPC on both sides. -/
def NoLoops (vpc : String) (pcs : List EC2VpcPeering) : Prop :=
  ∀ pc ∈ pcs, ¬(pc.requesterVpc.vpcID = vpc ∧ pc.accepterVpc.vpcID = vpc)

/-- The prefix is the CIDR block of the non-local side of a connection. -/
def PeerBlock (vpc : String) (pcs : List EC2VpcPeering) (p : Prefix) : Prop :=
  ∃ pc ∈ pcs, ∃ side, pc.NonLocal vpc side ∧ parsePrefix side.cidrBlock = some p

/-- The prefix shares an address with a subnet of the VPC. -/
def OverlapsLocal (vpc : String) (subnets : List EC2Subnet) (p : Prefix) : Prop :=
  ∃ s ∈ subnets, s.vpcID = vpc ∧ ∃ o, parsePrefix s.cidrBlock = some o ∧ p.Overlaps o

/-- The peer blocks that are not the VPC's own. -/
def peerBlocks (vpc : String) (subnets : List EC2Subnet) (pcs : List EC2VpcPeering) : Set Prefix :=
  {p | PeerBlock vpc pcs p ∧ ¬OverlapsLocal vpc subnets p}

/-- The connections that are active. -/
def activePeerings (pcs : List EC2VpcPeering) : List EC2VpcPeering :=
  pcs.filter fun pc => pc.status = "active"

variable {vpc : String} {subnets : List EC2Subnet} {pcs : List EC2VpcPeering}

theorem EC2VpcPeering.peer_eq_some_iff {pc : EC2VpcPeering} {side : EC2PeeringVpc}
    (h : ¬(pc.requesterVpc.vpcID = vpc ∧ pc.accepterVpc.vpcID = vpc)) :
    pc.peer vpc = some side ↔ pc.NonLocal vpc side := by
  rw [peer, NonLocal]
  -- the requester is asked first, which matters for a loop alone
  by_cases hrequester : vpc = pc.requesterVpc.vpcID
  · have haccepter : pc.accepterVpc.vpcID ≠ vpc := fun heq => h ⟨hrequester.symm, heq⟩
    rw [if_pos hrequester, Option.some_inj]
    constructor
    · exact fun hside => Or.inl ⟨hrequester.symm, hside.symm⟩
    · rintro (⟨-, hside⟩ | ⟨heq, -⟩)
      · exact hside.symm
      · exact absurd heq haccepter
  · rw [if_neg hrequester]
    by_cases haccepter : vpc = pc.accepterVpc.vpcID
    · rw [if_pos haccepter, Option.some_inj]
      constructor
      · exact fun hside => Or.inr ⟨haccepter.symm, hside.symm⟩
      · rintro (⟨heq, -⟩ | ⟨-, hside⟩)
        · exact absurd heq.symm hrequester
        · exact hside.symm
    · rw [if_neg haccepter]
      constructor
      · exact nofun
      · rintro (⟨heq, -⟩ | ⟨heq, -⟩)
        · exact absurd heq.symm hrequester
        · exact absurd heq.symm haccepter

/-- A text that is a prefix is not empty. -/
theorem mem_blockCIDRs {block : String} {p : Prefix} :
    p ∈ (if block ≠ "" then (parsePrefix block).toList else []) ↔ parsePrefix block = some p := by
  by_cases hempty : block = ""
  · rw [if_neg (not_not_intro hempty), hempty, parsePrefix_empty]
    exact ⟨nofun, nofun⟩
  · rw [if_pos hempty, Option.mem_toList]

theorem exists_peering_iff (hloops : NoLoops vpc pcs) {p : Prefix} :
    (∃ peering ∈ pcs.filterMap (EC2VpcPeering.peering vpc), p ∈ peering.peerCIDRs)
      ↔ PeerBlock vpc pcs p := by
  simp only [List.mem_filterMap, EC2VpcPeering.peering, Option.map_eq_some_iff]
  constructor
  · rintro ⟨-, ⟨pc, hpc, side, hside, rfl⟩, hp⟩
    exact ⟨pc, hpc, side, (pc.peer_eq_some_iff (hloops pc hpc)).mp hside, mem_blockCIDRs.mp hp⟩
  · rintro ⟨pc, hpc, side, hside, hp⟩
    exact ⟨_, ⟨pc, hpc, side, (pc.peer_eq_some_iff (hloops pc hpc)).mpr hside, rfl⟩,
      mem_blockCIDRs.mpr hp⟩

theorem overlapsLocal_iff {p : Prefix} :
    (∀ o ∈ subnets.filterMap (EC2Subnet.localPrefix vpc), ¬p.Overlaps o)
      ↔ ¬OverlapsLocal vpc subnets p := by
  have hlocal : ∀ (s : EC2Subnet) o, s.localPrefix vpc = some o ↔
      s.vpcID = vpc ∧ parsePrefix s.cidrBlock = some o := by
    intro s o
    rw [EC2Subnet.localPrefix]
    by_cases hvpc : s.vpcID = vpc
    · rw [if_neg (not_not_intro hvpc), and_iff_right hvpc]
    · rw [if_pos hvpc]
      exact ⟨nofun, fun h => absurd h.1 hvpc⟩
  simp only [List.mem_filterMap, hlocal]
  constructor
  · rintro h ⟨s, hs, hvpc, o, ho, hoverlap⟩
    exact h o ⟨s, hs, hvpc, ho⟩ hoverlap
  · rintro h o ⟨s, hs, hvpc, ho⟩ hoverlap
    exact h ⟨s, hs, hvpc, o, ho, hoverlap⟩

/-! ### After a refresh -/

/-- A refresh in which EC2 lists these connections and subnets learns the peer blocks,
whatever state the connections are in. -/
theorem AWSTopology.peers_eq {api : EC2Client} (hpcs : api.describeVpcPeeringConnections = some pcs)
    (hsubnets : api.describeSubnets = some subnets) (hloops : NoLoops vpc pcs)
    (x : TopologyAnswers) :
    (AWSTopology.answers ⟨some api, some vpc⟩ x).peers awsCapabilities
      = some (peerBlocks vpc subnets pcs) := by
  have hpeerings : AWSTopology.getVPCPeerings ⟨some api, some vpc⟩
      = some (pcs.filterMap (EC2VpcPeering.peering vpc)) := congrArg (Option.map _) hpcs
  have hlocals : AWSTopology.localVPCCIDRs ⟨some api, some vpc⟩
      = some (subnets.filterMap (EC2Subnet.localPrefix vpc)) := congrArg (Option.map _) hsubnets
  rw [TopologyAnswers.peers, TopologyAnswers.locals, answers]
  dsimp only
  rw [hpeerings, hlocals, Option.map_some]
  refine congrArg some (Set.ext fun p => ?_)
  rw [Set.mem_ofPred_eq, exists_peering_iff hloops]
  constructor
  · rintro ⟨-, hp, hlocals⟩
    exact ⟨hp, overlapsLocal_iff.mp hlocals⟩
  · rintro ⟨⟨pc, hpc, side, hside, hblock⟩, hlocals⟩
    exact ⟨isValid_of_parsePrefix hblock, ⟨pc, hpc, side, hside, hblock⟩,
      overlapsLocal_iff.mpr hlocals⟩

/-- What a refresh should make of the connections: the peering prefixes are the peer
blocks of the active ones, and no other traffic is priced as peering. -/
structure PeeringsExact (vpc : String) (subnets : List EC2Subnet) (pcs : List EC2VpcPeering)
    (c : Classifier) : Prop where
  prefixes : ∀ p, p ∈ c.peeringCIDRs ↔ p ∈ peerBlocks vpc subnets (activePeerings pcs)
  traffic : ∀ host flow, (c.classify host flow).type = .vpcPeering →
    ∃ p ∈ peerBlocks vpc subnets (activePeerings pcs),
      p.contains (nboToAddr host flow.dstIP) = true

/-- A connection that is not active has no block on its non-local side, or one that
overlaps a local subnet, or one that an active connection has there too. -/
def InactiveHarmless (vpc : String) (subnets : List EC2Subnet) (pcs : List EC2VpcPeering) : Prop :=
  ∀ pc ∈ pcs, pc.status ≠ "active" → ∀ side p, pc.NonLocal vpc side →
    parsePrefix side.cidrBlock = some p →
      OverlapsLocal vpc subnets p ∨ PeerBlock vpc (activePeerings pcs) p

theorem peerBlocks_eq_iff : peerBlocks vpc subnets pcs = peerBlocks vpc subnets (activePeerings pcs)
    ↔ InactiveHarmless vpc subnets pcs := by
  constructor
  · intro h pc hpc hstatus side p hside hp
    by_cases hlocal : OverlapsLocal vpc subnets p
    · exact Or.inl hlocal
    · have hmem : p ∈ peerBlocks vpc subnets pcs := ⟨⟨pc, hpc, side, hside, hp⟩, hlocal⟩
      rw [h] at hmem
      exact Or.inr hmem.1
  · intro h
    refine Set.ext fun p => and_congr_left fun hlocal => ⟨?_, ?_⟩
    · rintro ⟨pc, hpc, side, hside, hp⟩
      by_cases hstatus : pc.status = "active"
      · exact ⟨pc, List.mem_filter.mpr ⟨hpc, decide_eq_true hstatus⟩, side, hside, hp⟩
      · exact (h pc hpc hstatus side p hside hp).resolve_left hlocal
    · rintro ⟨pc, hpc, side, hside, hp⟩
      exact ⟨pc, List.mem_of_mem_filter hpc, side, hside, hp⟩

/-- **Peering is exact** after a refresh, whatever came before it, exactly if the
connections that are not active are harmless. -/
theorem peerings_exact_iff (calls : List ConfigCall) (natGWs : List NATGateway)
    (earlier : List TopologyAnswers) {api : EC2Client}
    (hpcs : api.describeVpcPeeringConnections = some pcs)
    (hsubnets : api.describeSubnets = some subnets) (hloops : NoLoops vpc pcs)
    (x : TopologyAnswers) :
    let t := earlier.foldl (TopologyRefresher.refresh awsCapabilities)
      ⟨Classifier.configure calls, natGWs⟩
    PeeringsExact vpc subnets pcs (t.refresh awsCapabilities
        (AWSTopology.answers ⟨some api, some vpc⟩ x)).classifier
      ↔ InactiveHarmless vpc subnets pcs := by
  intro t
  set answers := AWSTopology.answers ⟨some api, some vpc⟩ x with hanswers
  set c := (t.refresh awsCapabilities answers).classifier with hc
  -- the peering prefixes are the blocks of all connections
  have hpeerings : {p | p ∈ c.peeringCIDRs} = peerBlocks vpc subnets pcs := by
    have htopology := congrArg Topology.peerings (t.topology_refresh awsCapabilities answers)
    rw [Topology.update, hanswers, AWSTopology.peers_eq hpcs hsubnets hloops] at htopology
    exact htopology
  rw [← peerBlocks_eq_iff]
  constructor
  · intro h
    rw [← hpeerings]
    exact Set.ext h.prefixes
  · intro h
    rw [h] at hpeerings
    have hmem : ∀ p, p ∈ c.peeringCIDRs ↔ p ∈ peerBlocks vpc subnets (activePeerings pcs) :=
      fun p => Set.ext_iff.mp hpeerings p
    refine ⟨hmem, fun host flow htype => ?_⟩
    have htable := TopologyRefresher.lookup_foldl_refresh awsCapabilities calls natGWs
      (earlier ++ [answers]) (nboToAddr host flow.dstIP)
    rw [List.foldl_append] at htable
    obtain ⟨p, hp, hcontains⟩ := exists_of_topologyType_vpcPeering
      (htable.symm.trans (Classifier.lookup_of_classify_vpcPeering htype))
    exact ⟨p, (hmem p).mp hp, hcontains⟩

/-- EC2 lists one connection, asked for by another VPC, and a subnet. -/
def onePeering (status : String) : EC2Client :=
  { describeSubnets := some [⟨"10.0.1.0/24", "vpc-local"⟩]
    describeNatGateways := some []
    describeVpcPeeringConnections := some
      [{ peeringID := "pcx-1"
         status := status
         requesterVpc := ⟨"vpc-other", "444455556666", "172.31.0.0/16", "us-east-1"⟩
         accepterVpc := ⟨"vpc-local", "111122223333", "", "us-east-1"⟩ }]
    describeTransitGatewayAttachments := some [] }

/-- A refresh on these answers and no others. -/
def refreshOnePeering (status : String) : Classifier :=
  (TopologyRefresher.refresh awsCapabilities ⟨.configure [], []⟩
    (AWSTopology.answers ⟨some (onePeering status), some "vpc-local"⟩
      ⟨none, none, none, none, none, none⟩)).classifier

/-- An active connection is exact. -/
theorem peerings_exact_active :
    PeeringsExact "vpc-local" [⟨"10.0.1.0/24", "vpc-local"⟩]
      ((onePeering "active").describeVpcPeeringConnections.getD [])
      (refreshOnePeering "active") := by
  have hloops : NoLoops "vpc-local"
      ((onePeering "active").describeVpcPeeringConnections.getD []) := by
    intro pc hpc
    rw [List.mem_singleton.mp hpc]
    decide
  refine (peerings_exact_iff [] [] [] rfl rfl hloops _).mpr fun pc hpc hstatus => ?_
  rw [List.mem_singleton.mp hpc] at hstatus
  exact absurd rfl hstatus

/-- A connection that waits for its acceptance is not: what is sent to the other VPC is
priced as peering. -/
theorem pending_peering_priced :
    ((refreshOnePeering "pending-acceptance").classify .big
        { srcIP := 0x0a000105, dstIP := 0xac1f0009 }).type = .vpcPeering ∧
      ¬PeeringsExact "vpc-local" [⟨"10.0.1.0/24", "vpc-local"⟩]
        ((onePeering "pending-acceptance").describeVpcPeeringConnections.getD [])
        (refreshOnePeering "pending-acceptance") := by
  have htype : ((refreshOnePeering "pending-acceptance").classify .big
      { srcIP := 0x0a000105, dstIP := 0xac1f0009 }).type = .vpcPeering := by
    decide +kernel
  refine ⟨htype, fun h => ?_⟩
  obtain ⟨p, ⟨⟨pc, hpc, -⟩, -⟩, -⟩ := h.traffic _ _ htype
  have hnone : activePeerings
      ((onePeering "pending-acceptance").describeVpcPeeringConnections.getD []) = [] := by
    decide +kernel
  rw [hnone] at hpc
  cases hpc

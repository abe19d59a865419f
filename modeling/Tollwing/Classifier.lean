/-
The traffic classifier (`pkg/classifier/traffic.go`).

`Classifier.classify` is the decision tree: sidecar and intra-node hints,
loopback, cluster CIDRs, private destinations, external destinations.  The
setters are the calls the informer and the topology refresher make; every
topology setter rebuilds the prefix table from the three category lists
(replace-on-refresh, DEC-015).  A `ConfigCall` is one such call, and
`Classifier.configure` runs a sequence of them on a new classifier.
-/
import Tollwing.PrefixTree
import Tollwing.ZoneResolver

/-- What `classify` needs to know about a flow; IPv4 fields are as the BPF data
plane delivers them (DEC-009).  The ports and the pre-DNAT destination are
carried along but decide nothing. -/
structure FlowInfo where
  srcIP : UInt32
  dstIP : UInt32
  originalDstIP : UInt32 := 0
  srcPort : UInt16 := 0
  dstPort : UInt16 := 0
  originalDstPort : UInt16 := 0
  intraNode : Bool := false
  isSidecar : Bool := false
  deriving DecidableEq, Repr

structure ClassifyResult where
  type : TrafficType := .unknown
  srcZone : String := ""
  dstZone : String := ""
  deriving DecidableEq, Repr

structure Classifier where
  resolver : ZoneResolver
  prefixTree : PrefixTree
  peeringCIDRs : List Prefix
  tgwCIDRs : List Prefix
  endpointCIDRs : List Prefix
  clusterPrefixes : List Prefix
  natGatewayIPs : Finset Addr
  defaultRouteNAT : Bool

/-- The address in a 32-bit BPF field: network-order bytes, decoded in the
host's own byte order. -/
def nboToAddr (host : ByteOrder) (v : UInt32) : Addr := .v4 (host.putUint32 v)

/-- RFC 1918, loopback or link-local. -/
def isPrivate (addr : Addr) : Bool :=
  addr.isPrivate || addr.isLoopback || addr.isLinkLocalUnicast

namespace Classifier

def new (resolver : ZoneResolver) : Classifier :=
  { resolver := resolver
    prefixTree := .new
    peeringCIDRs := []
    tgwCIDRs := []
    endpointCIDRs := []
    clusterPrefixes := []
    natGatewayIPs := ∅
    defaultRouteNAT := false }

variable (c : Classifier)

/-! ### Setters -/

/-- The valid prefixes of a list, each kept at its first occurrence; `seen`
holds those already kept. -/
def dedupValid : List Prefix → Finset Prefix → List Prefix
  | [], _ => []
  | p :: ps, seen =>
    if p.isValid = false then dedupValid ps seen
    else if p ∈ seen then dedupValid ps seen
    else p :: dedupValid ps (insert p seen)

def setClusterCIDRs (cidrs : List Prefix) : Classifier :=
  { c with clusterPrefixes := dedupValid cidrs ∅ }

def addClusterCIDR (cidr : Prefix) : Classifier :=
  if cidr.isValid = false then c
  else if cidr ∈ c.clusterPrefixes then c
  else { c with clusterPrefixes := c.clusterPrefixes ++ [cidr] }

/-- The prefix table is built anew from the three category lists, peering
first, then transit gateway, then endpoints. -/
def rebuildPrefixTree : Classifier :=
  let tree := c.peeringCIDRs.foldl (fun t cidr => t.add cidr .vpcPeering) PrefixTree.new
  let tree := c.tgwCIDRs.foldl (fun t cidr => t.add cidr .transitGateway) tree
  let tree := c.endpointCIDRs.foldl (fun t cidr => t.add cidr .vpcEndpoint) tree
  { c with prefixTree := tree.build }

/-- Copy a prefix slice, dropping the invalid entries. -/
def clonePrefixes (cidrs : List Prefix) : List Prefix := cidrs.filter Prefix.isValid

def setVPCPeeringCIDRs (cidrs : List Prefix) : Classifier :=
  { c with peeringCIDRs := clonePrefixes cidrs }.rebuildPrefixTree

def setTransitGatewayCIDRs (cidrs : List Prefix) : Classifier :=
  { c with tgwCIDRs := clonePrefixes cidrs }.rebuildPrefixTree

def setVPCEndpointCIDRs (cidrs : List Prefix) : Classifier :=
  { c with endpointCIDRs := clonePrefixes cidrs }.rebuildPrefixTree

def setNATGatewayIPs (ips : List Addr) : Classifier :=
  { c with natGatewayIPs := ips.toFinset }

def setDefaultRouteNAT (viaNAT : Bool) : Classifier :=
  { c with defaultRouteNAT := viaNAT }

/-! ### The decision tree -/

variable (host : ByteOrder) (flow : FlowInfo)

def isClusterInternal (dstAddr : Addr) : Bool :=
  c.clusterPrefixes.any fun p => p.contains dstAddr

/-- The zone rule: unknown unless both zones resolve, then same zone, same
region or different regions. -/
def classifyInternal (dstAddr : Addr) : ClassifyResult :=
  let srcZone := c.resolver.resolve (nboToAddr host flow.srcIP)
  let dstZone := c.resolver.resolve dstAddr
  if srcZone = "" ∨ dstZone = "" then ⟨.unknown, srcZone, dstZone⟩
  else if srcZone = dstZone then ⟨.sameZone, srcZone, dstZone⟩
  else if regionFromZone srcZone = regionFromZone dstZone then ⟨.crossAZ, srcZone, dstZone⟩
  else ⟨.crossRegion, srcZone, dstZone⟩

/-- Private destinations: NAT gateway addresses, then the prefix table, then
the zone rule. -/
def classifyPrivate (dstAddr : Addr) : ClassifyResult :=
  if dstAddr ∈ c.natGatewayIPs then { type := .natGatewayEgress }
  else
    match c.prefixTree.lookup dstAddr with
    | some tt => { type := tt }
    | none => c.classifyInternal host flow dstAddr

def classifyExternal (dstAddr : Addr) : ClassifyResult :=
  match c.prefixTree.lookup dstAddr with
  | some tt => { type := tt }
  | none => if c.defaultRouteNAT then { type := .natGatewayEgress } else { type := .internetEgress }

/-- `Classify`: the traffic type of a flow. -/
def classify : ClassifyResult :=
  let dstAddr := nboToAddr host flow.dstIP
  if flow.isSidecar then { type := .serviceMeshInternal }
  else if flow.intraNode ∨ dstAddr.isLoopback then { type := .intraNode }
  -- cluster addresses never reach the prefix table, whatever it says of them
  else if c.isClusterInternal dstAddr then c.classifyInternal host flow dstAddr
  else if isPrivate dstAddr then c.classifyPrivate host flow dstAddr
  else c.classifyExternal dstAddr

end Classifier

/-! ### Configuration runs -/

/-- One configuration call on the classifier or its zone resolver. -/
inductive ConfigCall
  | setClusterCIDRs (cidrs : List Prefix)
  | addClusterCIDR (cidr : Prefix)
  | setVPCPeeringCIDRs (cidrs : List Prefix)
  | setTransitGatewayCIDRs (cidrs : List Prefix)
  | setVPCEndpointCIDRs (cidrs : List Prefix)
  | setNATGatewayIPs (ips : List Addr)
  | setDefaultRouteNAT (viaNAT : Bool)
  | setLocalZone (zone : String)
  | addLocalIP (addr : Addr)
  | setIPZone (addr : Addr) (zone : String)
  | addCIDRZone (pfx : Prefix) (zone : String)
  | setCIDRZones (entries : List (Prefix × String))
  deriving DecidableEq, Repr

namespace Classifier

def call (c : Classifier) : ConfigCall → Classifier
  | .setClusterCIDRs cidrs => c.setClusterCIDRs cidrs
  | .addClusterCIDR cidr => c.addClusterCIDR cidr
  | .setVPCPeeringCIDRs cidrs => c.setVPCPeeringCIDRs cidrs
  | .setTransitGatewayCIDRs cidrs => c.setTransitGatewayCIDRs cidrs
  | .setVPCEndpointCIDRs cidrs => c.setVPCEndpointCIDRs cidrs
  | .setNATGatewayIPs ips => c.setNATGatewayIPs ips
  | .setDefaultRouteNAT viaNAT => c.setDefaultRouteNAT viaNAT
  | .setLocalZone zone => { c with resolver := c.resolver.setLocalZone zone }
  | .addLocalIP addr => { c with resolver := c.resolver.addLocalIP addr }
  | .setIPZone addr zone => { c with resolver := c.resolver.setIPZone addr zone }
  | .addCIDRZone pfx zone => { c with resolver := c.resolver.addCIDRZone pfx zone }
  | .setCIDRZones entries => { c with resolver := c.resolver.setCIDRZones entries }

/-- A new classifier after a sequence of configuration calls. -/
def configure (calls : List ConfigCall) : Classifier := calls.foldl call (new .new)

end Classifier

/-
The whole informer (`pkg/k8s/informer.go`).

Beside the maps of pods and EndpointSlices the informer keeps the ClusterIPs of
the services and what the nodes say of themselves, and it tells the classifier
and its zone resolver what it finds out: a handler returns the new informer and
the calls it makes (`ConfigCall`).  A handler is one step; where it ranges over a
map, the order is an argument.
-/
import Tollwing.Classifier
import Tollwing.ParseAddr
import Tollwing.PodIndex

/-- `ServiceRef`: a service by its namespace and name. -/
abbrev ServiceRef := ObjectID

/-- What the handlers read of a service. -/
structure Service where
  id : ObjectID
  clusterIP : String
  clusterIPs : List String
  deriving DecidableEq

/-- What the handlers read of a node. -/
structure KubeNode where
  name : String
  labels : FinMap String String
  podCIDR : String
  podCIDRs : List String

/-- `Informer`, with all its maps. -/
structure ClusterInformer extends Informer where
  clusterIPToSvc : FinMap String ServiceRef
  nodeZones : FinMap String String
  podCIDRs : Finset String

/-- `clusterIPsOf`: the ClusterIPs that are set and not `None`. -/
def clusterIPsOf (svc : Service) : List String :=
  (svc.clusterIP :: svc.clusterIPs).filter fun ip => ip ≠ "" ∧ ip ≠ "None"

namespace KubeNode

def label (node : KubeNode) (name : String) : String := (node.labels.lookup name).getD ""

/-- The zone label, or the legacy one. -/
def zone (node : KubeNode) : String :=
  if node.label "topology.kubernetes.io/zone" ≠ "" then node.label "topology.kubernetes.io/zone"
  else node.label "failure-domain.beta.kubernetes.io/zone"

/-- The instance type label, or the legacy one. -/
def instanceType (node : KubeNode) : String :=
  if node.label "node.kubernetes.io/instance-type" ≠ "" then
    node.label "node.kubernetes.io/instance-type"
  else node.label "beta.kubernetes.io/instance-type"

def cidrCandidates (node : KubeNode) : List String :=
  (if node.podCIDR ≠ "" then [node.podCIDR] else []) ++ node.podCIDRs

end KubeNode

/-! ### The backfill of an instance type -/

namespace Informer

/-- One round of the backfill: a copy of the record takes its place in every map
the pod appears in. -/
def backfillPod (nodeName instanceType : String) (inf : Informer) (key : String) : Informer :=
  match inf.podNameToMeta.lookup key with
  | none => inf
  | some m =>
    if m.nodeName ≠ nodeName ∨ m.instanceType = instanceType then inf
    else
      let updated := { m with instanceType := instanceType }
      { inf with
        podNameToMeta := inf.podNameToMeta.insert key updated
        podIPToMeta :=
          if updated.podIP ≠ "" then inf.podIPToMeta.insert updated.podIP updated
          else inf.podIPToMeta
        containerToPod :=
          updated.containers.foldl (fun c cid => c.insert cid updated) inf.containerToPod }

/-- The node cache and the pods already cached for the node. -/
def setInstanceType (inf : Informer) (nodeName instanceType : String)
    (order : RangeOrder String) : Informer :=
  let inf :=
    { inf with nodeInstanceTypes := inf.nodeInstanceTypes.insert nodeName instanceType }
  (order.keys inf.podNameToMeta.keys).foldl (backfillPod nodeName instanceType) inf

end Informer

/-! ### The handlers -/

namespace ClusterInformer

/-- The maps of `newInformerWithClient`. -/
def new : ClusterInformer := ⟨Informer.new, ∅, ∅, ∅⟩

variable (inf : ClusterInformer)

/-- `onService`. -/
def onService (svc : Service) : ClusterInformer :=
  { inf with
    clusterIPToSvc := (clusterIPsOf svc).foldl (fun m ip => m.insert ip svc.id)
      inf.clusterIPToSvc }

/-- `onServiceDelete`. -/
def onServiceDelete (obj : DeletedObject Service) : ClusterInformer :=
  match obj.get? with
  | none => inf
  | some svc =>
    { inf with
      clusterIPToSvc := (clusterIPsOf svc).foldl (fun m ip => m.erase ip) inf.clusterIPToSvc }

/-- `LookupClusterIP`. -/
def lookupClusterIP (ip : String) : Option ServiceRef := inf.clusterIPToSvc.lookup ip

/-- `NodeZone`. -/
def nodeZone (nodeName : String) : String := (inf.nodeZones.lookup nodeName).getD ""

/-- The zone that is told for an address in text, if it is one. -/
def zoneCall (ip zone : String) : Option ConfigCall :=
  (parseAddr ip).map fun addr => .setIPZone addr zone

/-- `onPod`, with the zone of the pod's IP if the node's is known. -/
def onPod (pod : Pod) : ClusterInformer × List ConfigCall :=
  ({ inf with toInformer := inf.toInformer.onPod pod },
    if pod.podIP = "" then []
    else
      match inf.nodeZones.lookup pod.nodeName with
      | none => []
      | some zone => (zoneCall pod.podIP zone).toList)

/-- The zone call of `onPod`. -/
theorem onPod_calls (pod : Pod) :
    (inf.onPod pod).2 = if pod.podIP = "" then [] else
      (inf.nodeZones.lookup pod.nodeName).elim [] fun zone => (zoneCall pod.podIP zone).toList := by
  rw [onPod]
  cases inf.nodeZones.lookup pod.nodeName <;> rfl

/-- `onPodDelete`. -/
def onPodDelete (obj : DeletedObject Pod) : ClusterInformer :=
  { inf with toInformer := inf.toInformer.onPodDelete obj }

/-- One round of the loop over the pod CIDRs of a node. -/
def addPodCIDR (s : Finset String × List Prefix) (raw : String) : Finset String × List Prefix :=
  if raw = "" then s
  else if raw ∈ s.1 then s
  else
    match parsePrefix raw with
    | none => s
    | some p => (insert raw s.1, s.2 ++ [p])

/-- The zone calls of a node event, over the pods by IP. -/
def zoneCalls (node : KubeNode) (order : RangeOrder String) (podIPToMeta : FinMap String PodMeta) :
    List ConfigCall :=
  (order.keys podIPToMeta.keys).filterMap fun ip =>
    (podIPToMeta.lookup ip).bind fun m =>
      if m.nodeName = node.name ∧ m.podIP ≠ "" then zoneCall m.podIP node.zone else none

/-- `onNode`; the orders are those of the backfill and of the zone update. -/
def onNode (node : KubeNode) (byName byIP : RangeOrder String) :
    ClusterInformer × List ConfigCall :=
  let base :=
    if node.instanceType ≠ "" then
      inf.toInformer.setInstanceType node.name node.instanceType byName
    else inf.toInformer
  let cidrs := node.cidrCandidates.foldl addPodCIDR (inf.podCIDRs, [])
  ({ inf with
      toInformer := base
      nodeZones := if node.zone ≠ "" then inf.nodeZones.insert node.name node.zone
        else inf.nodeZones
      podCIDRs := cidrs.1 },
    cidrs.2.map .addClusterCIDR ++
      -- a node without a zone label leaves the zones as they are
      if node.zone = "" then [] else zoneCalls node byIP base.podIPToMeta)

end ClusterInformer

/-- An event of the service informer; updates and resyncs are upserts. -/
inductive ServiceEvent
  | upsert (svc : Service)
  | delete (obj : DeletedObject Service)

/-- An event of the pod or the node informer.  Deleted nodes have no handler. -/
inductive FeedEvent
  | pod (ev : PodEvent)
  | node (node : KubeNode) (byName byIP : RangeOrder String)

namespace ClusterInformer

/-- What the handlers do with an event. -/
def handle (inf : ClusterInformer) : FeedEvent → ClusterInformer × List ConfigCall
  | .pod (.upsert pod) => inf.onPod pod
  | .pod (.delete obj) => (inf.onPodDelete obj, [])
  | .node node byName byIP => inf.onNode node byName byIP

end ClusterInformer

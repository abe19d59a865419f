/-
The poll handler (`pkg/agent/agent.go`).

`handlePoll` takes a batch of flow snapshots: it classifies each one, costs it unless
it is a sidecar's, enriches it, and hands the batch to the exporter and to the NATS
publisher.  The components it asks are shared with the event handlers, so every
snapshot comes with the state it finds them in (`PollView`).
-/
import Tollwing.ClusterInformer
import Tollwing.CostEngine
import Tollwing.DNSTracker
import Tollwing.Exporter
import Tollwing.IntentJoin
import Tollwing.Reconcile

/-- The number of a traffic type. -/
def TrafficType.toNat : TrafficType → ℕ
  | .unknown => 0
  | .sameZone => 1
  | .crossAZ => 2
  | .crossRegion => 3
  | .internetEgress => 4
  | .natGatewayEgress => 5
  | .vpcPeering => 6
  | .transitGateway => 7
  | .vpcEndpoint => 8
  | .cloudServicePublic => 9
  | .intraNode => 10
  | .serviceMeshInternal => 11

theorem TrafficType.toNat_lt (tt : TrafficType) : tt.toNat < numTrafficTypes := by
  cases tt <;> decide

/-- The index of its counters. -/
def TrafficType.index (tt : TrafficType) : Fin numTrafficTypes := ⟨tt.toNat, tt.toNat_lt⟩

/-- The traffic type of a number, unknown if there is none. -/
def TrafficType.ofInt (i : ℤ) : TrafficType :=
  match i with
  | 1 => .sameZone
  | 2 => .crossAZ
  | 3 => .crossRegion
  | 4 => .internetEgress
  | 5 => .natGatewayEgress
  | 6 => .vpcPeering
  | 7 => .transitGateway
  | 8 => .vpcEndpoint
  | 9 => .cloudServicePublic
  | 10 => .intraNode
  | 11 => .serviceMeshInternal
  | _ => .unknown

/-- A process as the enricher knows it. -/
structure ProcessInfo where
  containerID : String
  deriving DecidableEq

/-- A snapshot beside what the agent's components are when it is handled: the
classifier, the sidecar detector's verdict on the process, what is known of the
process, the informer, the intent cache, the DNS tracker with its clock, and the
rate cards with the clock of the engine. -/
structure PollView where
  snap : FlowSnapshot
  classifier : Classifier
  sidecarProcess : Bool
  process : Option ProcessInfo
  informer : Option ClusterInformer
  intentCache : IntentCache
  dnsTracker : Option DNSTracker
  dnsNow : ℤ
  cards : ExactStore
  now : Time

/-- `CostResult` with the fields of its record that pricing does not read. -/
structure PublishedFlow extends CostResult ℚ where
  srcNamespace : String
  srcPod : String
  srcZone : String
  srcService : String
  dstNamespace : String
  dstPod : String
  dstService : String
  dstZone : String
  resolvedDomain : String
  cloudService : String
  deriving DecidableEq

namespace PollView

variable (host : ByteOrder) (v : PollView)

/-- The parts of the agent that the intent join reads. -/
def joinAgent : Agent := ⟨v.intentCache, v.informer.isSome, host⟩

def isSidecar : Bool := (v.joinAgent host).isSidecar v.snap v.sidecarProcess

/-- The call of the classifier. -/
def result : ClassifyResult :=
  v.classifier.classify host
    { srcIP := v.snap.srcIP
      dstIP := v.snap.dstIP
      srcPort := v.snap.srcPort
      dstPort := v.snap.dstPort }

/-- The pod of the process. -/
def srcMeta : Option PodMeta :=
  match v.process, v.informer with
  | some info, some inf =>
    if info.containerID ≠ "" then inf.containerToPod.lookup info.containerID else none
  | _, _ => none

/-- The text of an address field. -/
def ipString (ip : UInt32) : String := v4String (host.putUint32 ip)

/-- The service that comes first at a pod's IP. -/
def firstService (inf : ClusterInformer) (podIP : String) : Option ServiceEndpoint :=
  ((inf.podIPToServices.lookup podIP).getD []).head?

/-- The source service. -/
def srcService (inf : ClusterInformer) : String :=
  match v.srcMeta with
  | some m =>
    if m.podIP ≠ "" then ((firstService inf m.podIP).map ServiceEndpoint.serviceName).getD ""
    else ""
  | none => ""

/-- What a flow's destination is: namespace, pod, service and zone. -/
structure Destination where
  ns : String := ""
  pod : String := ""
  service : String := ""
  zone : String := ""

/-- The service that was dialed, by its ClusterIP. -/
def dialed (inf : ClusterInformer) (d : Destination) : Destination :=
  match (v.joinAgent host).joinIntent v.snap v.sidecarProcess with
  | none => d
  | some dst =>
    match inf.lookupClusterIP (ipString host dst.ip) with
    | none => d
    | some ref => { d with ns := ref.ns.val, service := ref.name.val }

/-- The pod at the destination fills in what is still empty. -/
def backend (inf : ClusterInformer) (m : PodMeta) (d : Destination) : Destination :=
  let d := { d with pod := m.name.val, ns := if d.ns = "" then m.ns.val else d.ns }
  let d :=
    if d.service = "" then
      match firstService inf m.podIP with
      | none => d
      | some svc =>
        { d with
          service := svc.serviceName
          ns := if d.ns = "" then svc.serviceNamespace else d.ns }
    else d
  if d.zone = "" ∧ m.nodeName ≠ "" then { d with zone := inf.nodeZone m.nodeName } else d

/-- The destination of a flow that is enriched. -/
def destination (inf : ClusterInformer) : Destination :=
  let d := v.dialed host inf { zone := (v.result host).dstZone }
  match inf.podIPToMeta.lookup (ipString host v.snap.dstIP) with
  | none => d
  | some m => backend inf m d

/-- What DNS says of the destination: its domain and cloud service. -/
def dnsInfo : String × String :=
  match v.dnsTracker with
  | none => ("", "")
  | some t =>
    let dst := nboToAddr host v.snap.dstIP
    (t.lookupIP v.dnsNow dst, t.lookupService v.dnsNow dst)

/-- The classified flow of a snapshot that costs `usd`. -/
def classified (usd : ℚ) : ClassifiedFlow ℚ :=
  let enriched := v.informer.filter fun _ => !v.isSidecar host
  let dst :=
    match enriched with
    | some inf => v.destination host inf
    | none => { zone := (v.result host).dstZone }
  { trafficType := (v.result host).type.toNat
    txBytes := v.snap.txBytes
    rxBytes := v.snap.rxBytes
    retransmitBytes := v.snap.retransmitBytes
    retransmitCount := v.snap.retransmitCount
    costUSD := usd
    ns := (v.srcMeta.map fun m => m.ns.val).getD ""
    pod := (v.srcMeta.map fun m => m.name.val).getD ""
    isSidecar := v.isSidecar host
    srcZone := (v.result host).srcZone
    srcService := (enriched.map v.srcService).getD ""
    dstNamespace := dst.ns
    dstPod := dst.pod
    dstService := dst.service
    dstZone := dst.zone
    resolvedDomain := (v.dnsInfo host).1
    cloudService := (v.dnsInfo host).2 }

/-- What pricing reads of a snapshot. -/
def record : FlowRecord := ⟨(v.result host).type, v.snap.txBytes, v.snap.rxBytes⟩

end PollView

/-- A classified flow as it is published. -/
def ClassifiedFlow.costResult (cf : ClassifiedFlow ℚ) : PublishedFlow :=
  { trafficType := .ofInt cf.trafficType
    txBytes := cf.txBytes
    rxBytes := cf.rxBytes
    costUSD := cf.costUSD
    srcNamespace := cf.ns
    srcPod := cf.pod
    srcZone := cf.srcZone
    srcService := cf.srcService
    dstNamespace := cf.dstNamespace
    dstPod := cf.dstPod
    dstService := cf.dstService
    dstZone := cf.dstZone
    resolvedDomain := cf.resolvedDomain
    cloudService := cf.cloudService }

/-- What `handlePoll` reads and writes of the agent.  A publisher is the batches that
were handed to it; its errors are only logged. -/
structure PollAgent where
  host : ByteOrder
  costEngine : Option Engine
  resolvedProvider : String
  resolvedRegion : String
  exporter : Option (Exporter ℚ)
  natsPublisher : Option (List (List PublishedFlow))
  pollClassified : List (ClassifiedFlow ℚ)

namespace PollAgent

/-- `calculateFlowCost`, with the rate cards and the clock that the engine finds. -/
def calculateFlowCost (a : PollAgent) (cards : ExactStore) (now : Time) (r : FlowRecord) :
    PollAgent × ℚ :=
  match a.costEngine with
  | none => (a, 0)
  | some engine =>
    let (engine, costs) := { engine with store := cards }.calculate a.resolvedProvider
      a.resolvedRegion [(now, r)]
    ({ a with costEngine := some engine }, costs.headD 0)

/-- One round of the loop over the snapshots. -/
def pollFlow (a : PollAgent) (v : PollView) : PollAgent :=
  let (a, usd) :=
    if v.isSidecar a.host then (a, 0)
    else a.calculateFlowCost v.cards v.now (v.record a.host)
  { a with pollClassified := a.pollClassified ++ [v.classified a.host usd] }

/-- The exporter's part. -/
def updateExporter (a : PollAgent) : PollAgent :=
  { a with exporter := a.exporter.map fun e => (e.updateFromPoll a.pollClassified).recordPoll }

/-- The publisher's part; it is not called without a record. -/
def publish (a : PollAgent) : PollAgent :=
  match a.natsPublisher with
  | none => a
  | some sent =>
    let costResults := (a.pollClassified.filter fun cf => !cf.isSidecar).map
      ClassifiedFlow.costResult
    if 0 < costResults.length then { a with natsPublisher := some (sent ++ [costResults]) } else a

/-- `handlePoll`. -/
def handlePoll (a : PollAgent) (views : List PollView) : PollAgent :=
  (views.foldl pollFlow { a with pollClassified := [] }).updateExporter.publish

end PollAgent

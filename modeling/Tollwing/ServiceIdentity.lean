/-
The service identity of a flow (`pkg/agent/agent.go`).

`handlePoll` fills the namespace and the service of a flow field by field: from the
ClusterIP that was dialed, else the namespace from the pod's record and the service
from what `LookupService` returns for the pod's IP.  Those two are different objects,
and an EndpointSlice may list the address of a pod of another namespace.

* `ClusterInformer.wellKept_after` — what the maps of the informer keep over every
  history of its feeds;
* `PollView.dialedService_emitted`, `PollView.backend_emitted` — what is emitted;
* `PollView.identityReal_iff` — it names a service the informer knows exactly when the
  first service at a pod's IP has an endpoint there in the pod's namespace.
-/
import Tollwing.SliceOrder
import Tollwing.ZoneFeed

/-! ### The feeds of the informer -/

/-- An event of one of the informer's feeds. -/
inductive InformerEvent
  | feed (ev : FeedEvent)
  | service (ev : ServiceEvent)
  | slice (ev : Informer.SliceEvent)

/-- The API server takes no service without a name or a namespace. -/
def InformerEvent.Named : InformerEvent → Prop
  | .service (.upsert svc) => svc.id.ns.val ≠ "" ∧ svc.id.name.val ≠ ""
  | _ => True

namespace ClusterInformer

/-- The informer after an event. -/
def receive (inf : ClusterInformer) : InformerEvent → ClusterInformer
  | .feed ev => inf.step ev
  | .service (.upsert svc) => inf.onService svc
  | .service (.delete obj) => inf.onServiceDelete obj
  | .slice ev => { inf with toInformer := inf.toInformer.handleSlice ev }

/-- The informer after a history of events. -/
def after (events : List InformerEvent) : ClusterInformer := events.foldl receive new

/-- The services with an endpoint at an IP. -/
def servicesAt (inf : ClusterInformer) (ip : String) : List (String × String) :=
  ((inf.podIPToServices.lookup ip).getD []).map ServiceEndpoint.service

/-- What the maps keep: a pod's record is at the pod's IP, an entry and the owner of a
ClusterIP have a name. -/
structure WellKept (inf : ClusterInformer) : Prop where
  placed : inf.toInformer.Placed
  named : ∀ ip, ∀ svc ∈ (inf.podIPToServices.lookup ip).getD [], svc.serviceName ≠ ""
  owners : ∀ ip ref, inf.clusterIPToSvc.lookup ip = some ref →
    ref.ns.val ≠ "" ∧ ref.name.val ≠ ""

/-! ### One event -/

theorem podIPToServices_setInstanceType (inf : Informer) (nodeName it : String)
    (order : RangeOrder String) :
    (inf.setInstanceType nodeName it order).podIPToServices = inf.podIPToServices := by
  refine KeyedFold.const_foldl (π := Informer.podIPToServices) (fun inf key => ?_) _ _
  rw [Informer.backfillPod_eq]
  split
  · rfl
  · split_ifs <;> rfl

/-- Pods and nodes have no services. -/
theorem podIPToServices_step (inf : ClusterInformer) (ev : FeedEvent) :
    (inf.step ev).podIPToServices = inf.podIPToServices := by
  match ev with
  | .pod (.upsert pod) => rfl
  | .pod (.delete obj) =>
    show (inf.toInformer.onPodDelete obj).podIPToServices = _
    rw [Informer.onPodDelete]
    split <;> rfl
  | .node node byName byIP =>
    rw [toInformer_step_node]
    split_ifs
    · exact podIPToServices_setInstanceType _ _ _ _
    · rfl

theorem clusterIPToSvc_step (inf : ClusterInformer) (ev : FeedEvent) :
    (inf.step ev).clusterIPToSvc = inf.clusterIPToSvc := by
  match ev with
  | .pod (.upsert pod) => rfl
  | .pod (.delete obj) => rfl
  | .node node byName byIP => rfl

end ClusterInformer

namespace Informer

/-- Slices have no pods. -/
theorem podIPToMeta_removeSliceLocked (inf : Informer) (key : String) :
    (inf.removeSliceLocked key).podIPToMeta = inf.podIPToMeta := by
  rw [removeSliceLocked]
  split <;> rfl

theorem podIPToMeta_handleSlice (inf : Informer) (ev : SliceEvent) :
    (inf.handleSlice ev).podIPToMeta = inf.podIPToMeta := by
  match ev with
  | .upsert eps =>
    rw [handleSlice, onEndpointSlice]
    split_ifs
    · exact podIPToMeta_removeSliceLocked inf _
    · dsimp only
      split_ifs <;> exact podIPToMeta_removeSliceLocked inf _
  | .delete obj =>
    rw [handleSlice, onEndpointSliceDelete]
    split
    · rfl
    · exact podIPToMeta_removeSliceLocked inf _

theorem mem_of_mem_removeSliceLocked {inf : Informer} {key ip : String} {svc : ServiceEndpoint}
    (h : svc ∈ ((inf.removeSliceLocked key).podIPToServices.lookup ip).getD []) :
    svc ∈ (inf.podIPToServices.lookup ip).getD [] := by
  rw [removeSliceLocked] at h
  split at h
  · exact h
  · exact SharedIndex.mem_of_mem_foldl_remove h

/-- A new entry is one of the slice, and the slice has a service. -/
theorem mem_of_mem_handleSlice {inf : Informer} {ev : SliceEvent} {ip : String}
    {svc : ServiceEndpoint}
    (h : svc ∈ ((inf.handleSlice ev).podIPToServices.lookup ip).getD []) :
    svc ∈ (inf.podIPToServices.lookup ip).getD [] ∨
      ∃ eps : EndpointSlice, eps.svcName ≠ "" ∧ svc.service = eps.service := by
  match ev with
  | .upsert eps =>
    rw [handleSlice, onEndpointSlice] at h
    split_ifs at h with hsvc
    · exact Or.inl (mem_of_mem_removeSliceLocked h)
    · have hadd : svc ∈ ((eps.entries.foldl (fun m e => SharedIndex.add m e.addr e.ep)
          (inf.removeSliceLocked eps.id.key).podIPToServices).lookup ip).getD [] := by
        dsimp only at h
        split_ifs at h <;> exact h
      rcases SharedIndex.mem_of_mem_foldl_add _ _ hadd with hold | ⟨e, he, rfl⟩
      · exact Or.inl (mem_of_mem_removeSliceLocked hold)
      · exact Or.inr ⟨eps, hsvc, service_of_mem_entries he⟩
  | .delete obj =>
    rw [handleSlice, onEndpointSliceDelete] at h
    split at h
    · exact Or.inl h
    · exact Or.inl (mem_of_mem_removeSliceLocked h)

end Informer

namespace ClusterInformer

variable {inf : ClusterInformer}

theorem WellKept.receive (h : inf.WellKept) {ev : InformerEvent} (hev : ev.Named) :
    (inf.receive ev).WellKept := by
  match ev, hev with
  | .feed ev, _ =>
    refine ⟨h.placed.step ev, ?_, ?_⟩
    · rw [ClusterInformer.receive, podIPToServices_step]
      exact h.named
    · rw [ClusterInformer.receive, clusterIPToSvc_step]
      exact h.owners
  | .service (.upsert svc), hev =>
    refine ⟨h.placed, h.named, fun ip ref href => ?_⟩
    have hlookup := (FinMap.lookup_foldl_insert _ _ _ _).symm.trans href
    split_ifs at hlookup
    · rw [← Option.some.inj hlookup]
      exact hev
    · exact h.owners ip ref hlookup
  | .service (.delete obj), _ =>
    rw [ClusterInformer.receive, onServiceDelete]
    split
    · exact h
    · refine ⟨h.placed, h.named, fun ip ref href => ?_⟩
      have hlookup := (FinMap.lookup_foldl_erase _ _ _).symm.trans href
      split_ifs at hlookup
      exact h.owners ip ref hlookup
  | .slice ev, _ =>
    refine ⟨?_, fun ip svc hsvc => ?_, h.owners⟩
    · show ∀ ip m, (inf.toInformer.handleSlice ev).podIPToMeta.lookup ip = some m → _
      rw [Informer.podIPToMeta_handleSlice]
      exact h.placed
    · rcases Informer.mem_of_mem_handleSlice hsvc with hold | ⟨eps, hne, heq⟩
      · exact h.named ip svc hold
      · rw [show svc.serviceName = eps.svcName from congrArg Prod.snd heq]
        exact hne

/-- **The maps** of the informer, after every history of its feeds. -/
theorem wellKept_after {events : List InformerEvent} (h : ∀ ev ∈ events, ev.Named) :
    (after events).WellKept := by
  induction events using List.reverseRecOn with
  | nil => exact ⟨nofun, fun ip svc hsvc => absurd hsvc List.not_mem_nil, nofun⟩
  | append_singleton events ev ih =>
    rw [after, List.foldl_append]
    have hearlier := ih fun e he => h e (List.mem_append_left _ he)
    exact hearlier.receive (h ev (List.mem_append_right _ (List.mem_singleton_self ev)))

end ClusterInformer

/-! ### What is emitted -/

namespace PollView

variable (host : ByteOrder) (v : PollView) (inf : ClusterInformer)

/-- The owner of the dialed ClusterIP, if the intent resolves. -/
def dialedService : Option ServiceRef :=
  ((v.joinAgent host).joinIntent v.snap v.sidecarProcess).bind fun dst =>
    inf.lookupClusterIP (ipString host dst.ip)

/-- The service identities of a flow are those of services that the informer knows. -/
structure IdentityReal (cf : ClassifiedFlow ℚ) : Prop where
  dst : cf.dstService ≠ "" →
    (v.dialedService host inf).elim
      ((cf.dstNamespace, cf.dstService) ∈ inf.servicesAt (ipString host v.snap.dstIP))
      fun ref => (cf.dstNamespace, cf.dstService) = (ref.ns.val, ref.name.val)
  src : cf.srcService ≠ "" →
    ∃ m, v.srcMeta = some m ∧ (cf.ns, cf.srcService) ∈ inf.servicesAt m.podIP

/-- The service that comes first at a pod's IP has an endpoint there in the pod's
namespace. -/
def FirstIsPods (m : PodMeta) : Prop :=
  ∀ svc, firstService inf m.podIP = some svc →
    (m.ns.val, svc.serviceName) ∈ inf.servicesAt m.podIP

/-- It is so for the pod at the destination, unless the dialed ClusterIP decides or the
pod has no namespace, and for the pod of the process. -/
structure EndpointsAgree : Prop where
  dst : v.dialedService host inf = none → ∀ m,
    inf.podIPToMeta.lookup (ipString host v.snap.dstIP) = some m → m.ns.val ≠ "" →
      FirstIsPods inf m
  src : ∀ m, v.srcMeta = some m → m.podIP ≠ "" → FirstIsPods inf m

variable {host v inf}

theorem dialed_eq (d : Destination) :
    v.dialed host inf d = (v.dialedService host inf).elim d fun ref =>
      { d with ns := ref.ns.val, service := ref.name.val } := by
  rw [dialed, dialedService]
  cases (v.joinAgent host).joinIntent v.snap v.sidecarProcess with
  | none => rfl
  | some dst =>
    show _ = (inf.lookupClusterIP (ipString host dst.ip)).elim _ _
    cases hlookup : inf.lookupClusterIP (ipString host dst.ip) with
    | none => simp only [hlookup]; rfl
    | some ref => simp only [hlookup]; rfl

/-- The pod at the destination adds nothing to a resolved intent. -/
theorem backend_resolved (inf : ClusterInformer) (m : PodMeta) {d : Destination}
    (hns : d.ns ≠ "") (hsvc : d.service ≠ "") :
    (backend inf m d).ns = d.ns ∧ (backend inf m d).service = d.service := by
  simp only [backend, if_neg hns, if_neg hsvc]
  split_ifs <;> exact ⟨rfl, rfl⟩

/-- Without one it says namespace and service. -/
theorem backend_unresolved (inf : ClusterInformer) (m : PodMeta) {d : Destination}
    (hns : d.ns = "") (hsvc : d.service = "") :
    (backend inf m d).service
        = ((firstService inf m.podIP).map ServiceEndpoint.serviceName).getD "" ∧
      ∀ svc, firstService inf m.podIP = some svc →
        (backend inf m d).ns = if m.ns.val = "" then svc.serviceNamespace else m.ns.val := by
  simp only [backend, hns, hsvc, if_true]
  cases hfirst : firstService inf m.podIP with
  | none =>
    refine ⟨?_, nofun⟩
    simp only
    split_ifs <;> rfl
  | some svc =>
    refine ⟨?_, fun svc' hsvc' => ?_⟩
    · simp only
      split_ifs <;> rfl
    · obtain rfl := Option.some.inj hsvc'
      simp only
      split_ifs <;> rfl

/-- The service that comes first is one with an endpoint at the IP. -/
theorem mem_servicesAt_first {ip : String} {svc : ServiceEndpoint}
    (h : firstService inf ip = some svc) : svc.service ∈ inf.servicesAt ip :=
  List.mem_map_of_mem (List.mem_of_mem_head? h)

/-! ### When it is real -/

theorem firstIsPods_of_none {m : PodMeta} (h : firstService inf m.podIP = none) :
    FirstIsPods inf m := by
  rw [FirstIsPods, h]
  nofun

theorem firstIsPods_iff {m : PodMeta} {svc : ServiceEndpoint}
    (h : firstService inf m.podIP = some svc) :
    FirstIsPods inf m ↔ (m.ns.val, svc.serviceName) ∈ inf.servicesAt m.podIP := by
  rw [FirstIsPods, h]
  constructor
  · intro hall
    exact hall svc rfl
  · intro hmem svc' hsvc'
    obtain rfl := Option.some.inj hsvc'
    exact hmem

/-- The destination. -/
theorem dst_iff (host : ByteOrder) (v : PollView) (h : inf.WellKept) :
    ((v.destination host inf).service ≠ "" → (v.dialedService host inf).elim
        (((v.destination host inf).ns, (v.destination host inf).service)
          ∈ inf.servicesAt (ipString host v.snap.dstIP))
        fun ref => ((v.destination host inf).ns, (v.destination host inf).service)
          = (ref.ns.val, ref.name.val)) ↔
      (v.dialedService host inf = none → ∀ m,
        inf.podIPToMeta.lookup (ipString host v.snap.dstIP) = some m → m.ns.val ≠ "" →
          FirstIsPods inf m) := by
  rw [destination, dialed_eq]
  cases hdialed : v.dialedService host inf with
  | some ref =>
    refine iff_of_true (fun _ => ?_) nofun
    obtain ⟨dst, -, hlookup⟩ := Option.bind_eq_some_iff.mp hdialed
    obtain ⟨hns, hname⟩ := h.owners _ ref hlookup
    dsimp only [Option.elim]
    cases inf.podIPToMeta.lookup (ipString host v.snap.dstIP) with
    | none => rfl
    | some m =>
      have hboth := backend_resolved inf m
        (d := { zone := (v.result host).dstZone, ns := ref.ns.val, service := ref.name.val })
        hns hname
      exact Prod.ext hboth.1 hboth.2
  | none =>
    dsimp only [Option.elim]
    cases hlookup : inf.podIPToMeta.lookup (ipString host v.snap.dstIP) with
    | none => exact iff_of_true (fun hne => absurd rfl hne) nofun
    | some m =>
      -- the record is at the destination's IP
      obtain ⟨hip, -⟩ := h.placed _ m hlookup
      have hboth := backend_unresolved inf m
        (d := { zone := (v.result host).dstZone }) rfl rfl
      dsimp only
      rw [hboth.1, ← hip]
      cases hfirst : firstService inf m.podIP with
      | none =>
        refine iff_of_true (fun hne => absurd rfl hne) fun _ m' hm' _ => ?_
        obtain rfl := Option.some.inj hm'
        exact firstIsPods_of_none hfirst
      | some svc =>
        have hnamed : svc.serviceName ≠ "" := h.named _ svc (List.mem_of_mem_head? hfirst)
        rw [hboth.2 svc hfirst]
        constructor
        · intro hreal _ m' hm' hns
          obtain rfl := Option.some.inj hm'
          have hpair := hreal hnamed
          rw [if_neg hns] at hpair
          exact (firstIsPods_iff hfirst).mpr hpair
        · intro hagree _
          split_ifs with hns
          · exact mem_servicesAt_first hfirst
          · exact (firstIsPods_iff hfirst).mp (hagree rfl m rfl hns)

/-- The source. -/
theorem src_iff (v : PollView) (h : inf.WellKept) :
    (v.srcService inf ≠ "" → ∃ m, v.srcMeta = some m ∧
        ((v.srcMeta.map fun m => m.ns.val).getD "", v.srcService inf) ∈ inf.servicesAt m.podIP) ↔
      ∀ m, v.srcMeta = some m → m.podIP ≠ "" → FirstIsPods inf m := by
  rw [srcService]
  cases hmeta : v.srcMeta with
  | none => exact iff_of_true (fun hne => absurd rfl hne) nofun
  | some m =>
    dsimp only
    by_cases hip : m.podIP = ""
    · rw [if_neg (not_not_intro hip)]
      refine iff_of_true (fun hne => absurd rfl hne) fun m' hm' hne => ?_
      obtain rfl := Option.some.inj hm'
      exact absurd hip hne
    · rw [if_pos hip]
      cases hfirst : firstService inf m.podIP with
      | none =>
        refine iff_of_true (fun hne => absurd rfl hne) fun m' hm' _ => ?_
        obtain rfl := Option.some.inj hm'
        exact firstIsPods_of_none hfirst
      | some svc =>
        have hnamed : svc.serviceName ≠ "" := h.named _ svc (List.mem_of_mem_head? hfirst)
        constructor
        · intro hreal m' hm' _
          obtain ⟨m'', hm'', hpair⟩ := hreal hnamed
          obtain rfl := Option.some.inj hm'
          obtain rfl := Option.some.inj hm''
          exact (firstIsPods_iff hfirst).mpr hpair
        · intro hagree _
          exact ⟨m, rfl, (firstIsPods_iff hfirst).mp (hagree m rfl hip)⟩

/-- **The service identity** that `handlePoll` emits for a flow that is no sidecar's is,
after every history of the informer's feeds and with every intent cache, that of
services the informer knows, if and only if the service that comes first at the IP of
the pods it looks at has an endpoint there in the pod's namespace. -/
theorem identityReal_iff (host : ByteOrder) (v : PollView) (usd : ℚ) {events : List InformerEvent}
    (hnamed : ∀ ev ∈ events, ev.Named) (hinf : v.informer = some (.after events))
    (hsidecar : v.isSidecar host = false) :
    IdentityReal host v (.after events) (v.classified host usd) ↔
      EndpointsAgree host v (.after events) := by
  have hkept := ClusterInformer.wellKept_after hnamed
  have henriched : (v.informer.filter fun _ => !v.isSidecar host) = some (.after events) := by
    rw [hinf, hsidecar]
    rfl
  have hdst := dst_iff host v hkept
  have hsrc := src_iff v hkept
  constructor
  · intro h
    have hd := h.dst
    have hs := h.src
    simp only [classified, henriched] at hd hs
    exact ⟨hdst.mp hd, hsrc.mp hs⟩
  · intro h
    constructor
    · simp only [classified, henriched]
      exact hdst.mpr h.dst
    · simp only [classified, henriched]
      exact hsrc.mpr h.src

/-- A pod of the namespace `shop`. -/
def webPod : Pod where
  id := ⟨Informer.shop, ⟨"web-0", by decide⟩⟩
  nodeName := ""
  labels := ∅
  podIP := "10.0.0.7"
  hostIP := ""
  createdAt := 0
  containers := []
  containerStatuses := []

/-- A flow to its IP, of no known process, and the intent cache it is looked up in. -/
def flowToPod (inf : ClusterInformer) (cache : IntentCache) : PollView where
  snap := ⟨0x0100000A, 0x0700000A, 40000, 8080, 7, 6, 0, 100, 200, 1, 2, 0, 0⟩
  classifier := .new .new
  sidecarProcess := false
  process := none
  informer := some inf
  intentCache := cache
  dnsTracker := none
  dnsNow := 0
  cards := .new
  now := ⟨0, 10⟩

/-- A flow that was dialed by the ClusterIP of a service. -/
theorem identityReal_dialed :
    let api : Service := ⟨⟨Informer.shop, ⟨"api", by decide⟩⟩, "10.96.0.10", []⟩
    let inf := ClusterInformer.after [.service (.upsert api), .feed (.pod (.upsert webPod))]
    let v := flowToPod inf ((IntentCache.new 0).put
      ⟨0x0100000A, 0x0700000A, 40000, 8080, 7, 6, 0⟩ ⟨0x0A00600A, 80⟩)
    let cf := v.classified .little 0
    IdentityReal .little v inf cf ∧ (cf.dstNamespace, cf.dstService) = ("shop", "api") := by
  intro api inf v cf
  have hnamed : ∀ ev ∈ [.service (.upsert api), .feed (.pod (.upsert webPod))],
      InformerEvent.Named ev := by
    intro ev hev
    rcases List.mem_pair.mp hev with rfl | rfl
    · exact ⟨by decide, by decide⟩
    · trivial
  have hdialed : v.dialedService .little inf ≠ none := by decide +kernel
  have hsidecar : v.isSidecar .little = false := by decide +kernel
  have hagree : EndpointsAgree .little v inf := ⟨fun hnone => absurd hnone hdialed, nofun⟩
  refine ⟨(identityReal_iff .little v 0 hnamed rfl hsidecar).mpr hagree, ?_⟩
  decide +kernel

/-- A slice of the namespace `legacy` lists the pod's address: the flow is said to go
to a service `shop/billing`, which does not exist. -/
theorem slice_of_other_namespace :
    let slice := Informer.podSlice ⟨⟨"legacy", by decide⟩, ⟨"billing-x1", by decide⟩⟩ "billing"
    let events : List InformerEvent := [.feed (.pod (.upsert webPod)), .slice (.upsert slice)]
    let inf := ClusterInformer.after events
    let v := flowToPod inf (.new 0)
    let cf := v.classified .little 0
    ((cf.dstNamespace, cf.dstService) = ("shop", "billing") ∧
      inf.servicesAt "10.0.0.7" = [("legacy", "billing")] ∧ v.dialedService .little inf = none) ∧
      ¬ IdentityReal .little v inf cf := by
  intro slice events inf v cf
  have hemitted : (cf.dstNamespace, cf.dstService) = ("shop", "billing") := by decide +kernel
  have hknown : inf.servicesAt "10.0.0.7" = [("legacy", "billing")] := by decide +kernel
  have hdialed : v.dialedService .little inf = none := by decide +kernel
  refine ⟨⟨hemitted, hknown, hdialed⟩, fun h => ?_⟩
  have hip : ipString .little v.snap.dstIP = "10.0.0.7" := by decide +kernel
  have hservice : cf.dstService ≠ "" := by
    have hname : cf.dstService = "billing" := congrArg Prod.snd hemitted
    rw [hname]
    decide
  have hreal := h.dst hservice
  rw [hdialed, Option.elim_none, hemitted, hip, hknown] at hreal
  exact absurd hreal (by decide)

end PollView

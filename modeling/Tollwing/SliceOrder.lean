/-
The order of EndpointSlice events (`pkg/k8s/informer.go`, `pkg/agent/agent.go`).

`handlePoll` attributes a pod IP to the service that comes first in
`podIPToServices`, and an update of a slice takes its entries out and puts them in
again at the end.  The entries at an IP are those of the live slices in any order of
the events, which of them comes first is not.

* `Informer.attributed_of_oneService` — where the live slices name one service, that
  service comes first;
* `Informer.attributed_replay` — the live slices, delivered once each, put the slice
  first that is delivered first;
* `Informer.order_independent_iff` — so the order never matters exactly when the live
  slices name one service at every IP.
-/
import Tollwing.EndpointSlices
import Tollwing.HandlePoll

/-- The service of an entry, by namespace and name. -/
def ServiceEndpoint.service (svc : ServiceEndpoint) : String × String :=
  (svc.serviceNamespace, svc.serviceName)

/-- The service that owns a slice. -/
def EndpointSlice.service (eps : EndpointSlice) : String × String := (eps.id.ns.val, eps.svcName)

namespace Informer

/-- The service that the poll path finds at an IP after a history of slice events. -/
def attributed (events : List SliceEvent) (ip : String) : Option (String × String) :=
  (PollView.firstService { ClusterInformer.new with toInformer := runSlices events } ip).map
    ServiceEndpoint.service

/-- The live slices with an endpoint at an IP belong to one service. -/
def OneService (live : FinMap ObjectID EndpointSlice) (ip : String) : Prop :=
  ∀ id eps id' eps', live.lookup id = some eps → live.lookup id' = some eps' →
    servicesAt eps ip ≠ 0 → servicesAt eps' ip ≠ 0 → eps.service = eps'.service

/-! ### What comes first -/

/-- Every entry of a slice names its service. -/
theorem service_of_mem_entries {eps : EndpointSlice} {e : SliceEndpointEntry}
    (h : e ∈ eps.entries) : e.ep.service = eps.service := by
  obtain ⟨ep, -, hep⟩ := List.mem_flatMap.mp h
  obtain ⟨addr, -, haddr⟩ := List.mem_flatMap.mp hep
  obtain ⟨port, -, hport⟩ := List.mem_filterMap.mp haddr
  obtain ⟨p, -, rfl⟩ := Option.map_eq_some_iff.mp hport
  rfl

theorem service_of_mem_servicesAt {eps : EndpointSlice} {ip : String} {svc : ServiceEndpoint}
    (h : svc ∈ servicesAt eps ip) : svc.service = eps.service := by
  rw [servicesAt, SharedIndex.entriesAt, Multiset.mem_coe] at h
  obtain ⟨e, he, rfl⟩ := List.mem_map.mp h
  have hmem := List.mem_of_mem_filter he
  rw [contribution] at hmem
  split_ifs at hmem
  · exact absurd hmem List.not_mem_nil
  · exact service_of_mem_entries hmem

/-- What comes first at an IP is an entry of a live slice. -/
theorem attributed_eq_some {events : List SliceEvent} {ip : String} {service : String × String}
    (h : attributed events ip = some service) :
    ∃ id eps, (liveSlices events).lookup id = some eps ∧ servicesAt eps ip ≠ 0 ∧
      eps.service = service := by
  obtain ⟨svc, hsvc, rfl⟩ := Option.map_eq_some_iff.mp h
  have hserved : svc ∈ SharedIndex.served (runSlices events).podIPToServices ip :=
    Multiset.mem_coe.mpr (List.mem_of_mem_head? hsvc)
  rw [served_run, FinMap.sum_eq_sum_keys, Multiset.mem_sum] at hserved
  obtain ⟨id, -, hid⟩ := hserved
  cases hlive : (liveSlices events).lookup id with
  | none =>
    rw [hlive] at hid
    exact absurd hid (Multiset.notMem_zero svc)
  | some eps =>
    rw [hlive] at hid
    exact ⟨id, eps, hlive, fun hzero => absurd (hzero ▸ hid) (Multiset.notMem_zero svc),
      (service_of_mem_servicesAt hid).symm⟩

/-- An IP resolves if a live slice has an endpoint there. -/
theorem attributed_ne_none {events : List SliceEvent} {ip : String} {id : ObjectID}
    {eps : EndpointSlice} (hlive : (liveSlices events).lookup id = some eps)
    (hip : servicesAt eps ip ≠ 0) : attributed events ip ≠ none := by
  intro hnone
  rw [attributed, Option.map_eq_none_iff, PollView.firstService, List.head?_eq_none_iff] at hnone
  have hserved := served_run events ip
  rw [SharedIndex.served, hnone, FinMap.sum_eq_add_erase hlive] at hserved
  have hle : servicesAt eps ip ≤ 0 := (Multiset.le_add_right _ _).trans_eq hserved.symm
  exact hip (Multiset.le_zero.mp hle)

/-- Where the live slices belong to one service, every history resolves alike. -/
theorem attributed_of_oneService {events events' : List SliceEvent}
    (hlive : liveSlices events' = liveSlices events) {ip : String}
    (hone : OneService (liveSlices events) ip) : attributed events' ip = attributed events ip := by
  cases hservice : attributed events ip with
  | none =>
    -- an IP that resolves has a live slice, and then it resolves in the other history too
    by_contra hne
    obtain ⟨service', hservice'⟩ := Option.ne_none_iff_exists'.mp hne
    obtain ⟨id, eps, hid, hip, -⟩ := attributed_eq_some hservice'
    exact attributed_ne_none (hlive ▸ hid) hip hservice
  | some service =>
    obtain ⟨id, eps, hid, hip, rfl⟩ := attributed_eq_some hservice
    have hne : attributed events' ip ≠ none := attributed_ne_none (hlive ▸ hid) hip
    obtain ⟨service', hservice'⟩ := Option.ne_none_iff_exists'.mp hne
    obtain ⟨id', eps', hid', hip', rfl⟩ := attributed_eq_some hservice'
    rw [hservice', hone id' eps' id eps (hlive ▸ hid') hid hip' hip]

/-! ### Live slices, delivered once each -/

/-- The live slices of some objects, one event each. -/
def replay (live : FinMap ObjectID EndpointSlice) (ids : List ObjectID) : List SliceEvent :=
  ids.filterMap fun id => (live.lookup id).map .upsert

/-- A slice is kept under its own name. -/
theorem id_of_liveSlices (events : List SliceEvent) :
    ∀ id eps, (liveSlices events).lookup id = some eps → eps.id = id := by
  induction events using List.reverseRecOn with
  | nil => intro id eps h; exact absurd h nofun
  | append_singleton events ev ih =>
    rw [liveSlices, List.foldl_append, List.foldl_cons, List.foldl_nil]
    cases ev with
    | upsert eps => exact FinMap.forall_lookup_insert ih rfl
    | delete obj =>
      rw [sliceStep]
      split
      · exact ih
      · exact FinMap.forall_lookup_erase ih

variable {live : FinMap ObjectID EndpointSlice}

theorem replay_concat (live : FinMap ObjectID EndpointSlice) (ids : List ObjectID)
    (last : ObjectID) :
    replay live (ids ++ [last])
      = replay live ids ++ ((live.lookup last).map SliceEvent.upsert).toList := by
  rw [replay, List.filterMap_append]
  cases hlast : live.lookup last <;> simp [replay, hlast]

theorem lookup_liveSlices_replay (hid : ∀ id eps, live.lookup id = some eps → eps.id = id)
    (ids : List ObjectID) (id : ObjectID) :
    (liveSlices (replay live ids)).lookup id = if id ∈ ids then live.lookup id else none := by
  induction ids using List.reverseRecOn with
  | nil => rfl
  | append_singleton ids last ih =>
    rw [replay_concat, liveSlices, List.foldl_append]
    simp only [List.mem_append, List.mem_singleton]
    cases hlast : live.lookup last with
    | none =>
      refine ih.trans ?_
      by_cases heq : id = last
      · rw [heq, hlast, ite_self, ite_self]
      · simp only [heq, or_false]
    | some eps =>
      show ((liveSlices (replay live ids)).insert eps.id eps).lookup id = _
      rw [hid last eps hlast, FinMap.lookup_insert_ite, ih]
      by_cases heq : id = last
      · rw [if_pos heq, if_pos (Or.inr heq), heq, hlast]
      · simp only [heq, or_false, if_false]

/-- A slice without a record leaves first what comes first. -/
theorem head_onEndpointSlice {inf : Informer} {eps : EndpointSlice} {ip : String}
    {svc : ServiceEndpoint} (hnone : inf.endpointsBySlice.lookup eps.id.key = none)
    (h : ((inf.podIPToServices.lookup ip).getD []).head? = some svc) :
    (((inf.onEndpointSlice eps).podIPToServices.lookup ip).getD []).head? = some svc := by
  have hremove : inf.removeSliceLocked eps.id.key = inf := by rw [removeSliceLocked, hnone]
  have hadd := SharedIndex.head_foldl_add SliceEndpointEntry.addr SliceEndpointEntry.ep h
    eps.entries
  rw [onEndpointSlice, hremove]
  split_ifs
  · exact h
  · dsimp only
    split_ifs
    · exact hadd
    · exact hadd

/-- The slice that is delivered first comes first at its IPs. -/
theorem attributed_replay (hid : ∀ id eps, live.lookup id = some eps → eps.id = id)
    {first : ObjectID} {eps : EndpointSlice} (hfirst : live.lookup first = some eps) {ip : String}
    (hip : servicesAt eps ip ≠ 0) {rest : List ObjectID} (hnodup : (first :: rest).Nodup) :
    attributed (replay live (first :: rest)) ip = some eps.service := by
  induction rest using List.reverseRecOn with
  | nil =>
    have hlive := lookup_liveSlices_replay hid [first]
    have heps : (liveSlices (replay live [first])).lookup first = some eps := by
      rw [hlive, if_pos (List.mem_singleton_self first), hfirst]
    obtain ⟨service, hservice⟩ := Option.ne_none_iff_exists'.mp (attributed_ne_none heps hip)
    obtain ⟨id, eps', heps', -, rfl⟩ := attributed_eq_some hservice
    -- there is no other slice yet
    rw [hlive] at heps'
    split_ifs at heps' with hmem
    rw [List.mem_singleton.mp hmem, hfirst] at heps'
    rw [hservice, Option.some.inj heps']
  | append_singleton rest last ih =>
    rw [← List.cons_append] at hnodup ⊢
    have hearlier := ih (List.nodup_append.mp hnodup).1
    have hlast : last ∉ first :: rest := fun hmem =>
      (List.nodup_append.mp hnodup).2.2 last hmem last (List.mem_singleton_self last) rfl
    rw [replay_concat]
    cases hlookup : live.lookup last with
    | none =>
      rw [Option.map_none, Option.toList_none, List.append_nil]
      exact hearlier
    | some eps' =>
      have hnone : (runSlices (replay live (first :: rest))).endpointsBySlice.lookup eps'.id.key
          = none := by
        rw [(recorded_run _).lookup_key, recordOf, lookup_liveSlices_replay hid,
          hid last eps' hlookup, if_neg hlast]
      obtain ⟨svc, hsvc, hservice⟩ := Option.map_eq_some_iff.mp hearlier
      rw [attributed, runSlices, List.foldl_append, ← hservice]
      exact congrArg (Option.map ServiceEndpoint.service) (head_onEndpointSlice hnone hsvc)

/-! ### All histories -/

/-- Any live slice can come first at its IPs. -/
theorem exists_history (events : List SliceEvent) {id : ObjectID} {eps : EndpointSlice}
    (hlive : (liveSlices events).lookup id = some eps) {ip : String} (hip : servicesAt eps ip ≠ 0) :
    ∃ events', liveSlices events' = liveSlices events ∧
      attributed events' ip = some eps.service := by
  have hid := id_of_liveSlices events
  have hkeys : ((liveSlices events).keys.erase id).toList.Nodup := Finset.nodup_toList _
  have hnodup : (id :: ((liveSlices events).keys.erase id).toList).Nodup :=
    List.nodup_cons.mpr ⟨by simp, hkeys⟩
  refine ⟨_, Finmap.ext_lookup fun id' => ?_, attributed_replay hid hlive hip hnodup⟩
  rw [lookup_liveSlices_replay hid]
  split_ifs with hmem
  · rfl
  · -- what is not delivered was not live
    by_contra hne
    have hkey := FinMap.mem_keys_iff_lookup.mpr (Ne.symm hne)
    by_cases heq : id' = id
    · exact hmem (heq ▸ List.mem_cons_self)
    · exact hmem (List.mem_cons_of_mem _ (Finset.mem_toList.mpr (Finset.mem_erase.mpr ⟨heq, hkey⟩)))

/-- **The order of the events** does not matter to what any IP resolves to, over all
histories that end with the same live slices, if and only if at every IP the live
slices belong to one service. -/
theorem order_independent_iff (events : List SliceEvent) :
    (∀ events', liveSlices events' = liveSlices events →
        ∀ ip, attributed events' ip = attributed events ip) ↔
      ∀ ip, OneService (liveSlices events) ip := by
  constructor
  · intro h ip id eps id' eps' hlive hlive' hip hip'
    obtain ⟨first, hfirst, hservice⟩ := exists_history events hlive hip
    obtain ⟨other, hother, hservice'⟩ := exists_history events hlive' hip'
    have heq : some eps.service = some eps'.service := by
      rw [← hservice, ← hservice', h first hfirst, h other hother]
    exact Option.some.inj heq
  · intro h events' hlive ip
    exact attributed_of_oneService hlive (h ip)

/-- A slice with one address and port. -/
def podSlice (id : ObjectID) (svcName : String) : EndpointSlice where
  id := id
  labels := FinMap.ofList [(labelServiceName, svcName)]
  endpoints := [⟨["10.0.0.7"]⟩]
  ports := [some 8080]

theorem noSlash_shop : '/' ∉ "shop".toList := by decide

/-- The namespace of the examples. -/
def shop : KubeName := ⟨"shop", noSlash_shop⟩

/-- A pod behind a service and its headless twin.  The slice of the service is
delivered once more, unchanged, and the pod goes over to the twin. -/
theorem redelivery_flips :
    let api := podSlice ⟨shop, ⟨"api-x1", by decide⟩⟩ "api"
    let twin := podSlice ⟨shop, ⟨"api-headless-x2", by decide⟩⟩ "api-headless"
    let events : List SliceEvent := [.upsert api, .upsert twin]
    (attributed events "10.0.0.7" = some ("shop", "api") ∧
      attributed (events ++ [.upsert api]) "10.0.0.7" = some ("shop", "api-headless")) ∧
      ¬ ∀ events' events'', liveSlices events' = liveSlices events'' →
        ∀ ip, attributed events' ip = attributed events'' ip := by
  intro api twin events
  have hbefore : attributed events "10.0.0.7" = some ("shop", "api") := by decide +kernel
  have hafter : attributed (events ++ [.upsert api]) "10.0.0.7"
      = some ("shop", "api-headless") := by decide +kernel
  refine ⟨⟨hbefore, hafter⟩, fun h => ?_⟩
  have hne : api.id ≠ twin.id := by decide
  have hlive : liveSlices (events ++ [.upsert api]) = liveSlices events :=
    FinMap.insert_of_lookup ((Finmap.lookup_insert_of_ne _ hne).trans (Finmap.lookup_insert _))
  rw [h _ _ hlive, hbefore] at hafter
  exact absurd hafter (by decide)

end Informer

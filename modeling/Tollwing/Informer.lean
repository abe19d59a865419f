/-
The Kubernetes informer's caches (`pkg/k8s/informer.go`).

The maps that the event handlers of pods and EndpointSlices keep, and the
objects they read.  Names are what the API server accepts, so a slash in a key
can only be the separator (`objectKey_injective`).  A published record is never
changed in place, so a pointer is its value here.
-/
import Mathlib.Data.String.Basic
import Tollwing.FinMap

/-- A name or namespace of a Kubernetes object. -/
structure KubeName where
  val : String
  noSlash : '/' ∉ val.toList
  deriving DecidableEq

/-- The object a key is built of. -/
structure ObjectID where
  ns : KubeName
  name : KubeName
  deriving DecidableEq

/-- The key of a namespaced object, `namespace/name`. -/
def ObjectID.key (id : ObjectID) : String := id.ns.val ++ "/" ++ id.name.val

/-- Two lists split at their first slash. -/
theorem split_slash {c : Char} {l l' r r' : List Char} (hl : c ∉ l) (hl' : c ∉ l')
    (h : l ++ c :: r = l' ++ c :: r') : l = l' ∧ r = r' := by
  induction l generalizing l' with
  | nil =>
    cases l' with
    | nil => exact ⟨rfl, (List.cons.inj h).2⟩
    | cons d l' => exact absurd (List.cons.inj h).1 (fun heq => hl' (heq ▸ List.mem_cons_self ..))
  | cons d l ih =>
    cases l' with
    | nil => exact absurd (List.cons.inj h).1 (fun heq => hl (heq ▸ List.mem_cons_self ..))
    | cons d' l' =>
      obtain ⟨hd, htail⟩ := List.cons.inj h
      obtain ⟨hl, hr⟩ := ih (fun hc => hl (List.mem_cons_of_mem d hc))
        (fun hc => hl' (List.mem_cons_of_mem d' hc)) htail
      exact ⟨by rw [hd, hl], hr⟩

/-- Different objects have different keys. -/
theorem objectKey_injective : Function.Injective ObjectID.key := by
  rintro ⟨⟨ns, hns⟩, ⟨name, hname⟩⟩ ⟨⟨ns', hns'⟩, ⟨name', hname'⟩⟩ h
  have hlist := congrArg String.toList h
  simp only [ObjectID.key, String.toList_append, List.append_assoc] at hlist
  obtain ⟨hl, hr⟩ := split_slash hns hns' hlist
  obtain rfl := String.toList_inj.mp hl
  obtain rfl := String.toList_inj.mp hr
  rfl

/-- What a delete handler is given: the object, the tombstone of a relist with
the object's last known state, or something else. -/
inductive DeletedObject (α : Type)
  | object (obj : α)
  | tombstone (obj : α)
  | other
  deriving DecidableEq

/-- The object of a delete event, if there is one. -/
def DeletedObject.get? {α : Type} : DeletedObject α → Option α
  | .object obj => some obj
  | .tombstone obj => some obj
  | .other => none

/-! ### Records -/

/-- What is cached of a pod. -/
structure PodMeta where
  name : KubeName
  ns : KubeName
  nodeName : String
  labels : FinMap String String
  podIP : String
  hostIP : String
  containers : List String
  cpuRequestMilli : Int64
  memoryRequestMB : Int64
  instanceType : String
  createdAt : ℤ

/-- The pod a record is about. -/
def PodMeta.id (m : PodMeta) : ObjectID := ⟨m.ns, m.name⟩

/-- A service behind a pod IP and port. -/
structure ServiceEndpoint where
  serviceName : String
  serviceNamespace : String
  port : Int32
  deriving DecidableEq

/-- One entry that a slice contributed. -/
structure SliceEndpointEntry where
  addr : String
  ep : ServiceEndpoint
  deriving DecidableEq

/-- The informer's maps. -/
structure Informer where
  containerToPod : FinMap String PodMeta
  podIPToMeta : FinMap String PodMeta
  podNameToMeta : FinMap String PodMeta
  podIPToServices : FinMap String (List ServiceEndpoint)
  nodeInstanceTypes : FinMap String String
  endpointsBySlice : FinMap String (List SliceEndpointEntry)

namespace Informer

/-- The maps of `newInformerWithClient`. -/
def new : Informer := ⟨∅, ∅, ∅, ∅, ∅, ∅⟩

end Informer

/-
The prefix table of the classifier (`pkg/classifier/prefixtree.go`).

A slice of prefixes with their traffic types, sorted longest prefix first by
`build` and scanned from the front by `lookup`.  `lookup_build` says what the
pair computes: the longest match, the earliest added among equals.
-/
import Tollwing.LongestMatch
import Tollwing.NetAddr
import Tollwing.TrafficType

/-- A prefix and the traffic type of the destinations it contains. -/
structure PrefixEntry where
  pfx : Prefix
  trafficType : TrafficType
  deriving DecidableEq, Repr

structure PrefixTree where
  entries : List PrefixEntry
  deriving DecidableEq, Repr

namespace PrefixTree

def new : PrefixTree := ⟨[]⟩

def add (pt : PrefixTree) (pfx : Prefix) (tt : TrafficType) : PrefixTree :=
  { pt with entries := pt.entries ++ [⟨pfx, tt⟩] }

/-- Sort by prefix length, longest first: an insertion sort by swaps. -/
def build (pt : PrefixTree) : PrefixTree :=
  { pt with entries := LongestMatch.sortDesc (fun e => e.pfx.bits) pt.entries }

/-- The traffic type of the first entry that contains the address. -/
def lookup (pt : PrefixTree) (addr : Addr) : Option TrafficType :=
  (pt.entries.find? fun e => e.pfx.contains addr).map PrefixEntry.trafficType

/-- Adding a list of prefixes of one type, in order. -/
theorem foldl_add (pt : PrefixTree) (tt : TrafficType) (ps : List Prefix) :
    ps.foldl (fun t p => t.add p tt) pt
      = { pt with entries := pt.entries ++ ps.map fun p => ⟨p, tt⟩ } := by
  induction ps generalizing pt with
  | nil => simp
  | cons p ps ih =>
    rw [List.foldl_cons, ih]
    simp [add]

theorem mem_build {pt : PrefixTree} {e : PrefixEntry} :
    e ∈ pt.build.entries ↔ e ∈ pt.entries :=
  (LongestMatch.sortDesc_perm _ pt.entries).mem_iff

/-- A built table answers with the longest match, the earliest added among
entries of one length. -/
theorem lookup_build (pt : PrefixTree) (addr : Addr) :
    pt.build.lookup addr
      = (LongestMatch.best (fun e : PrefixEntry => e.pfx.bits)
          (fun e => e.pfx.contains addr) pt.entries).map PrefixEntry.trafficType := by
  rw [lookup, build, LongestMatch.find?_sortDesc]

end PrefixTree

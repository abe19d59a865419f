/-
The zone resolver (`pkg/classifier/zone.go`) and region extraction.

`resolve` is a layered lookup: the node's own addresses, then the zones learned
per address, then the first configured CIDR that contains the address.
-/
import Tollwing.FinMap
import Tollwing.NetAddr

/-- The zone maps of one node.  `cidrZones` is scanned in slice order. -/
structure ZoneResolver where
  localZone : String
  localIPs : Finset Addr
  ipToZone : FinMap Addr String
  cidrZones : List (Prefix × String)

namespace ZoneResolver

def new : ZoneResolver :=
  { localZone := "", localIPs := ∅, ipToZone := ∅, cidrZones := [] }

/-- The availability zone of an address, `""` when it is not known. -/
def resolve (z : ZoneResolver) (addr : Addr) : String :=
  if addr ∈ z.localIPs then z.localZone
  else
    match z.ipToZone.lookup addr with
    | some zone => zone
    | none =>
      match z.cidrZones.find? fun entry => entry.1.contains addr with
      | some entry => entry.2
      | none => ""

/-- `Init` on a host whose metadata service answers: the node's own zone. -/
def setLocalZone (z : ZoneResolver) (zone : String) : ZoneResolver :=
  { z with localZone := zone }

def addLocalIP (z : ZoneResolver) (addr : Addr) : ZoneResolver :=
  { z with localIPs := insert addr z.localIPs }

def setIPZone (z : ZoneResolver) (addr : Addr) (zone : String) : ZoneResolver :=
  { z with ipToZone := z.ipToZone.insert addr zone }

def addCIDRZone (z : ZoneResolver) (pfx : Prefix) (zone : String) : ZoneResolver :=
  { z with cidrZones := z.cidrZones ++ [(pfx, zone)] }

/-- Replace the CIDR zones.  The source ranges over a Go map here, so `entries`
is the map's content in whatever order that iteration takes. -/
def setCIDRZones (z : ZoneResolver) (entries : List (Prefix × String)) : ZoneResolver :=
  { z with cidrZones := entries }

end ZoneResolver

/-! ### Regions -/

/-- The scan of `regionFromZone`, on the characters read so far from the end:
`last` tells whether the head is the zone's last character.  The answer is the
part in front of the last dash or of an AWS zone letter, again reversed. -/
def regionScan (last : Bool) : List Char → Option (List Char)
  | [] => none
  | c :: front =>
    if c = '-' then
      if front = [] then none else some front
    else if last ∧ 'a' ≤ c ∧ c ≤ 'z' ∧ front.head?.any Char.isDigit then some front
    else regionScan false front

/-- The region of a zone name: `us-east-1a` to `us-east-1`, `us-central1-a` to
`us-central1`, `eastus-1` to `eastus`. -/
def regionFromZone (zone : String) : String :=
  match regionScan true zone.toList.reverse with
  | some front => String.ofList front.reverse
  | none => zone

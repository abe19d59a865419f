/-
Zones by longest match (`pkg/classifier/zone.go`).

The resolver scans its CIDR zones in slice order, and fills the slice by ranging over a
map.  What a call sequence configures is told here from the calls alone; which of the
configured CIDRs decides depends on the order of the ranging where they overlap.

* `ZoneCalls.Configured`, `ZoneCalls.LongestAt` — what is configured, and the longest
  match;
* `ZoneCalls.MayDecide` — the zones that some order gives;
* `zonesDetermined_iff` — when the longest match is what every order gives.
-/
import Tollwing.History
import Tollwing.ZoneResolver

open History

/-- A call of the resolver. -/
inductive ZoneCall
  | setIPZone (addr : Addr) (zone : String)
  | addLocalIP (addr : Addr)
  | addCIDRZone (pfx : Prefix) (zone : String)
  | setCIDRZones (entries : FinMap Prefix String)

/-! ### What is configured -/

namespace ZoneCall

def ipZone (addr : Addr) : ZoneCall → Option String
  | .setIPZone addr' zone => if addr' = addr then some zone else none
  | _ => none

def map : ZoneCall → Option (FinMap Prefix String)
  | .setCIDRZones entries => some entries
  | _ => none

/-- A map starts the list anew. -/
def reset : ZoneCall → Option (List (Prefix × String))
  | .setCIDRZones _ => some []
  | _ => none

def added : ZoneCall → List (Prefix × String)
  | .addCIDRZone pfx zone => [(pfx, zone)]
  | _ => []

end ZoneCall

namespace ZoneCalls

variable (calls : List ZoneCall) (addr : Addr)

/-- The address is one of the node's own. -/
def Local : Prop := .addLocalIP addr ∈ calls

/-- The zone learned for the address itself. -/
def learned : Option String := lastValue (fun x => (x.ipZone addr).map some) none calls

/-- The map of CIDRs set last. -/
def mapped : FinMap Prefix String := lastValue ZoneCall.map ∅ calls

/-- The CIDRs added since. -/
def added : List (Prefix × String) := sinceReset ZoneCall.reset ZoneCall.added calls

/-- The CIDR is configured with the zone. -/
def Configured (p : Prefix) (zone : String) : Prop :=
  (mapped calls).lookup p = some zone ∨ (p, zone) ∈ added calls

/-- No configured CIDR that contains the address is longer than this one. -/
def LongestAt (p : Prefix) (zone : String) : Prop :=
  Configured calls p zone ∧ p.contains addr = true ∧
    ∀ q zone', Configured calls q zone' → q.contains addr = true → q.bits ≤ p.bits

/-- What the address should resolve to: the local zone, else the zone learned, else that
of a longest CIDR, else nothing. -/
def Answers (localZone zone : String) : Prop :=
  (Local calls addr → zone = localZone) ∧
    (¬Local calls addr → ∀ zone', learned calls addr = some zone' → zone = zone') ∧
    (¬Local calls addr → learned calls addr = none →
      (∃ p, LongestAt calls addr p zone) ∨
        (∀ p zone', Configured calls p zone' → ¬p.contains addr = true) ∧ zone = "")

/-- The zones that decide in some order: those of the map's CIDRs that contain the
address, or without one that of the first such CIDR added since. -/
def MayDecide (zone : String) : Prop :=
  (∃ p, (mapped calls).lookup p = some zone ∧ p.contains addr = true) ∨
    (∀ p zone', (mapped calls).lookup p = some zone' → ¬p.contains addr = true) ∧
      ∃ p, (added calls).find? (fun e => e.1.contains addr) = some (p, zone)

end ZoneCalls

/-! ### A run of calls -/

namespace ZoneResolver

/-- A call, with the order in which it ranges over its map. -/
def call (z : ZoneResolver) (x : ZoneCall × RangeOrder Prefix) : ZoneResolver :=
  match x.1 with
  | .setIPZone addr zone => z.setIPZone addr zone
  | .addLocalIP addr => z.addLocalIP addr
  | .addCIDRZone pfx zone => z.addCIDRZone pfx zone
  | .setCIDRZones entries => z.setCIDRZones (entries.listed x.2)

/-- The resolver of a node in the zone after some calls. -/
def run (localZone : String) (calls : List (ZoneCall × RangeOrder Prefix)) : ZoneResolver :=
  calls.foldl call { new with localZone := localZone }

variable (localZone : String)

theorem run_concat (calls : List (ZoneCall × RangeOrder Prefix))
    (x : ZoneCall × RangeOrder Prefix) :
    run localZone (calls ++ [x]) = (run localZone calls).call x :=
  List.foldl_append

theorem localZone_run (calls : List (ZoneCall × RangeOrder Prefix)) :
    (run localZone calls).localZone = localZone := by
  induction calls using List.reverseRecOn with
  | nil => rfl
  | append_singleton calls x ih =>
    obtain ⟨x, order⟩ := x
    rw [run_concat]
    cases x <;> exact ih

theorem mem_localIPs_run (calls : List (ZoneCall × RangeOrder Prefix)) (addr : Addr) :
    addr ∈ (run localZone calls).localIPs ↔ ZoneCalls.Local (calls.map Prod.fst) addr := by
  induction calls using List.reverseRecOn with
  | nil => exact ⟨fun h => absurd h (Finset.notMem_empty addr), nofun⟩
  | append_singleton calls x ih =>
    obtain ⟨x, order⟩ := x
    have hlocal : ZoneCalls.Local ((calls ++ [(x, order)]).map Prod.fst) addr
        ↔ ZoneCalls.Local (calls.map Prod.fst) addr ∨ x = .addLocalIP addr := by
      rw [ZoneCalls.Local, List.map_append, List.map_singleton, List.mem_append,
        List.mem_singleton, eq_comm (a := x)]
      rfl
    rw [run_concat, hlocal, ← ih]
    cases x with
    | addLocalIP addr' =>
      show addr ∈ insert addr' (run localZone calls).localIPs ↔ _
      rw [Finset.mem_insert, ZoneCall.addLocalIP.injEq, eq_comm, or_comm]
    | _ => exact (or_iff_left nofun).symm

theorem ipToZone_run (calls : List (ZoneCall × RangeOrder Prefix)) (addr : Addr) :
    (run localZone calls).ipToZone.lookup addr
      = ZoneCalls.learned (calls.map Prod.fst) addr := by
  induction calls using List.reverseRecOn with
  | nil => rfl
  | append_singleton calls x ih =>
    obtain ⟨x, order⟩ := x
    rw [run_concat, List.map_append, List.map_singleton, ZoneCalls.learned, lastValue_concat,
      ← ZoneCalls.learned, ← ih]
    cases x with
    | setIPZone addr' zone =>
      show ((run localZone calls).ipToZone.insert addr' zone).lookup addr = _
      rw [FinMap.lookup_insert_ite, ZoneCall.ipZone]
      by_cases h : addr' = addr
      · rw [if_pos h, if_pos h.symm]
        rfl
      · rw [if_neg h, if_neg (Ne.symm h)]
        rfl
    | _ => rfl

/-- The slice after one more call, whichever order the map before was ranged over in. -/
theorem cidrZones_call {calls : List ZoneCall} {z : ZoneResolver} {order : RangeOrder Prefix}
    (h : z.cidrZones = (ZoneCalls.mapped calls).listed order ++ ZoneCalls.added calls)
    (x : ZoneCall) (order' : RangeOrder Prefix) :
    (z.call (x, order')).cidrZones
      = (ZoneCalls.mapped (calls ++ [x])).listed (x.map.elim order fun _ => order')
          ++ ZoneCalls.added (calls ++ [x]) := by
  rw [ZoneCalls.mapped, lastValue_concat, ZoneCalls.added]
  -- a map replaces the slice, an added CIDR goes to its end, the rest leave it
  cases x with
  | setCIDRZones entries =>
    have hreset : (ZoneCall.setCIDRZones entries).reset = some [] := rfl
    rw [sinceReset_concat_reset hreset]
    exact (List.append_nil _).symm
  | addCIDRZone pfx zone =>
    rw [sinceReset_concat_added (by rfl), ← List.append_assoc]
    exact congrArg (· ++ [(pfx, zone)]) h
  | _ =>
    rw [sinceReset_concat_added (by rfl)]
    exact h.trans (congrArg _ (List.append_nil _).symm)

theorem cidrZones_run (calls : List (ZoneCall × RangeOrder Prefix)) :
    ∃ order, (run localZone calls).cidrZones
      = (ZoneCalls.mapped (calls.map Prod.fst)).listed order
          ++ ZoneCalls.added (calls.map Prod.fst) := by
  induction calls using List.reverseRecOn with
  | nil =>
    obtain ⟨order⟩ : Nonempty (RangeOrder Prefix) := RangeOrder.nonempty
    refine ⟨order, ?_⟩
    show [] = (∅ : FinMap Prefix String).listed order ++ []
    rw [FinMap.listed_empty, List.append_nil]
  | append_singleton calls x ih =>
    obtain ⟨order, h⟩ := ih
    rw [run_concat, List.map_append, List.map_singleton]
    exact ⟨_, cidrZones_call h x.1 x.2⟩

/-- Every order is that of a run. -/
theorem exists_run_cidrZones (calls : List ZoneCall) (order : RangeOrder Prefix) :
    ∃ run : List (ZoneCall × RangeOrder Prefix), run.map Prod.fst = calls ∧
      (ZoneResolver.run localZone run).cidrZones
        = (ZoneCalls.mapped calls).listed order ++ ZoneCalls.added calls := by
  refine ⟨calls.map fun x => (x, order), ?_, ?_⟩
  · rw [List.map_map]
    exact List.map_id calls
  · induction calls using List.reverseRecOn with
    | nil =>
      show [] = (∅ : FinMap Prefix String).listed order ++ []
      rw [FinMap.listed_empty, List.append_nil]
    | append_singleton calls x ih =>
      rw [List.map_append, List.map_singleton, run_concat]
      have horder : (x.map.elim order fun _ => order) = order := by
        cases x <;> rfl
      have hcall := cidrZones_call ih x order
      rwa [horder] at hcall

/-- What the resolver makes of an address. -/
theorem resolve_run (calls : List (ZoneCall × RangeOrder Prefix)) (addr : Addr) :
    (run localZone calls).resolve addr =
      if addr ∈ (run localZone calls).localIPs then localZone
      else (ZoneCalls.learned (calls.map Prod.fst) addr).getD
        (((run localZone calls).cidrZones.find? fun e => e.1.contains addr).elim "" Prod.snd) := by
  rw [resolve, localZone_run, ipToZone_run]
  split_ifs
  · rfl
  · cases ZoneCalls.learned (calls.map Prod.fst) addr with
    | some zone => rfl
    | none => cases (run localZone calls).cidrZones.find? fun e => e.1.contains addr <;> rfl

end ZoneResolver

/-! ### Which CIDR decides -/

namespace ZoneCalls

variable {calls : List ZoneCall} {addr : Addr}

/-- Neither is the address one of the node's own nor is a zone learned for it. -/
def Unshielded (calls : List ZoneCall) (addr : Addr) : Prop :=
  ¬Local calls addr ∧ learned calls addr = none

theorem configured_iff_mem {order : RangeOrder Prefix} {p : Prefix} {zone : String} :
    Configured calls p zone ↔ (p, zone) ∈ (mapped calls).listed order ++ added calls := by
  rw [Configured, List.mem_append, FinMap.mem_listed]

/-- The CIDR that the scan stops at may decide. -/
theorem mayDecide_of_find {order : RangeOrder Prefix} {p : Prefix} {zone : String}
    (h : ((mapped calls).listed order ++ added calls).find? (fun e => e.1.contains addr)
      = some (p, zone)) : MayDecide calls addr zone := by
  rw [List.find?_append, Option.or_eq_some_iff] at h
  rcases h with hmapped | ⟨hnone, hadded⟩
  · have hmem := FinMap.mem_listed.mp (List.mem_of_find?_eq_some hmapped)
    exact Or.inl ⟨p, hmem, by simpa using List.find?_some hmapped⟩
  · refine Or.inr ⟨fun q zone' hq => ?_, p, hadded⟩
    exact List.find?_eq_none.mp hnone (q, zone') (FinMap.mem_listed.mpr hq)

/-- A CIDR that may decide does so in some order. -/
theorem MayDecide.exists_find {zone : String} (h : MayDecide calls addr zone) :
    ∃ order p, ((mapped calls).listed order ++ added calls).find? (fun e => e.1.contains addr)
      = some (p, zone) := by
  rcases h with ⟨p, hp, hcontains⟩ | ⟨hnone, p, hp⟩
  · -- range over this CIDR first
    obtain ⟨order, rest, hfirst⟩ := FinMap.exists_listed_cons hp
    refine ⟨order, p, ?_⟩
    rw [hfirst, List.cons_append, List.find?_cons_of_pos]
    exact hcontains
  · -- the map has no match, in any order
    obtain ⟨order⟩ : Nonempty (RangeOrder Prefix) := RangeOrder.nonempty
    refine ⟨order, p, ?_⟩
    have hmapped : ((mapped calls).listed order).find? (fun e => e.1.contains addr) = none := by
      refine List.find?_eq_none.mpr fun e he => ?_
      exact hnone e.1 e.2 (FinMap.mem_listed.mp he)
    rw [List.find?_append, hmapped, Option.none_or, hp]

/-- Without a CIDR that may decide, none contains the address. -/
theorem mayDecide_of_configured {p : Prefix} {zone : String} (h : Configured calls p zone)
    (hcontains : p.contains addr = true) : ∃ zone', MayDecide calls addr zone' := by
  by_cases hmapped : ∃ p zone, (mapped calls).lookup p = some zone ∧ p.contains addr = true
  · obtain ⟨p, zone, hp⟩ := hmapped
    exact ⟨zone, Or.inl ⟨p, hp⟩⟩
  · have hnone : ∀ p zone', (mapped calls).lookup p = some zone' → ¬p.contains addr = true :=
      fun p zone' hp hcontains => hmapped ⟨p, zone', hp, hcontains⟩
    have hadded := h.resolve_left fun hp => hnone p zone hp hcontains
    have hsome : ((added calls).find? fun e => e.1.contains addr).isSome = true :=
      List.find?_isSome.mpr ⟨(p, zone), hadded, hcontains⟩
    obtain ⟨e, he⟩ := Option.isSome_iff_exists.mp hsome
    exact ⟨e.2, Or.inr ⟨hnone, e.1, he⟩⟩

theorem MayDecide.configured {zone : String} (h : MayDecide calls addr zone) :
    ∃ p, Configured calls p zone ∧ p.contains addr = true := by
  rcases h with ⟨p, hp, hcontains⟩ | ⟨-, p, hp⟩
  · exact ⟨p, Or.inl hp, hcontains⟩
  · exact ⟨p, Or.inr (List.mem_of_find?_eq_some hp), by simpa using List.find?_some hp⟩

/-- An unshielded address resolves to a zone that may decide, if there is one. -/
theorem resolve_mayDecide (localZone : String) {run : List (ZoneCall × RangeOrder Prefix)}
    (h : Unshielded (run.map Prod.fst) addr) :
    MayDecide (run.map Prod.fst) addr ((ZoneResolver.run localZone run).resolve addr) ∨
      (∀ zone, ¬MayDecide (run.map Prod.fst) addr zone) ∧
        (ZoneResolver.run localZone run).resolve addr = "" := by
  obtain ⟨order, hzones⟩ := ZoneResolver.cidrZones_run localZone run
  rw [ZoneResolver.resolve_run,
    if_neg (mt (ZoneResolver.mem_localIPs_run localZone run addr).mp h.1), h.2, Option.getD_none,
    hzones]
  cases hfind : ((mapped (run.map Prod.fst)).listed order ++ added (run.map Prod.fst)).find?
      fun e => e.1.contains addr with
  | some e => exact Or.inl (mayDecide_of_find hfind)
  | none =>
    refine Or.inr ⟨fun zone hzone => ?_, rfl⟩
    obtain ⟨p, hp, hcontains⟩ := hzone.configured
    exact List.find?_eq_none.mp hfind (p, zone) (configured_iff_mem.mp hp) hcontains

/-- Every zone that may decide is what some run resolves the address to. -/
theorem MayDecide.exists_run (localZone : String) {zone : String} (h : MayDecide calls addr zone)
    (hshield : Unshielded calls addr) :
    ∃ run : List (ZoneCall × RangeOrder Prefix), run.map Prod.fst = calls ∧
      (ZoneResolver.run localZone run).resolve addr = zone := by
  obtain ⟨order, p, hfind⟩ := h.exists_find
  obtain ⟨run, rfl, hzones⟩ := ZoneResolver.exists_run_cidrZones localZone calls order
  refine ⟨run, rfl, ?_⟩
  rw [ZoneResolver.resolve_run,
    if_neg (mt (ZoneResolver.mem_localIPs_run localZone run addr).mp hshield.1), hshield.2,
    Option.getD_none, hzones, hfind]
  rfl

/-- Every zone that may decide is that of a longest match, and they are one zone. -/
def FirstIsLongest (calls : List ZoneCall) (addr : Addr) : Prop :=
  (∀ zone, MayDecide calls addr zone → ∃ p, LongestAt calls addr p zone) ∧
    ∀ zone zone', MayDecide calls addr zone → MayDecide calls addr zone' → zone = zone'

end ZoneCalls

/-- The address resolves as it should, to one zone in all orders. -/
structure ZonesDetermined (localZone : String) (calls : List ZoneCall) (addr : Addr) : Prop where
  answers : ∀ run : List (ZoneCall × RangeOrder Prefix), run.map Prod.fst = calls →
    ZoneCalls.Answers calls addr localZone ((ZoneResolver.run localZone run).resolve addr)
  order_free : ∀ run run' : List (ZoneCall × RangeOrder Prefix), run.map Prod.fst = calls →
    run'.map Prod.fst = calls → (ZoneResolver.run localZone run).resolve addr
      = (ZoneResolver.run localZone run').resolve addr

namespace ZonesDetermined

open ZoneCalls

variable {localZone : String} {calls : List ZoneCall} {addr : Addr}

/-- All zones that may decide are one. -/
theorem first_unique (h : ZonesDetermined localZone calls addr) (hshield : Unshielded calls addr)
    {zone zone' : String} (hzone : MayDecide calls addr zone)
    (hzone' : MayDecide calls addr zone') : zone = zone' := by
  obtain ⟨run, hrun, rfl⟩ := hzone.exists_run localZone hshield
  obtain ⟨run', hrun', rfl⟩ := hzone'.exists_run localZone hshield
  exact h.order_free run run' hrun hrun'

theorem first_longest (h : ZonesDetermined localZone calls addr) (hshield : Unshielded calls addr)
    {zone : String} (hzone : MayDecide calls addr zone) :
    ∃ p, LongestAt calls addr p zone := by
  obtain ⟨p, hp, hcontains⟩ := hzone.configured
  obtain ⟨run, hrun, rfl⟩ := hzone.exists_run localZone hshield
  rcases (h.answers run hrun).2.2 hshield.1 hshield.2 with hlongest | ⟨hnone, -⟩
  · exact hlongest
  · exact absurd hcontains (hnone p _ hp)

end ZonesDetermined

namespace ZoneCalls

/-- A shielded address resolves to the local zone or the zone learned. -/
theorem answers_of_shielded (localZone : String) {run : List (ZoneCall × RangeOrder Prefix)}
    (h : ¬Unshielded (run.map Prod.fst) addr) :
    Answers (run.map Prod.fst) addr localZone ((ZoneResolver.run localZone run).resolve addr) := by
  have hmem := ZoneResolver.mem_localIPs_run localZone run addr
  rw [ZoneResolver.resolve_run]
  refine ⟨fun hlocal => if_pos (hmem.mpr hlocal), fun hlocal zone' hzone' => ?_,
    fun hlocal hnone => absurd ⟨hlocal, hnone⟩ h⟩
  rw [if_neg (mt hmem.mp hlocal), hzone']
  rfl

/-- This is one zone. -/
theorem Answers.eq_of_shielded {localZone zone zone' : String} (h : ¬Unshielded calls addr)
    (hzone : Answers calls addr localZone zone) (hzone' : Answers calls addr localZone zone') :
    zone = zone' := by
  by_cases hlocal : Local calls addr
  · rw [hzone.1 hlocal, hzone'.1 hlocal]
  · obtain ⟨known, hknown⟩ := Option.ne_none_iff_exists'.mp fun hnone => h ⟨hlocal, hnone⟩
    rw [hzone.2.1 hlocal known hknown, hzone'.2.1 hlocal known hknown]

/-- An unshielded one resolves to the zone of a longest match, if it is all that may
decide. -/
theorem FirstIsLongest.answers (localZone : String)
    {run : List (ZoneCall × RangeOrder Prefix)} (h : FirstIsLongest (run.map Prod.fst) addr)
    (hshield : Unshielded (run.map Prod.fst) addr) :
    Answers (run.map Prod.fst) addr localZone ((ZoneResolver.run localZone run).resolve addr) := by
  refine ⟨fun hlocal => absurd hlocal hshield.1, fun _ zone' hzone' => ?_, fun _ _ => ?_⟩
  · exact absurd (hzone'.symm.trans hshield.2) (Option.some_ne_none zone')
  · rcases resolve_mayDecide localZone hshield with hdecides | ⟨hnone, hempty⟩
    · exact Or.inl (h.1 _ hdecides)
    · refine Or.inr ⟨fun p zone' hp hcontains => ?_, hempty⟩
      obtain ⟨zone, hzone⟩ := mayDecide_of_configured hp hcontains
      exact hnone zone hzone

theorem FirstIsLongest.order_free (localZone : String)
    {run run' : List (ZoneCall × RangeOrder Prefix)} (hrun : run'.map Prod.fst = run.map Prod.fst)
    (h : FirstIsLongest (run.map Prod.fst) addr)
    (hshield : Unshielded (run.map Prod.fst) addr) :
    (ZoneResolver.run localZone run).resolve addr
      = (ZoneResolver.run localZone run').resolve addr := by
  have hother := resolve_mayDecide localZone
    (show Unshielded (run'.map Prod.fst) addr from hrun ▸ hshield)
  rw [hrun] at hother
  rcases resolve_mayDecide localZone hshield with hdecides | ⟨hnone, hempty⟩
  · rcases hother with hdecides' | ⟨hnone, -⟩
    · exact h.2 _ _ hdecides hdecides'
    · exact absurd hdecides (hnone _)
  · rcases hother with hdecides' | ⟨-, hempty'⟩
    · exact absurd hdecides' (hnone _)
    · rw [hempty, hempty']

end ZoneCalls

open ZoneCalls in
/-- **Zones are determined** by the calls exactly if the address is the node's own, or has
a zone of its own, or every CIDR that may come first in the scan (any of the map's, or the
first added after it) has one zone, that of a longest match. -/
theorem zonesDetermined_iff (localZone : String) (calls : List ZoneCall) (addr : Addr) :
    ZonesDetermined localZone calls addr ↔
      (Unshielded calls addr → FirstIsLongest calls addr) := by
  constructor
  · intro h hshield
    exact ⟨fun zone => h.first_longest hshield, fun zone zone' => h.first_unique hshield⟩
  intro hfirst
  by_cases hshield : Unshielded calls addr
  · have hlongest := hfirst hshield
    refine ⟨?_, ?_⟩
    · rintro run rfl
      exact hlongest.answers localZone hshield
    · rintro run run' rfl hrun'
      exact hlongest.order_free localZone hrun' hshield
  · have hanswers : ∀ run : List (ZoneCall × RangeOrder Prefix), run.map Prod.fst = calls →
        Answers calls addr localZone ((ZoneResolver.run localZone run).resolve addr) := by
      rintro run rfl
      exact answers_of_shielded localZone hshield
    refine ⟨hanswers, fun run run' hrun hrun' => ?_⟩
    exact (hanswers run hrun).eq_of_shielded hshield (hanswers run' hrun')

/-- Two subnets, each with its zone. -/
def twoSubnets (p q : Prefix) : FinMap Prefix String :=
  .ofList [(p, "us-east-1a"), (q, "us-east-1b")]

/-- Of a subnet and one inside of it, either may decide. -/
theorem nested_undetermined :
    ¬ZonesDetermined "us-east-1a"
      [.setCIDRZones (twoSubnets (.v4 0x0a000000#32 16) (.v4 0x0a000100#32 24))]
      (.v4 0x0a000105#32) := by
  intro h
  have hzones : "us-east-1a" = "us-east-1b" := by
    refine h.first_unique ⟨fun hlocal => ?_, rfl⟩ (Or.inl ⟨.v4 0x0a000000#32 16, ?_, ?_⟩)
      (Or.inl ⟨.v4 0x0a000100#32 24, ?_, ?_⟩)
    · exact absurd (List.mem_singleton.mp hlocal) nofun
    all_goals decide +kernel
  exact absurd hzones (by decide)

/-
The process cache of the enricher (`pkg/enricher/enricher.go`).

`Lookup` answers from the cache while an entry is fresh, else it reads the process's
files and, when there are too many entries then, deletes the expired ones; `EnrichComm`
caches what it was told of a process that is gone.

* `store_bounded_or_current` — a `Lookup` that leaves too many entries leaves no expired
  one;
* `step_bounded_iff` — one call;
* `cache_within_max_iff` — a run keeps the cache within its maximum exactly when a new
  process at a full cache is always one that `Lookup` reads, and finds an expired entry;
* `enrichComm_exceeds` — a run that does not.
-/
import Mathlib.Data.UInt
import Tollwing.ContainerID
import Tollwing.FinMap
import Tollwing.History

/-! ### Deleting while ranging -/

namespace FinMap

variable {κ ν : Type*} [DecidableEq κ]

/-- A range over the map that deletes the entries with a property. -/
def deleteWhere (order : RangeOrder κ) (p : ν → Bool) (m : FinMap κ ν) : FinMap κ ν :=
  (m.listed order).foldl (fun m' e => if p e.2 then m'.erase e.1 else m') m

variable {order : RangeOrder κ} {p : ν → Bool} {m : FinMap κ ν}

theorem lookup_foldl_deleteWhere {l : List (κ × ν)} {m : FinMap κ ν} {k : κ} {v : ν} :
    (l.foldl (fun m' e => if p e.2 then m'.erase e.1 else m') m).lookup k = some v ↔
      m.lookup k = some v ∧ ∀ w, (k, w) ∈ l → p w = false := by
  induction l generalizing m with
  | nil => exact ⟨fun h => ⟨h, fun w hw => absurd hw List.not_mem_nil⟩, And.left⟩
  | cons e l ih =>
    have hcons : (∀ w, (k, w) ∈ e :: l → p w = false) ↔
        (k = e.1 → p e.2 = false) ∧ ∀ w, (k, w) ∈ l → p w = false := by
      constructor
      · intro h
        exact ⟨fun hk => h e.2 (hk ▸ List.mem_cons_self),
          fun w hw => h w (List.mem_cons_of_mem e hw)⟩
      · rintro ⟨he, hl⟩ w hw
        rcases List.mem_cons.mp hw with rfl | hw
        · exact he rfl
        · exact hl w hw
    rw [List.foldl_cons, ih, hcons, ← and_assoc]
    refine and_congr_left' ?_
    by_cases hp : p e.2 = true
    · rw [if_pos hp, lookup_erase_eq_some, and_comm, hp]
      exact and_congr_right' ⟨fun hne heq => absurd heq hne, fun h heq => Bool.noConfusion (h heq)⟩
    · rw [if_neg hp]
      exact (and_iff_left fun _ => Bool.eq_false_of_not_eq_true hp).symm

/-- What is left are the entries without the property, whatever the order. -/
theorem lookup_deleteWhere_eq_some {k : κ} {v : ν} :
    (m.deleteWhere order p).lookup k = some v ↔ m.lookup k = some v ∧ p v = false := by
  rw [deleteWhere, lookup_foldl_deleteWhere]
  refine and_congr_right fun hk => ?_
  simp only [mem_listed, hk, Option.some.injEq]
  exact ⟨fun h => h v rfl, fun h w hw => hw ▸ h⟩

theorem keys_deleteWhere_subset : (m.deleteWhere order p).keys ⊆ m.keys := by
  intro k hk
  obtain ⟨v, hv⟩ := Option.ne_none_iff_exists'.mp (mem_keys_iff_lookup.mp hk)
  have hold := (lookup_deleteWhere_eq_some.mp hv).1
  exact mem_keys_iff_lookup.mpr (hold ▸ Option.some_ne_none v)

/-- A deletion makes the map smaller exactly when an entry has the property. -/
theorem card_deleteWhere_lt_iff :
    card (m.deleteWhere order p) < card m ↔ ∃ k v, m.lookup k = some v ∧ p v = true := by
  constructor
  · intro hlt
    by_contra hnone
    have hsame : m.deleteWhere order p = m := by
      refine Finmap.ext_lookup fun k => Option.ext fun v => ?_
      rw [lookup_deleteWhere_eq_some]
      refine and_iff_left_of_imp fun hk => ?_
      exact Bool.eq_false_of_not_eq_true fun hp => hnone ⟨k, v, hk, hp⟩
    exact absurd hlt (by rw [hsame]; exact lt_irrefl _)
  · rintro ⟨k, v, hk, hp⟩
    refine Finset.card_lt_card ((Finset.ssubset_iff_of_subset keys_deleteWhere_subset).mpr ?_)
    refine ⟨k, mem_keys_iff_lookup.mpr (hk ▸ Option.some_ne_none v), fun hmem => ?_⟩
    obtain ⟨w, hw⟩ := Option.ne_none_iff_exists'.mp (mem_keys_iff_lookup.mp hmem)
    obtain ⟨hold, hnot⟩ := lookup_deleteWhere_eq_some.mp hw
    rw [← Option.some.inj (hk.symm.trans hold), hp] at hnot
    exact Bool.false_ne_true hnot.symm

end FinMap

namespace Enricher

/-! ### What is read of a process -/

/-- What the process files hold: the contents of a path, if it can be read. -/
abbrev ProcFS := List Char → Option (List Char)

/-- `unicode.IsSpace`. -/
def isSpace (c : Char) : Bool :=
  ['\t', '\n', '\x0b', '\x0c', '\r', ' ', '\u0085', '\u00a0', '\u1680', '\u2028', '\u2029',
    '\u202f', '\u205f', '\u3000'].contains c || ('\u2000' ≤ c && c ≤ '\u200a')

/-- `strings.TrimSpace`. -/
def trimSpace (s : List Char) : List Char := (s.dropWhile isSpace).rdropWhile isSpace

/-- `strings.TrimRight` of zero bytes. -/
def trimZeros (s : List Char) : List Char := s.rdropWhile (· = '\x00')

/-- The lines `bufio.Scanner` reads: it stops at one that does not fit its buffer. -/
def scanLines (s : List Char) : List (List Char) :=
  let lines := s.splitOn '\n'
  let lines := if lines.getLast? = some [] then lines.dropLast else lines
  (lines.takeWhile fun line => (String.ofList line).utf8ByteSize < 64 * 1024).map
    (Cgroup.trimSuffix ['\r'])

structure ProcessInfo where
  pid : UInt32
  comm : List Char
  cmdline : List Char
  containerID : Option (List Char)
  cgroupPath : List Char
  cachedAt : ℤ
  deriving DecidableEq

structure Config where
  cacheTTL : ℤ
  maxCacheSize : ℤ
  procRoot : List Char

def Config.setDefaults (c : Config) : Config where
  cacheTTL := if c.cacheTTL = 0 then 30 * 10 ^ 9 else c.cacheTTL
  maxCacheSize := if c.maxCacheSize = 0 then 16384 else c.maxCacheSize
  procRoot := if c.procRoot = [] then "/proc".toList else c.procRoot

/-- The directory of a process. -/
def Config.base (c : Config) (pid : UInt32) : List Char :=
  c.procRoot ++ '/' :: (Nat.repr pid.toNat).toList

/-- `resolve`: a process whose name cannot be read is gone. -/
def Config.resolve (c : Config) (fs : ProcFS) (pid : UInt32) (now : ℤ) : Option ProcessInfo :=
  (fs (c.base pid ++ "/comm".toList)).map fun comm =>
    let cmdline := (fs (c.base pid ++ "/cmdline".toList)).elim [] fun data =>
      List.intercalate [' '] ((trimZeros data).splitOn '\x00')
    let cgroup := (fs (c.base pid ++ "/cgroup".toList)).elim ([], none) fun data =>
      Cgroup.readCgroup [] (scanLines data)
    { pid := pid
      comm := trimSpace comm
      cmdline := cmdline
      containerID := cgroup.2
      cgroupPath := cgroup.1
      cachedAt := now }

end Enricher

/-! ### The cache -/

structure Enricher where
  cfg : Enricher.Config
  cache : FinMap UInt32 Enricher.ProcessInfo

namespace Enricher

def new (cfg : Config) : Enricher := ⟨cfg.setDefaults, ∅⟩

/-- `time.Time.Sub`, which stops at the limits of a `time.Duration`. -/
def sub (now t : ℤ) : ℤ := max (-2 ^ 63) (min (2 ^ 63 - 1) (now - t))

/-- The clock as one call reads it: at the fresh check, before the files, at the
deletion, and for the entry of a process that is gone. -/
structure Clock where
  checked : ℤ
  resolved : ℤ
  swept : ℤ
  noted : ℤ

/-- An entry that a deletion at this time removes. -/
def Config.expired (c : Config) (now : ℤ) (info : ProcessInfo) : Bool :=
  decide (c.cacheTTL < sub now info.cachedAt)

/-- The entry that answers without a look at the process. -/
def fresh (e : Enricher) (pid : UInt32) (now : ℤ) : Option ProcessInfo :=
  (e.cache.lookup pid).filter fun info => sub now info.cachedAt < e.cfg.cacheTTL

section
variable (order : RangeOrder UInt32)

/-- What `Lookup` does with what it read of a process. -/
def store (e : Enricher) (pid : UInt32) (info : ProcessInfo) (now : ℤ) : Enricher :=
  let cache := e.cache.insert pid info
  { e with
    cache :=
      if e.cfg.maxCacheSize < FinMap.card cache then
        FinMap.deleteWhere order (e.cfg.expired now) cache
      else cache }

def lookup (e : Enricher) (pid : UInt32) (t : Clock) (fs : ProcFS) :
    Option ProcessInfo × Enricher :=
  match e.fresh pid t.checked with
  | some info => (some info, e)
  | none =>
    match e.cfg.resolve fs pid t.resolved with
    | none => (none, e)
    | some info => (some info, store order e pid info t.swept)

def evict (e : Enricher) (pid : UInt32) : Enricher := { e with cache := e.cache.erase pid }

def enrichComm (e : Enricher) (pid : UInt32) (bpfComm : List Char) (t : Clock) (fs : ProcFS) :
    ProcessInfo × Enricher :=
  match lookup order e pid t fs with
  | (some info, e') => (info, e')
  | (none, e') =>
    let info : ProcessInfo :=
      { pid := pid
        comm := trimZeros bpfComm
        cmdline := []
        containerID := none
        cgroupPath := []
        cachedAt := t.noted }
    (info, { e' with cache := e'.cache.insert pid info })

/-- A call, with the clock and the files it finds. -/
inductive Call
  | lookup (pid : UInt32) (t : Clock) (fs : ProcFS)
  | enrichComm (pid : UInt32) (bpfComm : List Char) (t : Clock) (fs : ProcFS)
  | evict (pid : UInt32)

def step (e : Enricher) : Call → Enricher
  | .lookup pid t fs => (lookup order e pid t fs).2
  | .enrichComm pid bpfComm t fs => (enrichComm order e pid bpfComm t fs).2
  | .evict pid => e.evict pid

def run (cfg : Config) (calls : List Call) : Enricher := calls.foldl (step order) (new cfg)

end

/-- The cache holds no more than its maximum. -/
def Bounded (e : Enricher) : Prop := (FinMap.card e.cache : ℤ) ≤ e.cfg.maxCacheSize

instance (e : Enricher) : Decidable e.Bounded := inferInstanceAs (Decidable (_ ≤ _))

/-! ### When a call keeps the bound -/

/-- The process is cached, or there is room for it. -/
def Room (e : Enricher) (pid : UInt32) : Prop :=
  pid ∈ e.cache ∨ (FinMap.card e.cache : ℤ) < e.cfg.maxCacheSize

/-- An entry has expired. -/
def Stale (e : Enricher) (now : ℤ) : Prop :=
  ∃ k v, e.cache.lookup k = some v ∧ e.cfg.expired now v = true

/-- The process is there: its name can be read. -/
def Alive (e : Enricher) (pid : UInt32) (fs : ProcFS) : Prop :=
  fs (e.cfg.base pid ++ "/comm".toList) ≠ none

/-- An entry of its reading has expired by the deletion: the clock went on for so long. -/
def Late (e : Enricher) (t : Clock) : Prop := e.cfg.cacheTTL < sub t.swept t.resolved

/-- A process that `Lookup` reads finds room, or an entry that is deleted for it. -/
def LookupFits (e : Enricher) (pid : UInt32) (t : Clock) (fs : ProcFS) : Prop :=
  e.fresh pid t.checked = none → e.Alive pid fs → e.Room pid ∨ e.Stale t.swept ∨ e.Late t

/-- A call at which the bound is kept: beside that, a process that is gone finds room. -/
def Fits (e : Enricher) : Call → Prop
  | .lookup pid t fs => e.LookupFits pid t fs
  | .enrichComm pid _ t fs =>
    e.LookupFits pid t fs ∧ (e.fresh pid t.checked = none → ¬ e.Alive pid fs → e.Room pid)
  | .evict _ => True

variable {order : RangeOrder UInt32} {e : Enricher} {pid : UInt32}

theorem insert_bounded_iff (h : e.Bounded) (info : ProcessInfo) :
    Bounded { e with cache := e.cache.insert pid info } ↔ e.Room pid := by
  have hle : (FinMap.card e.cache : ℤ) ≤ e.cfg.maxCacheSize := h
  rw [Bounded, Room]
  by_cases hmem : pid ∈ e.cache
  · rw [FinMap.card_insert_of_mem hmem]
    exact iff_of_true h (Or.inl hmem)
  · rw [FinMap.card_insert_of_notMem hmem, or_iff_right hmem]
    push_cast
    omega

theorem store_bounded_iff (h : e.Bounded) (info : ProcessInfo) (now : ℤ) :
    (store order e pid info now).Bounded ↔
      e.Room pid ∨ e.Stale now ∨ e.cfg.expired now info = true := by
  have hinsert : Bounded { e with cache := e.cache.insert pid info } ↔ e.Room pid :=
    insert_bounded_iff h info
  by_cases hroom : e.Room pid
  · -- nothing is deleted
    have hfits : (FinMap.card (e.cache.insert pid info) : ℤ) ≤ e.cfg.maxCacheSize :=
      hinsert.mpr hroom
    rw [Bounded, store, if_neg (not_lt.mpr hfits)]
    exact iff_of_true hfits (Or.inl hroom)
  · have hfull : e.cfg.maxCacheSize < (FinMap.card (e.cache.insert pid info) : ℤ) :=
      not_le.mp (mt hinsert.mp hroom)
    rw [Room, not_or, not_lt] at hroom
    have hcard := FinMap.card_insert_of_notMem hroom.1 info
    have hle : (FinMap.card e.cache : ℤ) ≤ e.cfg.maxCacheSize := h
    have hlt : (store order e pid info now).Bounded ↔
        FinMap.card (FinMap.deleteWhere order (e.cfg.expired now) (e.cache.insert pid info))
          < FinMap.card (e.cache.insert pid info) := by
      rw [Bounded, store, if_pos hfull]
      show (FinMap.card (FinMap.deleteWhere order _ _) : ℤ) ≤ e.cfg.maxCacheSize ↔ _
      omega
    have hnew : ¬ (pid ∈ e.cache ∨ (FinMap.card e.cache : ℤ) < e.cfg.maxCacheSize) := by
      rw [not_or, not_lt]
      exact hroom
    rw [hlt, FinMap.card_deleteWhere_lt_iff, Room, or_iff_right hnew, Stale]
    constructor
    · rintro ⟨k, v, hk, hv⟩
      rcases FinMap.lookup_insert_eq_some.mp hk with ⟨-, rfl⟩ | ⟨-, hold⟩
      · exact Or.inr hv
      · exact Or.inl ⟨k, v, hold, hv⟩
    · rintro (⟨k, v, hk, hv⟩ | hv)
      · have hne : k ≠ pid := by
          rintro rfl
          exact hroom.1 (Finmap.mem_of_lookup_eq_some hk)
        exact ⟨k, v, FinMap.lookup_insert_eq_some.mpr (Or.inr ⟨hne, hk⟩), hv⟩
      · exact ⟨pid, info, Finmap.lookup_insert e.cache, hv⟩

/-- What the deletion does ensure: with too many entries, none of them has expired. -/
theorem store_bounded_or_current (e : Enricher) (pid : UInt32) (info : ProcessInfo) (now : ℤ) :
    (store order e pid info now).Bounded ∨ ¬ (store order e pid info now).Stale now := by
  by_cases hfull : e.cfg.maxCacheSize < (FinMap.card (e.cache.insert pid info) : ℤ)
  · right
    rintro ⟨k, v, hk, hv⟩
    rw [store, if_pos hfull] at hk
    rw [store] at hv
    exact Bool.false_ne_true ((FinMap.lookup_deleteWhere_eq_some.mp hk).2.symm.trans hv)
  · left
    rw [Bounded, store, if_neg hfull]
    exact not_lt.mp hfull

/-! ### The calls -/

variable {t : Clock} {fs : ProcFS}

theorem lookup_of_fresh {info : ProcessInfo} (h : e.fresh pid t.checked = some info) :
    lookup order e pid t fs = (some info, e) := by
  rw [lookup, h]

theorem lookup_of_gone (hstale : e.fresh pid t.checked = none) (hgone : ¬ e.Alive pid fs) :
    lookup order e pid t fs = (none, e) := by
  have hnone : e.cfg.resolve fs pid t.resolved = none := by
    rw [Config.resolve, not_not.mp hgone]
    rfl
  rw [lookup, hstale, hnone]

theorem lookup_of_alive (order : RangeOrder UInt32) (hstale : e.fresh pid t.checked = none)
    (halive : e.Alive pid fs) :
    ∃ info, info.cachedAt = t.resolved ∧
      lookup order e pid t fs = (some info, store order e pid info t.swept) := by
  obtain ⟨comm, hcomm⟩ := Option.ne_none_iff_exists'.mp halive
  have hsome : ∃ info, e.cfg.resolve fs pid t.resolved = some info ∧
      info.cachedAt = t.resolved := by
    rw [Config.resolve, hcomm]
    exact ⟨_, rfl, rfl⟩
  obtain ⟨info, hresolve, hat⟩ := hsome
  refine ⟨info, hat, ?_⟩
  rw [lookup, hstale, hresolve]

theorem lookup_bounded_iff (h : e.Bounded) :
    (lookup order e pid t fs).2.Bounded ↔ e.LookupFits pid t fs := by
  cases hfresh : e.fresh pid t.checked with
  | some info =>
    rw [lookup_of_fresh hfresh]
    refine iff_of_true h fun hnone => ?_
    exact absurd (hnone.symm.trans hfresh) (Option.some_ne_none info).symm
  | none =>
    by_cases halive : e.Alive pid fs
    · obtain ⟨info, hat, hlookup⟩ := lookup_of_alive order hfresh halive
      rw [hlookup, store_bounded_iff h, Config.expired, hat, decide_eq_true_iff]
      exact ⟨fun hor _ _ => hor, fun hfits => hfits hfresh halive⟩
    · rw [lookup_of_gone hfresh halive]
      exact iff_of_true h fun _ hyes => absurd hyes halive

theorem enrichComm_bounded_iff (h : e.Bounded) (bpfComm : List Char) :
    (enrichComm order e pid bpfComm t fs).2.Bounded ↔ e.Fits (.enrichComm pid bpfComm t fs) := by
  have hlookup : (lookup order e pid t fs).2.Bounded ↔ e.LookupFits pid t fs :=
    lookup_bounded_iff h
  by_cases hgone : e.fresh pid t.checked = none ∧ ¬ e.Alive pid fs
  · -- the entry of a process that is gone goes in without a deletion
    obtain ⟨hstale, hgone⟩ := hgone
    rw [enrichComm, lookup_of_gone hstale hgone]
    refine (insert_bounded_iff h _).trans ?_
    exact ⟨fun hroom => ⟨fun _ halive => absurd halive hgone, fun _ _ => hroom⟩,
      fun hfits => hfits.2 hstale hgone⟩
  · have hsame : (enrichComm order e pid bpfComm t fs).2 = (lookup order e pid t fs).2 := by
      cases hfresh : e.fresh pid t.checked with
      | some info => rw [enrichComm, lookup_of_fresh hfresh]
      | none =>
        have halive : e.Alive pid fs := by
          by_contra hnot
          exact hgone ⟨hfresh, hnot⟩
        obtain ⟨info, -, hl⟩ := lookup_of_alive order hfresh halive
        rw [enrichComm, hl]
    rw [hsame, hlookup]
    exact (and_iff_left fun hstale hnot => absurd ⟨hstale, hnot⟩ hgone).symm

/-- **One call** keeps the bound exactly when it fits. -/
theorem step_bounded_iff (h : e.Bounded) (call : Call) :
    (step order e call).Bounded ↔ e.Fits call := by
  cases call with
  | lookup pid t fs => exact lookup_bounded_iff h
  | enrichComm pid bpfComm t fs => exact enrichComm_bounded_iff h bpfComm
  | evict pid =>
    have hle := FinMap.card_erase_le e.cache pid
    refine iff_of_true ?_ trivial
    exact (Int.ofNat_le.mpr hle).trans h

/-- **A run** keeps the cache within its maximum exactly when every call of it fits. -/
theorem cache_within_max_iff (order : RangeOrder UInt32) (cfg : Config) (calls : List Call) :
    (∀ m, (run order cfg (calls.take m)).Bounded) ↔
      0 ≤ cfg.setDefaults.maxCacheSize ∧ History.Along (step order) Fits (new cfg) calls := by
  have hnew : (new cfg).Bounded ↔ 0 ≤ cfg.setDefaults.maxCacheSize := by
    rw [Bounded]
    rfl
  have hstep : ∀ e call, Bounded e → ((step order e call).Bounded ↔ e.Fits call) :=
    fun _ call h => step_bounded_iff h call
  have hrun : (new cfg).Bounded → ((∀ m, (run order cfg (calls.take m)).Bounded) ↔
      History.Along (step order) Fits (new cfg) calls) :=
    fun h => History.forall_take_iff_of_state hstep h calls
  constructor
  · intro hkept
    have hfirst : (new cfg).Bounded := hkept 0
    exact ⟨hnew.mp hfirst, (hrun hfirst).mp hkept⟩
  · rintro ⟨hmax, halong⟩
    exact (hrun (hnew.mpr hmax)).mpr halong

/-- Ascending process IDs. -/
def ascendingPIDs : RangeOrder UInt32 :=
  @RangeOrder.ascending UInt32 (LinearOrder.lift' UInt32.toNat fun _ _ h => UInt32.toNat.inj h)

/-- Two processes that are gone before they are read, an hour apart, and both are kept:
the first has long expired, but nothing deletes it. -/
theorem enrichComm_exceeds :
    ¬ (run ascendingPIDs ⟨30 * 10 ^ 9, 1, []⟩
        [.enrichComm 7 "curl".toList ⟨0, 0, 0, 0⟩ (fun _ => none),
          .enrichComm 8 "curl".toList
            ⟨3600 * 10 ^ 9, 3600 * 10 ^ 9, 3600 * 10 ^ 9, 3600 * 10 ^ 9⟩
            (fun _ => none)]).Bounded := by
  decide +kernel

end Enricher

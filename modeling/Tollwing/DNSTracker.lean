/-
The DNS tracker (`pkg/dns/tracker.go`, `service_mapper.go`).

`cacheInsert` caches the domain an address was resolved from, evicts by a ring
of the addresses inserted, and counts the domain.  A ring has a slot at least:
without one the first insert would index out of range.  Clocks and the order in
which the counters are ranged over are arguments.
-/
import Mathlib.Data.UInt
import Tollwing.NetAddr
import Tollwing.SlotRing
import Tollwing.FinMap

/-! ### Cloud services -/

/-- `mappingRule`. -/
structure MappingRule where
  suffix : String
  service : String
  deriving DecidableEq, Repr

structure ServiceMapper where
  rules : List MappingRule

/-- The bytes of a string. -/
def utf8 (s : String) : List UInt8 := s.toUTF8.data.toList

def awsTail : List UInt8 := utf8 ".amazonaws.com"

/-- Whether a domain in lower case has the suffix of a rule, or is the suffix without its
first byte. -/
def MappingRule.exact (rule : MappingRule) (lower : List UInt8) : Bool :=
  (utf8 rule.suffix).isSuffixOf lower || lower == (utf8 rule.suffix).drop 1

/-- Whether a domain in lower case is a regional endpoint of the service of a rule. -/
def MappingRule.regional (rule : MappingRule) (lower : List UInt8) : Bool :=
  let suffix := utf8 rule.suffix
  let token := (suffix.drop 1).take (suffix.length - awsTail.length - 1)
  awsTail.isSuffixOf lower && awsTail.isSuffixOf suffix && !token.isEmpty
    && (token ++ utf8 ".").isPrefixOf lower

/-- Whether a rule matches a domain in lower case. -/
def MappingRule.hits (rule : MappingRule) (lower : List UInt8) : Bool :=
  rule.exact lower || rule.regional lower

/-- The loop of `Lookup`: the service of the first rule that matches. -/
def ServiceMapper.lookupLower (m : ServiceMapper) (lower : List UInt8) : String :=
  ((m.rules.find? fun rule => rule.hits lower).map MappingRule.service).getD ""

/-- `Lookup`. -/
def ServiceMapper.lookup (m : ServiceMapper) (domain : String) : String :=
  m.lookupLower (utf8 domain.toLower)

/-! ### The tracker -/

/-- `Config`; durations are nanoseconds. -/
structure DNSConfig where
  minTTL : ℤ
  maxTTL : ℤ
  deriving DecidableEq, Repr

def DNSConfig.setDefaults (c : DNSConfig) : DNSConfig :=
  { minTTL := if c.minTTL = 0 then 30 * 10 ^ 9 else c.minTTL
    maxTTL := if c.maxTTL = 0 then 60 * 60 * 10 ^ 9 else c.maxTTL }

/-- `cacheEntry`. -/
structure DNSEntry where
  domain : String
  service : String
  expiresAt : ℤ
  deriving DecidableEq, Repr

structure DNSTracker where
  cfg : DNSConfig
  cache : FinMap Addr DNSEntry
  ring : SlotRing Addr
  serviceMapper : ServiceMapper
  queryCounts : FinMap String UInt64

/-- `DNSInfo`. -/
structure DNSInfo where
  domain : String := ""
  service : String := ""
  deriving DecidableEq, Repr

/-- The arguments of a `cacheInsert`, the clock and the order in which the
counters are ranged over if one has to go. -/
structure DNSInsert where
  addr : Addr
  domain : String
  ttl : ℤ
  now : ℤ
  order : RangeOrder String

/-- Whether the insert does anything. -/
def DNSInsert.isValid (x : DNSInsert) : Bool := x.addr.isValid && x.domain != ""

namespace DNSTracker

def maxCacheEntries : ℕ := 65536

def maxQueryCounters : ℕ := 4096

/-- A tracker with a ring of `n` slots; `New` takes `maxCacheEntries`. -/
def new (cfg : DNSConfig) (mapper : ServiceMapper) (n : ℕ) (h : 0 < n) : DNSTracker :=
  { cfg := cfg.setDefaults
    cache := ∅
    ring := .new .zero n h
    serviceMapper := mapper
    queryCounts := ∅ }

/-- `Lookup`, at time `now`. -/
def lookup (t : DNSTracker) (now : ℤ) (ip : Addr) : DNSInfo :=
  match t.cache.lookup ip with
  | none => {}
  | some entry =>
    if entry.expiresAt < now then {}
    else ⟨entry.domain, if entry.service = "" then entry.domain else entry.service⟩

/-- `LookupIP`. -/
def lookupIP (t : DNSTracker) (now : ℤ) (ip : Addr) : String := (t.lookup now ip).domain

/-- `LookupService`. -/
def lookupService (t : DNSTracker) (now : ℤ) (ip : Addr) : String := (t.lookup now ip).service

/-- The time to live, clamped. -/
def clampTTL (t : DNSTracker) (ttl : ℤ) : ℤ :=
  let ttl := if ttl < t.cfg.minTTL then t.cfg.minTTL else ttl
  if t.cfg.maxTTL < ttl then t.cfg.maxTTL else ttl

/-- `evictLowestCountLocked`: the first domain in range order with the fewest
observations goes. -/
def evictLowestCount (counts : FinMap String UInt64) (order : RangeOrder String) :
    FinMap String UInt64 :=
  let victim := (order.keys counts.keys).foldl
    (fun (victim : String × UInt64) k =>
      let v := (counts.lookup k).getD 0
      if v < victim.2 then (k, v) else victim) ("", ~~~0)
  if victim.1 ≠ "" then counts.erase victim.1 else counts

/-- Count a domain. -/
def countQuery (counts : FinMap String UInt64) (domain : String) (order : RangeOrder String) :
    FinMap String UInt64 :=
  let counts := counts.insert domain ((counts.lookup domain).getD 0 + 1)
  if maxQueryCounters < FinMap.card counts then evictLowestCount counts order else counts

/-- The cache after an entry is written and, if there are more than slots, the
address in the oldest slot has gone. -/
def cacheWith (t : DNSTracker) (addr : Addr) (entry : DNSEntry) : FinMap Addr DNSEntry :=
  let cache := t.cache.insert addr entry
  if t.ring.size < FinMap.card cache then
    if t.ring.oldest.isValid then cache.erase t.ring.oldest else cache
  else cache

/-- `cacheInsert`. -/
def cacheInsert (t : DNSTracker) (x : DNSInsert) : DNSTracker :=
  if !x.isValid then t
  else
    let entry := ⟨x.domain, t.serviceMapper.lookup x.domain, x.now + t.clampTTL x.ttl⟩
    { t with
      cache := t.cacheWith x.addr entry
      -- the slot is taken for a refresh as well
      ring := t.ring.push x.addr
      queryCounts := countQuery t.queryCounts x.domain x.order }

/-- `ResetQueryCounts`. -/
def resetQueryCounts (t : DNSTracker) : DNSTracker := { t with queryCounts := ∅ }

end DNSTracker

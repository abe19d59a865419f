/-
Usage types of the bill (`pkg/cloud/aws/cur.go`, `pkg/cost/reconcile.go`).

The filter of the cost report looks for keywords in any letter case and in several
spellings; the reconciler maps a usage type to a traffic type by keywords as they are
written.

* `isNetworkUsageType` — the filter;
* `Meter.NamedBy` — a usage type names a meter, in a spelling of the filter;
* `meters_agree_iff` — when the reconciler maps it to this meter's type.
-/
import Tollwing.Reconcile

/-! ### Text -/

namespace Strings

theorem contains_iff {s sub : String} : contains s sub = true ↔ sub.toList <:+: s.toList :=
  hasInfix_iff

/-- What holds some text holds its parts. -/
theorem contains_trans {s sub part : String} (h : contains s sub = true)
    (hpart : contains sub part = true) : contains s part = true :=
  contains_iff.mpr ((contains_iff.mp hpart).trans (contains_iff.mp h))

/-- The small letter of a character, as far as ASCII text can tell: of the letters beyond
ASCII the dotted capital i and the Kelvin sign have a small letter in ASCII, and the
others stay beyond it. -/
def lowerChar (c : Char) : Char :=
  if c = Char.ofNat 0x130 then 'i' else if c = Char.ofNat 0x212a then 'k' else c.toLower

/-- `strings.ToLower`. -/
def toLower (s : String) : String := String.ofList (s.toList.map lowerChar)

theorem contains_toLower {s sub : String} (h : contains s sub = true) :
    contains (toLower s) (toLower sub) = true := by
  rw [contains_iff, toLower, toLower, String.toList_ofList, String.toList_ofList]
  exact (contains_iff.mp h).map lowerChar

end Strings

/-! ### The filter -/

/-- The keywords of `isNetworkUsageType`. -/
def networkKeywords : List String :=
  ["datatransfer", "data-transfer",
    -- covers the meters that end in it
    "bytes",
    "natgateway", "nat-gateway", "vpcpeering", "transitgateway", "transit-gateway", "vpn"]

/-- The usage types that the cost report keeps. -/
def isNetworkUsageType (usageType : String) : Bool :=
  if usageType = "" then false
  else networkKeywords.any fun kw => Strings.contains (Strings.toLower usageType) kw

/-! ### Meters -/

/-- The meters that have a type of their own. -/
inductive Meter
  | regionalTransfer
  | outboundTransfer
  | inboundTransfer
  | natGateway
  | transitGateway
  | vpcPeering
  deriving DecidableEq

namespace Meter

/-- The meters in the order of the reconciler's switch. -/
def all : List Meter :=
  [regionalTransfer, outboundTransfer, inboundTransfer, natGateway, transitGateway, vpcPeering]

/-- The keyword of the reconciler. -/
def keyword : Meter → String
  | regionalTransfer => "DataTransfer-Regional"
  | outboundTransfer => "DataTransfer-Out"
  | inboundTransfer => "DataTransfer-In"
  | natGateway => "NatGateway"
  | transitGateway => "TransitGateway"
  | vpcPeering => "VPCPeering"

/-- The spellings of the filter. -/
def spellings : Meter → List String
  | regionalTransfer => ["datatransfer-regional", "data-transfer-regional"]
  | outboundTransfer => ["datatransfer-out", "data-transfer-out"]
  | inboundTransfer => ["datatransfer-in", "data-transfer-in"]
  | natGateway => ["natgateway", "nat-gateway"]
  | transitGateway => ["transitgateway", "transit-gateway"]
  | vpcPeering => ["vpcpeering"]

/-- The meter's traffic type. -/
def type : Meter → String
  | regionalTransfer => TrafficType.crossAZ.string
  | outboundTransfer => TrafficType.internetEgress.string
  | inboundTransfer => "internet_ingress"
  | natGateway => TrafficType.natGatewayEgress.string
  | transitGateway => TrafficType.transitGateway.string
  | vpcPeering => TrafficType.vpcPeering.string

/-- The usage type names the meter, in any letter case. -/
def NamedBy (usageType : String) (m : Meter) : Prop :=
  ∃ spelling ∈ m.spellings, Strings.contains (Strings.toLower usageType) spelling = true

theorem mem_all (m : Meter) : m ∈ all := by
  cases m <;> decide

theorem type_injective {m m' : Meter} (h : m.type = m'.type) : m = m' := by
  revert h
  cases m <;> cases m' <;> decide

theorem type_ne_unknown (m : Meter) : m.type ≠ TrafficType.unknown.string := by
  cases m <;> decide

/-- The reconciler's keyword is one of the spellings. -/
theorem namedBy_of_keyword {usageType : String} {m : Meter}
    (h : Strings.contains usageType m.keyword = true) : m.NamedBy usageType := by
  refine ⟨Strings.toLower m.keyword, ?_, Strings.contains_toLower h⟩
  cases m <;> decide +kernel

/-- The filter keeps what names a meter. -/
theorem isNetworkUsageType_of_namedBy {usageType : String} {m : Meter} (h : m.NamedBy usageType) :
    isNetworkUsageType usageType = true := by
  obtain ⟨spelling, hspelling, hcontains⟩ := h
  have hkeyword : ∀ m : Meter, ∀ spelling ∈ m.spellings,
      ∃ kw ∈ networkKeywords, Strings.contains spelling kw = true := by
    intro m
    cases m <;> decide +kernel
  obtain ⟨kw, hkw, hpart⟩ := hkeyword m spelling hspelling
  have hne : usageType ≠ "" := by
    rintro rfl
    have hnone : ∀ m : Meter, ∀ spelling ∈ m.spellings,
        Strings.contains (Strings.toLower "") spelling = false := by
      intro m
      cases m <;> decide +kernel
    exact Bool.false_ne_true ((hnone m spelling hspelling).symm.trans hcontains)
  rw [isNetworkUsageType, if_neg hne]
  exact List.any_eq_true.mpr ⟨kw, hkw, Strings.contains_trans hcontains hpart⟩

/-- The reconciler's switch takes the first keyword. -/
theorem mapUsageType_eq (usageType : String) : mapUsageType usageType
    = (all.find? fun m => Strings.contains usageType m.keyword).elim TrafficType.unknown.string
        type := by
  rw [mapUsageType]
  split_ifs <;> simp [all, keyword, type, *]

theorem exists_of_mapUsageType {usageType : String}
    (h : mapUsageType usageType ≠ TrafficType.unknown.string) :
    ∃ m : Meter, mapUsageType usageType = m.type ∧
      Strings.contains usageType m.keyword = true := by
  rw [mapUsageType_eq] at h ⊢
  cases hfind : all.find? fun m => Strings.contains usageType m.keyword with
  | none =>
    rw [hfind] at h
    exact absurd rfl h
  | some m => exact ⟨m, rfl, by simpa using List.find?_some hfind⟩

end Meter

/-! ### Agreement -/

/-- The reconciler maps the usage type to the type of every meter it names, and what it
maps to a type is kept by the filter. -/
structure MetersAgree (usageType : String) : Prop where
  mapped : ∀ m : Meter, m.NamedBy usageType → isNetworkUsageType usageType = true →
    mapUsageType usageType = m.type
  retained : mapUsageType usageType ≠ TrafficType.unknown.string →
    isNetworkUsageType usageType = true

open Meter in
/-- **Filter and reconciler agree** on a usage type exactly if it names at most one meter,
and this one in the reconciler's spelling. -/
theorem meters_agree_iff (usageType : String) :
    MetersAgree usageType ↔
      (∀ m m' : Meter, m.NamedBy usageType → m'.NamedBy usageType → m = m') ∧
        ∀ m : Meter, m.NamedBy usageType → Strings.contains usageType m.keyword = true := by
  constructor
  · intro h
    have hmapped (m : Meter) (hm : m.NamedBy usageType) : mapUsageType usageType = m.type :=
      h.mapped m hm (isNetworkUsageType_of_namedBy hm)
    refine ⟨fun m m' hm hm' => ?_, fun m hm => ?_⟩
    · exact type_injective ((hmapped m hm).symm.trans (hmapped m' hm'))
    · -- the reconciler found a keyword, and by the type it is this meter's
      have hne : mapUsageType usageType ≠ TrafficType.unknown.string :=
        hmapped m hm ▸ type_ne_unknown m
      obtain ⟨m', htype, hkeyword⟩ := exists_of_mapUsageType hne
      rwa [type_injective ((hmapped m hm).symm.trans htype)]
  · rintro ⟨hunique, hspelled⟩
    constructor
    · intro m hm _
      have hfound : mapUsageType usageType ≠ TrafficType.unknown.string := by
        rw [mapUsageType_eq]
        have hsome : (all.find? fun m => Strings.contains usageType m.keyword).isSome = true :=
          List.find?_isSome.mpr ⟨m, mem_all m, hspelled m hm⟩
        obtain ⟨first, hfirst⟩ := Option.isSome_iff_exists.mp hsome
        rw [hfirst]
        exact type_ne_unknown first
      -- the switch may stop at another keyword first, of a meter that is named too
      obtain ⟨m', htype, hkeyword⟩ := exists_of_mapUsageType hfound
      rw [htype, hunique m' m (namedBy_of_keyword hkeyword) hm]
    · intro hne
      obtain ⟨m, -, hkeyword⟩ := exists_of_mapUsageType hne
      exact isNetworkUsageType_of_namedBy (namedBy_of_keyword hkeyword)

/-- A spelling that the filter lists and the reconciler does not know. -/
theorem dashed_meter_unknown :
    isNetworkUsageType "USE1-nat-gateway-Hours" = true ∧
      mapUsageType "USE1-nat-gateway-Hours" = TrafficType.unknown.string ∧
      ¬MetersAgree "USE1-nat-gateway-Hours" := by
  have hkept : isNetworkUsageType "USE1-nat-gateway-Hours" = true := by decide +kernel
  have hunknown : mapUsageType "USE1-nat-gateway-Hours" = TrafficType.unknown.string := by
    decide +kernel
  refine ⟨hkept, hunknown, fun h => ?_⟩
  have hnamed : Meter.natGateway.NamedBy "USE1-nat-gateway-Hours" :=
    ⟨"nat-gateway", by decide, by decide +kernel⟩
  exact Meter.type_ne_unknown _ ((h.mapped .natGateway hnamed hkept).symm.trans hunknown)

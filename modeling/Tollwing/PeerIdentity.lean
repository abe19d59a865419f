/-
Peers of an aggregate entry (`pkg/ebpf/bpf/maps.h`, `tollwing.bpf.c`).

`struct conn_info` has the addresses of both families, `struct flow_key` only the
32-bit ones, and the agent classifies and prices a snapshot by the 32-bit destination.
`PeerWatch` keeps, beside the capture, whose bytes every entry and every snapshot
contains.

* `PeerWatch.explained_run` — what it keeps adds up to what the entries and the
  snapshots show, in any run;
* `unmap_eq_v4_iff` — which 128-bit addresses a 32-bit one stands for;
* `PeerWatch.truePeers_step_iff` — what one step may add;
* `PeerWatch.truePeers_iff` — a run names the right peers at every point exactly if all
  the bytes that reach an entry are of connections whose 32-bit field says where they go;
* `PeerWatch.two_peers_one_entry` — a run with two IPv6 peers.
-/
import Tollwing.Classifier
import Tollwing.FlowConservation
import Tollwing.History

/-! ### Destinations -/

/-- The address of the four words. -/
def IP6.bits (host : ByteOrder) (ip : IP6) : BitVec 128 :=
  host.putUint32 ip.w0 ++ host.putUint32 ip.w1 ++ host.putUint32 ip.w2 ++ host.putUint32 ip.w3

/-- Where a connection goes: by its family, an IPv4-mapped address being the IPv4 one. -/
def ConnInfo.destination (host : ByteOrder) (conn : ConnInfo) : Addr :=
  if conn.family = 10 then (Addr.v6 (conn.dstIP6.bits host) "").unmap else nboToAddr host conn.dstIP

/-- The 32-bit field of a connection says where it goes: the connection is no IPv6 one,
or its address is the IPv4-mapped form of the field. -/
def ConnInfo.Fits (host : ByteOrder) (conn : ConnInfo) : Prop :=
  conn.family = 10 → conn.dstIP6.bits host = 0xffff#96 ++ host.putUint32 conn.dstIP

instance (host : ByteOrder) (conn : ConnInfo) : Decidable (conn.Fits host) :=
  inferInstanceAs (Decidable (_ → _))

/-- An IPv6 address unmaps to an IPv4 one if it is its IPv4-mapped form. -/
theorem unmap_eq_v4_iff (bits : BitVec 128) (ip : BitVec 32) :
    (Addr.v6 bits "").unmap = .v4 ip ↔ bits = 0xffff#96 ++ ip := by
  rw [Addr.unmap]
  constructor
  · intro h
    split_ifs at h with hmapped
    have hlow : bits.extractLsb' 0 32 = ip := Addr.v4.inj h
    have hhigh : bits.extractLsb' 32 96 = 0xffff#96 := eq_of_beq hmapped
    have hsplit : ∀ x : BitVec (96 + 32), x = x.extractLsb' 32 96 ++ x.extractLsb' 0 32 :=
      fun x => BitVec.extractLsb'_append_extractLsb'.symm
    rw [← hlow, ← hhigh]
    exact hsplit bits
  · intro h
    have hmapped : (Addr.v6 bits "").is4In6 = true := by
      rw [Addr.is4In6, h, BitVec.extractLsb'_append_eq_left]
      rfl
    rw [if_pos hmapped, h, BitVec.extractLsb'_append_eq_right]

theorem ConnInfo.destination_eq_iff (host : ByteOrder) (conn : ConnInfo) :
    conn.destination host = nboToAddr host conn.dstIP ↔ conn.Fits host := by
  rw [ConnInfo.destination, ConnInfo.Fits, nboToAddr]
  by_cases hfamily : conn.family = 10
  · rw [if_pos hfamily, unmap_eq_v4_iff]
    exact ⟨fun h _ => h, fun h => h hfamily⟩
  · rw [if_neg hfamily]
    exact ⟨fun _ h => absurd h hfamily, fun _ => rfl⟩

/-! ### Whose bytes an entry contains -/

/-- Bytes that reached an entry: the connection they are of and how many. -/
structure Share where
  conn : ConnInfo
  amount : Amount

/-- What some shares amount to. -/
def Share.total (shares : List Share) : Amount := (shares.map Share.amount).sum

/-- The share that a step adds to the entry of its connection's flow. -/
def Capture.share (host : ByteOrder) {n : ℕ} (s : Capture n) : CaptureStep n → Option Share
  | .hook env h =>
    (h.counting host).bind fun cnt =>
      (s.kernel.tracked cnt).bind fun conn =>
        if s.kernel.posting env conn.flowKey cnt.creates = .kept then some ⟨conn, cnt.amount⟩
        else none
  | _ => none

/-- The capture beside the shares of every entry and of every snapshot. -/
structure PeerWatch (n : ℕ) where
  capture : Capture n
  contents : FlowKey → List Share
  filed : List (FlowKey × List Share)

namespace PeerWatch

variable {n : ℕ}

def new (cfg : AgentConfig) : PeerWatch n := ⟨.init cfg, fun _ => [], []⟩

/-- A poll moves the shares of an entry to the snapshot it takes. -/
def taken (w : PeerWatch n) : CaptureStep n → PeerWatch n
  | .take key =>
    if (w.capture.kernel.flowAggregates.lookup key).isSome then
      { w with
        contents := Function.update w.contents key []
        filed := w.filed ++ [(key, w.contents key)] }
    else w
  | _ => w

/-- A hook adds its share to an entry. -/
def added (w : PeerWatch n) : Option Share → PeerWatch n
  | some sh =>
    { w with
      contents := Function.update w.contents sh.conn.flowKey
        (sh :: w.contents sh.conn.flowKey) }
  | none => w

def step (host : ByteOrder) (w : PeerWatch n) (e : CaptureStep n) : PeerWatch n :=
  { (w.taken e).added (w.capture.share host e) with capture := w.capture.step host e }

/-! ### The shares add up -/

/-- The shares are those of the entries and snapshots. -/
structure Explained (w : PeerWatch n) : Prop where
  entries : ∀ key perCPU, w.capture.kernel.flowAggregates.lookup key = some perCPU →
    perCPUAmount perCPU = Share.total (w.contents key)
  absent : ∀ key, w.capture.kernel.flowAggregates.lookup key = none → w.contents key = []
  snapshots : w.capture.snapshots.map (fun snap => (snap.flowKey, snap.amount))
    = w.filed.map fun st => (st.1, Share.total st.2)

/-- The same, of a book. -/
def Keeps (b : Book FlowKey Amount UInt64) (contents : FlowKey → List Share)
    (filed : List (FlowKey × List Share)) : Prop :=
  (∀ key, b.balance key = some (Share.total (contents key)) ∨
      b.balance key = none ∧ contents key = []) ∧
    b.statements = filed.map fun st => (st.1, Share.total st.2)

theorem explained_iff (w : PeerWatch n) :
    w.Explained ↔ Keeps w.capture.book w.contents w.filed := by
  have hbalance : ∀ key, w.capture.book.balance key
      = (w.capture.kernel.flowAggregates.lookup key).map perCPUAmount := fun _ => rfl
  constructor
  · intro h
    refine ⟨fun key => ?_, h.snapshots⟩
    rw [hbalance]
    cases hlookup : w.capture.kernel.flowAggregates.lookup key with
    | none => exact Or.inr ⟨rfl, h.absent key hlookup⟩
    | some perCPU => exact Or.inl (congrArg some (h.entries key perCPU hlookup))
  · rintro ⟨hkept, hstatements⟩
    refine ⟨fun key perCPU hlookup => ?_, fun key hlookup => ?_, hstatements⟩
    · have hkey := hkept key
      rw [hbalance, hlookup] at hkey
      rcases hkey with hsome | ⟨hnone, -⟩
      · exact Option.some.inj hsome
      · exact absurd hnone nofun
    · have hkey := hkept key
      rw [hbalance, hlookup] at hkey
      rcases hkey with hsome | ⟨-, hnil⟩
      · exact absurd hsome nofun
      · exact hnil

variable {b : Book FlowKey Amount UInt64} {contents : FlowKey → List Share}
  {filed : List (FlowKey × List Share)}

/-- A move without a charge that issues no statement changes no entry's amount. -/
theorem Keeps.uncharged (h : Keeps b contents filed) {mv : Move FlowKey Amount}
    (hcharge : mv.charge = 0) (hstatements : (b.step mv).statements = b.statements) :
    Keeps (b.step mv) contents filed := by
  refine ⟨fun key => ?_, hstatements.trans h.2⟩
  cases mv with
  | idle => exact h.1 key
  | reject => exact h.1 key
  | post k m p => exact absurd hcharge (Multiset.singleton_ne_zero m)
  | seed k =>
    simp only [Book.step, Function.update_apply]
    split_ifs with hkey
    · -- an entry that is opened is empty
      subst hkey
      refine Or.inl ?_
      rcases h.1 key with hsome | ⟨hnone, hnil⟩
      · rw [hsome, Option.getD_some]
      · rw [hnone, hnil]
        rfl
    · exact h.1 key
  | close k =>
    rw [Book.step] at hstatements ⊢
    cases hbalance : b.balance k with
    | none => exact h.1 key
    | some m =>
      rw [hbalance] at hstatements
      have hlength := congrArg List.length hstatements
      rw [List.length_append, List.length_singleton] at hlength
      omega

/-- A charge that is kept is a share of its entry. -/
theorem Keeps.post (h : Keeps b contents filed) (key : FlowKey) (sh : Share) (p : Posting) :
    Keeps (b.step (.post key sh.amount p))
      (if p = .kept then Function.update contents key (sh :: contents key) else contents)
      filed := by
  cases p with
  | refused => exact h
  | missed => exact h
  | kept =>
    refine ⟨fun k => ?_, h.2⟩
    simp only [Book.step, if_pos, Function.update_apply]
    split_ifs with hk
    · refine Or.inl (congrArg some ?_)
      rw [Share.total, List.map_cons, List.sum_cons]
      rcases h.1 key with hsome | ⟨hnone, hnil⟩
      · rw [hsome]
        rfl
      · rw [hnone, hnil]
        rfl
    · exact h.1 k

/-- An entry that is closed leaves its shares to the statement. -/
theorem Keeps.close (h : Keeps b contents filed) (key : FlowKey) :
    Keeps (b.step (.close key))
      (if (b.balance key).isSome then Function.update contents key [] else contents)
      (if (b.balance key).isSome then filed ++ [(key, contents key)] else filed) := by
  rw [Book.step]
  cases hbalance : b.balance key with
  | none => exact h
  | some m =>
    have hm : m = Share.total (contents key) := by
      rcases h.1 key with hsome | ⟨hnone, -⟩
      · exact Option.some.inj (hbalance.symm.trans hsome)
      · exact absurd (hbalance.symm.trans hnone) (Option.some_ne_none m)
    refine ⟨fun k => ?_, ?_⟩
    · simp only [Option.isSome_some, if_pos, Function.update_apply]
      split_ifs with hk
      · exact Or.inr ⟨rfl, rfl⟩
      · exact h.1 k
    · show b.statements ++ [(key, m)] = _
      rw [Option.isSome_some, if_pos rfl, List.map_append, h.2, hm]
      rfl

variable {host : ByteOrder} {w : PeerWatch n}

/-- The steps that are no hook and no take leave the books alone. -/
theorem Explained.of_book (h : w.Explained) {e : CaptureStep n} (htaken : w.taken e = w)
    (hshare : w.capture.share host e = none)
    (hbook : (w.capture.step host e).book = w.capture.book) : (w.step host e).Explained := by
  rw [explained_iff] at h ⊢
  rw [step, htaken, hshare]
  show Keeps (w.capture.step host e).book w.contents w.filed
  rw [hbook]
  exact h

theorem Explained.hook (h : w.Explained) (env : HookEnv n) (hk : Hook) :
    (w.step host (.hook env hk)).Explained := by
  cases hcnt : hk.counting host with
  | none =>
    have hshare : w.capture.share host (.hook env hk) = none := by
      rw [Capture.share, hcnt, Option.bind_none]
    obtain ⟨mv, hcharge, hbook⟩ := book_of_counting_none w.capture.kernel env hcnt
      (w.capture.snapshots.map fun snap => (snap.flowKey, snap.amount))
    have hmove : (w.capture.step host (.hook env hk)).book = w.capture.book.step mv := hbook
    rw [explained_iff] at h ⊢
    rw [step, hshare]
    show Keeps (w.capture.step host (.hook env hk)).book w.contents w.filed
    have hstatements : (w.capture.book.step mv).statements = w.capture.book.statements := by
      rw [← hmove]
      rfl
    rw [hmove]
    exact h.uncharged hcharge hstatements
  | some cnt =>
    cases hconn : w.capture.kernel.tracked cnt with
    | none =>
      have hshare : w.capture.share host (.hook env hk) = none := by
        rw [Capture.share, hcnt, Option.bind_some, hconn, Option.bind_none]
      have hmove : Capture.IsMove host w.capture 0 (.hook env hk) _ .idle :=
        Capture.isMove_of_untracked host hcnt hconn
      exact h.of_book rfl hshare hmove.book
    | some conn =>
      have hshare : w.capture.share host (.hook env hk)
          = if w.capture.kernel.posting env conn.flowKey cnt.creates = .kept then
              some ⟨conn, cnt.amount⟩ else none := by
        rw [Capture.share, hcnt, Option.bind_some, hconn, Option.bind_some]
      have hmove : Capture.IsMove host w.capture 0 (.hook env hk) _ _ :=
        Capture.isMove_of_tracked host hcnt hconn
      rw [explained_iff] at h ⊢
      have hpost := h.post conn.flowKey ⟨conn, cnt.amount⟩
        (w.capture.kernel.posting env conn.flowKey cnt.creates)
      rw [step, hshare]
      show Keeps (w.capture.step host (.hook env hk)).book _ _
      rw [hmove.book]
      split_ifs at hpost ⊢ <;> exact hpost

/-- **One step** keeps the shares those of the entries and snapshots. -/
theorem Explained.step (h : w.Explained) (e : CaptureStep n) : (w.step host e).Explained := by
  cases e with
  | hook env hk => exact h.hook env hk
  | take key =>
    have hclose := ((explained_iff w).mp h).close key
    rw [← w.capture.take_book] at hclose
    have hsome : (w.capture.book.balance key).isSome
        = (w.capture.kernel.flowAggregates.lookup key).isSome := Option.isSome_map
    rw [hsome] at hclose
    rw [explained_iff, PeerWatch.step, taken]
    split_ifs at hclose ⊢ <;> exact hclose
  | deliver =>
    refine h.of_book rfl rfl ?_
    simp [Capture.step, Capture.book, Capture.snapshots]
  | setConfig cfg => exact h.of_book rfl rfl rfl
  | evictConnection cookie => exact h.of_book rfl rfl rfl
  | evictOriginalDst cookie => exact h.of_book rfl rfl rfl

theorem explained_new (cfg : AgentConfig) : (new cfg : PeerWatch n).Explained where
  entries _ _ h := absurd h nofun
  absent _ _ := rfl
  snapshots := rfl

/-- **What the shares amount to** is what the entries and the snapshots show. -/
theorem explained_run (host : ByteOrder) (cfg : AgentConfig) (run : List (CaptureStep n)) :
    (run.foldl (step host) (new cfg)).Explained := by
  induction run using List.reverseRecOn with
  | nil => exact explained_new cfg
  | append_singleton run e ih =>
    rw [List.foldl_append, List.foldl_cons, List.foldl_nil]
    exact ih.step e

/-- The watch follows the capture. -/
theorem capture_run (host : ByteOrder) (cfg : AgentConfig) (run : List (CaptureStep n)) :
    (run.foldl (step host) (new cfg)).capture = Capture.exec host cfg run := by
  induction run using List.reverseRecOn with
  | nil => rfl
  | append_singleton run e ih =>
    rw [Capture.exec, List.foldl_append, List.foldl_append, List.foldl_cons, List.foldl_nil,
      List.foldl_cons, List.foldl_nil, ← Capture.exec, ← ih]
    rfl

/-! ### The right peers -/

/-- The destination that the agent reads off a flow. -/
def destinationOf (host : ByteOrder) (key : FlowKey) : Addr := nboToAddr host key.dstIP

theorem destinationOf_flowKey (host : ByteOrder) (conn : ConnInfo) :
    destinationOf host conn.flowKey = nboToAddr host conn.dstIP := rfl

/-- TCP connections whose bytes are in one entry go to the same place, and that is the
destination of the entry, and of the snapshot taken of it. -/
structure TruePeers (host : ByteOrder) (w : PeerWatch n) : Prop where
  apart : ∀ key, ∀ sh ∈ w.contents key, ∀ sh' ∈ w.contents key,
    sh.conn.protocol = ipprotoTCP → sh'.conn.protocol = ipprotoTCP →
      sh.conn.destination host = sh'.conn.destination host
  entries : ∀ key, ∀ sh ∈ w.contents key, sh.conn.protocol = ipprotoTCP →
    sh.conn.destination host = destinationOf host key
  snapshots : ∀ st ∈ w.filed, ∀ sh ∈ st.2, sh.conn.protocol = ipprotoTCP →
    sh.conn.destination host = destinationOf host st.1

/-- Bytes that reach an entry are of a connection whose 32-bit field says where it
goes, if it is a TCP connection. -/
def SharesFit (host : ByteOrder) (w : PeerWatch n) (e : CaptureStep n) : Prop :=
  ∀ sh, w.capture.share host e = some sh → sh.conn.protocol = ipprotoTCP → sh.conn.Fits host

/-- Connections to the place of their entry go to one place. -/
theorem TruePeers.of_entries
    (hentries : ∀ key, ∀ sh ∈ w.contents key, sh.conn.protocol = ipprotoTCP →
      sh.conn.destination host = destinationOf host key)
    (hsnapshots : ∀ st ∈ w.filed, ∀ sh ∈ st.2, sh.conn.protocol = ipprotoTCP →
      sh.conn.destination host = destinationOf host st.1) : w.TruePeers host where
  apart key sh hsh sh' hsh' htcp htcp' :=
    (hentries key sh hsh htcp).trans (hentries key sh' hsh' htcp').symm
  entries := hentries
  snapshots := hsnapshots

theorem truePeers_new (cfg : AgentConfig) : (new cfg : PeerWatch n).TruePeers host :=
  .of_entries (fun _ _ h => absurd h List.not_mem_nil) fun _ h => absurd h List.not_mem_nil

/-- What the capture itself is does not matter to the peers. -/
theorem TruePeers.congr {w' : PeerWatch n} (h : w.TruePeers host)
    (hcontents : w'.contents = w.contents) (hfiled : w'.filed = w.filed) :
    w'.TruePeers host := by
  refine .of_entries ?_ ?_
  · rw [hcontents]
    exact h.entries
  · rw [hfiled]
    exact h.snapshots

/-- Taking an entry mixes nothing. -/
theorem TruePeers.taken (h : w.TruePeers host) (e : CaptureStep n) :
    (w.taken e).TruePeers host := by
  cases e with
  | take key =>
    rw [PeerWatch.taken]
    split_ifs
    · refine .of_entries (fun k sh hsh => ?_) fun st hst => ?_
      · dsimp only at hsh
        rw [Function.update_apply] at hsh
        split_ifs at hsh
        · exact absurd hsh List.not_mem_nil
        · exact h.entries k sh hsh
      · rcases List.mem_append.mp hst with hold | hnew
        · exact h.snapshots st hold
        · obtain rfl := List.mem_singleton.mp hnew
          exact h.entries key
    · exact h
  | _ => exact h

/-- A share keeps the peers right if its connection goes where its field says. -/
theorem TruePeers.added_iff (h : w.TruePeers host) (o : Option Share) :
    (w.added o).TruePeers host ↔
      ∀ sh, o = some sh → sh.conn.protocol = ipprotoTCP → sh.conn.Fits host := by
  constructor
  · rintro hadded sh rfl htcp
    have hmem : sh ∈ (w.added (some sh)).contents sh.conn.flowKey := by
      simp only [added, Function.update_self]
      exact List.mem_cons_self
    have hdst := hadded.entries sh.conn.flowKey sh hmem htcp
    rw [destinationOf_flowKey] at hdst
    exact (sh.conn.destination_eq_iff host).mp hdst
  · intro hfits
    cases o with
    | none => exact h
    | some sh =>
      refine .of_entries (fun k sh' hsh' htcp => ?_) h.snapshots
      simp only [added, Function.update_apply] at hsh'
      split_ifs at hsh' with hkey
      · subst hkey
        rcases List.mem_cons.mp hsh' with rfl | hold
        · rw [destinationOf_flowKey]
          exact (sh'.conn.destination_eq_iff host).mpr (hfits sh' rfl htcp)
        · exact h.entries _ sh' hold htcp
      · exact h.entries k sh' hsh' htcp

/-- **One step** keeps the peers right exactly if its share fits. -/
theorem truePeers_step_iff (h : w.TruePeers host) (e : CaptureStep n) :
    (w.step host e).TruePeers host ↔ w.SharesFit host e := by
  have hadded := (h.taken e).added_iff (w.capture.share host e)
  exact ⟨fun hstep => hadded.mp (hstep.congr rfl rfl),
    fun hfits => (hadded.mpr hfits).congr rfl rfl⟩

/-- **No peers are mixed up**, at any point of a run of hooks and polls, if and only if
all TCP bytes that reach an entry along it are of connections whose 32-bit field says
where they go.  What the watch sees is the capture's run, and the shares that it keeps
are all the bytes of every entry and snapshot. -/
theorem truePeers_iff (host : ByteOrder) (cfg : AgentConfig) (run : List (CaptureStep n)) :
    ((∀ m, ((run.take m).foldl (step host) (new cfg)).TruePeers host) ↔
      History.Along (step host) (SharesFit host) (new cfg) run) ∧
    ∀ m, let w := (run.take m).foldl (step host) (new cfg)
      w.capture = Capture.exec host cfg (run.take m) ∧ w.Explained := by
  constructor
  · exact History.forall_take_iff_of_state (P := TruePeers host)
      (fun _ e h => truePeers_step_iff h e) (truePeers_new cfg) run
  · intro m
    exact ⟨capture_run host cfg (run.take m), explained_run host cfg (run.take m)⟩

/-- An IPv6 client connects to port 443; the kernel leaves the 32-bit fields zero. -/
def accept6 (cookie : UInt64) (client : UInt32) : CaptureStep 1 :=
  .hook Capture.onOneCPU (.sockops
    { cookie := cookie
      op := .passiveEstablished
      family := afInet6
      localPort := 443
      remotePort := 0x50c30000
      remoteIP6 := ⟨0xb80d0120, 0, 0, client⟩ })

/-- Two clients send from one port number, a poll follows. -/
def twoClients : List (CaptureStep 1) :=
  [accept6 1 0x01000000, accept6 2 0x02000000, .hook Capture.onOneCPU (.tcpCleanupRbuf 1 100),
    .hook Capture.onOneCPU (.tcpCleanupRbuf 2 200), .take ⟨0, 0, 443, 50000, 0, 6, 1⟩, .deliver]

/-- The bytes of both are in one snapshot, whose destination is neither's. -/
theorem two_peers_one_entry :
    let w := twoClients.foldl (step .little) (new ⟨true, true, 1, true⟩)
    ((w.filed.map fun st => st.2.map fun sh => sh.conn.destination .little)
        = [[.v6 0x20010db8000000000000000000000002 "", .v6 0x20010db8000000000000000000000001 ""]] ∧
      w.capture.delivered.map (fun snap => (nboToAddr .little snap.dstIP, snap.rxBytes))
        = [(.v4 0, 300)]) ∧
      ¬ ∀ m, ((twoClients.take m).foldl (step .little) (new ⟨true, true, 1, true⟩)).TruePeers
        .little := by
  intro w
  have hdst : (w.filed.map fun st => st.2.map fun sh => sh.conn.destination .little)
      = [[.v6 0x20010db8000000000000000000000002 "",
        .v6 0x20010db8000000000000000000000001 ""]] := by decide +kernel
  refine ⟨⟨hdst, by decide +kernel⟩, fun h => ?_⟩
  have hw : w.TruePeers .little := h 6
  have hwrong : ∃ st ∈ w.filed, ∃ sh ∈ st.2, sh.conn.protocol = ipprotoTCP ∧
      sh.conn.destination .little ≠ destinationOf .little st.1 := by decide +kernel
  obtain ⟨st, hst, sh, hsh, htcp, hne⟩ := hwrong
  exact hne (hw.snapshots st hst sh hsh htcp)

end PeerWatch

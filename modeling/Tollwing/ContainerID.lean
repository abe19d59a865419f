/-
Container IDs in cgroup paths (`pkg/enricher/enricher.go`).

`extractContainerID` looks through the segments of a path from the last one on;
`parseIDFromSegment` takes four known prefixes off a segment, each where it stands at
the front, and the suffix of a scope.

* `parseIDFromSegment_iff` — a segment names an ID when nothing but these prefixes, in
  their order, stands in front of it;
* `extractContainerID_iff` — a path names the ID of its last segment that names one;
* `extractContainerID_documented_iff` — which paths of the documented forms name the ID
  they are made for.
-/
import Tollwing.ScanFloat

namespace Cgroup

/-! ### The parser -/

/-- `strings.TrimPrefix`. -/
def trimPrefix (front s : List Char) : List Char :=
  if front.isPrefixOf s then s.drop front.length else s

/-- `strings.TrimSuffix`. -/
def trimSuffix (ending s : List Char) : List Char :=
  if ending.isSuffixOf s then s.take (s.length - ending.length) else s

def isHex (s : List Char) : Bool := !s.isEmpty && s.all Strings.isHexDigit

def parseIDFromSegment (seg : List Char) : Option (List Char) :=
  let seg := trimSuffix ".scope".toList seg
  let seg := trimPrefix "docker-".toList seg
  let seg := trimPrefix "cri-containerd-".toList seg
  let seg := trimPrefix "crio-".toList seg
  let seg := trimPrefix "containerd-".toList seg
  if seg.length = 64 ∧ isHex seg then some seg
  else if seg.length = 12 ∧ isHex seg then some seg
  else none

/-- `extractContainerID`; no ID is the empty string there. -/
def extractContainerID (cgroupPath : List Char) : Option (List Char) :=
  (cgroupPath.splitOn '/').reverse.findSome? parseIDFromSegment

/-- The path of a line: what stands after its second colon. -/
def linePath (line : List Char) : Option (List Char) :=
  match (line.dropWhile (· ≠ ':')).tail.dropWhile (· ≠ ':') with
  | [] => none
  | _ :: path => some path

/-- The loop of `readCgroup`, from the path so far. -/
def readCgroup (cgroupPath : List Char) : List (List Char) → List Char × Option (List Char)
  | [] => (cgroupPath, none)
  | line :: lines =>
    match linePath line with
    | none => readCgroup cgroupPath lines
    | some path =>
      if path = ['/'] ∨ path = [] then readCgroup cgroupPath lines
      else
        match extractContainerID path with
        | some id => (path, some id)
        | none => readCgroup path lines

/-! ### What a segment names -/

/-- The prefixes, in the order in which they are taken off. -/
def runtimePrefixes : List (List Char) :=
  ["docker-".toList, "cri-containerd-".toList, "crio-".toList, "containerd-".toList]

/-- Some of the prefixes, each once at most and in this order. -/
def Lead (lead : List Char) : Prop :=
  ∃ parts : List (List Char), parts.Sublist runtimePrefixes ∧ lead = parts.flatten

/-- Hexadecimal, of one of the two lengths. -/
def IsID (id : List Char) : Prop := (id.length = 64 ∨ id.length = 12) ∧ isHex id = true

/-- A segment that names an ID. -/
def Names (seg id : List Char) : Prop :=
  IsID id ∧ ∃ lead, Lead lead ∧ (seg = lead ++ id ∨ seg = lead ++ id ++ ".scope".toList)

theorem mem_of_isHex {s : List Char} (h : isHex s = true) {c : Char} (hc : c ∈ s) :
    Strings.isHexDigit c = true :=
  List.all_eq_true.mp (Bool.and_eq_true_iff.mp h).2 c hc

theorem notMem_of_isHex {s : List Char} (h : isHex s = true) {c : Char}
    (hc : Strings.isHexDigit c = false) : c ∉ s := fun hmem =>
  Bool.false_ne_true (hc.symm.trans (mem_of_isHex h hmem))

theorem trimPrefix_append (front s : List Char) : trimPrefix front (front ++ s) = s := by
  rw [trimPrefix, if_pos (List.isPrefixOf_iff_prefix.mpr (List.prefix_append front s)),
    List.drop_left]

theorem trimPrefix_of_not_front {front s : List Char} (h : ¬ front <+: s) :
    trimPrefix front s = s :=
  if_neg fun hpre => h (List.isPrefixOf_iff_prefix.mp hpre)

/-- A prefix is taken off or was not there. -/
theorem trimPrefix_cases (front s : List Char) :
    s = front ++ trimPrefix front s ∨ s = trimPrefix front s := by
  by_cases h : front <+: s
  · obtain ⟨rest, rfl⟩ := h
    exact Or.inl (by rw [trimPrefix_append])
  · exact Or.inr (trimPrefix_of_not_front h).symm

/-- Taking off one prefix after another. -/
def trimAll (fronts : List (List Char)) (s : List Char) : List Char :=
  fronts.foldl (fun s front => trimPrefix front s) s

theorem exists_lead_trimAll (fronts : List (List Char)) (s : List Char) :
    ∃ parts : List (List Char), parts.Sublist fronts ∧ s = parts.flatten ++ trimAll fronts s := by
  induction fronts generalizing s with
  | nil => exact ⟨[], List.Sublist.refl [], rfl⟩
  | cons front fronts ih =>
    obtain ⟨parts, hsub, heq⟩ := ih (trimPrefix front s)
    rcases trimPrefix_cases front s with h | h
    · refine ⟨front :: parts, hsub.cons_cons front, ?_⟩
      rw [List.flatten_cons, List.append_assoc]
      exact h.trans (congrArg (front ++ ·) heq)
    · exact ⟨parts, hsub.cons front, h.trans heq⟩

/-- None of two texts begins with the other. -/
def Apart (x y : List Char) : Prop := ¬ x <+: y ∧ ¬ y <+: x

/-- Prefixes that begin apart, and none of which begins the rest, are all taken off. -/
theorem trimAll_append {fronts parts : List (List Char)} {rest : List Char}
    (hapart : fronts.Pairwise Apart) (hrest : ∀ front ∈ fronts, ¬ front <+: rest)
    (hsub : parts.Sublist fronts) : trimAll fronts (parts.flatten ++ rest) = rest := by
  induction hsub with
  | slnil => rfl
  | @cons parts fronts front hsub ih =>
    obtain ⟨hfront, htail⟩ := List.pairwise_cons.mp hapart
    have hnot : ¬ front <+: parts.flatten ++ rest := by
      cases parts with
      | nil => exact hrest front List.mem_cons_self
      | cons part parts =>
        -- the first part is one of the later prefixes
        have hpart := hfront part (hsub.subset List.mem_cons_self)
        intro hpre
        rw [List.flatten_cons, List.append_assoc] at hpre
        exact (List.prefix_or_prefix_of_prefix hpre (List.prefix_append _ _)).elim hpart.1 hpart.2
    rw [trimAll, List.foldl_cons, trimPrefix_of_not_front hnot]
    exact ih htail fun f hf => hrest f (List.mem_cons_of_mem front hf)
  | @cons_cons parts fronts front hsub ih =>
    rw [trimAll, List.foldl_cons, List.flatten_cons, List.append_assoc, trimPrefix_append]
    exact ih (List.pairwise_cons.mp hapart).2 fun f hf =>
      hrest f (List.mem_cons_of_mem front hf)

theorem runtimePrefixes_apart : runtimePrefixes.Pairwise Apart := by
  have hdiffer : runtimePrefixes.Pairwise fun x y =>
      (!x.isPrefixOf y && !y.isPrefixOf x) = true := by decide +kernel
  refine hdiffer.imp fun h => ?_
  rw [Bool.and_eq_true, Bool.not_eq_true', Bool.not_eq_true'] at h
  exact ⟨fun hpre => Bool.false_ne_true (h.1.symm.trans (List.isPrefixOf_iff_prefix.mpr hpre)),
    fun hpre => Bool.false_ne_true (h.2.symm.trans (List.isPrefixOf_iff_prefix.mpr hpre))⟩

/-- Each of the prefixes ends with a dash. -/
theorem dash_mem_of_mem_runtimePrefixes {front : List Char} (h : front ∈ runtimePrefixes) :
    ∃ name, front = name ++ ['-'] := by
  simp only [runtimePrefixes, List.mem_cons, List.not_mem_nil, or_false] at h
  rcases h with rfl | rfl | rfl | rfl
  · exact ⟨"docker".toList, rfl⟩
  · exact ⟨"cri-containerd".toList, rfl⟩
  · exact ⟨"crio".toList, rfl⟩
  · exact ⟨"containerd".toList, rfl⟩

theorem trimSuffix_append (ending s : List Char) : trimSuffix ending (s ++ ending) = s := by
  rw [trimSuffix, if_pos (List.isSuffixOf_iff_suffix.mpr (List.suffix_append s ending)),
    List.length_append, Nat.add_sub_cancel, List.take_left]

theorem trimSuffix_cases (ending s : List Char) :
    s = trimSuffix ending s ++ ending ∨ s = trimSuffix ending s := by
  by_cases h : ending <:+ s
  · obtain ⟨rest, rfl⟩ := h
    exact Or.inl (by rw [trimSuffix_append])
  · exact Or.inr (if_neg fun hsuf => h (List.isSuffixOf_iff_suffix.mp hsuf)).symm

/-- A text that ends with an ID is no scope. -/
theorem trimSuffix_of_isID {lead id : List Char} (h : IsID id) :
    trimSuffix ".scope".toList (lead ++ id) = lead ++ id := by
  refine if_neg fun hsuf => ?_
  have hlen : ".scope".toList.length ≤ id.length := by
    rcases h.1 with h64 | h12
    · rw [h64]
      decide
    · rw [h12]
      decide
  have hscope : ".scope".toList <:+ id :=
    List.suffix_of_suffix_length_le (List.isSuffixOf_iff_suffix.mp hsuf)
      (List.suffix_append lead id) hlen
  exact notMem_of_isHex h.2 (c := '.') rfl (hscope.subset (by decide))

theorem parseIDFromSegment_eq (seg : List Char) : parseIDFromSegment seg
    = (fun rest => if rest.length = 64 ∧ isHex rest = true then some rest
        else if rest.length = 12 ∧ isHex rest = true then some rest else none)
      (trimAll runtimePrefixes (trimSuffix ".scope".toList seg)) := rfl

/-- A segment names the ID before which nothing but prefixes stand. -/
theorem parseIDFromSegment_iff (seg id : List Char) :
    parseIDFromSegment seg = some id ↔ Names seg id := by
  have hread : parseIDFromSegment seg = some id ↔
      trimAll runtimePrefixes (trimSuffix ".scope".toList seg) = id ∧ IsID id := by
    rw [parseIDFromSegment_eq, IsID]
    dsimp only
    split_ifs with h64 h12
    · exact ⟨fun h => Option.some_inj.mp h ▸ ⟨rfl, Or.inl h64.1, h64.2⟩,
        fun h => congrArg some h.1⟩
    · exact ⟨fun h => Option.some_inj.mp h ▸ ⟨rfl, Or.inr h12.1, h12.2⟩,
        fun h => congrArg some h.1⟩
    · refine iff_of_false (fun h => h) ?_
      rintro ⟨rfl, hlen, hhex⟩
      exact hlen.elim (fun h => h64 ⟨h, hhex⟩) fun h => h12 ⟨h, hhex⟩
  rw [hread]
  constructor
  · rintro ⟨htrim, hid⟩
    obtain ⟨parts, hsub, heq⟩ :=
      exists_lead_trimAll runtimePrefixes (trimSuffix ".scope".toList seg)
    rw [htrim] at heq
    refine ⟨hid, parts.flatten, ⟨parts, hsub, rfl⟩, ?_⟩
    rcases trimSuffix_cases ".scope".toList seg with h | h
    · exact Or.inr (h.trans (congrArg (· ++ ".scope".toList) heq))
    · exact Or.inl (h.trans heq)
  · rintro ⟨hid, lead, ⟨parts, hsub, rfl⟩, hseg⟩
    have hsuffix : trimSuffix ".scope".toList seg = parts.flatten ++ id := by
      rcases hseg with rfl | rfl
      · exact trimSuffix_of_isID hid
      · exact trimSuffix_append _ _
    refine ⟨?_, hid⟩
    rw [hsuffix]
    refine trimAll_append runtimePrefixes_apart (fun front hfront hpre => ?_) hsub
    -- a dash is no hexadecimal digit
    obtain ⟨name, rfl⟩ := dash_mem_of_mem_runtimePrefixes hfront
    exact notMem_of_isHex hid.2 (c := '-') rfl (hpre.subset (by simp))

/-! ### What a path names -/

/-- The last of some segments to name an ID names this one. -/
def LastNamed (segments : List (List Char)) (id : List Char) : Prop :=
  ∃ before seg after, segments = before ++ seg :: after ∧ Names seg id ∧
    ∀ s ∈ after, ∀ id', ¬ Names s id'

theorem findSome?_reverse_iff (segments : List (List Char)) (id : List Char) :
    segments.reverse.findSome? parseIDFromSegment = some id ↔ LastNamed segments id := by
  have hnone : ∀ s, parseIDFromSegment s = none ↔ ∀ id', ¬ Names s id' := fun s => by
    simp only [← parseIDFromSegment_iff, Option.eq_none_iff_forall_ne_some, ne_eq]
  rw [List.findSome?_eq_some_iff]
  constructor
  · rintro ⟨l₁, seg, l₂, heq, hseg, hbefore⟩
    refine ⟨l₂.reverse, seg, l₁.reverse, ?_, (parseIDFromSegment_iff seg id).mp hseg,
      fun s hs => (hnone s).mp (hbefore s (List.mem_reverse.mp hs))⟩
    rw [← List.reverse_reverse segments, heq]
    simp
  · rintro ⟨before, seg, after, rfl, hseg, hafter⟩
    refine ⟨after.reverse, seg, before.reverse, by simp,
      (parseIDFromSegment_iff seg id).mpr hseg,
      fun s hs => (hnone s).mpr (hafter s (List.mem_reverse.mp hs))⟩

theorem extractContainerID_iff (path id : List Char) :
    extractContainerID path = some id ↔ LastNamed (path.splitOn '/') id :=
  findSome?_reverse_iff _ id

/-! ### The documented forms -/

/-- The forms of a path that are documented, around an ID; what the source leaves open in
them is any text. -/
inductive Form
  | docker
  | kubepods (qos uid : List Char)
  | containerdService (middle : List Char)
  | dockerScope
  | containerdScope
  | kubepodsSlice (between : List Char)

namespace Form

/-- What stands before the ID, from the form's first slash on. -/
def front : Form → List Char
  | docker => "/docker/".toList
  | kubepods qos uid => "/kubepods/".toList ++ qos ++ "/pod".toList ++ uid ++ ['/']
  | containerdService middle => "/containerd.service/kubepods-".toList ++ middle ++ ['-']
  | dockerScope => "/docker-".toList
  | containerdScope => "/containerd-".toList
  | kubepodsSlice between => "/kubepods.slice/".toList ++ between

/-- And after it. -/
def ending : Form → List Char
  | docker => []
  | kubepods _ _ => []
  | _ => ".scope".toList

/-- A path of the form, below some other one. -/
def path (form : Form) (parent id : List Char) : List Char :=
  parent ++ form.front ++ id ++ form.ending

/-- What stands before the ID in its own segment. -/
def lead (form : Form) : List Char := form.front.rtakeWhile (· ≠ '/')

/-- The segments before that one. -/
def dirs (form : Form) : List Char := (form.front.rdropWhile (· ≠ '/')).dropLast

end Form

/-- A text with a slash is split at its last one. -/
theorem exists_split_of_slash_mem {s : List Char} (h : '/' ∈ s) :
    ∃ dirs lead, s = dirs ++ '/' :: lead ∧ '/' ∉ lead := by
  induction s with
  | nil => exact absurd h List.not_mem_nil
  | cons c s ih =>
    by_cases hs : '/' ∈ s
    · obtain ⟨dirs, lead, rfl, hlead⟩ := ih hs
      exact ⟨c :: dirs, lead, rfl, hlead⟩
    · obtain rfl := (List.mem_cons.mp h).resolve_right hs
      exact ⟨[], s, rfl, hs⟩

namespace Form

theorem slash_mem_front (form : Form) : '/' ∈ form.front := by
  cases form with
  | docker => exact List.mem_cons_self
  | kubepods qos uid => exact List.mem_append_right _ List.mem_cons_self
  | containerdService middle =>
    exact List.mem_append_left _ (List.mem_append_left _ List.mem_cons_self)
  | dockerScope => exact List.mem_cons_self
  | containerdScope => exact List.mem_cons_self
  | kubepodsSlice between => exact List.mem_append_left _ List.mem_cons_self

theorem front_eq (form : Form) :
    form.front = form.dirs ++ '/' :: form.lead ∧ '/' ∉ form.lead := by
  obtain ⟨dirs, lead, heq, hlead⟩ := exists_split_of_slash_mem form.slash_mem_front
  have hsplit := ScanFloat.rtakeWhile_append_cons (p := fun c => decide (c ≠ '/')) (x := '/')
    (by decide) (fun c hc => decide_eq_true fun hslash => hlead (hslash ▸ hc)) dirs
  have hdirs : form.dirs = dirs := by
    rw [Form.dirs, heq, hsplit.2, List.dropLast_concat]
  have hform : form.lead = lead := by rw [Form.lead, heq, hsplit.1]
  rw [hdirs, hform]
  exact ⟨heq, hlead⟩

end Form

/-- A lead ends with a dash, if it is not empty. -/
theorem Lead.eq_nil_or {lead : List Char} (h : Lead lead) :
    lead = [] ∨ ∃ rest, lead = rest ++ ['-'] := by
  obtain ⟨parts, hsub, rfl⟩ := h
  induction parts using List.reverseRecOn with
  | nil => exact Or.inl rfl
  | append_singleton parts part ih =>
    obtain ⟨name, rfl⟩ := dash_mem_of_mem_runtimePrefixes
      (hsub.subset (List.mem_append_right _ List.mem_cons_self))
    exact Or.inr ⟨parts.flatten ++ name, by simp⟩

/-- Hexadecimal text of at least the length of an ID ends with it only if it is the ID, or
something but a lead is in front. -/
theorem eq_of_append_eq {lead lead' id x : List Char} (hid : isHex id = true)
    (hlead' : Lead lead') (hlen : x.length ≤ id.length) (h : lead ++ id = lead' ++ x) :
    lead = lead' ∧ id = x := by
  obtain ⟨rest, hrest⟩ : x <:+ id :=
    List.suffix_of_suffix_length_le (h ▸ List.suffix_append lead' x) (List.suffix_append lead id)
      hlen
  rw [← hrest, ← List.append_assoc] at h
  have hfront : lead ++ rest = lead' := List.append_cancel_right h
  rcases eq_or_ne rest [] with rfl | hne
  · exact ⟨(List.append_nil lead).symm.trans hfront, hrest.symm⟩
  · -- the lead would end with a digit of the ID
    exfalso
    rcases hlead'.eq_nil_or with hnil | ⟨front, hdash⟩
    · exact hne (List.append_eq_nil_iff.mp (hfront.trans hnil)).2
    · obtain ⟨init, c, rfl⟩ := (List.eq_nil_or_concat rest).resolve_left hne
      rw [List.concat_eq_append, hdash, ← List.append_assoc] at hfront
      have hc : c = '-' := List.singleton_inj.mp (List.append_inj' hfront rfl).2
      refine notMem_of_isHex hid (c := '-') rfl (hrest ▸ ?_)
      rw [List.concat_eq_append, hc]
      exact List.mem_append_left x (List.mem_append_right init List.mem_cons_self)

/-- In a segment made for an ID of 64 digits no other one is named, and this one just
behind a lead. -/
theorem names_iff_of_length {lead id ending x : List Char} (h64 : id.length = 64)
    (hhex : isHex id = true) (hending : ending = [] ∨ ending = ".scope".toList) :
    Names (lead ++ id ++ ending) x ↔ x = id ∧ Lead lead := by
  have hid : IsID id := ⟨Or.inl h64, hhex⟩
  constructor
  · rintro ⟨hx, lead', hlead', hseg⟩
    have hlen : x.length ≤ id.length := by
      rcases hx.1 with h | h
      · omega
      · omega
    have hsame : lead ++ id = lead' ++ x := by
      -- taking off the suffix of a scope leaves the same on both sides
      have hleft : trimSuffix ".scope".toList (lead ++ id ++ ending) = lead ++ id := by
        rcases hending with rfl | rfl
        · rw [List.append_nil]
          exact trimSuffix_of_isID hid
        · exact trimSuffix_append _ _
      rw [← hleft]
      rcases hseg with heq | heq
      · rw [heq]
        exact trimSuffix_of_isID hx
      · rw [heq]
        exact trimSuffix_append _ _
    obtain ⟨rfl, rfl⟩ := eq_of_append_eq hhex hlead' hlen hsame
    exact ⟨rfl, hlead'⟩
  · rintro ⟨rfl, hlead⟩
    refine ⟨hid, lead, hlead, ?_⟩
    rcases hending with rfl | rfl
    · exact Or.inl (List.append_nil _)
    · exact Or.inr rfl

theorem splitOn_path (form : Form) (parent : List Char) {id : List Char} (hhex : isHex id = true) :
    (form.path parent id).splitOn '/'
      = (parent ++ form.dirs).splitOn '/' ++ [form.lead ++ id ++ form.ending] := by
  obtain ⟨hfront, hlead⟩ := form.front_eq
  have hending : '/' ∉ form.ending := by
    cases form <;> exact of_decide_eq_true rfl
  have hsegment : '/' ∉ form.lead ++ id ++ form.ending := by
    rw [List.mem_append, List.mem_append]
    rintro ((h | h) | h)
    · exact hlead h
    · exact notMem_of_isHex hhex rfl h
    · exact hending h
  have hpath : form.path parent id
      = (parent ++ form.dirs) ++ '/' :: (form.lead ++ id ++ form.ending) := by
    rw [Form.path, hfront]
    simp only [List.append_assoc, List.cons_append]
  rw [hpath, List.splitOn_append_cons_self, List.splitOn_eq_singleton hsegment]

/-- Behind segments that are looked at later, a last one that names nothing is passed. -/
theorem lastNamed_concat_iff {segments : List (List Char)} {seg id : List Char} :
    LastNamed (segments ++ [seg]) id ↔
      Names seg id ∨ (∀ x, ¬ Names seg x) ∧ LastNamed segments id := by
  rw [← findSome?_reverse_iff, ← findSome?_reverse_iff, List.reverse_concat,
    List.findSome?_cons]
  cases h : parseIDFromSegment seg with
  | none =>
    have hnone : ∀ x, ¬ Names seg x := fun x hx => by
      rw [← parseIDFromSegment_iff, h] at hx
      cases hx
    exact ⟨fun hrest => Or.inr ⟨hnone, hrest⟩, fun hor =>
      hor.elim (fun hx => absurd hx (hnone id)) And.right⟩
  | some x =>
    have hx : Names seg x := (parseIDFromSegment_iff seg x).mp h
    rw [← parseIDFromSegment_iff, h]
    exact ⟨Or.inl, fun hor => hor.elim (fun heq => heq) fun hno => absurd hx (hno.1 x)⟩

theorem lead_nil : Lead [] :=
  ⟨[], List.nil_sublist _, rfl⟩

theorem lead_of_mem {front : List Char} (h : front ∈ runtimePrefixes) : Lead front :=
  ⟨[front], List.singleton_sublist.mpr h, (List.append_nil front).symm⟩

/-- Before the ID of these forms stand known prefixes only. -/
theorem lead_documented : Lead Form.docker.lead ∧ (∀ qos uid, Lead (Form.kubepods qos uid).lead) ∧
    Lead Form.dockerScope.lead ∧ Lead Form.containerdScope.lead := by
  have hdocker : Form.docker.lead = [] := by decide +kernel
  have hdockerScope : Form.dockerScope.lead = "docker-".toList := by decide +kernel
  have hcontainerdScope : Form.containerdScope.lead = "containerd-".toList := by
    decide +kernel
  have hkubepods : ∀ qos uid, (Form.kubepods qos uid).lead = [] := by
    intro qos uid
    have hsplit := ScanFloat.rtakeWhile_append_cons (p := fun c => decide (c ≠ '/')) (x := '/')
      (by decide) (l := []) (fun c hc => absurd hc List.not_mem_nil)
      ("/kubepods/".toList ++ qos ++ "/pod".toList ++ uid)
    exact hsplit.1
  refine ⟨?_, ?_, ?_, ?_⟩
  · rw [hdocker]
    exact lead_nil
  · intro qos uid
    rw [hkubepods]
    exact lead_nil
  · rw [hdockerScope]
    exact lead_of_mem List.mem_cons_self
  · rw [hcontainerdScope]
    exact lead_of_mem (List.mem_of_getElem? (i := 3) rfl)

/-- But never before that of a unit of containerd's service, whatever stands in it. -/
theorem not_lead_containerdService {middle : List Char} (h : '/' ∉ middle) :
    ¬ Lead (Form.containerdService middle).lead := by
  have hlead : (Form.containerdService middle).lead = "kubepods-".toList ++ middle ++ ['-'] := by
    have hslash : '/' ∉ "kubepods-".toList ++ middle ++ ['-'] := by
      rw [List.mem_append, List.mem_append]
      rintro ((hk | hm) | hd)
      · exact absurd hk (by decide)
      · exact h hm
      · exact absurd hd (by decide)
    exact (ScanFloat.rtakeWhile_append_cons (p := fun c => decide (c ≠ '/')) (x := '/') (by decide)
      (fun c hc => decide_eq_true fun heq => hslash (heq ▸ hc)) "/containerd.service".toList).1
  rw [hlead]
  rintro ⟨parts, hsub, heq⟩
  cases parts with
  | nil => exact absurd heq (List.cons_ne_nil _ _)
  | cons part parts =>
    have hpart := hsub.subset List.mem_cons_self
    simp only [runtimePrefixes, List.mem_cons, List.not_mem_nil, or_false] at hpart
    -- no known prefix begins with the letter
    rcases hpart with rfl | rfl | rfl | rfl <;>
      exact absurd (List.cons.inj heq).1 (by decide)

/-- A path of a documented form names the ID it is made for just when nothing but the known
prefixes stands before it in its segment, or when the last segment before that names an ID
and it is the same. -/
theorem extractContainerID_documented_iff (form : Form) (parent : List Char) {id : List Char}
    (h64 : id.length = 64) (hhex : isHex id = true) :
    extractContainerID (form.path parent id) = some id ↔
      Lead form.lead ∨ LastNamed ((parent ++ form.dirs).splitOn '/') id := by
  have hending : form.ending = [] ∨ form.ending = ".scope".toList := by
    cases form <;> first | exact Or.inl rfl | exact Or.inr rfl
  rw [extractContainerID_iff, splitOn_path form parent hhex, lastNamed_concat_iff]
  simp only [names_iff_of_length h64 hhex hending, true_and]
  by_cases hlead : Lead form.lead
  · exact iff_of_true (Or.inl hlead) (Or.inl hlead)
  · rw [or_iff_right hlead, or_iff_right hlead]
    exact and_iff_right fun x h => hlead h.2

/-- The ID of a container of Docker is found. -/
theorem extract_docker_scope :
    extractContainerID (Form.dockerScope.path "/system.slice".toList (List.replicate 64 'a'))
      = some (List.replicate 64 'a') :=
  (extractContainerID_documented_iff Form.dockerScope "/system.slice".toList rfl rfl).mpr
    (Or.inl ⟨["docker-".toList], List.singleton_sublist.mpr List.mem_cons_self,
      by decide +kernel⟩)

/-- That of a container of containerd under its service is not. -/
theorem extract_containerd_service :
    extractContainerID ((Form.containerdService "besteffort-pod0a1b".toList).path
      "/system.slice".toList (List.replicate 64 'a')) = none := by
  decide +kernel

end Cgroup

/-
The number that Go's `fmt.Sscanf` reads for `%f`, on the bytes of a text:
`floatToken` takes as much as looks like a number and `ParseFloat` reads that.

* `sscanf_print` — what `%.df` printed is read back, rounded to a float.
-/
import Mathlib.Data.List.DropRight
import Tollwing.FixedPoint
import Tollwing.ParseFloat

open ParseFloat Nearest

namespace ScanFloat

/-! ### Characters -/

/-- The encodings of the white space that `SkipSpace` skips; a line break is an error. -/
def spaces : List (List UInt8) :=
  ([9, 11, 12, 13, 32, 0x85, 0xa0, 0x1680, 0x2000, 0x2001, 0x2002, 0x2003, 0x2004, 0x2005,
    0x2006, 0x2007, 0x2008, 0x2009, 0x200a, 0x2028, 0x2029, 0x202f, 0x205f, 0x3000].map
      Char.ofNat).map String.utf8EncodeChar

/-- `SkipSpace`; `fuel` is a round for every byte. -/
def skipSpace : ℕ → List UInt8 → List UInt8
  | 0, bs => bs
  | fuel + 1, bs =>
    match spaces.find? fun space => space.isPrefixOf bs with
    | some space => skipSpace fuel (bs.drop space.length)
    | none => bs

/-- One `accept` after another, up to the first that fails: whether all succeeded, and
what is left. -/
def accept : List (List Char) → List Char → Bool × List Char
  | [], cs => (true, cs)
  | _ :: _, [] => (false, [])
  | ok :: oks, c :: cs => if c ∈ ok then accept oks cs else (false, c :: cs)

/-- What `floatToken` leaves. -/
def afterFloat (cs : List Char) : List Char :=
  let (nan, cs) := accept [['n', 'N'], ['a', 'A'], ['n', 'N']] cs
  if nan then cs
  else
    let (inf, cs) := accept [['i', 'I'], ['n', 'N'], ['f', 'F']] (accept [['+', '-']] cs).2
    if inf then cs
    else
      let (hex, cs) := accept [['0'], ['x', 'X']] cs
      let digit (c : Char) : Bool := (if hex then Strings.isHexDigit c else c.isDigit) || c = '_'
      let cs := cs.dropWhile digit
      let cs := if cs.head? = some '.' then cs.tail.dropWhile digit else cs
      let (exp, cs) := accept [if hex then ['p', 'P'] else ['e', 'E', 'p', 'P']] cs
      if exp then (accept [['+', '-']] cs).2.dropWhile fun c => c.isDigit || c = '_' else cs

/-- `floatToken`. -/
def floatToken (cs : List Char) : List Char := cs.take (cs.length - (afterFloat cs).length)

/-! ### Reading -/

/-- `Ldexp`. -/
def ldexp : Float64 → ℤ → Float64
  | .finite neg m, n => .round neg (Float64.signed neg (m.val * 2 ^ n))
  | x, _ => x

/-- `convertFloat`: a decimal numeral may have a binary exponent. -/
def convertFloat (cs : List Char) : Option Float64 :=
  if 'p' ∈ cs ∧ 'x' ∉ cs ∧ 'X' ∉ cs then
    (floatOrError (cs.takeWhile (· ≠ 'p'))).bind fun x =>
      (Strings.atoi (cs.dropWhile (· ≠ 'p')).tail).map fun n => ldexp x n
  else floatOrError cs

/-- `fmt.Sscanf` for `%f`; what follows the number is not read. -/
def sscanf (text : List UInt8) : Option Float64 :=
  convertFloat (floatToken
    ((skipSpace text.length text).map fun b => Char.ofNat b.toNat))

example : sscanf (String.toUTF8 "12.5 USD").data.toList = some 12.5 ∧
    sscanf (String.toUTF8 " -0x1.8p+1").data.toList = some (-3.0) ∧
    sscanf (String.toUTF8 "+Inf").data.toList = some (.inf false) ∧
    sscanf (String.toUTF8 "none").data.toList = none := by
  decide +kernel

/-! ### Printed numbers -/

theorem numeral_digits (d n : ℕ) : ∃ whole tail, Numeral (FixedPoint.digits d n) whole tail := by
  refine ⟨_, _, rfl, Nat.toDigits_ne_nil, fun c hc => FixedPoint.isDigit_of_mem_toDigits hc, ?_⟩
  by_cases hd : d = 0
  · exact Or.inl (if_pos hd)
  · exact Or.inr ⟨_, if_neg hd, fun c hc => FixedPoint.isDigit_of_mem_leftpad hc⟩

theorem accept_of_notMem {c : Char} {ok : List Char} (h : c ∉ ok) (oks : List (List Char))
    (cs : List Char) : accept (ok :: oks) (c :: cs) = (false, c :: cs) := if_neg h

theorem notMem_of_isDigit {c : Char} {ok : List Char} (hc : c.isDigit = true)
    (hok : ok.any Char.isDigit = false) : c ∉ ok := fun hmem =>
  ne_of_isDigit hc (Bool.eq_false_iff.mpr (List.any_eq_false.mp hok c hmem)) rfl

section

variable {cs whole tail : List Char}

/-- No base is taken for one of its digits: at most a zero is. -/
theorem accept_hex (h : Numeral cs whole tail) : ∃ w : List Char,
    accept [['0'], ['x', 'X']] cs = (false, w ++ tail) ∧ ∀ c ∈ w, c.isDigit = true := by
  obtain ⟨c, w, hw⟩ := List.exists_cons_of_ne_nil h.ne_nil
  have hdigits : ∀ c' ∈ w, c'.isDigit = true := fun c' hc' =>
    h.whole c' (by rw [hw]; exact List.mem_cons_of_mem c hc')
  have hcons : cs = c :: (w ++ tail) := by rw [h.eq, hw, List.cons_append]
  by_cases hc : c ∈ ['0']
  · refine ⟨w, ?_, hdigits⟩
    rw [hcons, accept, if_pos hc]
    cases hrest : w ++ tail with
    | nil => rfl
    | cons c' rest =>
      refine accept_of_notMem (fun hx => ?_) [] rest
      have hmem : c' ∈ cs := by
        rw [hcons, hrest]
        exact List.mem_cons_of_mem c List.mem_cons_self
      rcases h.mem hmem with hdigit | rfl
      · exact notMem_of_isDigit hdigit rfl hx
      · exact absurd hx (by decide)
  · refine ⟨whole, ?_, h.whole⟩
    rw [hcons, accept_of_notMem hc, ← hcons, h.eq]

/-- The digits, the point and the digits after it are all taken. -/
theorem afterFloat_eq_nil (h : Numeral cs whole tail) (neg : Bool) :
    afterFloat ((if neg then ['-'] else []) ++ cs) = [] := by
  obtain ⟨c, rest, hcons, hc⟩ := h.exists_cons
  obtain ⟨w, hhex, hw⟩ := accept_hex h
  have hnan : accept [['n', 'N'], ['a', 'A'], ['n', 'N']] ((if neg then ['-'] else []) ++ cs)
      = (false, (if neg then ['-'] else []) ++ cs) := by
    cases neg with
    | true => exact accept_of_notMem (by decide) _ _
    | false =>
      rw [hcons]
      exact accept_of_notMem (notMem_of_isDigit hc rfl) _ _
  have hsign : (accept [['+', '-']] ((if neg then ['-'] else []) ++ cs)).2 = cs := by
    cases neg with
    | true => rfl
    | false =>
      rw [hcons]
      exact congrArg Prod.snd (accept_of_notMem (notMem_of_isDigit hc rfl) _ _)
  have hinf : accept [['i', 'I'], ['n', 'N'], ['f', 'F']] cs = (false, cs) := by
    rw [hcons]
    exact accept_of_notMem (notMem_of_isDigit hc rfl) _ _
  have hdigit : ∀ l : List Char, (∀ c ∈ l, c.isDigit = true) → ∀ t : List Char,
      (l ++ t).dropWhile (fun c => c.isDigit || c = '_')
        = t.dropWhile fun c => c.isDigit || c = '_' := fun l hl t =>
    List.dropWhile_append_of_pos fun c hc => by rw [hl c hc, Bool.true_or]
  simp only [afterFloat, hnan, hsign, hinf, hhex, Bool.false_eq_true, if_false]
  rw [hdigit w hw]
  rcases h.tail with rfl | ⟨frac, rfl, hfrac⟩
  · rfl
  · have hpoint : ('.' :: frac).dropWhile (fun c => c.isDigit || c = '_') = '.' :: frac :=
      List.dropWhile_cons_of_neg (by decide)
    have hrest : frac.dropWhile (fun c => c.isDigit || c = '_') = [] := by
      rw [← List.append_nil frac, hdigit frac hfrac]
      rfl
    rw [hpoint, List.head?_cons, if_pos rfl, List.tail_cons, hrest]
    rfl

theorem floatToken_eq (h : Numeral cs whole tail) (neg : Bool) :
    floatToken ((if neg then ['-'] else []) ++ cs) = (if neg then ['-'] else []) ++ cs := by
  rw [floatToken, afterFloat_eq_nil h neg, List.length_nil, Nat.sub_zero, List.take_length]

end

/-- What stands behind the last element that fails a test. -/
theorem rtakeWhile_append_cons {α : Type*} {p : α → Bool} {x : α} (hx : p x = false) {l : List α}
    (hl : ∀ a ∈ l, p a = true) (before : List α) :
    (before ++ x :: l).rtakeWhile p = l ∧ (before ++ x :: l).rdropWhile p = before ++ [x] := by
  have hreverse : ∀ a ∈ l.reverse, p a = true := fun a ha => hl a (List.mem_reverse.mp ha)
  have hstop : ¬ p x = true := Bool.eq_false_iff.mp hx
  constructor
  · rw [List.rtakeWhile, List.reverse_append, List.reverse_cons, List.append_assoc,
      List.takeWhile_append_of_pos hreverse, List.singleton_append,
      List.takeWhile_cons_of_neg hstop, List.append_nil, List.reverse_reverse]
  · rw [List.rdropWhile, List.reverse_append, List.reverse_cons, List.append_assoc,
      List.dropWhile_append_of_pos hreverse, List.singleton_append,
      List.dropWhile_cons_of_neg hstop, List.reverse_cons, List.reverse_reverse]

/-! ### Bytes -/

/-- An ASCII character is its byte. -/
theorem utf8EncodeChar_of_lt {c : Char} (hc : c.toNat < 128) :
    String.utf8EncodeChar c = [UInt8.ofNat c.toNat] := by
  rw [String.utf8EncodeChar]
  exact if_pos (Nat.lt_succ_iff.mp hc)

theorem ofNat_toUInt8 {c : Char} (hc : c.toNat < 128) :
    Char.ofNat (UInt8.ofNat c.toNat).toNat = c := by
  have hbyte : (UInt8.ofNat c.toNat).toNat = c.toNat := 
    UInt8.toNat_ofNat_of_lt (hc.trans (by decide))
  rw [hbyte, Char.ofNat_toNat]

/-- ASCII text as its bytes, and back. -/
theorem map_flatMap_utf8EncodeChar {cs : List Char} (h : ∀ c ∈ cs, c.toNat < 128) :
    (cs.flatMap String.utf8EncodeChar).map (fun b => Char.ofNat b.toNat) = cs := by
  induction cs with
  | nil => rfl
  | cons c cs ih =>
    have hc := h c List.mem_cons_self
    rw [List.flatMap_cons, utf8EncodeChar_of_lt hc, List.map_append,
      ih fun c' hc' => h c' (List.mem_cons_of_mem c hc'), List.map_singleton, ofNat_toUInt8 hc,
      List.singleton_append]

/-- No white space begins with a byte of a numeral. -/
theorem skipSpace_of_numeral {b : UInt8} (hb : 45 ≤ b ∧ b ≤ 57) (fuel : ℕ) (bs : List UInt8) :
    skipSpace fuel (b :: bs) = b :: bs := by
  have hspaces : ∀ space ∈ spaces, ∃ h t, space = h :: t ∧ ¬ (45 ≤ h ∧ h ≤ 57) := by
    have hall : ∀ space ∈ spaces, space.head?.any fun h => !(45 ≤ h && h ≤ 57) := by decide
    intro space hspace
    have hhead := hall space hspace
    cases space with
    | nil => exact absurd hhead Bool.false_ne_true
    | cons h t =>
      refine ⟨h, t, rfl, fun hin => ?_⟩
      simp [hin.1, hin.2] at hhead
  cases fuel with
  | zero => rfl
  | succ fuel =>
    have hnone : (spaces.find? fun space => space.isPrefixOf (b :: bs)) = none := by
      refine List.find?_eq_none.mpr fun space hspace hpre => ?_
      obtain ⟨h, t, rfl, hout⟩ := hspaces space hspace
      obtain ⟨rest, hrest⟩ := List.isPrefixOf_iff_prefix.mp hpre
      exact hout ((List.cons.inj hrest).1 ▸ hb)
    rw [skipSpace, hnone]

theorem toNat_le_of_isDigit {c : Char} (hc : c.isDigit = true) : 48 ≤ c.toNat ∧ c.toNat ≤ 57 := by
  simp only [Char.isDigit, Bool.and_eq_true, decide_eq_true_eq] at hc
  exact ⟨UInt32.le_iff_toNat_le.mp hc.1, UInt32.le_iff_toNat_le.mp hc.2⟩

/-- A printed float is a word, or a sign and digits. -/
theorem printFloat_cases (d : ℕ) (x : Float64) :
    FixedPoint.printFloat d x ∈ [['N', 'a', 'N'], ['-', 'I', 'n', 'f'], ['+', 'I', 'n', 'f']] ∨
      ∃ neg m, x = .finite neg m ∧ FixedPoint.printFloat d x
        = (if neg then ['-'] else []) ++ FixedPoint.digits d (roundEven (m.val * 10 ^ d)) := by
  cases x with
  | nan => exact Or.inl List.mem_cons_self
  | inf neg =>
    refine Or.inl ?_
    cases neg
    · exact List.mem_cons_of_mem _ (List.mem_cons_of_mem _ List.mem_cons_self)
    · exact List.mem_cons_of_mem _ List.mem_cons_self
  | finite neg m => exact Or.inr ⟨neg, m, rfl, rfl⟩

/-- The characters of a sign and digits. -/
theorem mem_digits {neg : Bool} {d n : ℕ} {c : Char}
    (hc : c ∈ (if neg then ['-'] else []) ++ FixedPoint.digits d n) :
    45 ≤ c.toNat ∧ c.toNat ≤ 57 := by
  obtain ⟨whole, tail, hnum⟩ := numeral_digits d n
  rw [List.mem_append] at hc
  rcases hc with hsign | hdigits
  · split_ifs at hsign
    · rw [List.mem_singleton.mp hsign]
      decide
    · exact absurd hsign List.not_mem_nil
  · rcases hnum.mem hdigits with hdigit | rfl
    · have hle := toNat_le_of_isDigit hdigit
      omega
    · decide

/-- The characters of a printed float. -/
theorem mem_printFloat {d : ℕ} {x : Float64} {c : Char} (hc : c ∈ FixedPoint.printFloat d x) :
    43 ≤ c.toNat ∧ c.toNat < 128 := by
  rcases printFloat_cases d x with hword | ⟨neg, m, -, hprint⟩
  · have hall : ∀ w ∈ [['N', 'a', 'N'], ['-', 'I', 'n', 'f'], ['+', 'I', 'n', 'f']],
        (w.all fun c => 43 ≤ c.toNat && c.toNat < 128) = true := by decide
    simpa using List.all_eq_true.mp (hall _ hword) c hc
  · have hle := mem_digits (hprint ▸ hc)
    omega

/-- A sign and digits are read back as the float nearest to what they print. -/
theorem sscanf_digits (neg : Bool) (d n : ℕ)
    (hrange : (Float64.round neg (Float64.signed neg (n / 10 ^ d : ℚ))).IsFinite) :
    sscanf (((if neg then ['-'] else []) ++ FixedPoint.digits d n).flatMap String.utf8EncodeChar)
      = some (Float64.round neg (Float64.signed neg (n / 10 ^ d : ℚ))) := by
  obtain ⟨whole, tail, hnum⟩ := numeral_digits d n
  set text := (if neg then ['-'] else []) ++ FixedPoint.digits d n with htext
  have hascii : ∀ c ∈ text, c.toNat < 128 := fun c hc => by
    have hle := mem_digits hc
    omega
  have hskip : ∀ fuel, skipSpace fuel (text.flatMap String.utf8EncodeChar)
      = text.flatMap String.utf8EncodeChar := by
    intro fuel
    obtain ⟨c, rest, hcons⟩ := List.exists_cons_of_ne_nil (l := text) (by
      obtain ⟨c, rest, hcons, -⟩ := hnum.exists_cons
      rw [htext, hcons]
      exact List.append_ne_nil_of_right_ne_nil _ (List.cons_ne_nil c rest))
    have hc : c ∈ text := hcons ▸ List.mem_cons_self
    have hle := mem_digits hc
    have hbyte : (UInt8.ofNat c.toNat).toNat = c.toNat :=
      UInt8.toNat_ofNat_of_lt ((hascii c hc).trans (by decide))
    rw [hcons, List.flatMap_cons, utf8EncodeChar_of_lt (hascii c hc), List.singleton_append]
    refine skipSpace_of_numeral ⟨UInt8.le_iff_toNat_le.mpr ?_, UInt8.le_iff_toNat_le.mpr ?_⟩ fuel _
    · rw [hbyte]
      exact hle.1
    · rw [hbyte]
      exact hle.2
  have hnop : 'p' ∉ text := fun hp => absurd (mem_digits hp).2 (by decide)
  rw [sscanf, hskip, map_flatMap_utf8EncodeChar hascii, convertFloat, htext,
    floatToken_eq hnum, ← htext, if_neg fun hp => hnop hp.1, htext, floatOrError,
    parseFloat_of_decimal hnum neg (FixedPoint.parseDecimal_digits d n), if_pos hrange]

/-- **What was printed is read back**, as the float that is nearest to the text. -/
theorem sscanf_print (d : ℕ) (x : Float64) :
    sscanf ((FixedPoint.printFloat d x).flatMap String.utf8EncodeChar)
      = some (FixedPoint.printed d x) := by
  cases x with
  | nan =>
    show sscanf (['N', 'a', 'N'].flatMap String.utf8EncodeChar) = some .nan
    decide +kernel
  | inf neg =>
    show sscanf (((if neg then '-' else '+') :: ['I', 'n', 'f']).flatMap String.utf8EncodeChar)
      = some (.inf neg)
    cases neg <;> decide +kernel
  | finite neg m => exact sscanf_digits neg d _ (FixedPoint.isFinite_printed d neg m)

end ScanFloat

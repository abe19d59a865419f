/-
Decoding JSON into structures as Go's `encoding/json` does it, from the parsed text on.

A field is found whatever the case of its key.  A null leaves what stood there, as a
missing field does; a value of another type makes the whole an error.

* `struct_isSome` — a structure is decoded just when each of its fields is;
* `struct_float`, `struct_last` — a float is that of a member that is no null, and a field
  of another type is decoded from the last member of its name.
-/
import Mathlib.Data.List.Induction
import Tollwing.ParseFloat

/-- A JSON value; a number is its literal, and a key may stand more than once. -/
inductive Json
  | null
  | bool (b : Bool)
  | num (literal : List Char)
  | str (s : String)
  | arr (items : List Json)
  | obj (fields : List (String × Json))

namespace Json

/-- `foldName`: two letters beyond ASCII are cases of `s` and `k`. -/
def foldName (key : String) : List Char :=
  key.toList.map fun c =>
    if c.toNat = 0x17f then 's' else if c.toNat = 0x212a then 'k' else c.toLower

/-- The number of an unsigned integer. -/
def toUint (bits : ℕ) (literal : List Char) : Option ℕ :=
  if literal ≠ [] ∧ literal.all Char.isDigit ∧ Strings.digitsVal literal < 2 ^ bits then
    some (Strings.digitsVal literal)
  else none

/-! ### Decoders, from what stood there and the value -/

def float (old : Float64) : Json → Option Float64
  | .null => some old
  | .num literal => ParseFloat.floatOrError literal
  | _ => none

def uint (bits : ℕ) (old : ℕ) : Json → Option ℕ
  | .null => some old
  | .num literal => toUint bits literal
  | _ => none

def string (old : String) : Json → Option String
  | .null => some old
  | .str s => some s
  | _ => none

/-- The elements are decoded onto those that stood there. -/
def array {α : Type*} (element : α → Json → Option α) (zero : α) (old : List α) :
    Json → Option (List α)
  | .null => some []
  | .arr items => items.zipIdx.mapM fun item => element (old.getD item.2 zero) item.1
  | _ => none

/-- Field after field, in the order of the text. -/
def struct {α : Type*} (field : List Char → α → Json → Option α) (old : α) : Json → Option α
  | .null => some old
  | .obj fields => fields.foldlM (fun a f => field (foldName f.1) a f.2) old
  | _ => none

/-! ### What is decoded -/

theorem foldlM_isSome {σ β : Type*} {f : σ → β → Option σ} {ok : β → Prop}
    (h : ∀ s b, (f s b).isSome = true ↔ ok b) (l : List β) (s : σ) :
    (l.foldlM f s).isSome = true ↔ ∀ b ∈ l, ok b := by
  induction l generalizing s with
  | nil => exact iff_of_true rfl fun b hb => absurd hb List.not_mem_nil
  | cons b l ih =>
    rw [List.foldlM_cons, List.forall_mem_cons, ← h s b]
    cases hb : f s b with
    | none => exact iff_of_false Bool.false_ne_true fun hall => Bool.false_ne_true hall.1
    | some s' => exact (ih s').trans (and_iff_right rfl).symm

theorem mapM_isSome {α β : Type*} {f : α → Option β} {ok : α → Prop}
    (h : ∀ a, (f a).isSome = true ↔ ok a) (l : List α) :
    (l.mapM f).isSome = true ↔ ∀ a ∈ l, ok a := by
  induction l with
  | nil => exact iff_of_true rfl fun a ha => absurd ha List.not_mem_nil
  | cons a l ih =>
    rw [List.mapM_cons, List.forall_mem_cons, ← h a, ← ih]
    cases f a with
    | none => exact iff_of_false Bool.false_ne_true fun hall => Bool.false_ne_true hall.1
    | some b =>
      cases l.mapM f with
      | none => exact iff_of_false Bool.false_ne_true fun hall => Bool.false_ne_true hall.2
      | some bs => exact iff_of_true rfl ⟨rfl, rfl⟩

/-- A null or a number in the range of floats. -/
def IsFloat : Json → Prop
  | .null => True
  | .num literal => (ParseFloat.floatOrError literal).isSome = true
  | _ => False

def IsUint (bits : ℕ) : Json → Prop
  | .null => True
  | .num literal => (toUint bits literal).isSome = true
  | _ => False

def IsString : Json → Prop
  | .null => True
  | .str _ => True
  | _ => False

/-- A null or an array of what an element may be. -/
def IsArray (element : Json → Prop) : Json → Prop
  | .null => True
  | .arr items => ∀ item ∈ items, element item
  | _ => False

/-- A null or an object each of whose fields may be what it is. -/
def IsStruct (field : List Char → Json → Prop) : Json → Prop
  | .null => True
  | .obj fields => ∀ f ∈ fields, field (foldName f.1) f.2
  | _ => False

theorem float_isSome (old : Float64) (j : Json) : (float old j).isSome = true ↔ IsFloat j := by
  cases j with
  | null => exact iff_of_true rfl trivial
  | num literal => exact Iff.rfl
  | bool | str | arr | obj => exact iff_of_false Bool.false_ne_true id

theorem uint_isSome (bits old : ℕ) (j : Json) :
    (uint bits old j).isSome = true ↔ IsUint bits j := by
  cases j with
  | null => exact iff_of_true rfl trivial
  | num literal => exact Iff.rfl
  | bool | str | arr | obj => exact iff_of_false Bool.false_ne_true id

theorem string_isSome (old : String) (j : Json) :
    (string old j).isSome = true ↔ IsString j := by
  cases j with
  | null | str => exact iff_of_true rfl trivial
  | bool | num | arr | obj => exact iff_of_false Bool.false_ne_true id

theorem array_isSome {α : Type*} {element : α → Json → Option α} {p : Json → Prop} (zero : α)
    (h : ∀ old j, (element old j).isSome = true ↔ p j) (old : List α) (j : Json) :
    (array element zero old j).isSome = true ↔ IsArray p j := by
  cases j with
  | null => exact iff_of_true rfl trivial
  | arr items =>
    refine (mapM_isSome (fun item => h _ item.1) items.zipIdx).trans ?_
    constructor
    · intro hall item hitem
      obtain ⟨i, hi⟩ := List.mem_iff_getElem?.mp hitem
      exact hall (item, i) (List.mem_zipIdx_iff_getElem?.mpr hi)
    · intro hall item hitem
      exact hall item.1 (List.mem_of_getElem? (List.mem_zipIdx_iff_getElem?.mp hitem))
  | bool | num | str | obj => exact iff_of_false Bool.false_ne_true id

theorem struct_isSome {α : Type*} {field : List Char → α → Json → Option α}
    {ok : List Char → Json → Prop}
    (h : ∀ key old j, (field key old j).isSome = true ↔ ok key j) (old : α) (j : Json) :
    (struct field old j).isSome = true ↔ IsStruct ok j := by
  cases j with
  | null => exact iff_of_true rfl trivial
  | obj fields => exact foldlM_isSome (fun a f => h (foldName f.1) a f.2) fields old
  | bool | num | str | arr => exact iff_of_false Bool.false_ne_true id

/-! ### What a field is decoded from -/

/-- The last member of a name. -/
def lastMember (name : List Char) (fields : List (String × Json)) : Option Json :=
  (fields.reverse.find? fun f => foldName f.1 = name).map Prod.snd

/-- An object with a member of the name that is no null. -/
def Given (name : List Char) (j : Json) : Prop :=
  ∃ fields f, j = .obj fields ∧ f ∈ fields ∧ foldName f.1 = name ∧ f.2 ≠ .null

/-- An object with a member of the name that is a number and reads as a float. -/
def HasNumber (name : List Char) (j : Json) (x : Float64) : Prop :=
  ∃ fields f literal, j = .obj fields ∧ f ∈ fields ∧ foldName f.1 = name ∧ f.2 = .num literal ∧
    ParseFloat.floatOrError literal = some x

theorem HasNumber.given {name : List Char} {j : Json} {x : Float64} (h : HasNumber name j x) :
    Given name j := by
  obtain ⟨fields, f, literal, hj, hf, hname, hnum, -⟩ := h
  exact ⟨fields, f, hj, hf, hname, fun hnull => Json.noConfusion (hnull.symm.trans hnum)⟩

section
variable {α β : Type*} {field : List Char → α → Json → Option α} {name : List Char}
  {decode : β → Json → Option β} {π : α → β}

/-- The members of a name are decoded into a field, and no others are. -/
def Decodes (field : List Char → α → Json → Option α) (name : List Char)
    (decode : β → Json → Option β) (π : α → β) : Prop :=
  ∀ key a j a', field key a j = some a' →
    if key = name then decode (π a) j = some (π a') else π a' = π a

/-- A float that was decoded is that of a member, if one is given. -/
theorem struct_float {π : α → Float64} (h : Decodes field name float π) {old a : α}
    {fields : List (String × Json)} (hdec : struct field old (.obj fields) = some a)
    (hgiven : Given name (.obj fields)) : HasNumber name (.obj fields) (π a) := by
  -- the last member that is no null leaves the float
  have hcases : ∀ a, fields.foldlM (fun a f => field (foldName f.1) a f.2) old = some a →
      (∃ f literal, f ∈ fields ∧ foldName f.1 = name ∧ f.2 = .num literal ∧
        ParseFloat.floatOrError literal = some (π a)) ∨
      ∀ f ∈ fields, foldName f.1 = name → f.2 = .null := by
    clear hdec hgiven
    induction fields using List.reverseRecOn with
    | nil => exact fun a _ => Or.inr fun f hf => absurd hf List.not_mem_nil
    | append_singleton fields f ih =>
      intro a hdec
      rw [List.foldlM_append] at hdec
      obtain ⟨b, hb, hlast⟩ := Option.bind_eq_some_iff.mp hdec
      have hlast : field (foldName f.1) b f.2 = some a := by
        simpa only [List.foldlM_cons, List.foldlM_nil, bind_pure] using hlast
      have hfield := h _ _ _ _ hlast
      by_cases hname : foldName f.1 = name
      · rw [if_pos hname] at hfield
        cases hj : f.2 with
        | null =>
          rw [hj, float] at hfield
          rw [← Option.some_inj.mp hfield]
          refine (ih b hb).imp ?_ ?_
          · rintro ⟨g, literal, hg, hrest⟩
            exact ⟨g, literal, List.mem_append_left _ hg, hrest⟩
          · intro hnull g hg hgname
            rcases List.mem_append.mp hg with hg | hg
            · exact hnull g hg hgname
            · rw [List.mem_singleton.mp hg, hj]
        | num literal =>
          rw [hj] at hfield
          exact Or.inl ⟨f, literal, List.mem_append_right _ (List.mem_singleton_self f), hname, hj,
            hfield⟩
        | bool | str | arr | obj =>
          rw [hj] at hfield
          exact absurd hfield nofun
      · rw [if_neg hname] at hfield
        rw [hfield]
        refine (ih b hb).imp ?_ ?_
        · rintro ⟨g, literal, hg, hrest⟩
          exact ⟨g, literal, List.mem_append_left _ hg, hrest⟩
        · intro hnull g hg hgname
          rcases List.mem_append.mp hg with hg | hg
          · exact hnull g hg hgname
          · exact absurd (List.mem_singleton.mp hg ▸ hgname) hname
  obtain ⟨fields', f, hobj, hf, hname, hnull⟩ := hgiven
  obtain rfl := Json.obj.inj hobj
  rcases hcases a hdec with ⟨g, literal, hg⟩ | hall
  · exact ⟨fields, g, literal, rfl, hg⟩
  · exact absurd (hall f hf hname) hnull

/-- A field is what was decoded from the last member of its name. -/
theorem struct_last (h : Decodes field name decode π) {old a : α}
    {fields : List (String × Json)} (hdec : struct field old (.obj fields) = some a) {j : Json}
    (hlast : lastMember name fields = some j) : ∃ before, decode before j = some (π a) := by
  rw [struct] at hdec
  induction fields using List.reverseRecOn generalizing a with
  | nil => exact absurd hlast nofun
  | append_singleton fields f ih =>
    rw [List.foldlM_append] at hdec
    obtain ⟨b, hb, hone⟩ := Option.bind_eq_some_iff.mp hdec
    have hone : field (foldName f.1) b f.2 = some a := by
      simpa only [List.foldlM_cons, List.foldlM_nil, bind_pure] using hone
    have hfield := h _ _ _ _ hone
    rw [lastMember, List.reverse_concat, List.find?_cons] at hlast
    by_cases hname : foldName f.1 = name
    · rw [if_pos hname] at hfield
      simp only [hname, decide_true, Option.map_some, Option.some_inj] at hlast
      exact ⟨π b, hlast ▸ hfield⟩
    · rw [if_neg hname] at hfield
      simp only [hname, decide_false] at hlast
      rw [hfield]
      exact ih hb hlast

end

/-- Every element is decoded from its item. -/
theorem array_forall₂ {α : Type*} {element : α → Json → Option α} {zero : α} {old as : List α}
    {items : List Json} (h : array element zero old (.arr items) = some as) :
    List.Forall₂ (fun item a => ∃ before, element before item = some a) items as := by
  have hmap : ∀ (pairs : List (Json × ℕ)) (as : List α),
      (pairs.mapM fun item => element (old.getD item.2 zero) item.1) = some as →
        List.Forall₂ (fun item a => ∃ before, element before item = some a)
          (pairs.map Prod.fst) as := by
    intro pairs
    induction pairs with
    | nil =>
      intro as has
      obtain rfl : [] = as := Option.some_inj.mp has
      exact List.Forall₂.nil
    | cons pair pairs ih =>
      intro as has
      rw [List.mapM_cons] at has
      obtain ⟨a, ha, hrest⟩ := Option.bind_eq_some_iff.mp has
      obtain ⟨as', has', hcons⟩ := Option.bind_eq_some_iff.mp hrest
      obtain rfl := Option.some_inj.mp hcons
      exact List.Forall₂.cons ⟨_, ha⟩ (ih as' has')
  have hitems := hmap items.zipIdx as h
  rwa [List.zipIdx_map_fst] at hitems

end Json

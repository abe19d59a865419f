/-
Coloured depth-first search.

A directed graph is the list of successors of each node.  A visit paints its
node gray, goes through the successors and paints it black; a gray successor
is a cycle.  The fuel bounds how deep visits nest.

* `ColoredSearch.visit_outcome` — what one visit leaves: the gray nodes are the
  same, the black ones are closed under successors and lie on no cycle;
* `ColoredSearch.search_eq` — from white, with fuel for every node, the search
  ends and tells whether there is a cycle.
-/
import Mathlib.Logic.Relation
import Mathlib.Logic.Function.Basic
import Mathlib.Data.Finset.Card
import Mathlib.Data.Finset.Dedup

namespace ColoredSearch

inductive Color
  | white | gray | black
  deriving DecidableEq, Repr

variable {V : Type*}

/-- Goes through the successors of a node; tells whether a cycle was met, and the
colours then. -/
def scan (visit : V → (V → Color) → Option (Bool × (V → Color))) :
    List V → (V → Color) → Option (Bool × (V → Color))
  | [], color => some (false, color)
  | w :: ws, color =>
    match color w with
    | .gray => some (true, color)
    | .black => scan visit ws color
    | .white =>
      match visit w color with
      | some (false, color) => scan visit ws color
      | r => r

/-- Visits a node; `none` is out of fuel. -/
def visit [DecidableEq V] (succ : V → List V) : ℕ → V → (V → Color) → Option (Bool × (V → Color))
  | 0, _, _ => none
  | fuel + 1, n, color =>
    match scan (visit succ fuel) (succ n) (Function.update color n .gray) with
    | some (false, color) => some (false, Function.update color n .black)
    | r => r

/-- Visits the nodes that are still white, until one meets a cycle. -/
def search (visit : V → (V → Color) → Option (Bool × (V → Color))) :
    List V → (V → Color) → Option Bool
  | [], _ => some false
  | r :: rs, color =>
    if color r = .white then
      match visit r color with
      | some (false, color) => search visit rs color
      | some (true, _) => some true
      | none => none
    else search visit rs color

/-! ### What a visit leaves -/

section

variable (succ : V → List V)

/-- The edges of the graph. -/
def Step (v w : V) : Prop := w ∈ succ v

/-- The black nodes have black successors only, and lie on no cycle. -/
structure Done (color : V → Color) : Prop where
  closed : ∀ v, color v = .black → ∀ w ∈ succ v, color w = .black
  acyclic : ∀ v, color v = .black → ¬Relation.TransGen (Step succ) v v

/-- The colours after a part of the search that met no cycle. -/
structure Extends (color color' : V → Color) : Prop where
  done : Done succ color'
  gray : ∀ v, color' v = .gray ↔ color v = .gray
  black : ∀ v, color v = .black → color' v = .black

/-- A part of the search ends: it met a cycle, or it extends the colours to
some with `post`. -/
def Outcome (color : V → Color) (post : (V → Color) → Prop) :
    Option (Bool × (V → Color)) → Prop
  | none => False
  | some (true, _) => ∃ v, Relation.TransGen (Step succ) v v
  | some (false, color') => Extends succ color color' ∧ post color'

/-- What the search is at when it comes to `n`: every gray node leads there. -/
structure At (n : V) (color : V → Color) : Prop where
  done : Done succ color
  reach : ∀ v, color v = .gray → Relation.ReflTransGen (Step succ) v n

end

variable {succ : V → List V}

theorem Extends.refl {color : V → Color} (h : Done succ color) : Extends succ color color :=
  ⟨h, fun _ => Iff.rfl, fun _ hb => hb⟩

theorem Extends.trans {c₁ c₂ c₃ : V → Color} (h : Extends succ c₁ c₂) (h' : Extends succ c₂ c₃) :
    Extends succ c₁ c₃ :=
  ⟨h'.done, fun v => (h'.gray v).trans (h.gray v), fun v hb => h'.black v (h.black v hb)⟩

/-- No node turns white. -/
theorem Extends.white {color color' : V → Color} (h : Extends succ color color') {v : V}
    (hw : color' v = .white) : color v = .white := by
  cases hv : color v with
  | white => rfl
  | gray => exact absurd (hw.symm.trans ((h.gray v).mpr hv)) nofun
  | black => exact absurd (hw.symm.trans (h.black v hv)) nofun

/-- What is reached from a black node is black. -/
theorem Done.black_of_reach {color : V → Color} (h : Done succ color) {v w : V}
    (hv : color v = .black) (hvw : Relation.ReflTransGen (Step succ) v w) :
    color w = .black := by
  induction hvw with
  | refl => exact hv
  | tail _ hstep ih => exact h.closed _ ih _ hstep

/-- The search goes on from the colours that it has reached. -/
theorem Extends.at {n : V} {color color' : V → Color} (h : Extends succ color color')
    (hat : At succ n color) : At succ n color' :=
  ⟨h.done, fun v hv => hat.reach v ((h.gray v).mp hv)⟩

/-- The outcome of a later part is an outcome of the whole. -/
theorem Outcome.mono {c₁ c₂ : V → Color} {p q : (V → Color) → Prop}
    {r : Option (Bool × (V → Color))} (h : Extends succ c₁ c₂) (hr : Outcome succ c₂ p r)
    (hpq : ∀ c₃, Extends succ c₂ c₃ → p c₃ → q c₃) : Outcome succ c₁ q r := by
  rcases r with _ | ⟨_ | _, c₃⟩
  · exact hr
  · exact ⟨h.trans hr.1, hpq c₃ hr.1 hr.2⟩
  · exact hr

/-- The white nodes of a set. -/
def whites (s : Finset V) (color : V → Color) : ℕ := (s.filter fun v => color v = .white).card

theorem Extends.whites_le {color color' : V → Color} (h : Extends succ color color')
    (s : Finset V) : whites s color' ≤ whites s color := by
  refine Finset.card_le_card fun v hv => ?_
  rw [Finset.mem_filter] at hv ⊢
  exact ⟨hv.1, h.white hv.2⟩

/-- Going through successors, if visits of white nodes end as they should. -/
theorem scan_outcome {visit : V → (V → Color) → Option (Bool × (V → Color))} {s : Finset V}
    {fuel : ℕ} {n : V}
    (hvisit : ∀ w ∈ s, ∀ color, color w = .white → At succ w color → whites s color ≤ fuel →
      Outcome succ color (fun c => c w = .black) (visit w color))
    (ws : List V) (hws : ∀ w ∈ ws, w ∈ s ∧ Step succ n w) (color : V → Color)
    (hat : At succ n color) (hfuel : whites s color ≤ fuel) :
    Outcome succ color (fun c => ∀ w ∈ ws, c w = .black) (scan visit ws color) := by
  induction ws generalizing color with
  | nil => exact ⟨Extends.refl hat.done, nofun⟩
  | cons w ws ih =>
    obtain ⟨⟨hws_mem, hstep⟩, hrest⟩ := List.forall_mem_cons.mp hws
    rw [scan]
    cases hw : color w with
    | gray => exact ⟨w, Relation.TransGen.tail' (hat.reach w hw) hstep⟩
    | black =>
      refine Outcome.mono (Extends.refl hat.done) (ih hrest color hat hfuel) fun c hc hpost => ?_
      exact List.forall_mem_cons.mpr ⟨hc.black w hw, hpost⟩
    | white =>
      have hchild : At succ w color := ⟨hat.done, fun v hv => (hat.reach v hv).tail hstep⟩
      have hout := hvisit w hws_mem color hw hchild hfuel
      rcases hr : visit w color with _ | ⟨_ | _, color'⟩
      · rw [hr] at hout
        exact hout
      · rw [hr] at hout
        obtain ⟨hext, hblack⟩ := hout
        have hle : whites s color' ≤ fuel := (hext.whites_le s).trans hfuel
        refine Outcome.mono hext (ih hrest color' (hext.at hat) hle) fun c hc hpost => ?_
        exact List.forall_mem_cons.mpr ⟨hc.black w hblack, hpost⟩
      · rw [hr] at hout
        exact hout

variable [DecidableEq V]

/-- A node that is painted gray is no longer white. -/
theorem whites_update_lt {s : Finset V} {color : V → Color} {n : V} (hn : n ∈ s)
    (hw : color n = .white) : whites s (Function.update color n .gray) < whites s color := by
  refine Finset.card_lt_card ⟨fun v hv => ?_, fun hsub => ?_⟩
  · rw [Finset.mem_filter] at hv ⊢
    by_cases hvn : v = n
    · rw [hvn]
      exact ⟨hn, hw⟩
    · rw [Function.update_of_ne hvn] at hv
      exact hv
  · have hmem := hsub (Finset.mem_filter.mpr ⟨hn, hw⟩)
    rw [Finset.mem_filter, Function.update_self] at hmem
    exact absurd hmem.2 nofun

/-- The node that the search comes to turns gray. -/
theorem At.paint {n : V} {color : V → Color} (hat : At succ n color) (hn : color n = .white) :
    At succ n (Function.update color n .gray) := by
  have hold : ∀ v, Function.update color n .gray v = .black → color v = .black := by
    intro v hv
    by_cases hvn : v = n
    · rw [hvn, Function.update_self] at hv
      exact absurd hv nofun
    · rwa [Function.update_of_ne hvn] at hv
  refine ⟨⟨fun v hv w hw => ?_, fun v hv => hat.done.acyclic v (hold v hv)⟩, fun v hv => ?_⟩
  · have hblack := hat.done.closed v (hold v hv) w hw
    have hwn : w ≠ n := by
      rintro rfl
      exact absurd (hn.symm.trans hblack) nofun
    rw [Function.update_of_ne hwn]
    exact hblack
  · by_cases hvn : v = n
    · rw [hvn]
    · rw [Function.update_of_ne hvn] at hv
      exact hat.reach v hv

/-- A node whose successors are all black turns black. -/
theorem Extends.finish {n : V} {color color' : V → Color} (hn : color n = .white)
    (h : Extends succ (Function.update color n .gray) color')
    (hsucc : ∀ w ∈ succ n, color' w = .black) :
    Extends succ color (Function.update color' n .black) := by
  have hgray : color' n = .gray := (h.gray n).mpr (Function.update_self n _ _)
  have hkeep : ∀ w, color' w = .black → Function.update color' n .black w = .black := by
    intro w hw
    by_cases hwn : w = n
    · rw [hwn, Function.update_self]
    · rwa [Function.update_of_ne hwn]
  refine ⟨⟨fun v hv w hw => ?_, fun v hv => ?_⟩, fun v => ?_, fun v hv => ?_⟩
  · by_cases hvn : v = n
    · exact hkeep w (hsucc w (hvn ▸ hw))
    · rw [Function.update_of_ne hvn] at hv
      exact hkeep w (h.done.closed v hv w hw)
  · by_cases hvn : v = n
    · -- a way back to `n` would make it black before it is finished
      rw [hvn]
      intro hcycle
      obtain ⟨w, hw, hback⟩ := Relation.TransGen.head'_iff.mp hcycle
      exact absurd (hgray.symm.trans (h.done.black_of_reach (hsucc w hw) hback)) nofun
    · rw [Function.update_of_ne hvn] at hv
      exact h.done.acyclic v hv
  · by_cases hvn : v = n
    · rw [hvn, Function.update_self, hn]
      exact ⟨nofun, nofun⟩
    · rw [Function.update_of_ne hvn, h.gray v, Function.update_of_ne hvn]
  · have hvn : v ≠ n := by
      rintro rfl
      exact absurd (hn.symm.trans hv) nofun
    rw [Function.update_of_ne hvn]
    exact h.black v (by rwa [Function.update_of_ne hvn])

/-- **One visit**, with fuel for the white nodes, on a set closed under successors. -/
theorem visit_outcome {s : Finset V} (hs : ∀ v ∈ s, ∀ w ∈ succ v, w ∈ s) (fuel : ℕ) {n : V}
    (hns : n ∈ s) (color : V → Color) (hn : color n = .white) (hat : At succ n color)
    (hfuel : whites s color ≤ fuel) :
    Outcome succ color (fun c => c n = .black) (visit succ fuel n color) := by
  induction fuel generalizing n color with
  | zero =>
    -- `n` itself is white
    have hpos : 0 < whites s color := Finset.card_pos.mpr ⟨n, Finset.mem_filter.mpr ⟨hns, hn⟩⟩
    omega
  | succ fuel ih =>
    have hlt := whites_update_lt hns hn
    have hout := scan_outcome (fun w hw color hwhite hat hle => ih hw color hwhite hat hle)
      (succ n) (fun w hw => ⟨hs n hns w hw, hw⟩) _ (hat.paint hn) (by omega)
    rw [visit]
    rcases hr : scan (visit succ fuel) (succ n) (Function.update color n .gray) with
      _ | ⟨_ | _, color'⟩
    · rw [hr] at hout
      exact hout
    · rw [hr] at hout
      exact ⟨hout.1.finish hn hout.2, Function.update_self n _ _⟩
    · rw [hr] at hout
      exact hout

/-! ### The whole search -/

/-- From finished colours the search ends: with a cycle, or with all its nodes
black and nothing gray. -/
theorem search_outcome {s : Finset V} (hs : ∀ v ∈ s, ∀ w ∈ succ v, w ∈ s) {fuel : ℕ}
    (rs : List V) (hrs : ∀ r ∈ rs, r ∈ s) (color : V → Color) (hdone : Done succ color)
    (hgray : ∀ v, color v ≠ .gray) (hfuel : whites s color ≤ fuel) :
    (search (visit succ fuel) rs color = some true ∧ ∃ v, Relation.TransGen (Step succ) v v) ∨
      search (visit succ fuel) rs color = some false ∧
        ∃ color', Extends succ color color' ∧ ∀ r ∈ rs, color' r = .black := by
  induction rs generalizing color with
  | nil => exact Or.inr ⟨rfl, color, Extends.refl hdone, nofun⟩
  | cons r rs ih =>
    obtain ⟨hr, hrest⟩ := List.forall_mem_cons.mp hrs
    rw [search]
    by_cases hwhite : color r = .white
    · have hat : At succ r color := ⟨hdone, fun v hv => absurd hv (hgray v)⟩
      have hout := visit_outcome hs fuel hr color hwhite hat hfuel
      rw [if_pos hwhite]
      rcases hv : visit succ fuel r color with _ | ⟨_ | _, color'⟩
      · rw [hv] at hout
        exact hout.elim
      · rw [hv] at hout
        obtain ⟨hext, hblack⟩ := hout
        have hgray' : ∀ v, color' v ≠ .gray := fun v hv => hgray v ((hext.gray v).mp hv)
        rcases ih hrest color' hext.done hgray' ((hext.whites_le s).trans hfuel) with
          hcycle | ⟨hfalse, c, hc, hpost⟩
        · exact Or.inl hcycle
        · exact Or.inr ⟨hfalse, c, hext.trans hc,
            List.forall_mem_cons.mpr ⟨hc.black r hblack, hpost⟩⟩
      · rw [hv] at hout
        exact Or.inl ⟨rfl, hout⟩
    · rw [if_neg hwhite]
      -- what is neither white nor gray is black
      have hblack : color r = .black := by
        cases hr : color r with
        | white => exact absurd hr hwhite
        | gray => exact absurd hr (hgray r)
        | black => rfl
      rcases ih hrest color hdone hgray hfuel with hcycle | ⟨hfalse, c, hc, hpost⟩
      · exact Or.inl hcycle
      · exact Or.inr ⟨hfalse, c, hc, List.forall_mem_cons.mpr ⟨hc.black r hblack, hpost⟩⟩

/-- **The search ends and tells whether there is a cycle**, if its nodes are all
that have an edge and the fuel is for each of them. -/
theorem search_eq {roots : List V} (hroots : ∀ v w, w ∈ succ v → v ∈ roots ∧ w ∈ roots)
    {fuel : ℕ} (hfuel : roots.length ≤ fuel) :
    ∃ b, search (visit succ fuel) roots (fun _ => .white) = some b ∧
      (b = true ↔ ∃ v, Relation.TransGen (Step succ) v v) := by
  have hs : ∀ v ∈ roots.toFinset, ∀ w ∈ succ v, w ∈ roots.toFinset := fun v _ w hw =>
    List.mem_toFinset.mpr (hroots v w hw).2
  have hwhites : whites roots.toFinset (fun _ => .white) ≤ fuel :=
    ((Finset.card_filter_le _ _).trans (List.toFinset_card_le roots)).trans hfuel
  rcases search_outcome hs roots (fun r hr => List.mem_toFinset.mpr hr) (fun _ => .white)
    ⟨nofun, nofun⟩ nofun hwhites with ⟨htrue, hcycle⟩ | ⟨hfalse, c, hc, hblack⟩
  · exact ⟨true, htrue, iff_of_true rfl hcycle⟩
  · refine ⟨false, hfalse, iff_of_false nofun ?_⟩
    rintro ⟨v, hv⟩
    -- a node on a cycle has an edge
    obtain ⟨w, hw, -⟩ := Relation.TransGen.head'_iff.mp hv
    exact hc.done.acyclic v (hblack v (hroots v w hw).1) hv

end ColoredSearch

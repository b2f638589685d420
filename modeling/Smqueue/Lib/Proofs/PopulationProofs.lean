import Smqueue.Lib.Population
import Mathlib.Data.List.Basic

/-!
# Proofs: populations

How evolutions compose, and what a property or a relation that every change keeps says about the
whole population.
-/

namespace Population

variable {α : Type*} {change : α → α → Prop} {incoming : α → Prop} {l l1 l2 : List α} {x x' : α}

theorem Evolves.refl (l : List α) : Evolves change incoming l l :=
  fun x hx => ⟨x, .inl hx, .refl⟩

theorem Evolves.trans (h : Evolves change incoming l l1) (h' : Evolves change incoming l1 l2) :
    Evolves change incoming l l2 := by
  intro x2 hx2
  obtain ⟨x1, hx1, h12⟩ := h' x2 hx2
  rcases hx1 with hx1 | hx1
  · obtain ⟨x, hx, h01⟩ := h x1 hx1
    exact ⟨x, hx, h01.trans h12⟩
  · exact ⟨x1, .inr hx1, h12⟩

/-- Individuals disappear, or are put in another order. -/
theorem Evolves.subset (h : ∀ x ∈ l1, x ∈ l) : Evolves change incoming l l1 :=
  fun x hx => ⟨x, .inl (h x hx), .refl⟩

/-- Every individual of `l1` is one of `l` after a change, or unchanged. -/
theorem Evolves.changed (h : ∀ x' ∈ l1, x' ∈ l ∨ ∃ x ∈ l, change x x') :
    Evolves change incoming l l1 := by
  intro x' hx'
  rcases h x' hx' with hx | ⟨x, hx, hc⟩
  · exact ⟨x', .inl hx, .refl⟩
  · exact ⟨x, .inl hx, .single hc⟩

/-- An individual comes in. -/
theorem Evolves.cons (hx : incoming x) : Evolves change incoming l (x :: l) := by
  intro y hy
  rcases List.mem_cons.1 hy with rfl | hy
  · exact ⟨y, .inr hx, .refl⟩
  · exact ⟨y, .inl hy, .refl⟩

/-- A relation that every change implies, and that can be chained, relates every individual to the one
it stems from. -/
theorem Evolves.related {r : α → α → Prop} (hrefl : ∀ x, r x x)
    (htrans : ∀ x y z, r x y → r y z → r x z) (hr : ∀ x y, change x y → r x y)
    (h : Evolves change incoming l l1) (hx' : x' ∈ l1) :
    ∃ x, (x ∈ l ∨ incoming x) ∧ r x x' := by
  obtain ⟨x, hx, hc⟩ := h x' hx'
  refine ⟨x, hx, ?_⟩
  clear hx'
  induction hc with
  | refl => exact hrefl x
  | tail _ hc ih => exact htrans _ _ _ ih (hr _ _ hc)

/-- A property that every change keeps holds of every individual on the way. -/
theorem Evolves.along {p : α → Prop} (hl : ∀ x ∈ l, p x) (hi : ∀ x, incoming x → p x)
    (hc : ∀ x y, p x → change x y → p y) (h : Evolves change incoming l l1) :
    Evolves (fun x y => change x y ∧ p x ∧ p y) (fun x => incoming x ∧ p x) l l1 ∧
      ∀ x ∈ l1, p x := by
  have hway : ∀ {x y : α}, p x → Relation.ReflTransGen change x y →
      Relation.ReflTransGen (fun x y => change x y ∧ p x ∧ p y) x y ∧ p y := by
    intro x y hx hxy
    induction hxy with
    | refl => exact ⟨.refl, hx⟩
    | tail _ hyz ih =>
      obtain ⟨hxy, hy⟩ := ih
      have hz := hc _ _ hy hyz
      exact ⟨hxy.tail ⟨hyz, hy, hz⟩, hz⟩
  constructor
  · intro y hy
    obtain ⟨x, hx, hxy⟩ := h y hy
    rcases hx with hx | hx
    · exact ⟨x, .inl hx, (hway (hl x hx) hxy).1⟩
    · exact ⟨x, .inr ⟨hx, hi x hx⟩, (hway (hi x hx) hxy).1⟩
  · intro y hy
    obtain ⟨x, hx, hxy⟩ := h y hy
    rcases hx with hx | hx
    · exact (hway (hl x hx) hxy).2
    · exact (hway (hi x hx) hxy).2

theorem Evolves.mono {change' : α → α → Prop} {incoming' : α → Prop}
    (hc : ∀ x y, change x y → change' x y) (hi : ∀ x, incoming x → incoming' x)
    (h : Evolves change incoming l l1) : Evolves change' incoming' l l1 := by
  intro y hy
  obtain ⟨x, hx, hxy⟩ := h y hy
  exact ⟨x, hx.imp_right (hi x), Relation.ReflTransGen.mono hc _ _ hxy⟩

end Population

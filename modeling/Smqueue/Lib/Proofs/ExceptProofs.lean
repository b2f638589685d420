import Mathlib.Data.List.Basic
import Mathlib.Control.Monad.Basic

/-!
# Proofs: computations that may fail

Inversion of a successful run: a sequence succeeds through the results of its parts.
-/

namespace Except

variable {ε α β : Type}

/-- A sequence succeeds when its parts do, one after the other. -/
theorem bind_eq_ok {x : Except ε α} {f : α → Except ε β} {b : β} :
    x >>= f = .ok b ↔ ∃ a, x = .ok a ∧ f a = .ok b := by
  cases x with
  | error e =>
    constructor
    · intro h
      cases h
    · rintro ⟨a, h, -⟩
      cases h
  | ok a =>
    constructor
    · intro h
      exact ⟨a, rfl, h⟩
    · rintro ⟨a', h, hf⟩
      cases h
      exact hf

theorem ok_bind (a : α) (f : α → Except ε β) : (Except.ok a : Except ε α) >>= f = f a := rfl

theorem pure_eq_ok {a b : α} : (pure a : Except ε α) = .ok b ↔ a = b := by
  constructor
  · intro h
    cases h
    rfl
  · rintro rfl
    rfl

theorem map_eq_ok {x : Except ε α} {f : α → β} {b : β} :
    x.map f = .ok b ↔ ∃ a, x = .ok a ∧ f a = b := by
  cases x with
  | error e => simp [Except.map]
  | ok a => simp [Except.map]

theorem map_eq_error {x : Except ε α} {f : α → β} {e : ε} :
    x.map f = .error e ↔ x = .error e := by
  cases x with
  | error e => simp [Except.map]
  | ok a => simp [Except.map]

/-- Every result comes from an element. -/
theorem mem_mapM {f : α → Except ε β} {l : List α} {l' : List β} (h : l.mapM f = .ok l') {y : β}
    (hy : y ∈ l') : ∃ x ∈ l, f x = .ok y := by
  induction l generalizing l' with
  | nil =>
    obtain rfl := pure_eq_ok.1 h
    cases hy
  | cons x l ih =>
    rw [List.mapM_cons] at h
    obtain ⟨y1, hy1, h⟩ := bind_eq_ok.1 h
    obtain ⟨l2, hl, h⟩ := bind_eq_ok.1 h
    obtain rfl := pure_eq_ok.1 h
    rcases List.mem_cons.1 hy with rfl | hy
    · exact ⟨x, List.mem_cons_self .., hy1⟩
    · obtain ⟨x', hx', hf⟩ := ih hl hy
      exact ⟨x', List.mem_cons_of_mem _ hx', hf⟩

/-- A function that succeeds on every element succeeds on the list. -/
theorem mapM_eq_ok {f : α → Except ε β} {g : α → β} {l : List α} (hf : ∀ x ∈ l, f x = .ok (g x)) :
    l.mapM f = .ok (l.map g) := by
  induction l with
  | nil => rfl
  | cons x l ih =>
    rw [List.mapM_cons, hf x (List.mem_cons_self ..), ih fun y hy => hf y (List.mem_cons_of_mem _ hy)]
    rfl

/-- What a function keeps of every element, it keeps of a list. -/
theorem map_eq_of_mapM {f : α → Except ε α} {g : α → β} (hf : ∀ x y, f x = .ok y → g y = g x)
    {l l' : List α} (h : l.mapM f = .ok l') : l'.map g = l.map g := by
  induction l generalizing l' with
  | nil =>
    obtain rfl := pure_eq_ok.1 h
    rfl
  | cons x l ih =>
    rw [List.mapM_cons] at h
    obtain ⟨y, hy, h⟩ := bind_eq_ok.1 h
    obtain ⟨l2, hl, h⟩ := bind_eq_ok.1 h
    obtain rfl := pure_eq_ok.1 h
    rw [List.map_cons, List.map_cons, hf x y hy, ih hl]

end Except

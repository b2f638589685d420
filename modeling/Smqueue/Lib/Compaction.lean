import Mathlib.Data.List.Basic

/-!
# Compaction in place

The loop that squeezes the entries that are not kept out of the front of an array: it walks over the
array with one index and moves each entry to another one, which advances only over entries that are
kept.
-/

namespace Compaction

variable {α : Type*}

/-- The loop over the `n` entries left, from the two indices on: the array, and the end of what is
kept. -/
def loop (keep : α → Bool) : Nat → Nat → Nat → List α → List α × Nat
  | 0, _, j, l => (l, j)
  | n + 1, i, j, l =>
    match l[i]? with
    | none => (l, j)
    | some a =>
      let l := if i ≠ j then l.set j a else l
      loop keep n (i + 1) (if keep a then j + 1 else j) l

/-! ## One turn -/

theorem move_length (l : List α) (i j : Nat) (a : α) :
    (if i ≠ j then l.set j a else l).length = l.length := by
  split
  · exact List.length_set
  · rfl

/-- An entry behind the front of an array. -/
theorem take_set_succ {l : List α} {j : Nat} (a : α) (hj : j < l.length) :
    (l.set j a).take (j + 1) = l.take j ++ [a] := by
  rw [List.take_succ_eq_append_getElem (by rwa [List.length_set]),
    List.take_set_of_le (Nat.le_refl j), List.getElem_set_self]

/-- A move brings the entry to the end of what is kept. -/
theorem take_move {l : List α} {i j : Nat} {a : α} (hi : l[i]? = some a) (hj : j ≤ i) :
    (if i ≠ j then l.set j a else l).take (j + 1) = l.take j ++ [a] := by
  obtain ⟨hlt, ha⟩ := List.getElem?_eq_some_iff.1 hi
  by_cases h : i = j
  · subst h
    rw [if_neg (not_not.2 rfl), List.take_succ_eq_append_getElem hlt, ha]
  · rw [if_pos h]
    exact take_set_succ a (by omega)

/-- What is kept so far stays. -/
theorem take_of_move (l : List α) (i j : Nat) (a : α) :
    (if i ≠ j then l.set j a else l).take j = l.take j := by
  split
  · exact List.take_set_of_le (Nat.le_refl j)
  · rfl

/-- What is still ahead stays. -/
theorem drop_of_move (l : List α) {i j : Nat} (a : α) (hj : j ≤ i) :
    (if i ≠ j then l.set j a else l).drop (i + 1) = l.drop (i + 1) := by
  split
  · exact List.drop_set_of_lt (by omega)
  · rfl

/-! ## The loop -/

theorem loop_length (keep : α → Bool) (n i j : Nat) (l : List α) :
    (loop keep n i j l).1.length = l.length := by
  fun_induction loop keep n i j l with
  | case1 => rfl
  | case2 => rfl
  | case3 n i j l a hi l' ih => rw [ih, move_length]

/-- The front of the array becomes what was kept before, and behind it the entries kept by the loop. -/
theorem take_loop (keep : α → Bool) (n i j : Nat) (l : List α) (hj : j ≤ i)
    (hn : i + n ≤ l.length) :
    (loop keep n i j l).1.take (loop keep n i j l).2 =
      l.take j ++ ((l.drop i).take n).filter keep := by
  fun_induction loop keep n i j l with
  | case1 => simp
  | case2 n i j l hi =>
    rw [List.getElem?_eq_none_iff] at hi
    omega
  | case3 n i j l a hi l' ih =>
    have hlen : l'.length = l.length := move_length l i j a
    obtain ⟨hlt, ha⟩ := List.getElem?_eq_some_iff.1 hi
    have hahead : (l.drop i).take (n + 1) = a :: (l.drop (i + 1)).take n := by
      rw [List.drop_eq_getElem_cons hlt, List.take_succ_cons, ha]
    have hrest : l'.drop (i + 1) = l.drop (i + 1) := drop_of_move l a hj
    rw [hahead]
    by_cases hkeep : keep a = true
    · rw [if_pos hkeep] at ih ⊢
      rw [ih (by omega) (by omega), hrest, take_move hi hj, List.filter_cons_of_pos hkeep,
        List.append_assoc, List.singleton_append]
    · rw [if_neg hkeep] at ih ⊢
      rw [ih (by omega) (by omega), hrest, take_of_move, List.filter_cons_of_neg hkeep]

theorem loop_le (keep : α → Bool) (n i j : Nat) (l : List α) (hj : j ≤ i) :
    (loop keep n i j l).2 ≤ i + n := by
  fun_induction loop keep n i j l with
  | case1 => omega
  | case2 => omega
  | case3 n i j l a hi l' ih =>
    by_cases hkeep : keep a = true
    · rw [if_pos hkeep] at ih ⊢
      have hle := ih (by omega)
      omega
    · rw [if_neg hkeep] at ih ⊢
      have hle := ih (by omega)
      omega

/-- The front of an array after the loop: what is kept of it, and nothing else. -/
theorem take_compacted (keep : α → Bool) {n : Nat} {l : List α} (hn : n ≤ l.length) :
    (loop keep n 0 0 l).1.take (loop keep n 0 0 l).2 = (l.take n).filter keep := by
  rw [take_loop keep n 0 0 l (Nat.le_refl 0) (by omega)]
  rfl

theorem compacted_length (keep : α → Bool) {n : Nat} {l : List α} (hn : n ≤ l.length) :
    (loop keep n 0 0 l).2 = ((l.take n).filter keep).length := by
  have hle := loop_le keep n 0 0 l (Nat.le_refl 0)
  rw [← take_compacted keep hn, List.length_take, loop_length]
  omega

end Compaction

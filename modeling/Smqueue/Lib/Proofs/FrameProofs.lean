import Smqueue.Lib.Frame

/-!
# Proofs: reading and writing bit frames

How readers compose, which errors they end in, and what a sequence of writers leaves on a sheet.
-/

namespace Frame

variable {ε α β : Type}

/-! ## Readers -/

theorem bind_apply (r : Reader ε α) (f : α → Reader ε β) (p : Nat) :
    (r >>= f) p = (r p).bind fun x => f x.1 x.2 := rfl

theorem liftM_ok_bind (a : α) (f : α → Reader ε β) :
    (liftM (Except.ok a : Except ε α) : Reader ε α) >>= f = f a := rfl

theorem field_apply (e : ε) (src : List Bool) (n p : Nat) :
    field e src n p =
      if p + n ≤ src.length then .ok (ofBits ((src.drop p).take n), p + n) else .error e := by
  unfold field peek
  split <;> rfl

theorem fieldReversed_apply (e : ε) (src : List Bool) (n p : Nat) :
    fieldReversed e src n p =
      if p + n ≤ src.length then .ok (ofBits ((src.drop p).take n).reverse, p + n)
      else .error e := by
  unfold fieldReversed peekReversed
  split <;> rfl

/-- A run of `r >>= f` succeeds when `r` and then `f` do. -/
theorem bind_ok {r : Reader ε α} {f : α → Reader ε β} {p q : Nat} {b : β} :
    (r >>= f) p = .ok (b, q) ↔ ∃ a p', r p = .ok (a, p') ∧ f a p' = .ok (b, q) := by
  rw [bind_apply]
  cases hp : r p with
  | error e =>
    constructor
    · intro h
      cases h
    · rintro ⟨a, p', h, -⟩
      cases h
  | ok x =>
    constructor
    · intro h
      exact ⟨x.1, x.2, rfl, h⟩
    · rintro ⟨a, p', h, hf⟩
      obtain rfl : x = (a, p') := by injection h
      exact hf

theorem bind_succeeds {r : Reader ε α} {f : α → Reader ε β} {p p' q : Nat} {a : α}
    (hr : r p = .ok (a, p')) (hf : ∃ b, f a p' = .ok (b, q)) : ∃ b, (r >>= f) p = .ok (b, q) := by
  obtain ⟨b, hb⟩ := hf
  exact ⟨b, bind_ok.2 ⟨a, p', hr, hb⟩⟩

/-- A run of `r >>= f` ends in an error of `r`, or in one of `f` after `r`. -/
theorem bind_error {r : Reader ε α} {f : α → Reader ε β} {p : Nat} {e : ε} :
    (r >>= f) p = .error e ↔
      r p = .error e ∨ ∃ a q, r p = .ok (a, q) ∧ f a q = .error e := by
  rw [bind_apply]
  cases hp : r p with
  | error e' =>
    constructor
    · intro h
      injection h with h
      exact .inl (congrArg _ h)
    · rintro (h | ⟨a, q, h, -⟩)
      · injection h with h
        exact congrArg _ h
      · cases h
  | ok x =>
    constructor
    · intro h
      exact .inr ⟨x.1, x.2, rfl, h⟩
    · rintro (h | ⟨a, q, h, hf⟩)
      · cases h
      · obtain rfl : x = (a, q) := by injection h
        exact hf

theorem field_error {e : ε} {src : List Bool} {n p : Nat} :
    field e src n p = .error e ↔ src.length < p + n := by
  rw [field_apply]
  by_cases hp : p + n ≤ src.length
  · rw [if_pos hp]
    exact iff_of_false (fun h => by cases h) (Nat.not_lt.2 hp)
  · rw [if_neg hp]
    exact iff_of_true rfl (Nat.not_le.1 hp)

theorem liftM_bind_ok {x : Except ε α} {f : α → Reader ε β} {p q : Nat} {b : β} :
    ((liftM x : Reader ε α) >>= f) p = .ok (b, q) ↔ ∃ a, x = .ok a ∧ f a p = .ok (b, q) := by
  cases x with
  | error e =>
    constructor
    · intro h
      cases h
    · rintro ⟨a, h, -⟩
      cases h
  | ok a =>
    constructor
    · intro h
      exact ⟨a, rfl, h⟩
    · rintro ⟨a', h, hf⟩
      cases h
      exact hf

theorem field_ok {e : ε} {src : List Bool} {n p q v : Nat} :
    field e src n p = .ok (v, q) ↔
      p + n ≤ src.length ∧ v = ofBits ((src.drop p).take n) ∧ q = p + n := by
  rw [field_apply]
  by_cases hp : p + n ≤ src.length
  · rw [if_pos hp]
    constructor
    · intro h
      injection h with h
      obtain ⟨hv, hq⟩ := Prod.mk.inj h
      exact ⟨hp, hv.symm, hq.symm⟩
    · rintro ⟨-, rfl, rfl⟩
      rfl
  · rw [if_neg hp]
    constructor
    · intro h
      cases h
    · rintro ⟨h, -⟩
      exact absurd h hp

/-- No run of `r` ends in an error that `bad` selects. -/
def Avoids (bad : ε → Prop) (r : Reader ε α) : Prop := ∀ p e, r p = .error e → ¬ bad e

variable {bad : ε → Prop}

theorem Avoids.pure (a : α) : Avoids bad (Pure.pure a : Reader ε α) := by
  intro p e h
  cases h

theorem Avoids.get : Avoids bad (get : Reader ε Nat) := by
  intro p e h
  cases h

theorem Avoids.modify (f : Nat → Nat) : Avoids bad (modify f : Reader ε PUnit) := by
  intro p e h
  cases h

theorem Avoids.bind {r : Reader ε α} {f : α → Reader ε β} (hr : Avoids bad r)
    (hf : ∀ a, Avoids bad (f a)) : Avoids bad (r >>= f) := by
  intro p e h
  rw [bind_apply] at h
  cases hp : r p with
  | error e' =>
    rw [hp] at h
    obtain rfl : e' = e := by injection h
    exact hr p e' hp
  | ok x =>
    rw [hp] at h
    exact hf x.1 x.2 e h

theorem Avoids.field {e : ε} (he : ¬ bad e) (src : List Bool) (n : Nat) :
    Avoids bad (field e src n) := by
  intro p e' h
  rw [field_apply] at h
  split at h
  · cases h
  · obtain rfl : e = e' := by injection h
    exact he

/-- A run of `r >>= f` fails badly in `r`, or in `f` after `r`. -/
theorem bind_fails_iff {r : Reader ε α} {f : α → Reader ε β} {p : Nat} :
    (∃ e, (r >>= f) p = .error e ∧ bad e) ↔
      (∃ e, r p = .error e ∧ bad e) ∨
        ∃ a q, r p = .ok (a, q) ∧ ∃ e, f a q = .error e ∧ bad e := by
  rw [bind_apply]
  cases hp : r p with
  | error e =>
    constructor
    · rintro ⟨e', h, hb⟩
      obtain rfl : e = e' := by injection h
      exact .inl ⟨e, rfl, hb⟩
    · rintro (⟨e', h, hb⟩ | ⟨a, q, h, -⟩)
      · obtain rfl : e = e' := by injection h
        exact ⟨e, rfl, hb⟩
      · cases h
  | ok x =>
    obtain ⟨a, q⟩ := x
    constructor
    · rintro ⟨e, h, hb⟩
      exact .inr ⟨a, q, rfl, e, h, hb⟩
    · rintro (⟨e, h, -⟩ | ⟨a', q', h, e, he, hb⟩)
      · cases h
      · injection h with h
        obtain ⟨rfl, rfl⟩ := Prod.mk.inj h
        exact ⟨e, he, hb⟩

/-- A field that is read in front of `f` only moves the position. -/
theorem field_bind_fails_iff {e : ε} (he : ¬ bad e) {src : List Bool} {n p : Nat}
    {f : Nat → Reader ε β} :
    (∃ e', (field e src n >>= f) p = .error e' ∧ bad e') ↔
      p + n ≤ src.length ∧
        ∃ e', f (ofBits ((src.drop p).take n)) (p + n) = .error e' ∧ bad e' := by
  rw [bind_fails_iff]
  constructor
  · rintro (⟨e', h, hb⟩ | ⟨a, q, h, hf⟩)
    · exact absurd hb (Avoids.field he src n p e' h)
    · rw [field_apply] at h
      split at h
      next hp =>
        injection h with h
        obtain ⟨rfl, rfl⟩ := Prod.mk.inj h
        exact ⟨hp, hf⟩
      next => cases h
  · rintro ⟨hp, hf⟩
    exact .inr ⟨_, _, by rw [field_apply, if_pos hp], hf⟩

theorem bind_avoids_fails_iff {r : Reader ε α} {f : α → Reader ε β}
    (hf : ∀ a, Avoids bad (f a)) {p : Nat} :
    (∃ e, (r >>= f) p = .error e ∧ bad e) ↔ ∃ e, r p = .error e ∧ bad e := by
  rw [bind_fails_iff]
  refine ⟨?_, .inl⟩
  rintro (h | ⟨a, q, -, e, he, hb⟩)
  · exact h
  · exact absurd hb (hf a q e he)

end Frame

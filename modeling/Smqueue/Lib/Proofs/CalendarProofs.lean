import Smqueue.Lib.Calendar

/-!
# Proofs: the calendar

What a walk has passed and what it leaves make up what there was.
-/

namespace Calendar

variable (size : Nat → Nat)

/-! ## Walking -/

/-- Nothing is lost on a walk. -/
theorem locate_spec (fuel k rest : Nat) : k ≤ (locate size fuel k rest).1 ∧
    total size k ((locate size fuel k rest).1 - k) + (locate size fuel k rest).2 = rest := by
  induction fuel generalizing k rest with
  | zero =>
    refine ⟨Nat.le_refl k, ?_⟩
    change total size k (k - k) + rest = rest
    rw [Nat.sub_self]
    exact Nat.zero_add rest
  | succ fuel ih =>
    unfold locate
    split
    · refine ⟨Nat.le_refl k, ?_⟩
      rw [Nat.sub_self]
      exact Nat.zero_add rest
    · rename_i hrest
      obtain ⟨hle, hsum⟩ := ih (k + 1) (rest - size k)
      set r := locate size fuel (k + 1) (rest - size k)
      refine ⟨by omega, ?_⟩
      have hstep : r.1 - k = (r.1 - (k + 1)) + 1 := by omega
      rw [hstep, total]
      omega

/-- No more steps are made than may be. -/
theorem locate_le (fuel k rest : Nat) : (locate size fuel k rest).1 ≤ k + fuel := by
  induction fuel generalizing k rest with
  | zero => exact Nat.le_refl k
  | succ fuel ih =>
    unfold locate
    split
    · exact Nat.le_add_right k (fuel + 1)
    · have h := ih (k + 1) (rest - size k)
      omega

/-- Sizes that are all at least `m` add up to at least as many times `m`. -/
theorem le_total {m : Nat} (hm : ∀ k, m ≤ size k) (k n : Nat) : m * n ≤ total size k n := by
  induction n generalizing k with
  | zero => exact Nat.le_refl 0
  | succ n ih =>
    have h1 := hm k
    have h2 := ih (k + 1)
    rw [total, Nat.mul_succ]
    omega

/-! ## Dates -/

/-- The time so many seconds after the beginning of 1970 is that many seconds after it. -/
theorem seconds_ofSeconds (n : Nat) : (ofSeconds n).seconds = n := by
  obtain ⟨-, hyears⟩ := locate_spec yearDays (n / 86400) 1970 (n / 86400)
  set years := locate yearDays (n / 86400) 1970 (n / 86400) with hy
  obtain ⟨-, hmonths⟩ := locate_spec (monthDays years.1) 11 0 years.2
  set months := locate (monthDays years.1) 11 0 years.2 with hmo
  have hdays : (ofSeconds n).days = (n / 86400 : Nat) := by
    change ((total yearDays 1970 (years.1 - 1970) : Nat) : Int) +
      (total (monthDays years.1) 0 months.1 : Nat) + ((months.2 + 1 : Nat) : Int) - 1 = _
    rw [Nat.sub_zero] at hmonths
    omega
  unfold Civil.seconds
  rw [hdays]
  change (((n / 86400 : Nat) * 24 + ((n / 3600 % 24 : Nat) : Int)) * 60 + ((n / 60 % 60 : Nat) : Int)) *
    60 + ((n % 60 : Nat) : Int) = n
  omega

theorem ofSeconds_year (n : Nat) : 1970 ≤ (ofSeconds n).year :=
  (locate_spec yearDays (n / 86400) 1970 (n / 86400)).1

theorem ofSeconds_month (n : Nat) : (ofSeconds n).month < 12 := by
  let years := locate yearDays (n / 86400) 1970 (n / 86400)
  have h := locate_le (monthDays years.1) 11 0 years.2
  exact Nat.lt_succ_of_le h

/-- A time is at least as many years of 365 days after 1970, less a day, as its year says. -/
theorem le_seconds (c : Civil) : (365 * ((c.year - 1970 : Nat) : Int) - 1) * 86400 ≤ c.seconds := by
  have hyears := le_total yearDays (m := 365)
    (fun y => by unfold yearDays; split <;> omega) 1970 (c.year - 1970)
  have hdays : 365 * ((c.year - 1970 : Nat) : Int) - 1 ≤ c.days := by
    unfold Civil.days
    omega
  unfold Civil.seconds
  omega

end Calendar

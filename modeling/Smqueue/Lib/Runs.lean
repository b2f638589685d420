import Mathlib.Logic.Relation

/-!
# Runs of a labelled transition system

A run starts in an initial state and takes labelled steps; a guarded run takes only steps that meet
a condition on the state before the step and on its label. An invariant that every guarded step
preserves holds in every state of a guarded run (`GuardedRun.invariant`). Where the label determines
the step, the states that a sequence of labels reaches can be compared with the steps that it takes
(`always_iff_eachStep`), and what the steps cost with the potential of the states (`total_add_le`).
-/

namespace Runs

variable {State Label : Type*}

/-- The states of the runs of `step` from an initial state, all of whose steps meet `guard`. -/
inductive GuardedRun (init : State → Prop) (step : State → Label → State → Prop)
    (guard : State → Label → Prop) : State → Prop where
  /-- A run of no steps. -/
  | start {s : State} (h : init s) : GuardedRun init step guard s
  /-- One more step. -/
  | next {s t : State} {a : Label} (h : GuardedRun init step guard s) (hg : guard s a)
      (hs : step s a t) : GuardedRun init step guard t

/-- The states of all runs: no step is excluded. -/
abbrev Reachable (init : State → Prop) (step : State → Label → State → Prop) : State → Prop :=
  GuardedRun init step fun _ _ => True

variable {init : State → Prop} {step : State → Label → State → Prop}
  {guard guard' : State → Label → Prop}

/-- A property that holds initially and that every guarded step preserves holds along the run. -/
theorem GuardedRun.invariant (inv : State → Prop) (h0 : ∀ s, init s → inv s)
    (hstep : ∀ s a t, inv s → guard s a → step s a t → inv t) {s : State}
    (h : GuardedRun init step guard s) : inv s := by
  induction h with
  | start h => exact h0 _ h
  | next _ hg hs ih => exact hstep _ _ _ ih hg hs

/-- A weaker guard admits more runs. -/
theorem GuardedRun.mono (hg : ∀ s a, guard s a → guard' s a) {s : State}
    (h : GuardedRun init step guard s) : GuardedRun init step guard' s := by
  induction h with
  | start h => exact .start h
  | next _ hguard hs ih => exact .next ih (hg _ _ hguard) hs

/-- Every state of a guarded run is reachable. -/
theorem GuardedRun.reachable {s : State} (h : GuardedRun init step guard s) :
    Reachable init step s :=
  h.mono fun _ _ _ => trivial

/-- A view of the states takes a run to a run, if it does so for every start and every step. -/
theorem GuardedRun.map {View : Type*} {init' : View → Prop} {step' : View → Label → View → Prop}
    {guard' : View → Label → Prop} (view : State → View) (h0 : ∀ s, init s → init' (view s))
    (hstep : ∀ s a t, guard s a → step s a t →
      guard' (view s) a ∧ step' (view s) a (view t)) {s : State}
    (h : GuardedRun init step guard s) : GuardedRun init' step' guard' (view s) := by
  induction h with
  | start h => exact .start (h0 _ h)
  | next _ hg hs ih =>
    obtain ⟨hg', hs'⟩ := hstep _ _ _ hg hs
    exact .next ih hg' hs'

/-! ## Sequences of labels -/

section Deterministic

variable {move : State → Label → Option State}

/-- The state after a sequence of labels, where a label may have no step. -/
def run (move : State → Label → Option State) : State → List Label → Option State
  | s, [] => some s
  | s, a :: as => (move s a).bind fun t => run move t as

theorem run_append (s : State) (as bs : List Label) :
    run move s (as ++ bs) = (run move s as).bind fun t => run move t bs := by
  induction as generalizing s with
  | nil => rfl
  | cons a as ih =>
    change ((move s a).bind fun t => run move t (as ++ bs)) = _
    cases h : move s a with
    | none => simp [run, h]
    | some t => simp [run, h, ih]

/-- The property holds in each state that a sequence of labels reaches. -/
def Always (move : State → Label → Option State) (P : State → Prop) : State → List Label → Prop
  | s, [] => P s
  | s, a :: as => P s ∧ ∀ t, move s a = some t → Always move P t as

/-- The guard holds of each step that a sequence of labels takes. -/
def EachStep (move : State → Label → Option State) (guard : State → Label → Prop) :
    State → List Label → Prop
  | _, [] => True
  | s, a :: as => ∀ t, move s a = some t → guard s a ∧ EachStep move guard t as

/-- What the steps of a sequence of labels cost together. -/
def total (move : State → Label → Option State) (cost : State → Label → Nat) :
    State → List Label → Nat
  | _, [] => 0
  | s, a :: as => cost s a + (move s a).elim 0 fun t => total move cost t as

/-- What every step keeps holds after a sequence of labels. -/
theorem run_invariant {inv : State → Prop} (hinv : ∀ s a t, inv s → move s a = some t → inv t)
    {as : List Label} {s t : State} (h : run move s as = some t) (hs : inv s) : inv t := by
  induction as generalizing s with
  | nil =>
    cases h
    exact hs
  | cons a as ih =>
    obtain ⟨r, hr, hrest⟩ := Option.bind_eq_some_iff.1 h
    exact ih hrest (hinv s a r hs hr)

/-- Where each step, seen through `view`, is a sequence of steps of `small`, so is each sequence of
steps. -/
theorem run_view {View : Type*} {small : View → View → Prop} (view : State → View)
    {inv : State → Prop} (hinv : ∀ s a t, inv s → move s a = some t → inv t)
    (hview : ∀ s a t, inv s → move s a = some t →
      Relation.ReflTransGen small (view s) (view t))
    {as : List Label} {s t : State} (h : run move s as = some t) (hs : inv s) :
    Relation.ReflTransGen small (view s) (view t) := by
  induction as generalizing s with
  | nil =>
    cases h
    exact .refl
  | cons a as ih =>
    obtain ⟨r, hr, hrest⟩ := Option.bind_eq_some_iff.1 h
    exact (hview s a r hs hr).trans (ih hrest (hinv s a r hs hr))

/-- Where a step keeps the property exactly if the guard holds, the property holds in each state
exactly if the guard holds of each step. -/
theorem always_iff_eachStep {P inv : State → Prop} {guard : State → Label → Prop}
    (hinv : ∀ s a t, inv s → move s a = some t → inv t)
    (hstep : ∀ s a t, inv s → P s → move s a = some t → (P t ↔ guard s a)) (as : List Label)
    {s : State} (hs : inv s) (hp : P s) : Always move P s as ↔ EachStep move guard s as := by
  induction as generalizing s with
  | nil => exact iff_of_true hp trivial
  | cons a as ih =>
    constructor
    · rintro ⟨-, h⟩ t ht
      have halways := h t ht
      have hpt : P t := by
        cases as with
        | nil => exact halways
        | cons b bs => exact halways.1
      exact ⟨(hstep s a t hs hp ht).1 hpt, (ih (hinv s a t hs ht) hpt).1 halways⟩
    · intro h
      refine ⟨hp, fun t ht => ?_⟩
      obtain ⟨hg, hrest⟩ := h t ht
      exact (ih (hinv s a t hs ht) ((hstep s a t hs hp ht).2 hg)).2 hrest

theorem total_mul (n : Nat) (cost : State → Label → Nat) (s : State) (as : List Label) :
    total move (fun s a => n * cost s a) s as = n * total move cost s as := by
  induction as generalizing s with
  | nil => rfl
  | cons a as ih =>
    cases h : move s a with
    | none => simp [total, h]
    | some t => simp [total, h, ih, Nat.mul_add]

/-- Where each step is paid for by the potential that it uses up and by what it gains, so is each
sequence of steps. -/
theorem total_add_le {inv : State → Prop} {guard : State → Label → Prop} {potential : State → Nat}
    {cost gain : State → Label → Nat} (hinv : ∀ s a t, inv s → move s a = some t → inv t)
    (hpaid : ∀ s a t, inv s → guard s a → move s a = some t →
      cost s a + potential t ≤ potential s + gain s a)
    {as : List Label} {s t : State} (h : run move s as = some t) (hs : inv s)
    (hg : EachStep move guard s as) :
    total move cost s as + potential t ≤ potential s + total move gain s as := by
  induction as generalizing s with
  | nil =>
    cases h
    exact Nat.le_of_eq (Nat.add_comm _ _)
  | cons a as ih =>
    obtain ⟨r, hr, hrest⟩ := Option.bind_eq_some_iff.1 h
    obtain ⟨hguard, hg⟩ := hg r hr
    have hstep := hpaid s a r hs hguard hr
    have hlater := ih hrest (hinv s a r hs hr) hg
    simp only [total, hr, Option.elim_some]
    omega

/-- Where each step is paid for by the potential that it uses up, so is each sequence of steps. -/
theorem total_le {inv : State → Prop} {potential : State → Nat} {cost : State → Label → Nat}
    (hinv : ∀ s a t, inv s → move s a = some t → inv t)
    (hpaid : ∀ s a t, inv s → move s a = some t → cost s a + potential t ≤ potential s)
    {as : List Label} {s t : State} (h : run move s as = some t) (hs : inv s) :
    total move cost s as + potential t ≤ potential s := by
  induction as generalizing s with
  | nil =>
    cases h
    exact Nat.le_of_eq (Nat.zero_add _)
  | cons a as ih =>
    obtain ⟨r, hr, hrest⟩ := Option.bind_eq_some_iff.1 h
    have hstep := hpaid s a r hs hr
    have hlater := ih hrest (hinv s a r hs hr)
    simp only [total, hr, Option.elim_some]
    omega

end Deterministic

/-! ## Loops -/

/-- The loop that replaces its state by `f` until `f` gives nothing ends after finitely many
turns. -/
inductive Ends (f : State → Option State) : State → Prop where
  | stop {s : State} (h : f s = none) : Ends f s
  | turn {s t : State} (h : f s = some t) (ht : Ends f t) : Ends f s

/-- A loop does not end from a state with a property that every turn keeps. -/
theorem not_ends_of_kept {f : State → Option State} (kept : State → Prop)
    (hk : ∀ s, kept s → ∃ t, f s = some t ∧ kept t) {s : State} (hs : kept s) : ¬ Ends f s := by
  intro h
  induction h with
  | stop h =>
    obtain ⟨t, ht, -⟩ := hk _ hs
    rw [h] at ht
    cases ht
  | turn h _ ih =>
    obtain ⟨t, ht, hkt⟩ := hk _ hs
    rw [h] at ht
    cases ht
    exact ih hkt

end Runs

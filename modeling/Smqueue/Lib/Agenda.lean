import Mathlib.Data.List.Sort

/-!
# Agendas: lists of timed entries

An agenda is a list of entries, each with an identity, a state and the time its next action is due.
It is edited in four ways: a new entry is pushed on the front, an entry is requeued (taken out,
given a new state and time and put back before the first entry that is not due earlier), an entry
is retimed where it stands, and an entry is erased. This file says which edits keep an agenda in
the order of its due times and what they do to the identities.
-/

namespace Agenda

/-- One entry of an agenda. -/
structure Entry (ι σ τ : Type*) where
  /-- The identity of the entry. -/
  id : ι
  /-- Its state. -/
  state : σ
  /-- The time its next action is due. -/
  due : τ
deriving DecidableEq, Repr

variable {ι σ τ : Type*} [DecidableEq ι] [LinearOrder τ]

/-- The agenda is in the order of its due times. -/
def Sorted (q : List (Entry ι σ τ)) : Prop := q.Pairwise fun a b => a.due ≤ b.due

/-- The identities of the entries, in order. -/
abbrev ids (q : List (Entry ι σ τ)) : List ι := q.map Entry.id

/-- The agenda without the entries of identity `i`. -/
def erase (i : ι) (q : List (Entry ι σ τ)) : List (Entry ι σ τ) := q.filter fun e => e.id ≠ i

/-- `e` put before the first entry that is not due earlier. -/
def insert (e : Entry ι σ τ) (q : List (Entry ι σ τ)) : List (Entry ι σ τ) :=
  q.orderedInsert (fun a b => a.due ≤ b.due) e

/-- The entry `i` taken out, given a new state and time and inserted again. -/
def requeue (i : ι) (s : σ) (t : τ) (q : List (Entry ι σ τ)) : List (Entry ι σ τ) :=
  if i ∈ ids q then insert ⟨i, s, t⟩ (erase i q) else q

/-- The entry `i` given a new state and time where it stands. -/
def retime (i : ι) (s : σ) (t : τ) (q : List (Entry ι σ τ)) : List (Entry ι σ τ) :=
  q.map fun e => if e.id = i then ⟨i, s, t⟩ else e

/-- `t` is no later than the due time of any entry of `q`. -/
def NotAfter (t : τ) (q : List (Entry ι σ τ)) : Prop := ∀ e ∈ q, t ≤ e.due

/-- `t` is no earlier than the due time of any entry of `q`. -/
def NotBefore (t : τ) (q : List (Entry ι σ τ)) : Prop := ∀ e ∈ q, e.due ≤ t

/-- `t` fits the place of entry `i`: what stands before `i` is not due later than `t` and what
stands after it is not due earlier. -/
def Fits (i : ι) (t : τ) (q : List (Entry ι σ τ)) : Prop :=
  ∀ a e b, q = a ++ e :: b → e.id = i → NotBefore t a ∧ NotAfter t b

end Agenda

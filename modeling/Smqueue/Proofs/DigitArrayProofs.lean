import Smqueue.DigitArray
import Smqueue.Proofs.ReadErrorsProofs

/-!
# Proofs: the digit array

The index of the next store is the number of characters stored. The loop goes on while it is at most the
size of the array, so that only the second digit of an octet can be stored outside.
-/

namespace Smqueue

variable {src : List Bool} {n rp numOctets : Nat} {international : Bool} {a : DigitArray}

/-! ## Stores -/

namespace DigitArray

@[simp] theorem store_i (a : DigitArray) (c : UInt8) : (a.store c).i = a.i + 1 := rfl

@[simp] theorem store_chars (a : DigitArray) (c : UInt8) : (a.store c).chars = a.chars ++ [c] := by
  unfold chars store
  rw [List.map_append]
  rfl

theorem length_chars (a : DigitArray) : a.chars.length = a.i := by
  unfold chars
  rw [List.length_map, ← List.length_map (f := Prod.fst), a.consecutive, List.length_range]

/-- The stores are inside exactly if their number is. -/
theorem inBounds_iff : a.InBounds ↔ a.i ≤ maxDigits + 1 := by
  have hmem : ∀ k, (∃ s ∈ a.stores, s.1 = k) ↔ k < a.i := by
    intro k
    rw [← List.mem_range, ← a.consecutive]
    exact List.mem_map.symm
  constructor
  · intro h
    by_contra hlt
    obtain ⟨s, hs, hk⟩ := (hmem (maxDigits + 1)).2 (by omega)
    have := h s hs
    omega
  · intro h s hs
    have hlt := (hmem s.1).1 ⟨s, hs, rfl⟩
    omega

/-- The last store is found where it was made. -/
theorem get_store (a : DigitArray) (c : UInt8) (before : Nat → UInt8) :
    (a.store c).get before a.i = c := by
  have hnone : a.stores.find? (·.1 = a.i) = none := by
    rw [List.find?_eq_none]
    intro s hs
    have hmem : s.1 ∈ List.range a.i := a.consecutive ▸ List.mem_map_of_mem hs
    have := List.mem_range.1 hmem
    simp only [decide_eq_true_eq]
    omega
  unfold get store
  rw [List.find?_append, hnone]
  simp

theorem terminated_store (h : a.i ≤ maxDigits) : (a.store 0).Terminated :=
  fun before => ⟨a.i, h, get_store a 0 before⟩

end DigitArray

namespace L3BCDDigits

/-- Two nibbles are read together. -/
theorem nibbles_bind {α : Type} (f : Nat → Nat → Read α) (p : Nat) :
    (readField src 4 >>= fun d2 => readField src 4 >>= fun d1 => f d2 d1) p =
      if p + 8 ≤ src.length then f (fieldAt src p 4) (fieldAt src (p + 4) 4) (p + 8)
      else .error .assertion := by
  unfold readField
  rw [Frame.bind_apply, Frame.field_apply]
  by_cases h4 : p + 4 ≤ src.length
  · rw [if_pos h4]
    change (Frame.field Fault.assertion src 4 >>= _) (p + 4) = _
    rw [Frame.bind_apply, Frame.field_apply]
    by_cases h8 : p + 8 ≤ src.length
    · rw [if_pos h8, if_pos (by omega : p + 4 + 4 ≤ src.length)]
      rfl
    · rw [if_neg h8, if_neg (by omega : ¬ p + 4 + 4 ≤ src.length)]
      rfl
  · rw [if_neg h4, if_neg (by omega : ¬ p + 8 ≤ src.length)]
    rfl

/-- The array after the digits of one octet. -/
def storeOctet (d2 d1 : Nat) (a : DigitArray) : DigitArray :=
  if d2 ≠ 15 then (a.store (bcdChar d1)).store (bcdChar d2) else a.store (bcdChar d1)

theorem storeOctet_i (d2 d1 : Nat) (a : DigitArray) :
    (storeOctet d2 d1 a).i = a.i + if d2 ≠ 15 then 2 else 1 := by
  unfold storeOctet
  split <;> rfl

theorem storeOctet_chars (d2 d1 : Nat) (a : DigitArray) : (storeOctet d2 d1 a).chars =
    a.chars ++ [bcdChar d1] ++ if d2 ≠ 15 then [bcdChar d2] else [] := by
  unfold storeOctet
  split
  · rw [DigitArray.store_chars, DigitArray.store_chars]
  · rw [DigitArray.store_chars, List.append_nil]

theorem storeLoop_succ (src : List Bool) (n : Nat) (a : DigitArray) (p : Nat) :
    storeLoop src (n + 1) a p =
      if p + 8 ≤ src.length then
        let a' := storeOctet (fieldAt src p 4) (fieldAt src (p + 4) 4) a
        if a'.i > maxDigits then (a', .error .l3ReadError) else storeLoop src n a' (p + 8)
      else (a, .error .assertion) := by
  have hread : readNibbles src p = if p + 8 ≤ src.length then
      .ok ((fieldAt src p 4, fieldAt src (p + 4) 4), p + 8) else .error .assertion :=
    nibbles_bind (fun d2 d1 => pure (d2, d1)) p
  rw [storeLoop, hread]
  by_cases hp : p + 8 ≤ src.length
  · rw [if_pos hp, if_pos hp]
    rfl
  · rw [if_neg hp, if_neg hp]

/-! ## The loop -/

/-- What is asked of the loop: its stores are inside, and it throws or leaves a place for the zero. -/
def LoopInside (r : DigitArray × Except Fault Nat) : Prop :=
  r.1.i ≤ maxDigits + 1 ∧ (r.2 = .error .l3ReadError ∨ (∃ rp', r.2 = .ok rp') ∧ r.1.i ≤ maxDigits)

theorem storeLoop_inside_iff (ha : a.i ≤ maxDigits) :
    LoopInside (storeLoop src n a rp) ↔ ∀ k < n, a.i + digitCount src rp k ≤ maxDigits →
      rp + 8 * k + 8 ≤ src.length ∧
        (a.i + digitCount src rp k = maxDigits → fieldAt src (rp + 8 * k) 4 = 15) := by
  induction n generalizing a rp with
  | zero => exact iff_of_true ⟨by change a.i ≤ _; omega, .inr ⟨⟨rp, rfl⟩, ha⟩⟩ nofun
  | succ n ih =>
    rw [storeLoop_succ]
    by_cases hp : rp + 8 ≤ src.length
    · rw [if_pos hp]
      dsimp only
      set a' := storeOctet (fieldAt src rp 4) (fieldAt src (rp + 4) 4) a with ha'
      have hi : a'.i = a.i + if fieldAt src rp 4 ≠ 15 then 2 else 1 := storeOctet_i _ _ a
      have hsucc : ∀ k, a.i + digitCount src rp (k + 1) = a'.i + digitCount src (rp + 8) k := by
        intro k
        rw [digitCount_succ, hi, Nat.add_assoc]
      have hfull : a'.i ≤ maxDigits + 1 ↔ (a.i = maxDigits → fieldAt src rp 4 = 15) := by
        rw [hi]
        by_cases h15 : fieldAt src rp 4 = 15
        · rw [if_neg (not_not.2 h15)]
          exact iff_of_true (by omega) fun _ => h15
        · rw [if_pos h15]
          refine ⟨fun hle hmax => by omega, fun h => ?_⟩
          have hroom : a.i ≠ maxDigits := fun hmax => h15 (h hmax)
          omega
      by_cases hmax : a'.i > maxDigits
      · -- the loop throws after the octet, and no later octet is read
        rw [if_pos hmax]
        constructor
        · rintro ⟨hin, -⟩ k hk hcount
          change a'.i ≤ maxDigits + 1 at hin
          cases k with
          | zero => exact ⟨hp, hfull.1 hin⟩
          | succ k =>
            rw [hsucc] at hcount
            omega
        · intro h
          obtain ⟨-, hlast⟩ := h 0 (Nat.succ_pos n) ha
          exact ⟨hfull.2 hlast, .inl rfl⟩
      · rw [if_neg hmax, ih (Nat.le_of_not_lt hmax)]
        constructor
        · intro h k hk hcount
          cases k with
          | zero => exact ⟨hp, hfull.1 (by omega)⟩
          | succ k =>
            rw [hsucc] at hcount
            obtain ⟨hthere, hlast⟩ := h k (by omega) hcount
            have hat : rp + 8 * (k + 1) = rp + 8 + 8 * k := by omega
            rw [hsucc, hat]
            exact ⟨hthere, hlast⟩
        · intro h k hk hcount
          obtain ⟨hthere, hlast⟩ := h (k + 1) (by omega) (by rw [hsucc]; exact hcount)
          have hat : rp + 8 * (k + 1) = rp + 8 + 8 * k := by omega
          rw [hsucc, hat] at hlast
          rw [hat] at hthere
          exact ⟨hthere, hlast⟩
    · rw [if_neg hp]
      refine iff_of_false ?_ fun h => hp (h 0 (Nat.succ_pos n) ha).1
      rintro ⟨-, h | ⟨⟨rp', h⟩, -⟩⟩
      · cases h
      · cases h

/-- The parser stays inside of its array exactly if it never stores a second digit in a full one and
never reads beyond the frame. -/
theorem staysInside_iff (src : List Bool) (rp numOctets : Nat) (international : Bool) :
    StaysInside src rp numOctets international ↔ FitsArray src rp numOctets international := by
  unfold StaysInside FitsArray parseStores
  dsimp only
  set start := if international then DigitArray.empty.store 43 else .empty with hstart
  have hi : start.i = if international then 1 else 0 := by
    rw [hstart]
    split <;> rfl
  have hsmall : start.i ≤ maxDigits := by
    rw [hi]
    split <;> decide
  have hloop : LoopInside (storeLoop src numOctets start rp) ↔ _ := storeLoop_inside_iff hsmall
  unfold storedBefore
  rw [← hi, ← hloop]
  unfold LoopInside
  cases hr : storeLoop src numOctets start rp with
  | mk b result =>
    cases result with
    | error e =>
      dsimp only
      rw [DigitArray.inBounds_iff]
      refine and_congr_right fun _ => or_congr Iff.rfl ?_
      exact iff_of_false (fun h => by cases h.1.choose_spec) (fun h => by cases h.1.choose_spec)
    | ok rp' =>
      dsimp only
      rw [DigitArray.inBounds_iff, DigitArray.store_i]
      constructor
      · rintro ⟨hin, -⟩
        exact ⟨by omega, .inr ⟨⟨rp', rfl⟩, by omega⟩⟩
      · rintro ⟨-, h | ⟨-, hle⟩⟩
        · cases h
        · exact ⟨by omega, .inr ⟨⟨rp', rfl⟩, DigitArray.terminated_store hle⟩⟩

/-- Eleven octets of two digits. -/
theorem not_staysInside : ¬ ∀ (src : List Bool) (rp numOctets : Nat) (international : Bool),
    StaysInside src rp numOctets international := by
  intro h
  have hin := (h (List.replicate 88 false) 0 11 false).1
  have hmem : (21, 48) ∈ (parseStores (List.replicate 88 false) 0 11 false).1.stores := by
    decide +kernel
  exact absurd (hin _ hmem) (by decide)

/-! ## The parser of the model -/

theorem parseLoop_eq_storeLoop : L3BCDDigits.parseLoop src n a.chars rp =
    (storeLoop src n a rp).2.map fun rp' => ((storeLoop src n a rp).1.chars, rp') := by
  induction n generalizing a rp with
  | zero => rfl
  | succ n ih =>
    rw [storeLoop_succ]
    unfold L3BCDDigits.parseLoop
    rw [nibbles_bind]
    by_cases hp : rp + 8 ≤ src.length
    · rw [if_pos hp, if_pos hp]
      dsimp only
      rw [← storeOctet_chars, DigitArray.length_chars]
      by_cases hmax : (storeOctet (fieldAt src rp 4) (fieldAt src (rp + 4) 4) a).i > maxDigits
      · rw [if_pos hmax, if_pos hmax]
        rfl
      · rw [if_neg hmax, if_neg hmax]
        exact ih
    · rw [if_neg hp, if_neg hp]
      rfl

/-- Apart from the stores the two parsers are the same: the digits that are returned are the
characters before the zero. -/
theorem parse_eq_parseStores (src : List Bool) (rp numOctets : Nat) (international : Bool) :
    L3BCDDigits.parse src numOctets international rp =
      (parseStores src rp numOctets international).2.map fun rp' =>
        ((parseStores src rp numOctets international).1.chars.dropLast, rp') := by
  let start := if international then DigitArray.empty.store 43 else .empty
  have hstart : start.chars = if international then [43] else [] := by
    cases international <;> rfl
  have hloop : L3BCDDigits.parseLoop src numOctets start.chars rp = _ := parseLoop_eq_storeLoop
  rw [hstart] at hloop
  unfold parseStores
  dsimp only
  rw [L3BCDDigits.parse, hloop]
  cases storeLoop src numOctets start rp with
  | mk b result =>
    cases result with
    | error e => rfl
    | ok rp' => simp [Except.map]

end L3BCDDigits

end Smqueue

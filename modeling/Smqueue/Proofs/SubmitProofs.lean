import Smqueue.PduLayout
import Smqueue.Lib.Proofs.SheetProofs

/-!
# Proofs: where the fields of an SMS-SUBMIT are

A parser that succeeds leaves the position behind the bits of its element, so that the fields of an
SMS-SUBMIT that was parsed can be told from the bits of the TPDU.
-/

namespace Smqueue

open Frame (toBits)

variable {src : List Bool} {p q : Nat}

/-! ## Fields of a frame -/

theorem fieldAt_lt (bs : List Bool) (p n : Nat) : fieldAt bs p n < 2 ^ n := by
  refine Nat.lt_of_lt_of_le (Frame.ofBits_lt _) (Nat.pow_le_pow_right (by omega) ?_)
  exact List.length_take_le _ _

/-- The field that stands behind `pre`. -/
theorem fieldAt_ahead (pre rest : List Bool) {n v : Nat} (h : v < 2 ^ n) :
    fieldAt (pre ++ toBits n v ++ rest) pre.length n = v := by
  have hahead := Frame.ahead pre (toBits n v) rest
  rw [Frame.toBits_length] at hahead
  unfold fieldAt
  rw [hahead, Frame.ofBits_toBits_of_lt h]

/-- The bits from a field on are those of its value and the bits behind it. -/
theorem toBits_fieldAt {bs : List Bool} {p n : Nat} (h : p + n ≤ bs.length) :
    toBits n (fieldAt bs p n) ++ bs.drop (p + n) = bs.drop p := by
  have hlen : ((bs.drop p).take n).length = n := by
    rw [List.length_take, List.length_drop]
    omega
  have hbits := Frame.toBits_ofBits ((bs.drop p).take n)
  rw [hlen] at hbits
  unfold fieldAt
  rw [hbits, ← List.drop_drop, List.take_append_drop]

/-! ## Parsers that succeed -/

theorem readField_ok {n v : Nat} : readField src n p = .ok (v, q) ↔
    p + n ≤ src.length ∧ v = fieldAt src p n ∧ q = p + n := Frame.field_ok

/-- A field that is read in front of `f`. -/
theorem readField_bind_ok {α : Type} {n : Nat} {f : Nat → Read α} {a : α} :
    (readField src n >>= f) p = .ok (a, q) ↔
      p + n ≤ src.length ∧ f (fieldAt src p n) (p + n) = .ok (a, q) := by
  rw [Frame.bind_ok]
  constructor
  · rintro ⟨v, p', hv, hf⟩
    obtain ⟨hle, rfl, rfl⟩ := readField_ok.1 hv
    exact ⟨hle, hf⟩
  · rintro ⟨hle, hf⟩
    exact ⟨_, _, readField_ok.2 ⟨hle, rfl, rfl⟩, hf⟩

theorem pure_ok {α : Type} {a b : α} : (pure a : Read α) p = .ok (b, q) ↔ a = b ∧ p = q := by
  constructor
  · intro h
    injection h with h
    exact Prod.mk.inj h
  · rintro ⟨rfl, rfl⟩
    rfl

/-- The digit loop moves over the octets that it was told to read. -/
theorem parseLoop_ok {n : Nat} {ds ds' : CString}
    (h : L3BCDDigits.parseLoop src n ds p = .ok (ds', q)) : q = p + 8 * n := by
  induction n generalizing ds p with
  | zero =>
    obtain ⟨-, rfl⟩ := pure_ok.1 h
    rfl
  | succ n ih =>
    rw [L3BCDDigits.parseLoop, readField_bind_ok, readField_bind_ok] at h
    obtain ⟨-, -, h⟩ := h
    dsimp only at h
    generalize ds ++ [bcdChar (fieldAt src (p + 4) 4)] ++
      (if fieldAt src p 4 ≠ 15 then [bcdChar (fieldAt src p 4)] else []) = ds2 at h
    by_cases hmax : ds2.length > maxDigits
    · rw [if_pos hmax] at h
      cases h
    · rw [if_neg hmax] at h
      have hq := ih h
      omega

theorem address_ok {a : Address} (h : TLAddress.parse src p = .ok (a, q)) :
    q = p + 16 + 8 * (fieldAt src p 8 / 2 + fieldAt src p 8 % 2) := by
  rw [TLAddress.parse, readField_bind_ok, readField_bind_ok] at h
  obtain ⟨-, -, h⟩ := h
  split at h
  · cases h
  · beta_reduce at h
    rw [readField_bind_ok, readField_bind_ok] at h
    obtain ⟨-, -, h⟩ := h
    obtain ⟨ds, p', hds, h⟩ := Frame.bind_ok.1 h
    obtain ⟨-, rfl⟩ := pure_ok.1 h
    have hq := parseLoop_ok hds
    omega

/-- The destination address of an SMS-SUBMIT ends where the protocol identifier is. -/
theorem address_position {a : Address} (h : TLAddress.parse src 16 = .ok (a, q)) :
    q = TLSubmit.piAt src := by
  have hp := address_ok h
  unfold TLSubmit.piAt TLSubmit.addressOctets
  omega

theorem readPair_ok {v : Nat} (h : readPair src p = .ok (v, q)) : q = p + 8 := by
  rw [readPair, readField_bind_ok, readField_bind_ok] at h
  obtain ⟨-, -, h⟩ := h
  exact (pure_ok.1 h).2.symm

theorem time_ok {t : Tm} (h : L3TimeZoneAndTime.parseV src p = .ok (t, q)) : q = p + 57 := by
  unfold L3TimeZoneAndTime.parseV at h
  obtain ⟨_, _, h1, h⟩ := Frame.bind_ok.1 h
  obtain ⟨_, _, h2, h⟩ := Frame.bind_ok.1 h
  obtain ⟨_, _, h3, h⟩ := Frame.bind_ok.1 h
  obtain ⟨_, _, h4, h⟩ := Frame.bind_ok.1 h
  obtain ⟨_, _, h5, h⟩ := Frame.bind_ok.1 h
  obtain ⟨_, _, h6, h⟩ := Frame.bind_ok.1 h
  obtain ⟨_, h⟩ := readField_bind_ok.1 h
  obtain ⟨_, h⟩ := readField_bind_ok.1 h
  obtain ⟨_, h⟩ := readField_bind_ok.1 h
  obtain ⟨-, rfl⟩ := pure_ok.1 h
  have := readPair_ok h1
  have := readPair_ok h2
  have := readPair_ok h3
  have := readPair_ok h4
  have := readPair_ok h5
  have := readPair_ok h6
  omega

theorem validityPeriod_ok {vpf : Nat} {e : Expiration}
    (h : TLValidityPeriod.parse src vpf p = .ok (e, q)) : q = p + validityBits vpf := by
  unfold TLValidityPeriod.parse at h
  split at h
  · obtain ⟨-, h⟩ := readField_bind_ok.1 h
    exact (pure_ok.1 h).2.symm
  · obtain ⟨t, p', ht, h⟩ := Frame.bind_ok.1 h
    obtain ⟨-, rfl⟩ := pure_ok.1 h
    exact time_ok ht
  · injection h with h
    exact (Prod.mk.inj h).2.symm
  · exact (pure_ok.1 h).2.symm
  · cases h

theorem headerBit_eq_ok {i : Nat} {b : Bool} (h : headerBit src i = .ok b) :
    b = decide (fieldAt src i 1 = 1) := by
  unfold headerBit peekField Frame.peek at h
  split at h
  · exact (Except.pure_eq_ok.1 h).symm
  · cases h

theorem peekField_eq_ok {n v : Nat} (h : peekField src p n = .ok v) : v = fieldAt src p n := by
  unfold peekField Frame.peek at h
  split at h
  · injection h with h
    exact h.symm
  · cases h

/-- The user data of an SMS-SUBMIT that was parsed. -/
theorem submit_userData {s : TLSubmit} (h : TLSubmit.parse src = .ok s) :
    s.ud = { dcs := fieldAt src (TLSubmit.piAt src + 8) 8
             udhi := decide (fieldAt src 1 1 = 1)
             length := fieldAt src (TLSubmit.udAt src) 8
             rawData := Frame.reverseOctets (src.drop (TLSubmit.udAt src + 8)) } ∧
      TLSubmit.udAt src + 8 ≤ src.length := by
  unfold TLSubmit.parse at h
  cases hbody : TLSubmit.parseBody src 8 with
  | error e =>
    rw [hbody] at h
    cases h
  | ok r =>
    obtain ⟨s', q⟩ := r
    rw [hbody] at h
    obtain rfl : s' = s := by injection h
    unfold TLSubmit.parseBody at hbody
    obtain ⟨rd, -, hbody⟩ := Frame.liftM_bind_ok.1 hbody
    obtain ⟨vpf, hvpf, hbody⟩ := Frame.liftM_bind_ok.1 hbody
    obtain ⟨rp, -, hbody⟩ := Frame.liftM_bind_ok.1 hbody
    obtain ⟨udhi, hudhi, hbody⟩ := Frame.liftM_bind_ok.1 hbody
    obtain ⟨srr, -, hbody⟩ := Frame.liftM_bind_ok.1 hbody
    obtain ⟨-, hbody⟩ := readField_bind_ok.1 hbody
    obtain ⟨da, p1, hda, hbody⟩ := Frame.bind_ok.1 hbody
    obtain ⟨-, hbody⟩ := readField_bind_ok.1 hbody
    obtain ⟨-, hbody⟩ := readField_bind_ok.1 hbody
    obtain ⟨vp, p2, hvp, hbody⟩ := Frame.bind_ok.1 hbody
    obtain ⟨ud, p3, hud, hbody⟩ := Frame.bind_ok.1 hbody
    obtain ⟨rfl, rfl⟩ := pure_ok.1 hbody
    have hp1 : p1 = TLSubmit.piAt src := address_position hda
    have hp2 : p2 = TLSubmit.udAt src := by
      have hp := validityPeriod_ok hvp
      rw [peekField_eq_ok hvpf, hp1] at hp
      unfold TLSubmit.udAt
      omega
    unfold TLUserData.parse at hud
    obtain ⟨hle, hud⟩ := readField_bind_ok.1 hud
    obtain ⟨rfl, -⟩ := pure_ok.1 hud
    rw [hp2] at hle
    rw [hp1, hp2, headerBit_eq_ok hudhi]
    exact ⟨rfl, hle⟩

end Smqueue

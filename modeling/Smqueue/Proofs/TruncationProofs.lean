import Smqueue.Truncation
import Smqueue.Proofs.SubmitProofs
import Smqueue.Proofs.ReadErrorsProofs

/-!
# Proofs: reads past the end of a frame

For every parser, when it succeeds and when it reads past the end of the frame, in terms of the bits
in front of it.
-/

namespace Smqueue

variable {α : Type} {src : List Bool} {p q : Nat}

/-- The reader runs out of the frame from position `p`. -/
abbrev RunsOut (r : Read α) (p : Nat) : Prop := r p = .error .assertion

/-! ## Fields -/

theorem readField_bind_runsOut {n : Nat} {f : Nat → Read α} :
    RunsOut (readField src n >>= f) p ↔
      src.length < p + n ∨ p + n ≤ src.length ∧ RunsOut (f (fieldAt src p n)) (p + n) := by
  rw [RunsOut, Frame.bind_error]
  refine or_congr Frame.field_error ?_
  constructor
  · rintro ⟨v, q, hv, hf⟩
    obtain ⟨hle, rfl, rfl⟩ := readField_ok.1 hv
    exact ⟨hle, hf⟩
  · rintro ⟨hle, hf⟩
    exact ⟨_, _, readField_ok.2 ⟨hle, rfl, rfl⟩, hf⟩

theorem pure_not_runsOut {a : α} : ¬ RunsOut (pure a : Read α) p := by
  intro h
  cases h

/-! ## Digits -/

/-- One turn of the digit loop: with the octet there it goes on with the digits that it has then, or
throws. -/
theorem parseLoop_succ (n : Nat) (ds : CString) (hp : p + 8 ≤ src.length) :
    ∃ ds' : CString, ds'.length = ds.length + digitCount src p 1 ∧
      (maxDigits < ds'.length →
        L3BCDDigits.parseLoop src (n + 1) ds p = .error .l3ReadError) ∧
      (ds'.length ≤ maxDigits →
        L3BCDDigits.parseLoop src (n + 1) ds p = L3BCDDigits.parseLoop src n ds' (p + 8)) := by
  let ds' := ds ++ [bcdChar (fieldAt src (p + 4) 4)] ++
    if fieldAt src p 4 ≠ 15 then [bcdChar (fieldAt src p 4)] else []
  have hread : ∀ q, q + 4 ≤ src.length → readField src 4 q = .ok (fieldAt src q 4, q + 4) :=
    fun q hq => readField_ok.2 ⟨hq, rfl, rfl⟩
  have hrun : L3BCDDigits.parseLoop src (n + 1) ds p =
      (if ds'.length > maxDigits then (throw .l3ReadError : Read PUnit) >>= fun _ =>
        L3BCDDigits.parseLoop src n ds' else L3BCDDigits.parseLoop src n ds' : Read CString)
          (p + 8) := by
    rw [L3BCDDigits.parseLoop, Frame.bind_apply, hread p (by omega)]
    change (readField src 4 >>= fun d1 => _) (p + 4) = _
    rw [Frame.bind_apply, hread (p + 4) (by omega)]
    rfl
  refine ⟨ds', ?_, fun hmax => ?_, fun hmax => ?_⟩
  · simp only [ds', digitCount]
    by_cases h15 : fieldAt src p 4 = 15 <;> simp [h15]
  · rw [hrun, if_pos hmax]
    rfl
  · rw [hrun, if_neg (Nat.not_lt.2 hmax)]

/-- The digit loop succeeds when the octets are there and their digits fit. -/
theorem parseLoop_ok_iff (n : Nat) (ds : CString) (hp : p ≤ src.length) (hds : ds.length ≤ maxDigits) :
    (∃ ds' q, L3BCDDigits.parseLoop src n ds p = .ok (ds', q)) ↔
      p + 8 * n ≤ src.length ∧ ds.length + digitCount src p n ≤ maxDigits := by
  induction n generalizing ds p with
  | zero => exact iff_of_true ⟨ds, p, rfl⟩ ⟨hp, hds⟩
  | succ n ih =>
    by_cases hin : p + 8 ≤ src.length
    · obtain ⟨ds2, hlen, herr, hok⟩ := parseLoop_succ n ds hin
      have hsucc : digitCount src p (n + 1) = digitCount src p 1 + digitCount src (p + 8) n := by
        rw [digitCount_succ, digitCount_succ]
        rfl
      by_cases hmax : ds2.length ≤ maxDigits
      · rw [hok hmax, ih _ hin hmax, hsucc]
        constructor
        · rintro ⟨h1, h2⟩
          exact ⟨by omega, by omega⟩
        · rintro ⟨h1, h2⟩
          exact ⟨by omega, by omega⟩
      · rw [herr (Nat.not_le.1 hmax)]
        refine iff_of_false ?_ fun h => hmax (by omega)
        rintro ⟨ds', q, h⟩
        cases h
    · refine iff_of_false ?_ fun h => hin (by omega)
      rintro ⟨ds', q, h⟩
      rw [L3BCDDigits.parseLoop, readField_bind_ok, readField_bind_ok] at h
      omega

/-- The digit loop runs out of the frame when the octets do before the digits become too many. -/
theorem parseLoop_runsOut_iff (n : Nat) (ds : CString) (hp : p ≤ src.length)
    (hds : ds.length ≤ maxDigits) :
    RunsOut (L3BCDDigits.parseLoop src n ds) p ↔ src.length < p + 8 * n ∧
      ds.length + digitCount src p ((src.length - p) / 8) ≤ maxDigits := by
  induction n generalizing ds p with
  | zero => exact iff_of_false pure_not_runsOut fun h => absurd h.1 (by omega)
  | succ n ih =>
    by_cases hin : p + 8 ≤ src.length
    · obtain ⟨ds2, hlen, herr, hok⟩ := parseLoop_succ n ds hin
      have hwhole : (src.length - p) / 8 = (src.length - (p + 8)) / 8 + 1 := by omega
      have hsucc : digitCount src p ((src.length - p) / 8) =
          digitCount src p 1 + digitCount src (p + 8) ((src.length - (p + 8)) / 8) := by
        rw [hwhole, digitCount_succ, digitCount_succ]
        rfl
      unfold RunsOut at ih ⊢
      by_cases hmax : ds2.length ≤ maxDigits
      · rw [hok hmax, ih _ hin hmax, hsucc]
        constructor
        · rintro ⟨h1, h2⟩
          exact ⟨by omega, by omega⟩
        · rintro ⟨h1, h2⟩
          exact ⟨by omega, by omega⟩
      · rw [herr (Nat.not_le.1 hmax)]
        exact iff_of_false (fun h => by cases h) fun h => hmax (by omega)
    · have hwhole : (src.length - p) / 8 = 0 := by omega
      rw [L3BCDDigits.parseLoop, readField_bind_runsOut, readField_bind_runsOut, hwhole]
      constructor
      · intro _
        exact ⟨by omega, hds⟩
      · intro _
        by_cases h4 : p + 4 ≤ src.length
        · exact .inr ⟨h4, .inl (by omega)⟩
        · exact .inl (by omega)

/-! ## Numbers -/

/-- The reader of a number with `n` octets of digits, which the parsers of both kinds of addresses
share. -/
def numberReader (e : Fault) (src : List Bool) (n : Nat) : Read Address := do
  if (← readField src 1) ≠ 1 then throw e
  let mType ← readField src 3
  let mPlan ← readField src 4
  let mDigits ← L3BCDDigits.parse src n (mType == internationalNumber)
  return ⟨mType, mPlan, mDigits⟩

theorem plus_length (src : List Bool) (p : Nat) :
    (if (fieldAt src (p + 1) 3 == internationalNumber) = true then [43] else ([] : CString)).length =
      plusAt src p := by
  unfold plusAt
  by_cases hint : fieldAt src (p + 1) 3 = internationalNumber <;> simp [hint]

theorem plusAt_le (src : List Bool) (p : Nat) : plusAt src p ≤ maxDigits := by
  unfold plusAt maxDigits
  split <;> omega

/-- The number reader behind the extension bit. -/
theorem numberReader_apply {e : Fault} {n : Nat} (hext : fieldAt src p 1 = 1) (hp : p + 8 ≤ src.length) :
    numberReader e src n p =
      (L3BCDDigits.parse src n (fieldAt src (p + 1) 3 == internationalNumber) (p + 8)).map
        fun r => (⟨fieldAt src (p + 1) 3, fieldAt src (p + 4) 4, r.1⟩, r.2) := by
  have hread : ∀ q k, q + k ≤ src.length → readField src k q = .ok (fieldAt src q k, q + k) :=
    fun q k hq => readField_ok.2 ⟨hq, rfl, rfl⟩
  unfold numberReader
  rw [Frame.bind_apply, hread p 1 (by omega)]
  dsimp only [Except.bind]
  rw [hext, if_neg (not_not.2 rfl)]
  change (readField src 3 >>= fun mType => _) (p + 1) = _
  rw [Frame.bind_apply, hread (p + 1) 3 (by omega)]
  change (readField src 4 >>= fun mPlan => _) (p + 1 + 3) = _
  rw [Frame.bind_apply, hread (p + 1 + 3) 4 (by omega)]
  dsimp only [Except.bind]
  rw [Frame.bind_apply]
  cases L3BCDDigits.parse src n (fieldAt src (p + 1) 3 == internationalNumber) (p + 8) <;> rfl

theorem numberReader_runsOut_iff {e : Fault} {n : Nat} (he : e ≠ .assertion) :
    RunsOut (numberReader e src n) p ↔ NumberCut src p n := by
  by_cases h1 : src.length < p + 1
  · exact iff_of_true (readField_bind_runsOut.2 (.inl h1)) (.inl h1)
  · by_cases hext : fieldAt src p 1 = 1
    · by_cases h8 : p + 8 ≤ src.length
      · rw [RunsOut, numberReader_apply hext h8]
        have hdigits := parseLoop_runsOut_iff n (if (fieldAt src (p + 1) 3 ==
          internationalNumber) = true then [43] else []) h8 (by
            rw [plus_length]
            exact plusAt_le src p)
        rw [plus_length] at hdigits
        rw [Except.map_eq_error]
        refine hdigits.trans ⟨fun h => .inr ⟨hext, h⟩, ?_⟩
        rintro (h | ⟨-, h⟩)
        · exact absurd h h1
        · exact h
      · -- the type or the plan is not there
        refine iff_of_true ?_ (.inr ⟨hext, by omega, ?_⟩)
        · refine readField_bind_runsOut.2 (.inr ⟨by omega, ?_⟩)
          rw [hext, if_neg (not_not.2 rfl)]
          change RunsOut (readField src 3 >>= fun mType => _) (p + 1)
          rw [readField_bind_runsOut]
          by_cases h4 : src.length < p + 1 + 3
          · exact .inl h4
          · exact .inr ⟨by omega, readField_bind_runsOut.2 (.inl (by omega))⟩
        · have hnone : (src.length - (p + 8)) / 8 = 0 := by omega
          rw [hnone]
          exact plusAt_le src p
    · refine iff_of_false (fun h => ?_) ?_
      · unfold numberReader at h
        rw [readField_bind_runsOut] at h
        rcases h with h | ⟨-, h⟩
        · exact h1 h
        · rw [if_pos hext] at h
          injection h with h
          exact he h
      · rintro (h | ⟨h, -⟩)
        · exact h1 h
        · exact hext h

theorem numberReader_ok_iff {e : Fault} {n : Nat} :
    (∃ a q, numberReader e src n p = .ok (a, q)) ↔ NumberFits src p n := by
  by_cases h8 : fieldAt src p 1 = 1 ∧ p + 8 ≤ src.length
  · obtain ⟨hext, hp⟩ := h8
    rw [numberReader_apply hext hp]
    have hdigits := parseLoop_ok_iff n (if (fieldAt src (p + 1) 3 ==
      internationalNumber) = true then [43] else []) hp (by
        rw [plus_length]
        exact plusAt_le src p)
    rw [plus_length] at hdigits
    constructor
    · rintro ⟨a, q, h⟩
      obtain ⟨⟨ds, q'⟩, hds, -⟩ := Except.map_eq_ok.1 h
      obtain ⟨h1, h2⟩ := hdigits.1 ⟨ds, q', hds⟩
      exact ⟨hext, h1, h2⟩
    · intro h
      obtain ⟨ds', q, hrun⟩ := hdigits.2 ⟨h.inside, h.digits⟩
      unfold L3BCDDigits.parse
      rw [hrun]
      exact ⟨_, _, rfl⟩
  · refine iff_of_false ?_ fun h => h8 ⟨h.extension, by have := h.inside; omega⟩
    rintro ⟨a, q, h⟩
    unfold numberReader at h
    rw [readField_bind_ok] at h
    obtain ⟨h1, h⟩ := h
    by_cases hext : fieldAt src p 1 = 1
    · rw [hext, if_neg (not_not.2 rfl)] at h
      change (readField src 3 >>= fun mType => _) (p + 1) = _ at h
      rw [readField_bind_ok, readField_bind_ok] at h
      exact h8 ⟨hext, by omega⟩
    · rw [if_pos hext] at h
      cases h

theorem numberReader_position {e : Fault} {n : Nat} {a : Address}
    (h : numberReader e src n p = .ok (a, q)) : q = p + 8 + 8 * n := by
  have hfits := numberReader_ok_iff.1 ⟨a, q, h⟩
  rw [numberReader_apply hfits.extension (by have := hfits.inside; omega)] at h
  obtain ⟨⟨ds, q'⟩, hds, h⟩ := Except.map_eq_ok.1 h
  obtain ⟨-, rfl⟩ := Prod.mk.inj h
  exact parseLoop_ok hds

/-! ## RP-DATA -/

/-- An element behind its length octet: the position it leaves has to be where the length says. -/
theorem parseLV_apply {default : α} {parseV : Nat → Read α} (hp : p + 8 ≤ src.length) :
    parseLV src default parseV p =
      if fieldAt src p 8 = 0 then .ok (default, p + 8)
      else (parseV (fieldAt src p 8) (p + 8)).bind fun r =>
        if elementEnd src p = r.2 then .ok r else .error .l3ReadError := by
  have hread : readField src 8 p = .ok (fieldAt src p 8, p + 8) := readField_ok.2 ⟨hp, rfl, rfl⟩
  unfold parseLV
  rw [Frame.bind_apply, hread]
  dsimp only [Except.bind]
  by_cases hz : fieldAt src p 8 = 0
  · rw [if_pos hz, if_pos hz]
    rfl
  · rw [if_neg hz, if_neg hz]
    change (parseV (fieldAt src p 8) (p + 8)).bind (fun r =>
      (if p + 8 + 8 * fieldAt src p 8 ≠ r.2 then throw .l3ReadError >>= fun _ => pure r.1
        else pure r.1 : Read α) r.2) = _
    congr 1
    funext r
    unfold elementEnd
    by_cases hend : p + 8 + 8 * fieldAt src p 8 = r.2
    · rw [if_neg (not_not.2 hend), if_pos hend]
      rfl
    · rw [if_pos hend, if_neg hend]
      rfl

theorem rpAddress_position {n : Nat} {a : Address} (hn : n ≠ 0)
    (h : RPAddress.parseV src n p = .ok (a, q)) : q = p + 8 * n := by
  have hq : q = p + 8 + 8 * (n - 1) := numberReader_position (e := .l3ReadError) h
  omega

theorem parseLV_address_runsOut_iff :
    RunsOut (parseLV src RPAddress.empty (RPAddress.parseV src)) p ↔ RPAddress.Cut src p := by
  by_cases hp : p + 8 ≤ src.length
  · rw [RunsOut, parseLV_apply hp]
    by_cases hz : fieldAt src p 8 = 0
    · rw [if_pos hz]
      refine iff_of_false (fun h => by cases h) ?_
      rintro (h | ⟨h, -⟩)
      · omega
      · exact h hz
    · rw [if_neg hz]
      have hnumber : RPAddress.parseV src (fieldAt src p 8) (p + 8) = .error .assertion ↔
          NumberCut src (p + 8) (fieldAt src p 8 - 1) :=
        numberReader_runsOut_iff (e := .l3ReadError) (by decide)
      unfold RPAddress.Cut
      rw [← hnumber]
      cases hv : RPAddress.parseV src (fieldAt src p 8) (p + 8) with
      | error e =>
        constructor
        · intro h
          exact .inr ⟨hz, h⟩
        · rintro (h | ⟨-, h⟩)
          · omega
          · exact h
      | ok r =>
        have hend : elementEnd src p = r.2 := (rpAddress_position hz hv).symm
        dsimp only [Except.bind]
        rw [if_pos hend]
        refine iff_of_false (fun h => by cases h) ?_
        rintro (h | ⟨-, h⟩)
        · omega
        · cases h
  · have hlt := Nat.not_le.1 hp
    exact iff_of_true (readField_bind_runsOut.2 (.inl hlt)) (.inl hlt)

theorem parseLV_address_ok_iff :
    (∃ a, parseLV src RPAddress.empty (RPAddress.parseV src) p = .ok (a, q)) ↔
      RPAddress.Fits src p ∧ q = elementEnd src p := by
  by_cases hp : p + 8 ≤ src.length
  · rw [parseLV_apply hp]
    by_cases hz : fieldAt src p 8 = 0
    · rw [if_pos hz]
      have hend : elementEnd src p = p + 8 := by
        unfold elementEnd
        omega
      rw [hend]
      constructor
      · rintro ⟨a, h⟩
        injection h with h
        exact ⟨⟨hp, fun hn => absurd hz hn⟩, (Prod.mk.inj h).2.symm⟩
      · rintro ⟨-, rfl⟩
        exact ⟨_, rfl⟩
    · rw [if_neg hz]
      have hnumber : (∃ a q, RPAddress.parseV src (fieldAt src p 8) (p + 8) = .ok (a, q)) ↔
          NumberFits src (p + 8) (fieldAt src p 8 - 1) :=
        numberReader_ok_iff (e := .l3ReadError)
      constructor
      · rintro ⟨a, h⟩
        obtain ⟨r, hr, h⟩ := Except.bind_eq_ok.1 h
        by_cases hend : elementEnd src p = r.2
        · rw [if_pos hend] at h
          injection h with h
          refine ⟨⟨hp, fun _ => hnumber.1 ⟨_, _, hr⟩⟩, ?_⟩
          rw [hend, h]
        · rw [if_neg hend] at h
          cases h
      · rintro ⟨hfits, rfl⟩
        obtain ⟨a, q, hv⟩ := hnumber.2 (hfits.2 hz)
        have hend : elementEnd src p = q := (rpAddress_position hz hv).symm
        refine ⟨a, ?_⟩
        rw [hv]
        dsimp only [Except.bind]
        rw [if_pos hend, hend]
  · refine iff_of_false ?_ fun h => hp h.1.1
    rintro ⟨a, h⟩
    unfold parseLV at h
    exact hp (readField_bind_ok.1 h).1

/-- The user data is checked against the end of the frame, so that only its length octet can be
missing. -/
theorem parseLV_userData_apply (hp : p + 8 ≤ src.length) :
    parseLV src [] (RPUserData.parseV src) p =
      if elementEnd src p ≤ src.length then
        .ok ((src.drop (p + 8)).take (8 * fieldAt src p 8), elementEnd src p)
      else .error .smsReadError := by
  rw [parseLV_apply hp]
  unfold elementEnd
  by_cases hz : fieldAt src p 8 = 0
  · rw [if_pos hz, hz, if_pos (by omega)]
    rfl
  · rw [if_neg hz]
    change ((if p + 8 + fieldAt src p 8 * 8 > src.length then throw .smsReadError >>= fun _ =>
      Frame.segment .assertion src (fieldAt src p 8 * 8)
        else Frame.segment .assertion src (fieldAt src p 8 * 8) : Read (List Bool)) (p + 8)).bind _ = _
    by_cases hin : p + 8 + 8 * fieldAt src p 8 ≤ src.length
    · rw [if_neg (by omega), if_pos hin]
      unfold Frame.segment
      rw [if_pos (by omega)]
      dsimp only [Except.bind]
      rw [if_pos (by omega), Nat.mul_comm]
    · rw [if_pos (by omega), if_neg hin]
      rfl

theorem parseLV_address_bind_runsOut {f : Address → Read α} :
    RunsOut (parseLV src RPAddress.empty (RPAddress.parseV src) >>= f) p ↔
      RPAddress.Cut src p ∨ ∃ a, parseLV src RPAddress.empty (RPAddress.parseV src) p =
        .ok (a, elementEnd src p) ∧ RunsOut (f a) (elementEnd src p) := by
  rw [RunsOut, Frame.bind_error]
  refine or_congr parseLV_address_runsOut_iff ?_
  constructor
  · rintro ⟨a, q, h, hf⟩
    obtain ⟨-, rfl⟩ := parseLV_address_ok_iff.1 ⟨a, h⟩
    exact ⟨a, h, hf⟩
  · rintro ⟨a, h, hf⟩
    exact ⟨a, _, h, hf⟩

theorem parseLV_address_fits (h : RPAddress.Fits src p) :
    ∃ a, parseLV src RPAddress.empty (RPAddress.parseV src) p = .ok (a, elementEnd src p) :=
  parseLV_address_ok_iff.2 ⟨h, rfl⟩

namespace RPData

variable {frame : List Bool}

theorem parse_runsOut_iff : RPData.parse frame = .error .assertion ↔ RPData.Cut frame := by
  unfold RPData.parse
  rw [Except.map_eq_error]
  change RunsOut (RPMessage.parse frame) 8 ↔ _
  unfold RPMessage.parse
  rw [readField_bind_runsOut]
  by_cases h16 : frame.length < 16
  · exact iff_of_true (.inl h16) (.inl h16)
  · unfold RPData.Cut
    rw [parseLV_address_bind_runsOut]
    constructor
    · rintro (h | ⟨-, h | ⟨orig, horig, h⟩⟩)
      · exact absurd h h16
      · exact .inr (.inl h)
      · refine .inr (.inr ⟨(parseLV_address_ok_iff.1 ⟨_, horig⟩).1, ?_⟩)
        rcases parseLV_address_bind_runsOut.1 h with h | ⟨dest, hdest, h⟩
        · exact .inl h
        · refine .inr ⟨(parseLV_address_ok_iff.1 ⟨_, hdest⟩).1, ?_⟩
          by_cases hin : userDataAt frame + 8 ≤ frame.length
          · rcases Frame.bind_error.1 h with h | ⟨ud, q, -, h⟩
            · have hud := parseLV_userData_apply hin
              rw [show elementEnd frame (elementEnd frame (8 + 8)) = userDataAt frame from rfl, hud] at h
              split at h <;> cases h
            · cases h
          · omega
    · intro h
      refine .inr ⟨by omega, ?_⟩
      rcases h with h | h | ⟨hfits, h⟩
      · exact absurd h h16
      · exact .inl h
      · obtain ⟨orig, horig⟩ := parseLV_address_fits hfits
        refine .inr ⟨orig, horig, parseLV_address_bind_runsOut.2 ?_⟩
        rcases h with h | ⟨hfits', h⟩
        · exact .inl h
        · obtain ⟨dest, hdest⟩ := parseLV_address_fits hfits'
          refine .inr ⟨dest, hdest, ?_⟩
          refine Frame.bind_error.2 (.inl ?_)
          exact readField_bind_runsOut.2 (.inl h)

/-- A message that can be read. -/
theorem parse_fits (h : RPData.Fits frame) : ∃ rp, RPData.parse frame = .ok rp := by
  obtain ⟨⟨hfits, hfits'⟩, hin, hend⟩ := h
  obtain ⟨orig, horig⟩ := parseLV_address_fits hfits
  obtain ⟨dest, hdest⟩ := parseLV_address_fits hfits'
  have h16 := hfits.1
  have hud := parseLV_userData_apply hin
  rw [if_pos hend] at hud
  have href : readField frame 8 8 = .ok (fieldAt frame 8 8, 16) :=
    readField_ok.2 ⟨by omega, rfl, rfl⟩
  have hrun : RPMessage.parse frame 8 = .ok (⟨fieldAt frame 8 8, orig, dest,
      (tpduOf frame).map some⟩, elementEnd frame (userDataAt frame)) := by
    unfold RPMessage.parse
    refine Frame.bind_ok.2 ⟨_, _, href, Frame.bind_ok.2 ⟨_, _, horig, ?_⟩⟩
    exact Frame.bind_ok.2 ⟨_, _, hdest, Frame.bind_ok.2 ⟨_, _, hud, rfl⟩⟩
  unfold RPData.parse
  rw [hrun]
  exact ⟨_, rfl⟩

/-- A message that was read has the TPDU of its layout. -/
theorem parse_tpdu {rp : RPData} (h : RPData.parse frame = .ok rp) :
    RPData.Fits frame ∧ rp.tpdu = (tpduOf frame).map some := by
  unfold RPData.parse at h
  obtain ⟨⟨rp', q⟩, hrun, rfl⟩ := Except.map_eq_ok.1 h
  unfold RPMessage.parse at hrun
  obtain ⟨h16, hrun⟩ := readField_bind_ok.1 hrun
  obtain ⟨orig, p1, horig, hrun⟩ := Frame.bind_ok.1 hrun
  obtain ⟨dest, p2, hdest, hrun⟩ := Frame.bind_ok.1 hrun
  obtain ⟨ud, p3, hud, hrun⟩ := Frame.bind_ok.1 hrun
  obtain ⟨rfl, -⟩ := pure_ok.1 hrun
  obtain ⟨hfits, rfl⟩ := parseLV_address_ok_iff.1 ⟨_, horig⟩
  obtain ⟨hfits', rfl⟩ := parseLV_address_ok_iff.1 ⟨_, hdest⟩
  have hin : userDataAt frame + 8 ≤ frame.length := by
    have hud' := hud
    unfold parseLV at hud'
    exact (readField_bind_ok.1 hud').1
  have happly := parseLV_userData_apply hin
  rw [show elementEnd frame (elementEnd frame (8 + 8)) = userDataAt frame from rfl, happly] at hud
  by_cases hend : elementEnd frame (userDataAt frame) ≤ frame.length
  · rw [if_pos hend] at hud
    injection hud with hud
    obtain ⟨rfl, -⟩ := Prod.mk.inj hud
    exact ⟨⟨⟨hfits, hfits'⟩, hin, hend⟩, rfl⟩
  · rw [if_neg hend] at hud
    cases hud

end RPData

/-! ## The TPDU -/

theorem address_runsOut_iff : RunsOut (TLAddress.parse src) p ↔
    src.length < p + 8 ∨ p + 8 ≤ src.length ∧
      NumberCut src (p + 8) (fieldAt src p 8 / 2 + fieldAt src p 8 % 2) := by
  have hnumber : RunsOut (TLAddress.parse src) p ↔ RunsOut (readField src 8 >>= fun numDigits =>
    numberReader .smsReadError src (numDigits / 2 + numDigits % 2)) p := Iff.rfl
  rw [hnumber, readField_bind_runsOut, numberReader_runsOut_iff (by decide)]

theorem address_ok_iff : (∃ a q, TLAddress.parse src p = .ok (a, q)) ↔ p + 8 ≤ src.length ∧
    NumberFits src (p + 8) (fieldAt src p 8 / 2 + fieldAt src p 8 % 2) := by
  have hnumber : ∀ a q, TLAddress.parse src p = .ok (a, q) ↔ (readField src 8 >>= fun numDigits =>
    numberReader .smsReadError src (numDigits / 2 + numDigits % 2)) p = .ok (a, q) :=
      fun _ _ => Iff.rfl
  simp only [hnumber, readField_bind_ok, ← numberReader_ok_iff (e := Fault.smsReadError)]
  constructor
  · rintro ⟨a, q, hp, h⟩
    exact ⟨hp, a, q, h⟩
  · rintro ⟨hp, a, q, h⟩
    exact ⟨a, q, hp, h⟩

/-- A quiet reader runs out of the frame exactly when it does not succeed. -/
theorem Quiet.runsOut_iff {r : Read α} (h : Quiet r) :
    RunsOut r p ↔ ¬ ∃ a q, r p = .ok (a, q) := by
  cases hr : r p with
  | error e =>
    refine iff_of_true ?_ ?_
    · exact hr.trans (congrArg _ (not_not.1 (h p e hr)).symm)
    · rintro ⟨a, q, hok⟩
      cases hok
  | ok x =>
    refine iff_of_false (fun hout => ?_) fun hnot => hnot ⟨x.1, x.2, rfl⟩
    rw [RunsOut, hr] at hout
    cases hout

theorem readField_of_le {n : Nat} (h : p + n ≤ src.length) :
    readField src n p = .ok (fieldAt src p n, p + n) := readField_ok.2 ⟨h, rfl, rfl⟩

theorem readPair_of_le (src : List Bool) (p : Nat) (h : p + 8 ≤ src.length) :
    ∃ v, readPair src p = .ok (v, p + 8) := by
  refine Frame.bind_succeeds (readField_of_le (by omega)) ?_
  exact Frame.bind_succeeds (readField_of_le (by omega)) ⟨_, rfl⟩

theorem time_of_le (h : p + 57 ≤ src.length) :
    ∃ t, L3TimeZoneAndTime.parseV src p = .ok (t, p + 57) := by
  obtain ⟨v1, h1⟩ := readPair_of_le src p (by omega)
  obtain ⟨v2, h2⟩ := readPair_of_le src (p + 8) (by omega)
  obtain ⟨v3, h3⟩ := readPair_of_le src (p + 8 + 8) (by omega)
  obtain ⟨v4, h4⟩ := readPair_of_le src (p + 8 + 8 + 8) (by omega)
  obtain ⟨v5, h5⟩ := readPair_of_le src (p + 8 + 8 + 8 + 8) (by omega)
  obtain ⟨v6, h6⟩ := readPair_of_le src (p + 8 + 8 + 8 + 8 + 8) (by omega)
  refine Frame.bind_succeeds h1 (Frame.bind_succeeds h2 (Frame.bind_succeeds h3 ?_))
  refine Frame.bind_succeeds h4 (Frame.bind_succeeds h5 (Frame.bind_succeeds h6 ?_))
  refine Frame.bind_succeeds (readField_of_le (by omega)) ?_
  refine Frame.bind_succeeds (readField_of_le (by omega)) ?_
  exact Frame.bind_succeeds (readField_of_le (by omega)) ⟨_, rfl⟩

theorem validityPeriod_of_le (src : List Bool) (p : Nat) {vpf : Nat} (hvpf : vpf < 4)
    (h : p + validityBits vpf ≤ src.length) :
    ∃ e, TLValidityPeriod.parse src vpf p = .ok (e, p + validityBits vpf) := by
  obtain rfl | rfl | rfl | rfl : vpf = 0 ∨ vpf = 1 ∨ vpf = 2 ∨ vpf = 3 := by omega
  · exact ⟨_, rfl⟩
  · exact ⟨_, rfl⟩
  · exact Frame.bind_succeeds (readField_of_le h) ⟨_, rfl⟩
  · obtain ⟨t, ht⟩ := time_of_le h
    exact Frame.bind_succeeds ht ⟨_, rfl⟩

/-- What `parseBody` reads after the address runs out of the frame when the length octet of the user
data is not there. -/
theorem afterAddress_runsOut_iff {vpf : Nat} (hvpf : vpf < 4) (rd rp udhi srr : Bool) (mr : Nat)
    (da : Address) :
    RunsOut (do
      let pi ← readField src 8
      let dcs ← readField src 8
      let vp ← TLValidityPeriod.parse src vpf
      let ud ← TLUserData.parse src dcs udhi
      return (⟨rd, vpf, rp, srr, mr, da, pi, vp, ud⟩ : TLSubmit)) p ↔
      src.length < p + 16 + validityBits vpf + 8 := by
  rw [(quiet_afterAddress src rd vpf rp udhi srr mr da).runsOut_iff, ← Nat.not_le, not_iff_not]
  constructor
  · rintro ⟨s, q, h⟩
    obtain ⟨-, h⟩ := readField_bind_ok.1 h
    obtain ⟨-, h⟩ := readField_bind_ok.1 h
    obtain ⟨vp, p1, hvp, h⟩ := Frame.bind_ok.1 h
    obtain ⟨ud, p2, hud, h⟩ := Frame.bind_ok.1 h
    have hp1 := validityPeriod_ok hvp
    unfold TLUserData.parse at hud
    have hle := (readField_bind_ok.1 hud).1
    omega
  · intro h
    obtain ⟨vp, hvp⟩ := validityPeriod_of_le src (p + 8 + 8) hvpf (by omega)
    have hud : ∃ ud, TLUserData.parse src (fieldAt src (p + 8) 8) udhi
        (p + 8 + 8 + validityBits vpf) = .ok (ud, p + 8 + 8 + validityBits vpf + 8) :=
      Frame.bind_succeeds (readField_of_le (by omega)) ⟨_, rfl⟩
    obtain ⟨ud, hud⟩ := hud
    rw [exists_comm]
    refine ⟨p + 8 + 8 + validityBits vpf + 8, ?_⟩
    refine Frame.bind_succeeds (readField_of_le (by omega)) ?_
    refine Frame.bind_succeeds (readField_of_le (by omega)) ?_
    exact Frame.bind_succeeds hvp (Frame.bind_succeeds hud ⟨_, rfl⟩)

theorem submit_runsOut_iff (h8 : 8 ≤ src.length) :
    TLSubmit.parse src = .error .assertion ↔ src.length < 24 ∨
      NumberCut src 24 (TLSubmit.addressOctets src) ∨
        NumberFits src 24 (TLSubmit.addressOctets src) ∧ src.length < TLSubmit.udAt src + 8 := by
  unfold TLSubmit.parse
  rw [Except.map_eq_error]
  change RunsOut (TLSubmit.parseBody src) 8 ↔ _
  unfold TLSubmit.parseBody
  rw [headerBit_ok h8 (by omega), headerBit_ok h8 (by omega), headerBit_ok h8 (by omega),
    headerBit_ok h8 (by omega), peekField_ok (by omega)]
  simp only [Frame.liftM_ok_bind]
  rw [readField_bind_runsOut, RunsOut, Frame.bind_error]
  have hvpf : fieldAt src 3 2 < 4 := fieldAt_lt src 3 2
  constructor
  · rintro (h | ⟨-, h | ⟨da, q, hda, h⟩⟩)
    · exact .inl (by omega)
    · rcases address_runsOut_iff.1 h with h | ⟨-, h⟩
      · exact .inl h
      · exact .inr (.inl h)
    · have hfits := address_ok_iff.1 ⟨da, q, hda⟩
      have hq : q = TLSubmit.piAt src := address_position hda
      have hlt := (afterAddress_runsOut_iff hvpf _ _ _ _ _ _).1 h
      rw [hq] at hlt
      exact .inr (.inr ⟨hfits.2, hlt⟩)
  · intro h
    by_cases h24 : src.length < 24
    · by_cases h16 : src.length < 16
      · exact .inl h16
      · exact .inr ⟨by omega, .inl (address_runsOut_iff.2 (.inl h24))⟩
    · refine .inr ⟨by omega, ?_⟩
      rcases h with h | h | ⟨hfits, h⟩
      · exact absurd h h24
      · exact .inl (address_runsOut_iff.2 (.inr ⟨by omega, h⟩))
      · obtain ⟨da, q, hda⟩ := address_ok_iff.2 ⟨by omega, hfits⟩
        have hq : q = TLSubmit.piAt src := address_position hda
        refine .inr ⟨da, q, hda, (afterAddress_runsOut_iff hvpf _ _ _ _ _ _).2 ?_⟩
        rw [hq]
        exact h

theorem parseTPDU_runsOut_iff {tpdu : List Bool} :
    parseTPDU tpdu = .error .assertion ↔ TpduCut tpdu := by
  by_cases h8 : 8 ≤ tpdu.length
  · have hlt : ¬ tpdu.length < 8 := by omega
    rw [TpduCut, ← submit_runsOut_iff h8]
    by_cases hmti : fieldAt tpdu 6 2 = 1
    · simp only [parseTPDU_submit h8 hmti, Except.map_eq_error, hmti, hlt, false_or, true_and]
    · refine iff_of_false (fun h => ?_) ?_
      · rw [parseTPDU_other h8 hmti] at h
        cases h
      · rintro (h | ⟨h, -⟩)
        · exact hlt h
        · exact hmti h
  · exact iff_of_true (parseTPDU_short h8) (.inl (by omega))

/-! ## The whole message -/

/-- The parsers stay inside their frames exactly for a message that is not cut off and does not carry
a TPDU that is. -/
theorem readsInside_iff (binaryData : List UInt8) :
    ReadsInside binaryData ↔ ¬ RPData.Cut (unpack binaryData) ∧
      (RPData.Fits (unpack binaryData) → ¬ TpduCut (RPData.tpduOf (unpack binaryData))) := by
  have hrun : parseRPDU binaryData = .error .assertion ↔
      RPData.parse (unpack binaryData) = .error .assertion := by
    unfold parseRPDU
    cases RPData.parse (unpack binaryData) with
    | error e => cases e <;> simp
    | ok rp => simp
  have hok : ∀ rp, parseRPDU binaryData = .ok (some rp) ↔
      RPData.parse (unpack binaryData) = .ok rp := by
    intro rp
    unfold parseRPDU
    cases RPData.parse (unpack binaryData) with
    | error e => cases e <;> simp
    | ok rp' => simp
  unfold ReadsInside
  rw [Ne, hrun, RPData.parse_runsOut_iff]
  refine and_congr_right fun _ => ?_
  constructor
  · intro h hfits
    obtain ⟨rp, hrp⟩ := RPData.parse_fits hfits
    have hinside := h rp ((hok rp).2 hrp)
    rw [(RPData.parse_tpdu hrp).2, Frame.develop_map_some, Ne, parseTPDU_runsOut_iff] at hinside
    exact hinside
  · intro h rp hrp
    obtain ⟨hfits, htpdu⟩ := RPData.parse_tpdu ((hok rp).1 hrp)
    rw [htpdu, Frame.develop_map_some, Ne, parseTPDU_runsOut_iff]
    exact h hfits

/-- An RPDU of one octet is read past its end. -/
theorem not_readsInside : ¬ ∀ binaryData, ReadsInside binaryData := by
  intro hall
  exact (hall [0]).1 rfl

end Smqueue

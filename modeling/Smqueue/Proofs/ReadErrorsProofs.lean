import Smqueue.ReadErrors
import Smqueue.SampleLibs
import Smqueue.Proofs.ShortMsgProofs
import Smqueue.Lib.Proofs.FrameProofs

/-!
# Proofs: the read errors that leave the parser

Every element parser is either free of read errors or has its read errors described in terms of the
bits in front of it; `parse_leaves_readError_iff` puts them together.
-/

namespace Smqueue

theorem assertion_not_readError : ¬ Fault.IsReadError .assertion := by
  rintro (h | h) <;> cases h

/-- The reader can only fail by running out of the frame. -/
abbrev Quiet {α : Type} (r : Read α) : Prop := Frame.Avoids (fun e => Fault.assertion ≠ e) r

theorem Quiet.noReadError {α : Type} {r : Read α} (h : Quiet r) :
    Frame.Avoids Fault.IsReadError r := by
  intro p e he hread
  have hassert : .assertion = e := not_not.1 (h p e he)
  exact assertion_not_readError (hassert ▸ hread)

theorem quiet_readField (src : List Bool) (n : Nat) : Quiet (readField src n) := by
  have hassert : ¬ (fun e => Fault.assertion ≠ e) .assertion := fun h => h rfl
  exact Frame.Avoids.field hassert src n

/-- A field that is read in front of `f` only moves the position. -/
theorem readField_bind_fails_iff {α : Type} {src : List Bool} {n p : Nat} {f : Nat → Read α} :
    (∃ e, (readField src n >>= f) p = .error e ∧ e.IsReadError) ↔
      p + n ≤ src.length ∧ ∃ e, f (fieldAt src p n) (p + n) = .error e ∧ e.IsReadError :=
  Frame.field_bind_fails_iff assertion_not_readError

/-! ## The validity period and the user data -/

theorem quiet_readPair (src : List Bool) : Quiet (readPair src) := by
  unfold readPair
  refine .bind (quiet_readField src 4) fun lo => ?_
  exact .bind (quiet_readField src 4) fun hi => .pure _

theorem quiet_parseV (src : List Bool) : Quiet (L3TimeZoneAndTime.parseV src) := by
  unfold L3TimeZoneAndTime.parseV
  refine .bind (quiet_readPair src) fun year => .bind (quiet_readPair src) fun mon => ?_
  refine .bind (quiet_readPair src) fun mday => .bind (quiet_readPair src) fun hour => ?_
  refine .bind (quiet_readPair src) fun min => .bind (quiet_readPair src) fun sec => ?_
  refine .bind (quiet_readField src 4) fun zone => .bind (quiet_readField src 1) fun sign => ?_
  exact .bind (quiet_readField src 4) fun zone' => .pure _

theorem quiet_validityPeriod (src : List Bool) (vpf : Nat) :
    Quiet (TLValidityPeriod.parse src vpf) := by
  unfold TLValidityPeriod.parse
  split
  · exact .bind (quiet_readField src 8) fun vp => .pure _
  · exact .bind (quiet_parseV src) fun fields => .pure _
  · exact .bind (.modify _) fun _ => .pure _
  · exact .pure _
  · intro p e h
    obtain rfl : Fault.assertion = e := by injection h
    exact not_not.2 rfl

theorem quiet_userData (src : List Bool) (dcs : Nat) (udhi : Bool) :
    Quiet (TLUserData.parse src dcs udhi) := by
  unfold TLUserData.parse
  exact .bind (quiet_readField src 8) fun len => .bind .get fun rp => .pure _

/-! ## The destination address -/

theorem digitCount_succ (src : List Bool) (p k : Nat) :
    digitCount src p (k + 1) =
      (if fieldAt src p 4 ≠ 15 then 2 else 1) + digitCount src (p + 8) k := by
  induction k with
  | zero => simp [digitCount]
  | succ k ih =>
    have hp : p + 8 * (k + 1) = p + 8 + 8 * k := by omega
    rw [digitCount, ih, digitCount, hp, Nat.add_assoc]

/-- The digit loop throws exactly when the digits of the octets that are there grow too many. -/
theorem parseLoop_fails_iff {src : List Bool} {n p : Nat} {ds : CString} :
    (∃ e, L3BCDDigits.parseLoop src n ds p = .error e ∧ e.IsReadError) ↔
      ∃ k ≤ n, 0 < k ∧ p + 8 * k ≤ src.length ∧ maxDigits < ds.length + digitCount src p k := by
  induction n generalizing ds p with
  | zero =>
    constructor
    · rintro ⟨e, h, -⟩
      cases h
    · rintro ⟨k, hk, hk0, -⟩
      omega
  | succ n ih =>
    rw [L3BCDDigits.parseLoop, readField_bind_fails_iff, readField_bind_fails_iff]
    set ds' := ds ++ [bcdChar (fieldAt src (p + 4) 4)] ++
      if fieldAt src p 4 ≠ 15 then [bcdChar (fieldAt src p 4)] else [] with hds'
    have hlen : ds'.length = ds.length + digitCount src p 1 := by
      rw [hds', digitCount, digitCount]
      by_cases h15 : fieldAt src p 4 = 15 <;> simp [h15]
    have hsucc : ∀ k, digitCount src p (k + 1) = digitCount src p 1 + digitCount src (p + 8) k :=
      fun k => by rw [digitCount_succ, digitCount_succ]; rfl
    change (p + 4 ≤ src.length ∧ p + 4 + 4 ≤ src.length ∧
      ∃ e', (if ds'.length > maxDigits then throw .l3ReadError >>= fun _ => _
        else L3BCDDigits.parseLoop src n ds') (p + 8) = .error e' ∧ e'.IsReadError) ↔ _
    by_cases hmax : ds'.length > maxDigits
    · -- the check after the first octet throws
      rw [if_pos hmax]
      constructor
      · rintro ⟨-, hp, -⟩
        exact ⟨1, by omega, by omega, by omega, by omega⟩
      · rintro ⟨k, -, hk0, hk, -⟩
        exact ⟨by omega, by omega, .l3ReadError, rfl, .inr rfl⟩
    · rw [if_neg hmax, ih]
      constructor
      · rintro ⟨-, hp, k, hkn, hk0, hk, hd⟩
        refine ⟨k + 1, by omega, by omega, by omega, ?_⟩
        rw [hsucc]
        omega
      · rintro ⟨k, hkn, hk0, hk, hd⟩
        obtain ⟨k, rfl⟩ : ∃ j, k = j + 1 := ⟨k - 1, by omega⟩
        rw [hsucc] at hd
        refine ⟨by omega, by omega, k, by omega, ?_, by omega, by omega⟩
        rcases Nat.eq_zero_or_pos k with rfl | hk
        · simp only [digitCount] at hd hlen
          omega
        · exact hk

/-- The address parser throws by a clear extension bit or by the digit loop. -/
theorem address_fails_iff {src : List Bool} {p : Nat} :
    (∃ e, TLAddress.parse src p = .error e ∧ e.IsReadError) ↔
      p + 9 ≤ src.length ∧ (fieldAt src (p + 8) 1 ≠ 1 ∨ fieldAt src (p + 8) 1 = 1 ∧
        ∃ k ≤ fieldAt src p 8 / 2 + fieldAt src p 8 % 2, p + 16 + 8 * k ≤ src.length ∧
          maxDigits < (if fieldAt src (p + 9) 3 = internationalNumber then 1 else 0) +
            digitCount src (p + 16) k) := by
  rw [TLAddress.parse, readField_bind_fails_iff, readField_bind_fails_iff]
  by_cases hext : fieldAt src (p + 8) 1 ≠ 1
  · rw [if_pos hext]
    constructor
    · rintro ⟨-, hp, -⟩
      exact ⟨by omega, .inl hext⟩
    · rintro ⟨hp, -⟩
      exact ⟨by omega, by omega, .smsReadError, rfl, .inl rfl⟩
  · rw [if_neg hext]
    have hext' : fieldAt src (p + 8) 1 = 1 := not_not.1 hext
    beta_reduce
    rw [readField_bind_fails_iff, readField_bind_fails_iff]
    rw [Frame.bind_avoids_fails_iff fun mDigits => .pure _, L3BCDDigits.parse, parseLoop_fails_iff]
    -- a plus takes one of the places of the digit array
    have hplus : (if (fieldAt src (p + 9) 3 == internationalNumber) = true then [43]
        else ([] : CString)).length =
          if fieldAt src (p + 9) 3 = internationalNumber then 1 else 0 := by
      by_cases hint : fieldAt src (p + 9) 3 = internationalNumber <;> simp [hint]
    change (p + 8 ≤ src.length ∧ p + 9 ≤ src.length ∧ p + 12 ≤ src.length ∧ p + 16 ≤ src.length ∧
      ∃ k ≤ fieldAt src p 8 / 2 + fieldAt src p 8 % 2, 0 < k ∧ p + 16 + 8 * k ≤ src.length ∧
        maxDigits < (if (fieldAt src (p + 9) 3 == internationalNumber) = true then [43]
          else ([] : CString)).length + digitCount src (p + 16) k) ↔ _
    rw [hplus]
    constructor
    · rintro ⟨-, -, -, -, k, hk, -, hp, hd⟩
      exact ⟨by omega, .inr ⟨hext', k, hk, hp, hd⟩⟩
    · rintro ⟨-, h | ⟨-, k, hk, hp, hd⟩⟩
      · exact absurd hext' h
      · refine ⟨by omega, by omega, by omega, by omega, k, hk, ?_, hp, hd⟩
        rcases Nat.eq_zero_or_pos k with rfl | hk0
        · simp only [digitCount, maxDigits] at hd
          split at hd <;> omega
        · exact hk0

/-! ## The TPDU -/

/-- What `parseBody` reads after the message reference and the address throws nothing. -/
theorem quiet_afterAddress (src : List Bool) (rd : Bool) (vpf : Nat) (rp udhi srr : Bool) (mr : Nat)
    (da : Address) :
    Quiet (do
      let pi ← readField src 8
      let dcs ← readField src 8
      let vp ← TLValidityPeriod.parse src vpf
      let ud ← TLUserData.parse src dcs udhi
      return (⟨rd, vpf, rp, srr, mr, da, pi, vp, ud⟩ : TLSubmit)) := by
  refine .bind (quiet_readField src 8) fun pi => .bind (quiet_readField src 8) fun dcs => ?_
  refine .bind (quiet_validityPeriod src vpf) fun vp => ?_
  exact .bind (quiet_userData src dcs udhi) fun ud => .pure _

theorem headerBit_ok {src : List Bool} (h8 : 8 ≤ src.length) {i : Nat} (hi : i < 8) :
    headerBit src i = .ok (decide (fieldAt src i 1 = 1)) := by
  unfold headerBit peekField Frame.peek
  rw [if_pos (by omega)]
  rfl

theorem peekField_ok {src : List Bool} {p n : Nat} (h : p + n ≤ src.length) :
    peekField src p n = .ok (fieldAt src p n) := by
  unfold peekField Frame.peek
  rw [if_pos h]
  rfl

theorem submit_fails_iff {src : List Bool} (h8 : 8 ≤ src.length) :
    (∃ e, TLSubmit.parse src = .error e ∧ e.IsReadError) ↔
      NoExtensionBit src ∨ TooManyDigits src := by
  have hbody : (∃ e, TLSubmit.parse src = .error e ∧ e.IsReadError) ↔
      ∃ e, TLSubmit.parseBody src 8 = .error e ∧ e.IsReadError := by
    unfold TLSubmit.parse
    cases TLSubmit.parseBody src 8 with
    | error e => simp [Except.map]
    | ok r => simp [Except.map]
  rw [hbody]
  unfold TLSubmit.parseBody
  rw [headerBit_ok h8 (by omega), headerBit_ok h8 (by omega), headerBit_ok h8 (by omega),
    headerBit_ok h8 (by omega), peekField_ok (by omega)]
  simp only [Frame.liftM_ok_bind]
  rw [readField_bind_fails_iff,
    Frame.bind_avoids_fails_iff fun da => (quiet_afterAddress src _ _ _ _ _ _ da).noReadError,
    address_fails_iff]
  constructor
  · rintro ⟨-, h9, h | ⟨h1, k, hk, hp, hd⟩⟩
    · exact .inl ⟨h9, h⟩
    · exact .inr ⟨h1, k, hk, hp, hd⟩
  · rintro (⟨h9, h⟩ | ⟨h1, k, hk, hp, hd⟩)
    · exact ⟨by omega, h9, .inl h⟩
    · exact ⟨by omega, by omega, .inr ⟨h1, k, hk, hp, hd⟩⟩

theorem parseTPDU_submit {tpdu : List Bool} (h8 : 8 ≤ tpdu.length) (hmti : fieldAt tpdu 6 2 = 1) :
    parseTPDU tpdu = (TLSubmit.parse tpdu).map fun s => some (.submit s) := by
  unfold parseTPDU
  rw [peekField_ok (by omega), hmti]
  rfl

/-- A TPDU of another type is not parsed. -/
theorem parseTPDU_other {tpdu : List Bool} (h8 : 8 ≤ tpdu.length) (hmti : fieldAt tpdu 6 2 ≠ 1) :
    parseTPDU tpdu = .ok none := by
  unfold parseTPDU
  rw [peekField_ok (by omega), Except.ok_bind]
  split
  · contradiction
  · rfl

/-- A frame of less than an octet fails in the bit vector library. -/
theorem parseTPDU_short {tpdu : List Bool} (h8 : ¬ 8 ≤ tpdu.length) :
    parseTPDU tpdu = .error .assertion := by
  unfold parseTPDU peekField Frame.peek
  rw [if_neg (by omega)]
  rfl

theorem parseTPDU_fails_iff {tpdu : List Bool} :
    (∃ e, parseTPDU tpdu = .error e ∧ e.IsReadError) ↔ BadDestination tpdu := by
  by_cases h8 : 8 ≤ tpdu.length
  · rw [BadDestination, ← submit_fails_iff h8]
    by_cases hmti : fieldAt tpdu 6 2 = 1
    · simp only [parseTPDU_submit h8 hmti, Except.map_eq_error, hmti, true_and]
    · constructor
      · rintro ⟨e, h, -⟩
        rw [parseTPDU_other h8 hmti] at h
        cases h
      · rintro ⟨h, -⟩
        exact absurd h hmti
  · rw [parseTPDU_short h8]
    constructor
    · rintro ⟨e, h, he⟩
      obtain rfl : Fault.assertion = e := by injection h
      exact absurd he assertion_not_readError
    · rintro ⟨-, ⟨h, -⟩ | ⟨-, k, -, h, -⟩⟩ <;> omega

/-! ## The message -/

theorem quiet_decodeRPData {lib : Libs} {text : CString} {sip : SipMessage} {e : Fault}
    (h : ShortMsg.decodeRPData lib text sip = .error e) : ¬ e.IsReadError := by
  unfold ShortMsg.decodeRPData at h
  split at h
  · cases h
  · cases hb : ShortMsg.bodyOf text with
    | none =>
      rw [hb] at h
      obtain rfl : Fault.nullPointer = e := by injection h
      rintro (he | he) <;> cases he
    | some body =>
      rw [hb] at h
      change parseRPDU _ = _ at h
      unfold parseRPDU at h
      -- both read errors become a missing RP-DATA
      split at h
      · cases h
      · cases h
      · cases h
      next e' hsms hl3 _ =>
        obtain rfl : e' = e := by injection h
        rintro (he | he)
        · exact hsms he
        · exact hl3 he

theorem nullPointer_not_readError : ¬ Fault.IsReadError .nullPointer := by
  rintro (h | h) <;> cases h

/-- The content of a message makes the parser throw exactly by a bad destination address in the
TPDU of an encoded message. -/
theorem parseContent_fails_iff {lib : Libs} {m : ShortMsg} {text : CString} {sip : SipMessage} :
    (∃ e, ShortMsg.parseContent lib m text sip = .error e ∧ e.IsReadError) ↔
      sip.contentType = some ⟨some (str "application"), some (str "vnd.3gpp.sms")⟩ ∧
        ∃ rp, ShortMsg.decodeRPData lib text sip = .ok (some rp) ∧
          BadDestination (Frame.develop (fun _ => false) rp.tpdu) := by
  unfold ShortMsg.parseContent
  cases hct : sip.contentType with
  | none => simp [Pure.pure, Except.pure]
  | some ct =>
    dsimp only
    by_cases happ : ct = ⟨some (str "application"), some (str "vnd.3gpp.sms")⟩
    · subst happ
      have h1 := ShortMsg.encodedType_is_plain
      have h2 := ShortMsg.encodedType_is_encoded
      unfold ShortMsg.encodedType at h1 h2
      rw [h1, h2]
      cases hrp : ShortMsg.decodeRPData lib text sip with
      | error e =>
        have := quiet_decodeRPData hrp
        simp [Bind.bind, Except.bind, this]
      | ok rp =>
        cases rp with
        | none => simp [Bind.bind, Except.bind, Pure.pure, Except.pure]
        | some rp =>
          simp only [true_and, Except.ok.injEq, Option.some.injEq, exists_eq_left',
            ← parseTPDU_fails_iff]
          cases htl : parseTPDU (Frame.develop (fun _ => false) rp.tpdu) with
          | error e => simp [Bind.bind, Except.bind, htl]
          | ok tl => cases tl <;> simp [Bind.bind, Except.bind, Pure.pure, Except.pure, htl]
    · -- no other content type is looked into
      have hne : (some ct : Option MediaType) ≠
          some ⟨some (str "application"), some (str "vnd.3gpp.sms")⟩ := by simpa using happ
      simp only [hne, false_and, iff_false]
      rintro ⟨e, h, he⟩
      rcases mediaType_is ct (str "text") (str "plain") with h1 | h1
      · rw [h1] at h
        obtain rfl : Fault.nullPointer = e := by injection h
        exact nullPointer_not_readError he
      · rw [h1] at h
        by_cases htext : ct = ⟨some (str "text"), some (str "plain")⟩
        · simp [htext, Bind.bind, Except.bind, Pure.pure, Except.pure] at h
        · rcases mediaType_is ct (str "application") (str "vnd.3gpp.sms") with h2 | h2
          · simp [htext, h2, Bind.bind, Except.bind] at h
            subst h
            exact nullPointer_not_readError he
          · simp [htext, h2, happ, Bind.bind, Except.bind, Pure.pure, Except.pure] at h

/-- A read error leaves the parser exactly when the message carries a bad destination address. -/
theorem parse_leaves_readError_iff (lib : Libs) (m : ShortMsg) :
    (∀ e, m.parse lib = .error e → ¬ e.IsReadError) ↔ ¬ m.CarriesBadDestination lib := by
  have hneg : (∀ e, m.parse lib = .error e → ¬ e.IsReadError) ↔
      ¬ ∃ e, m.parse lib = .error e ∧ e.IsReadError := by
    simp
  rw [hneg, not_iff_not]
  unfold ShortMsg.parse ShortMsg.CarriesBadDestination
  cases hv : m.parsedIsValid with
  | true => simp [Pure.pure, Except.pure]
  | false =>
    rw [ShortMsg.unparse_of_not_valid hv]
    cases ht : m.text with
    | none => simp [Bind.bind, Except.bind, Pure.pure, Except.pure]
    | some text =>
      cases hp : lib.messageParse (ShortMsg.buffer text m.textLength) with
      | none => simp [Bind.bind, Except.bind, Pure.pure, Except.pure, hp]
      | some sip =>
        simp only [Bind.bind, Except.bind, Bool.false_eq_true, if_false, hp]
        rw [parseContent_fails_iff]
        constructor
        · rintro ⟨hct, rp, hrp, hbad⟩
          exact ⟨trivial, text, sip, _, rp, rfl, hp, hct, rfl, hrp, hbad⟩
        · rintro ⟨-, text', sip', ct, rp, htext, hp', hct, rfl, hrp, hbad⟩
          obtain rfl : text = text' := by injection htext
          obtain rfl : sip = sip' := by
            rw [hp] at hp'
            injection hp'
          exact ⟨hct, rp, hrp, hbad⟩

/-- An encoded message whose SMS-SUBMIT has a destination address with a clear extension bit. -/
def badDestinationSip : SipMessage :=
  { sampleRequest with
    contentType := some ⟨some (str "application"), some (str "vnd.3gpp.sms")⟩
    contentLength := some (some (str "30")), bodies := [str "000100000a01000421214300000141"] }

/-- A message that has just been received. -/
def receivedMsg (sip : SipMessage) : ShortMsg :=
  ShortMsg.initializeCopy { msToSc := true } (SampleLibs.messageText sip)

/-- The read error of the destination address leaves the parser. -/
theorem not_parse_catches_readError :
    ¬ ∀ (lib : Libs) (m : ShortMsg) (e : Fault), m.parse lib = .error e → ¬ e.IsReadError := by
  intro hall
  have hrun : (receivedMsg badDestinationSip).parse (sampleLibs [badDestinationSip] []) =
      .error .smsReadError := by decide +kernel
  exact hall _ _ _ hrun (.inl rfl)

end Smqueue

import Smqueue.SentContent
import Smqueue.Proofs.RelayProofs
import Smqueue.Proofs.RecodeProofs

/-!
# Proofs: user data on the wire

What is left of the user data of an SMS-DELIVER when the length of the user data, or that of the
TPDU around it, does not fit into its octet, and what is decoded of it.
-/

namespace Smqueue

open Frame (blank develop toBits)

/-! ## Octets -/

@[simp] theorem unpack_length (octets : List UInt8) :
    (unpack octets).length = 8 * octets.length := by
  induction octets with
  | nil => rfl
  | cons b octets ih =>
    unfold unpack at ih ⊢
    rw [List.flatMap_cons, List.length_append, ih, Frame.toBits_length, List.length_cons]
    omega

/-- Bits that are whole octets are got back from the octets. -/
theorem unpack_packToString {bits : List Bool} (h : 8 ∣ bits.length) :
    unpack (packToString bits) = bits := by
  fun_induction packToString bits with
  | case1 a b c d e f g i rest ih =>
    have hbyte : (UInt8.ofNat (Frame.ofBits [a, b, c, d, e, f, g, i])).toNat =
        Frame.ofBits [a, b, c, d, e, f, g, i] := by
      rw [UInt8.toNat_ofNat']
      exact Nat.mod_eq_of_lt (Frame.ofBits_lt [a, b, c, d, e, f, g, i])
    have hrest : 8 ∣ rest.length := by
      simp only [List.length_cons] at h
      omega
    have hbits := Frame.toBits_ofBits [a, b, c, d, e, f, g, i]
    unfold unpack at ih ⊢
    rw [List.flatMap_cons, ih hrest, hbyte]
    exact congrArg (· ++ rest) hbits
  | case2 => rfl
  | case3 rest hshort hne =>
    match rest, hne, hshort, h with
    | [_], _, _, h | [_, _], _, _, h | [_, _, _], _, _, h | [_, _, _, _], _, _, h
    | [_, _, _, _, _], _, _, h | [_, _, _, _, _, _], _, _, h | [_, _, _, _, _, _, _], _, _, h =>
      simp only [List.length_cons, List.length_nil] at h
      omega
    | [], hne, _, _ => exact (hne rfl).elim
    | _ :: _ :: _ :: _ :: _ :: _ :: _ :: _ :: _, _, hshort, _ =>
      exact (hshort _ _ _ _ _ _ _ _ _ rfl).elim

/-! ## Whole frames -/

/-- An SMS-DELIVER with user data of whole octets fills its frame, the user data up to the end, and so
does RP-DATA around it, with the SMS-DELIVER up to the end: nothing is written behind the frame, and no
bit of it is left out. -/
theorem TLDeliver.write_fills (d : TLDeliver) (h : 8 ∣ d.ud.rawData.length)
    (hdcs : d.ud.dcs < 256) :
    ∃ (n : Nat) (bits : List Bool), d.bitsNeeded = .ok n ∧ bits.length = n ∧
      d.write = .ok (bits.map some) ∧
      bits.drop (d.udAt + 8) = Frame.reverseOctets d.ud.rawData ∧
      ∀ rp : RPData, rp.tpdu = bits.map some →
        ∃ head : List Bool, (head ++ bits).length = rp.octets * 8 ∧
          rp.write = .ok ((head ++ bits).map some) := by
  obtain ⟨hhead, -, -, -⟩ := d.head_fields hdcs []
  let bits := TLDeliver.headerBits d.ud.udhi ++ d.fieldBits ++ Frame.reverseOctets d.ud.rawData
  have hsheet : d.sheet = bits.map some := by
    unfold TLDeliver.sheet
    rw [TLUserData.sheet_eq h, ← List.map_append]
  have hlen : bits.length = d.octets * 8 := by
    rw [← d.sheet_length, hsheet, List.length_map]
  refine ⟨d.octets * 8, bits, if_pos hdcs, hlen, ?_, ?_, fun rp hrp => ?_⟩
  · rw [d.write_eq, hsheet]
  · rw [← hhead]
    exact List.drop_left
  · have hwhole : 8 ∣ rp.tpdu.length := by
      rw [hrp, List.length_map, hlen]
      exact ⟨_, Nat.mul_comm ..⟩
    have hall := RPData.headBits_length rp hwhole
    refine ⟨rp.headBits, ?_, ?_⟩
    · rw [hrp, List.length_map] at hall
      rw [List.length_append, hall]
    · rw [RPData.write_eq rp hwhole, hrp, ← List.map_append]

/-- An SMS-DELIVER from a number without digits, with user data of one octet. -/
theorem TLDeliver.write_fills_sample :
    let d : TLDeliver := ⟨Address.ofDigits [], 0, ⟨112, 7, 6, 12, 0, 0, 7200⟩,
      ⟨4, false, 1, List.replicate 8 true⟩⟩
    ∃ (n : Nat) (bits : List Bool), d.bitsNeeded = .ok n ∧ bits.length = n ∧
      d.write = .ok (bits.map some) ∧
      bits.drop (d.udAt + 8) = Frame.reverseOctets d.ud.rawData ∧
      ∀ rp : RPData, rp.tpdu = bits.map some →
        ∃ head : List Bool, (head ++ bits).length = rp.octets * 8 ∧
          rp.write = .ok ((head ++ bits).map some) :=
  TLDeliver.write_fills ⟨Address.ofDigits [], 0, ⟨112, 7, 6, 12, 0, 0, 7200⟩,
    ⟨4, false, 1, List.replicate 8 true⟩⟩ ⟨1, rfl⟩ (by decide)

/-! ## The user data of an SMS-DELIVER -/

/-- User data are read behind the fields of an SMS-DELIVER. -/
theorem TLDeliver.readUserData_behind {d : TLDeliver} {head rest : List Bool} {coding length : Nat}
    {udhi : Bool} (hlen : head.length = d.udAt + 8)
    (hudhi : fieldAt (head ++ rest) 1 1 = udhi.toNat)
    (hcoding : fieldAt (head ++ rest) d.dcsAt 8 = coding)
    (hdata : (head ++ rest).drop d.udAt = toBits 8 length ++ rest) :
    d.readUserData (head ++ rest) =
      some ⟨coding, udhi, length % 256, Frame.reverseOctets rest⟩ := by
  have hin : d.udAt + 8 ≤ (head ++ rest).length := by
    rw [List.length_append]
    omega
  have hlength : fieldAt (head ++ rest) d.udAt 8 = length % 256 := by
    have htake : (toBits 8 length ++ rest).take 8 = toBits 8 length :=
      List.take_left' (Frame.toBits_length 8 length)
    have hoctet : Frame.ofBits (toBits 8 length) = length % 256 := Frame.ofBits_toBits 8 length
    unfold fieldAt
    rw [hdata, htake]
    exact hoctet
  have hrest : (head ++ rest).drop (d.udAt + 8) = rest := by
    rw [← hlen, List.drop_left]
  have hparse : TLUserData.parse (head ++ rest) coding udhi d.udAt =
      .ok (⟨coding, udhi, length % 256, Frame.reverseOctets rest⟩, d.udAt + 8) := by
    unfold TLUserData.parse
    refine readField_bind_ok.2 ⟨hin, ?_⟩
    rw [hlength]
    change Except.ok ((⟨coding, udhi, length % 256,
      Frame.reverseOctets ((head ++ rest).drop (d.udAt + 8))⟩ : TLUserData), d.udAt + 8) = _
    rw [hrest]
  have hflag : decide (fieldAt (head ++ rest) 1 1 = 1) = udhi := by
    rw [hudhi]
    cases udhi <;> rfl
  unfold TLDeliver.readUserData
  rw [hcoding, hflag, hparse]
  rfl

/-- Nothing is read if the fields are not all there. -/
theorem TLDeliver.readUserData_short {d : TLDeliver} {tpdu : List Bool}
    (h : tpdu.length < d.udAt + 8) : d.readUserData tpdu = none := by
  unfold TLDeliver.readUserData
  cases hparse : TLUserData.parse tpdu (fieldAt tpdu d.dcsAt 8) (fieldAt tpdu 1 1 = 1) d.udAt with
  | error e => rfl
  | ok r =>
    unfold TLUserData.parse at hparse
    exact absurd (readField_bind_ok.1 hparse).1 (Nat.not_le.2 h)

/-- User data are read off the first `k` bits of an SMS-DELIVER if its fields are among them. -/
theorem TLDeliver.readUserData_take (d : TLDeliver) (hdcs : d.ud.dcs < 256) (junk : Nat → Bool) :
    ∃ fill, ∀ k, d.readUserData ((develop junk d.sheet).take k) =
      if d.udAt + 8 ≤ k then
        some ⟨d.ud.dcs, d.ud.udhi, d.ud.length % 256,
          Frame.reverseOctets ((develop fill d.ud.sheet).take (k - (d.udAt + 8)))⟩
      else none := by
  have hdevelop : ∃ fill, develop junk d.sheet =
      TLDeliver.headerBits d.ud.udhi ++ d.fieldBits ++ develop fill d.ud.sheet := by
    unfold TLDeliver.sheet
    rw [Frame.develop_append, Frame.develop_map_some]
    exact ⟨_, rfl⟩
  obtain ⟨fill, hfill⟩ := hdevelop
  refine ⟨fill, fun k => ?_⟩
  have hlen := (d.head_fields hdcs []).1
  rw [hfill]
  by_cases hk : d.udAt + 8 ≤ k
  · obtain ⟨-, hudhi, hcoding, hdata⟩ :=
      d.head_fields hdcs ((develop fill d.ud.sheet).take (k - (d.udAt + 8)))
    rw [if_pos hk, List.take_append, List.take_of_length_le (by omega), hlen]
    exact TLDeliver.readUserData_behind hlen hudhi hcoding hdata
  · rw [if_neg hk]
    refine TLDeliver.readUserData_short ?_
    rw [List.length_take]
    omega

/-- The user data of a whole SMS-DELIVER are read back, with the bits that fill up the last octet. -/
theorem TLUserData.reverse_sheet (ud : TLUserData) (junk : Nat → Bool) : ∃ fill : List Bool,
    fill.length < 8 ∧ ud.rawData.length + fill.length = (ud.rawData.length + 7) / 8 * 8 ∧
      Frame.reverseOctets (develop junk ud.sheet) = ud.rawData ++ fill := by
  obtain ⟨fill, hlen, hfill⟩ := Frame.reverseOctets_develop junk ud.rawData
    ((ud.rawData.length + 7) / 8 * 8 - ud.rawData.length)
  exact ⟨fill, by omega, by omega, hfill⟩

/-! ## Decoding -/

variable {raw : List Bool} {p q : Nat} {text : CString}

/-- As many septets are read as characters are decoded. -/
theorem decodeLoop_ok {n : Nat} (h : TLUserData.decodeLoop raw n p = .ok (text, q)) :
    text.length = n ∧ (n = 0 ∨ p + 7 * n ≤ raw.length) := by
  induction n generalizing p q text with
  | zero =>
    obtain ⟨rfl, -⟩ := pure_ok.1 h
    exact ⟨rfl, .inl rfl⟩
  | succ n ih =>
    unfold TLUserData.decodeLoop at h
    obtain ⟨gsm, p', hgsm, h⟩ := Frame.bind_ok.1 h
    obtain ⟨rest, p'', hrest, h⟩ := Frame.bind_ok.1 h
    obtain ⟨rfl, rfl⟩ := pure_ok.1 h
    unfold readFieldReversed at hgsm
    rw [Frame.fieldReversed_apply] at hgsm
    split at hgsm
    · injection hgsm with hgsm
      obtain ⟨-, rfl⟩ := Prod.mk.inj hgsm
      obtain ⟨hlen, hin⟩ := ih hrest
      refine ⟨congrArg (· + 1) hlen, .inr ?_⟩
      omega
    · cases hgsm

/-- Septets that are there are decoded. -/
theorem decodeLoop_total (n : Nat) (h : p + 7 * n ≤ raw.length) :
    ∃ text, TLUserData.decodeLoop raw n p = .ok (text, p + 7 * n) ∧ text.length = n := by
  induction n generalizing p with
  | zero => exact ⟨[], rfl, rfl⟩
  | succ n ih =>
    obtain ⟨rest, hrest, hlen⟩ := ih (p := p + 7) (by omega)
    have hgsm : readFieldReversed raw 7 p =
        .ok (Frame.ofBits ((raw.drop p).take 7).reverse, p + 7) := by
      unfold readFieldReversed
      rw [Frame.fieldReversed_apply, if_pos (by omega)]
    have hq : p + 7 + 7 * n = p + 7 * (n + 1) := by omega
    refine ⟨decodeGSMChar (Frame.ofBits ((raw.drop p).take 7).reverse) :: rest, ?_,
      congrArg (· + 1) hlen⟩
    unfold TLUserData.decodeLoop
    refine Frame.bind_ok.2 ⟨_, _, hgsm, Frame.bind_ok.2 ⟨_, _, hrest, ?_⟩⟩
    rw [hq]
    rfl

/-- Bits behind the septets do not matter. -/
theorem decodeLoop_append {n : Nat} (fill : List Bool)
    (h : TLUserData.decodeLoop raw n p = .ok (text, q)) :
    TLUserData.decodeLoop (raw ++ fill) n p = .ok (text, q) := by
  induction n generalizing p q text with
  | zero => exact h
  | succ n ih =>
    unfold TLUserData.decodeLoop at h ⊢
    obtain ⟨gsm, p', hgsm, h⟩ := Frame.bind_ok.1 h
    obtain ⟨rest, p'', hrest, h⟩ := Frame.bind_ok.1 h
    refine Frame.bind_ok.2 ⟨gsm, p', ?_, Frame.bind_ok.2 ⟨rest, p'', ih hrest, h⟩⟩
    unfold readFieldReversed at hgsm ⊢
    rw [Frame.fieldReversed_apply] at hgsm ⊢
    split at hgsm
    · rename_i hin
      rw [if_pos (by rw [List.length_append]; omega),
        List.drop_append_of_le_length (by omega),
        List.take_append_of_le_length (by rw [List.length_drop]; omega)]
      exact hgsm
    · cases hgsm

/-- Only the bit vectors stop the decoding loop. -/
theorem decodeLoop_error {n : Nat} {e : Fault} (h : TLUserData.decodeLoop raw n p = .error e) :
    e = .assertion := by
  induction n generalizing p with
  | zero => cases h
  | succ n ih =>
    unfold TLUserData.decodeLoop at h
    rcases Frame.bind_error.1 h with h | ⟨gsm, p', -, h⟩
    · unfold readFieldReversed at h
      rw [Frame.fieldReversed_apply] at h
      split at h
      · cases h
      · injection h with h
        exact h.symm
    · rcases Frame.bind_error.1 h with h | ⟨rest, p'', -, h⟩
      · exact ih h
      · cases h

namespace TLUserData

variable {ud : TLUserData}

/-- The number of characters behind the header. -/
def textLength (ud : TLUserData) : Nat :=
  if ud.udhi = true then (ud.length + 2 ^ 32 - ud.headerSeptets) % 2 ^ 32 else ud.length

/-- Where the text begins. -/
def textAt (ud : TLUserData) : Nat := if ud.udhi = true then ud.headerSeptets * 7 else 0

theorem decode_of_not_readable (h : ¬ ud.Readable) : ud.decode = .error .smsReadError := by
  unfold decode
  by_cases hdcs : decodable ud.dcs = true
  · have hlen : ud.length * 7 > ud.rawData.length := by
      by_contra hle
      exact h ⟨hdcs, by omega⟩
    rw [hdcs, if_pos hlen]
    rfl
  · rw [Bool.eq_false_of_not_eq_true hdcs]
    rfl

theorem decode_plain (h : ud.Readable) (hudhi : ud.udhi = false) :
    ud.decode = (decodeLoop ud.rawData ud.length 0).map Prod.fst := by
  unfold decode
  rw [h.1, if_neg (by decide), if_neg (Nat.not_lt.2 h.2), hudhi, if_neg (by decide)]
  cases decodeLoop ud.rawData ud.length 0 <;> rfl

theorem decode_header_short (h : ud.Readable) (hudhi : ud.udhi = true)
    (hshort : ud.rawData.length < 8) : ud.decode = .error .assertion := by
  have hpeek : Frame.peekReversed Fault.assertion ud.rawData 0 8 = .error .assertion := by
    unfold Frame.peekReversed
    rw [if_neg (by omega)]
  unfold decode
  rw [h.1, if_neg (by decide), if_neg (Nat.not_lt.2 h.2), hudhi, if_pos rfl, hpeek]
  rfl

/-- A loop whose bounds depend on what was read before it. -/
theorem loop_after (loop : Nat → Nat → Except Fault (CString × Nat)) (n p : Nat → Nat) (u : Nat) :
    (Except.ok u >>= fun u => (fun n => loop n (p u) >>= fun r => pure r.1) (n u) :
      Except Fault CString) = (loop (n u) (p u)).map Prod.fst := by
  change (loop (n u) (p u)).bind (fun r => Except.ok r.1) = _
  cases loop (n u) (p u) <;> rfl

theorem decode_header {udhl : Nat} (h : ud.Readable) (hudhi : ud.udhi = true)
    (hpeek : Frame.peekReversed Fault.assertion ud.rawData 0 8 = .ok udhl) :
    ud.decode = (decodeLoop ud.rawData ((ud.length + 2 ^ 32 - udhSeptets udhl) % 2 ^ 32)
      (udhSeptets udhl * 7)).map Prod.fst := by
  unfold decode
  rw [h.1, if_neg (by decide), if_neg (Nat.not_lt.2 h.2), hudhi, if_pos rfl, hpeek]
  exact loop_after (decodeLoop ud.rawData)
    (fun udhl => (ud.length + 2 ^ 32 - udhSeptets udhl) % 2 ^ 32) (fun udhl => udhSeptets udhl * 7)
    udhl

/-- How user data that can be read are decoded. -/
theorem decode_eq (h : ud.Readable) : ud.decode =
    if ud.udhi = true ∧ ud.rawData.length < 8 then .error .assertion
    else (decodeLoop ud.rawData ud.textLength ud.textAt).map Prod.fst := by
  unfold textLength textAt
  by_cases hudhi : ud.udhi = true
  · rw [if_pos hudhi, if_pos hudhi]
    by_cases hshort : ud.rawData.length < 8
    · rw [if_pos ⟨hudhi, hshort⟩, decode_header_short h hudhi hshort]
    · have hpeek : Frame.peekReversed Fault.assertion ud.rawData 0 8 =
          .ok (Frame.ofBits (ud.rawData.take 8).reverse) := by
        unfold Frame.peekReversed
        rw [if_pos (by omega), List.drop_zero]
      rw [if_neg fun hand => hshort hand.2, decode_header h hudhi hpeek]
      rfl
  · rw [if_neg hudhi, if_neg hudhi, if_neg fun hand => hudhi hand.1,
      decode_plain h (Bool.eq_false_of_not_eq_true hudhi)]

theorem decode_eq_ok (h : ud.Readable) : ud.decode = .ok text ↔
    (ud.udhi = true → 8 ≤ ud.rawData.length) ∧
      ∃ q, decodeLoop ud.rawData ud.textLength ud.textAt = .ok (text, q) := by
  rw [decode_eq h]
  constructor
  · intro hdecode
    split at hdecode
    · cases hdecode
    · rename_i hshort
      obtain ⟨⟨text', q⟩, hloop, rfl⟩ := Except.map_eq_ok.1 hdecode
      exact ⟨fun hudhi => Nat.le_of_not_lt fun hlt => hshort ⟨hudhi, hlt⟩, q, hloop⟩
  · rintro ⟨hshort, q, hloop⟩
    have hlong : ¬ (ud.udhi = true ∧ ud.rawData.length < 8) :=
      fun hand => absurd (hshort hand.1) (Nat.not_le.2 hand.2)
    rw [if_neg hlong, hloop]
    rfl

/-- What `get_text` makes of user data. -/
theorem decodedText_ok : ShortMsg.decodedText ud = .ok text ↔
    ud.Readable ∧ ud.decode = .ok text ∨ ¬ ud.Readable ∧ text = [] := by
  unfold ShortMsg.decodedText
  by_cases hr : ud.Readable
  · have hne : ud.decode ≠ .error .smsReadError := by
      rw [decode_eq hr]
      intro h
      split at h
      · cases h
      · cases (decodeLoop_error (Except.map_eq_error.1 h))
    cases hd : ud.decode with
    | error e =>
      cases e with
      | smsReadError => exact absurd hd hne
      | _ => simp [hr]
    | ok text' => simp [hr]
  · rw [decode_of_not_readable hr]
    simp [hr, eq_comm]

end TLUserData

end Smqueue

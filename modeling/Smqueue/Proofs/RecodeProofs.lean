import Smqueue.Smsc
import Smqueue.SampleLibs
import Smqueue.Proofs.SubmitProofs
import Smqueue.Proofs.UserDataProofs
import Smqueue.Proofs.SmscProofs

/-!
# Proofs: a recoded message carries the same user data

The SMS-DELIVER that is made of an SMS-SUBMIT has the user data of the SMS-SUBMIT bit for bit.
-/

namespace Smqueue

open Frame (toBits)

variable {lib : Libs} {env : Env} {m m' : ShortMsg} {body : CString}

/-! ## The user data -/

/-- The fields of an SMS-DELIVER in front of its user data, whatever follows. -/
theorem TLDeliver.head_fields (d : TLDeliver) (hdcs : d.ud.dcs < 256) (rest : List Bool) :
    (TLDeliver.headerBits d.ud.udhi ++ d.fieldBits).length = d.udAt + 8 ∧
      fieldAt (TLDeliver.headerBits d.ud.udhi ++ d.fieldBits ++ rest) 1 1 = d.ud.udhi.toNat ∧
      fieldAt (TLDeliver.headerBits d.ud.udhi ++ d.fieldBits ++ rest) d.dcsAt 8 = d.ud.dcs ∧
      (TLDeliver.headerBits d.ud.udhi ++ d.fieldBits ++ rest).drop d.udAt =
        toBits 8 d.ud.length ++ rest := by
  let before := TLDeliver.headerBits d.ud.udhi ++
    (toBits 8 d.oa.digits.length ++ d.oa.bits ++ toBits 8 d.pid)
  let upto := before ++ toBits 8 d.ud.dcs ++ d.scts.bits
  have hbefore : before.length = d.dcsAt := by
    simp only [before, TLDeliver.headerBits, List.length_append, Frame.toBits_length,
      Address.bits_length, TLDeliver.dcsAt, TLAddress.length, List.length_cons, List.length_nil]
    omega
  have hupto : upto.length = d.udAt := by
    simp only [upto, List.length_append, Frame.toBits_length, Tm.bits_length, hbefore,
      TLDeliver.udAt]
  have hhead : TLDeliver.headerBits d.ud.udhi ++ d.fieldBits = upto ++ toBits 8 d.ud.length := by
    simp [upto, before, TLDeliver.fieldBits]
  refine ⟨?_, ?_, ?_, ?_⟩
  · rw [hhead, List.length_append, hupto, Frame.toBits_length]
  · have hbit : fieldAt (TLDeliver.headerBits d.ud.udhi ++ d.fieldBits ++ rest) 1 1 =
        Frame.ofBits [d.ud.udhi] := rfl
    rw [hbit]
    simp [Frame.ofBits]
  · have hsplit : TLDeliver.headerBits d.ud.udhi ++ d.fieldBits ++ rest =
        before ++ toBits 8 d.ud.dcs ++ (d.scts.bits ++ (toBits 8 d.ud.length ++ rest)) := by
      simp [hhead, upto]
    rw [hsplit, ← hbefore, fieldAt_ahead _ _ (by omega)]
  · rw [hhead, ← hupto, List.append_assoc, List.drop_left]

/-- The fields of an SMS-DELIVER whose user data are whole octets. -/
theorem TLDeliver.fields (d : TLDeliver) (h : 8 ∣ d.ud.rawData.length) (hdcs : d.ud.dcs < 256) :
    ∃ out, d.sheet = out.map some ∧ fieldAt out 1 1 = d.ud.udhi.toNat ∧
      fieldAt out d.dcsAt 8 = d.ud.dcs ∧
      out.drop d.udAt = toBits 8 d.ud.length ++ Frame.reverseOctets d.ud.rawData := by
  obtain ⟨-, hudhi, hcoding, hdata⟩ := d.head_fields hdcs (Frame.reverseOctets d.ud.rawData)
  refine ⟨_, ?_, hudhi, hcoding, hdata⟩
  unfold TLDeliver.sheet
  rw [TLUserData.sheet_eq h, ← List.map_append]

/-- A recoded SMS-SUBMIT carries its header indicator, its coding scheme, its length octet and its
user data on, decodable or not. -/
theorem ShortMsg.recodeTpdu_carries (lib : Libs) (env : Env) (body : CString) (src : List Bool)
    (s : TLSubmit) (m m' : ShortMsg) (hsrc : TLSubmit.parse src = .ok s)
    (hoctets : 8 ∣ src.length) (haligned : 8 ∣ TLSubmit.udAt src)
    (hm : m.tlMessage = some (.submit s)) (h : m.recodeTpdu lib env body = .ok (true, m')) :
    ∃ d rp out, m'.tlMessage = some (.deliver d) ∧ m'.rpData = some rp ∧ rp.tpdu = out.map some ∧
      fieldAt out 1 1 = fieldAt src 1 1 ∧
      fieldAt out d.dcsAt 8 = fieldAt src (TLSubmit.piAt src + 8) 8 ∧
      out.drop d.udAt = src.drop (TLSubmit.udAt src) := by
  obtain ⟨hud, hin⟩ := submit_userData hsrc
  obtain ⟨hok, -⟩ | ⟨-, s', hs', hcreate⟩ := recodeTpdu_steps h
  · cases hok
  obtain rfl : s = s' := TLMessage.submit.inj (Option.some.inj (hm.symm.trans hs'))
  obtain ⟨d, rp, htlm, hrp, hdud, htpdu⟩ := createSmsDelivery_deliver hcreate
  have hraw : 8 ∣ d.ud.rawData.length := by
    rw [hdud, hud]
    dsimp only
    rw [Frame.reverseOctets_length, List.length_drop]
    omega
  have hdcs : d.ud.dcs < 256 := by
    rw [hdud, hud]
    exact fieldAt_lt _ _ 8
  obtain ⟨out, hsheet, hudhi, hcoding, hdata⟩ := d.fields hraw hdcs
  refine ⟨d, rp, out, htlm, hrp, htpdu.trans hsheet, ?_, ?_, ?_⟩
  · rw [hudhi, hdud, hud]
    dsimp only
    have hlt := fieldAt_lt src 1 1
    by_cases h1 : fieldAt src 1 1 = 1
    · rw [h1]
      rfl
    · rw [decide_eq_false h1]
      change 0 = _
      omega
  · rw [hcoding, hdud, hud]
  · rw [hdata, hdud, hud]
    dsimp only
    rw [Frame.reverseOctets_reverseOctets, toBits_fieldAt hin]

/-- An SMS-SUBMIT with a header and binary data. -/
def binaryTpdu : List Bool := unpack [0x41, 0, 3, 0x81, 0x01, 0xF1, 0, 4, 2, 0xAB, 0xCD]

/-- What the parser makes of it. -/
def binarySubmit : TLSubmit where
  rd := false
  vpf := 0
  rp := false
  srr := false
  mr := 0
  da := ⟨0, 1, str "101"⟩
  pi := 0
  vp := .week
  ud := ⟨4, true, 2, Frame.reverseOctets (unpack [0xAB, 0xCD])⟩

/-- A message that carries it. -/
def binaryMsg : ShortMsg where
  parsed := some { fromHeader := some ⟨some (str "+15550001"), none, []⟩ }
  tlMessage := some (.submit binarySubmit)

theorem ShortMsg.recodeTpdu_carries_binary :
    ∃ (m' : ShortMsg) (d : TLDeliver) (rp : RPData) (out : List Bool),
    m'.tlMessage = some (.deliver d) ∧ m'.rpData = some rp ∧ rp.tpdu = out.map some ∧
      fieldAt out 1 1 = fieldAt binaryTpdu 1 1 ∧
      fieldAt out d.dcsAt 8 = fieldAt binaryTpdu (TLSubmit.piAt binaryTpdu + 8) 8 ∧
      out.drop d.udAt = binaryTpdu.drop (TLSubmit.udAt binaryTpdu) := by
  have hsrc : TLSubmit.parse binaryTpdu = .ok binarySubmit := by decide +kernel
  have hrun : (binaryMsg.recodeTpdu (sampleLibs [] []) (sampleEnv 0) []).toOption.any Prod.fst =
      true := by decide +kernel
  cases h : binaryMsg.recodeTpdu (sampleLibs [] []) (sampleEnv 0) [] with
  | error e =>
    rw [h] at hrun
    cases hrun
  | ok r =>
    obtain ⟨ok, m'⟩ := r
    rw [h] at hrun
    obtain rfl : ok = true := hrun
    exact ⟨m', recodeTpdu_carries (sampleLibs [] []) (sampleEnv 0) [] binaryTpdu binarySubmit binaryMsg
      m' hsrc ⟨11, by decide +kernel⟩ ⟨8, by decide +kernel⟩ rfl h⟩

end Smqueue

import Smqueue.Repacked
import Smqueue.Proofs.RestartProofs
import Smqueue.Proofs.SentContentProofs

/-!
# Proofs: the text of a packed message
-/

namespace Smqueue

variable {lib : Libs} {env : Env} {m m' : ShortMsg} {sip : SipMessage} {t : CString} {ok : Bool}

/-! ## The body of a packed message -/

theorem packToString_length {bits : List Bool} (h : 8 ∣ bits.length) :
    8 * (packToString bits).length = bits.length := by
  rw [← unpack_length, unpack_packToString h]

/-- The octets of RP-DATA are more than those of its user data. -/
theorem packet_length {rp : RPData} {d : TLDeliver} {sheet : Frame.Sheet} (htpdu : rp.tpdu = d.sheet)
    (h : rp.write = .ok sheet) (junk : Nat → Bool) :
    (d.ud.rawData.length + 7) / 8 + 16 ≤ (packToString (Frame.develop junk sheet)).length := by
  have hsize := d.sheet_length
  have hdvd : 8 ∣ rp.tpdu.length := by
    rw [htpdu, hsize]
    exact ⟨d.octets, Nat.mul_comm _ _⟩
  have hlen : sheet.length = rp.octets * 8 := by
    rw [RPData.write_eq rp hdvd] at h
    rw [← Except.ok.inj h, List.length_append, List.length_map, RPData.headBits_length rp hdvd]
  have hwhole : 8 ∣ (Frame.develop junk sheet).length := by
    rw [Frame.develop_length, hlen]
    exact ⟨rp.octets, Nat.mul_comm _ _⟩
  have hpacket := packToString_length hwhole
  rw [Frame.develop_length, hlen] at hpacket
  have hoctets := d.octets_eq.2
  have hlv : rp.tpduLengthV = d.octets := by
    unfold RPData.tpduLengthV
    rw [htpdu, hsize, if_neg (by omega)]
    omega
  have hrp : rp.octets = (1 + RPAddress.lengthV rp.originator) +
      (1 + RPAddress.lengthV rp.destination) + (1 + rp.tpduLengthV) + 2 := rfl
  omega

namespace ShortMsg

theorem setBody_bodies (sip : SipMessage) (body : CString) :
    (setBody sip body).bodies = if sip.bodies = [] then [] else body :: sip.bodies.tail := by
  unfold setBody
  cases hb : sip.bodies with
  | nil => rw [if_pos rfl, hb]
  | cons b rest => rw [if_neg (List.cons_ne_nil b rest), List.tail_cons]

/-- A text that was packed stands in the body as something longer. -/
theorem createSmsDelivery_headD (hp : m.parsed = some sip)
    (h : m.createSmsDelivery lib env t (TLUserData.encode7bit t) = .ok m') :
    ∃ sip', m'.parsed = some sip' ∧ (sip.bodies = [] → sip'.bodies = []) ∧
      ((∀ text, m.text = some text → lib.Lengthens (encodingOf text)) → sip.bodies ≠ [] →
        t.length < (sip'.bodies.headD []).length) := by
  obtain ⟨sip1, d, m1, hsip1, hud, -, hpack, rfl⟩ := createSmsDelivery_steps h
  obtain ⟨rp, sheet, sip2, hrp, hsheet, hsip2, hbodies⟩ := packTpdu_steps hpack
  obtain rfl : sip2 = sip := Option.some.inj (hsip2.symm.trans hp)
  obtain ⟨hb, rfl⟩ | ⟨hb, text, htext, rfl⟩ := hbodies
  · exact ⟨sip2, hp, fun _ => hb, fun _ hne => absurd hb hne⟩
  · refine ⟨_, rfl, fun hnil => absurd hnil hb, fun hlong _ => ?_⟩
    have hpacket := packet_length (by rw [← Option.some.inj hrp]) hsheet env.junk
    rw [hud, encode7bit_rawData_length] at hpacket
    have hcode := hlong text htext (packToString (Frame.develop env.junk sheet))
    rw [setBody_bodies, if_neg hb]
    change t.length < (lib.encodeToString _ _).length
    omega

/-! ## Reading the text -/

theorem getText_plain (hct : m.contentType = .textPlain) (hp : m.parsed = some sip) :
    m.getText = .ok (sip.bodies.headD []) := by
  unfold getText
  rw [hct, hp]
  rfl

theorem getText_unsupported (hct : m.contentType = .unsupportedContent) : m.getText = .ok [] := by
  unfold getText
  rw [hct]
  rfl

theorem getText_vnd (hct : m.contentType = .vnd3gppSms) :
    m.getText = match m.msToSc, m.tlMessage with
      | true, some (.submit s) => decodedText s.ud
      | false, some (.deliver d) => decodedText d.ud
      | _, _ => .ok [] := by
  unfold getText
  rw [hct]
  rfl

theorem stillReads_of_getText (h : m.getText = .ok t) : m.StillReads t := ⟨t, h, SameText.refl t⟩

/-- What reads as nothing does so for the empty text only. -/
theorem stillReads_of_nil (h : m.getText = .ok []) : m.StillReads t ↔ t = [] := by
  constructor
  · rintro ⟨t', ht', hsame⟩
    obtain rfl := Except.ok.inj (h.symm.trans ht')
    exact List.eq_nil_of_length_eq_zero hsame.length.symm
  · rintro rfl
    exact stillReads_of_getText h

theorem stillReads_nil : m.StillReads [] ↔ m.getText = .ok [] := by
  constructor
  · rintro ⟨t', ht', hsame⟩
    rw [ht', sameText_nil.1 hsame]
  · exact stillReads_of_getText

/-! ## Each way of packing -/

theorem packPlainText_fields (h : m.packPlainText t = .ok (ok, m')) :
    m'.contentType = m.contentType ∧ m'.tlMessage = m.tlMessage ∧ m'.msToSc = false ∧
      ∃ sip sip', m.parsed = some sip ∧ m'.parsed = some sip' ∧
        sip'.bodies = if sip.bodies = [] then [] else t :: sip.bodies.tail := by
  obtain ⟨sip, sip', hsip, hsip', rfl⟩ := packPlainText_steps h
  obtain rfl := setContentType_ok hsip'
  exact ⟨rfl, rfl, rfl, sip, _, hsip, rfl, setBody_bodies sip t⟩

/-- A message that is packed as a text reads as before, unless it is encoded and came from a handset
with a text. -/
theorem packPlainText_reads (ht : m.getText = .ok t) (h : m.packPlainText t = .ok (ok, m')) :
    m'.StillReads t ↔ (m.contentType = .vnd3gppSms → m.msToSc = true →
      ∀ tl, m.tlMessage = some tl → tl.text = .ok []) := by
  obtain ⟨hct', htl', hms', sip, sip', hsip, hsip', hbodies⟩ := packPlainText_fields h
  cases hct : m.contentType with
  | textPlain =>
    refine iff_of_true (stillReads_of_getText ?_) nofun
    rw [getText_plain (hct'.trans hct) hsip', hbodies]
    by_cases hb : sip.bodies = []
    · rw [getText_plain hct hsip, hb] at ht
      rw [if_pos hb, ht]
    · rw [if_neg hb]
      rfl
  | unsupportedContent =>
    refine iff_of_true (stillReads_of_getText ?_) nofun
    rw [getText_unsupported hct] at ht
    rw [getText_unsupported (hct'.trans hct), ht]
  | vnd3gppSms =>
    have hread := getText_vnd (hct'.trans hct)
    rw [hms', htl'] at hread
    rw [getText_vnd hct] at ht
    rw [forall_prop_of_true rfl]
    cases hms : m.msToSc with
    | false =>
      rw [hms, ← hread] at ht
      exact iff_of_true (stillReads_of_getText ht) nofun
    | true =>
      rw [hms] at ht
      rw [forall_prop_of_true rfl]
      cases htl : m.tlMessage with
      | none =>
        rw [htl] at ht hread
        rw [← hread] at ht
        exact iff_of_true (stillReads_of_getText ht) nofun
      | some tl =>
        rw [htl] at ht hread
        have hone : (∀ tl', some tl = some tl' → tl'.text = .ok []) ↔ tl.text = .ok [] :=
          ⟨fun h => h tl rfl, fun h tl' htl' => Option.some.inj htl' ▸ h⟩
        rw [hone]
        cases tl with
        | submit s =>
          -- the text was read before and is not any more
          change decodedText s.ud = .ok t at ht
          rw [stillReads_of_nil hread]
          change _ ↔ decodedText s.ud = .ok []
          rw [ht, Except.ok.injEq]
        | deliver d =>
          -- the text is read now and was not before
          obtain rfl := Except.ok.inj ht
          rw [stillReads_nil, hread]
          rfl

theorem packTextToTpdu_fields (h : m.packTextToTpdu lib env t = .ok (ok, m')) :
    m'.contentType = m.contentType ∧ m'.msToSc = false ∧
      (∃ d, m'.tlMessage = some (.deliver d) ∧ d.ud = TLUserData.encode7bit t) ∧
      ∃ sip sip', m.parsed = some sip ∧ m'.parsed = some sip' ∧
        (sip.bodies = [] → sip'.bodies = []) ∧
        ((∀ text, m.text = some text → lib.Lengthens (encodingOf text)) → sip.bodies ≠ [] →
          t.length < (sip'.bodies.headD []).length) := by
  obtain ⟨m1, sip1, sip1', h1, hsip1, hsip1', rfl⟩ := packTextToTpdu_steps h
  obtain rfl := setContentType_ok hsip1'
  obtain ⟨hct1, hms1, -⟩ := createSmsDelivery_fields h1
  obtain ⟨d, rp, htl1, -, hud, -⟩ := createSmsDelivery_deliver h1
  obtain ⟨sip, -, -, hsip, -⟩ := createSmsDelivery_steps h1
  obtain ⟨sip', hsip', hempty, hlonger⟩ := createSmsDelivery_headD hsip h1
  obtain rfl : sip1 = sip' := Option.some.inj (hsip1.symm.trans hsip')
  exact ⟨hct1, hms1, ⟨d, htl1, hud⟩, sip, _, hsip, rfl, hempty, hlonger⟩

/-- A message that is packed as user data reads as before, unless its text is the body. -/
theorem packTextToTpdu_reads (ht : m.getText = .ok t)
    (h : m.packTextToTpdu lib env t = .ok (ok, m'))
    (hempty : m.contentType = .textPlain → ∀ sip, m.parsed = some sip → sip.bodies = []) :
    m'.StillReads t := by
  obtain ⟨hct', hms', ⟨d, htl', hud⟩, sip, sip', hsip, hsip', hnil, -⟩ := packTextToTpdu_fields h
  cases hct : m.contentType with
  | textPlain =>
    have hread := getText_plain (hct'.trans hct) hsip'
    have hbodies := hempty hct sip hsip
    rw [getText_plain hct hsip, hbodies] at ht
    rw [hnil hbodies] at hread
    exact stillReads_of_getText (hread.trans ht)
  | unsupportedContent =>
    rw [getText_unsupported hct] at ht
    refine stillReads_of_getText ?_
    rw [getText_unsupported (hct'.trans hct), ht]
  | vnd3gppSms =>
    refine ⟨readable t, ?_, sameText_readable t⟩
    rw [getText_vnd (hct'.trans hct), hms', htl']
    change decodedText d.ud = _
    rw [hud]
    unfold decodedText
    rw [decode_encode7bit]

/-- A body that is replaced by the user data reads as something longer. -/
theorem bodies_of_packTextToTpdu_reads
    (hlong : ∀ text, m.text = some text → lib.Lengthens (encodingOf text))
    (h : m.packTextToTpdu lib env t = .ok (ok, m')) (hreads : m'.StillReads t)
    (hct : m.contentType = .textPlain) (hp : m.parsed = some sip) : sip.bodies = [] := by
  obtain ⟨hct', -, -, sip1, sip', hsip, hsip', -, hlonger⟩ := packTextToTpdu_fields h
  obtain rfl := Option.some.inj (hp.symm.trans hsip)
  obtain ⟨t', ht', hsame⟩ := hreads
  by_contra hne
  obtain rfl := Except.ok.inj ((getText_plain (hct'.trans hct) hsip').symm.trans ht')
  have hlen := hlonger hlong hne
  rw [hsame.length] at hlen
  exact lt_irrefl _ hlen

/-- An SMS-SUBMIT that is recoded reads as before. -/
theorem recodeTpdu_reads (hct : m.contentType = .vnd3gppSms) (hms : m.msToSc = true)
    (ht : m.getText = .ok t) (h : m.recodeTpdu lib env t = .ok (true, m')) : m'.StillReads t := by
  obtain ⟨hok, -⟩ | ⟨-, s, htl, h1⟩ := recodeTpdu_steps h
  · cases hok
  obtain ⟨hct1, hms1, -⟩ := createSmsDelivery_fields h1
  obtain ⟨d, rp, htl1, -, hud, -⟩ := createSmsDelivery_deliver h1
  rw [getText_vnd hct, hms, htl] at ht
  refine stillReads_of_getText ?_
  rw [getText_vnd (hct1.trans hct), hms1, htl1]
  change decodedText d.ud = _
  rw [hud]
  exact ht

/-! ## The main result -/

/-- A parsed message that is packed still gives its text, unless a text is converted to user data and
has a body, or user data from a handset with a text are converted to a text. That a body which is
replaced reads as another text needs that its coding makes it longer. -/
theorem packSmsForDelivery_reads_iff (lib : Libs) (env : Env) (m m' : ShortMsg) (t : CString)
    (hv : m.parsedIsValid = true) (hrepack : m.needRepack = true) (ht : m.getText = .ok t)
    (h : m.packSmsForDelivery lib env = .ok (true, m')) :
    (m.KeepsText → m'.StillReads t) ∧
      ((∀ text, m.text = some text → lib.Lengthens (encodingOf text)) →
        m'.StillReads t → m.KeepsText) := by
  obtain ⟨hno, -⟩ | ⟨-, body, m2, flag, hbody, hpack, rfl⟩ := packSmsForDelivery_steps hv h
  · rw [hrepack] at hno
    cases hno
  obtain rfl := Except.ok.inj (hbody.symm.trans ht)
  change (_ → m2.StillReads body) ∧ (_ → m2.StillReads body → _)
  unfold KeepsText
  cases packAs_cases hpack with
  | plain hplain hpack =>
    have hreads := packPlainText_reads ht hpack
    rcases hplain with hconvert | ⟨hconvert, hct⟩
    · rw [hreads, hconvert]
      cases hct : m.contentType with
      | vnd3gppSms => simp
      | textPlain => simp
      | unsupportedContent => simp
    · rw [hconvert]
      refine ⟨fun _ => hreads.2 fun hvnd => ?_, fun _ _ => trivial⟩
      rw [hct] at hvnd
      cases hvnd
  | encode hconvert hpack =>
    rw [hconvert]
    cases hct : m.contentType with
    | textPlain =>
      exact ⟨fun hempty => packTextToTpdu_reads ht hpack fun _ => hempty,
        fun hlong hreads _ hp => bodies_of_packTextToTpdu_reads hlong hpack hreads hct hp⟩
    | vnd3gppSms | unsupportedContent =>
      refine ⟨fun _ => packTextToTpdu_reads ht hpack fun hplain => ?_, fun _ _ => trivial⟩
      rw [hct] at hplain
      cases hplain
  | recode hconvert hct hms hpack =>
    rw [hconvert]
    exact ⟨fun _ => recodeTpdu_reads hct hms ht hpack, fun _ _ => trivial⟩
  | packed hconvert =>
    rw [hconvert]
    exact ⟨fun _ => stillReads_of_getText ht, fun _ _ => trivial⟩

theorem sampleLibs_lengthens (known : List SipMessage) (vias : List (CString × Via))
    (encoding : CString) : (sampleLibs known vias).Lengthens encoding := by
  intro bytes
  have hlen : (SampleLibs.toHex bytes).length = 2 * bytes.length := by
    unfold SampleLibs.toHex
    rw [List.length_flatMap]
    simp [Nat.mul_comm]
  change 4 * bytes.length ≤ 3 * (SampleLibs.toHex bytes).length
  omega

/-- A text that goes out as it is. -/
theorem packSmsForDelivery_reads_iff_plain : ∃ m',
    (parsedMsg sampleRequest).packSmsForDelivery (sampleLibs [] []) (sampleEnv 0) = .ok (true, m') ∧
      m'.StillReads (str "hi") := by
  have hrun : ((parsedMsg sampleRequest).packSmsForDelivery (sampleLibs [] [])
      (sampleEnv 0)).toOption.any Prod.fst = true := by decide +kernel
  cases h : (parsedMsg sampleRequest).packSmsForDelivery (sampleLibs [] []) (sampleEnv 0) with
  | error e =>
    rw [h] at hrun
    cases hrun
  | ok r =>
    obtain ⟨ok, m'⟩ := r
    rw [h] at hrun
    obtain rfl : ok = true := hrun
    exact ⟨m', rfl, (packSmsForDelivery_reads_iff (sampleLibs [] []) (sampleEnv 0)
      (parsedMsg sampleRequest) m' (str "hi") rfl rfl rfl h).1 trivial⟩

/-- An SMS-SUBMIT from a handset that goes out as a text. -/
def submitAsText : ShortMsg := { Daemon.submitMsg.toShortMsg with convertContentType := .textPlain }

/-- After the packing of an SMS-SUBMIT as a text there is no text. -/
theorem not_stillReads : ¬ ∀ (lib : Libs) (env : Env) (m m' : ShortMsg) (t : CString),
    (∀ text, m.text = some text → lib.Lengthens (encodingOf text)) → m.parsedIsValid = true →
    m.needRepack = true → m.getText = .ok t → m.packSmsForDelivery lib env = .ok (true, m') →
    m'.StillReads t := by
  intro hall
  have htext : submitAsText.getText = .ok (str "hi") := by decide +kernel
  have hrun : (submitAsText.packSmsForDelivery (sampleLibs [] []) (sampleEnv 0)).toOption.any
      (fun r => r.1 && decide (r.2.getText = .ok [])) = true := by decide +kernel
  cases h : submitAsText.packSmsForDelivery (sampleLibs [] []) (sampleEnv 0) with
  | error e =>
    rw [h] at hrun
    cases hrun
  | ok r =>
    obtain ⟨ok, m'⟩ := r
    rw [h] at hrun
    obtain ⟨hok, hnil⟩ := Bool.and_eq_true_iff.1 hrun
    obtain rfl : ok = true := hok
    have hreads := hall (sampleLibs [] []) (sampleEnv 0) submitAsText m' (str "hi")
      (fun _ _ => sampleLibs_lengthens [] [] _) rfl rfl htext h
    exact absurd ((stillReads_of_nil (of_decide_eq_true hnil)).1 hreads) (by decide)

end ShortMsg

end Smqueue

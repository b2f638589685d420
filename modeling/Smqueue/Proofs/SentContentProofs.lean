import Smqueue.Proofs.WireProofs
import Smqueue.Proofs.TruncationProofs
import Smqueue.Proofs.TreeEditsProofs
import Smqueue.Proofs.SampleLibsProofs

/-!
# Proofs: when packing keeps the content

A message is followed from the parser through each way of packing it to the octets that go out.
-/

namespace Smqueue

open Frame (blank develop toBits)

variable {lib : Libs} {env : Env} {m m' : ShortMsg} {sip : SipMessage} {body t : CString}

/-! ## The content of a parsed message -/

/-- What the parser leaves in a message: its content type is that of the tree, and its TPDU, if any,
an SMS-SUBMIT of at most 255 octets. -/
structure ParsedContent (m : ShortMsg) (sip : SipMessage) : Prop where
  plain : m.contentType = .textPlain → m.tlMessage = none ∧
    sip.contentType = some ⟨some (str "text"), some (str "plain")⟩
  vnd : m.contentType = .vnd3gppSms →
    sip.contentType = some ⟨some (str "application"), some (str "vnd.3gpp.sms")⟩
  unsupported : m.contentType = .unsupportedContent → m.tlMessage = none ∧
    sip.contentType ≠ some ⟨some (str "text"), some (str "plain")⟩
  submit : ∀ tl, m.tlMessage = some tl → ∃ (s : TLSubmit) (src : List Bool), tl = .submit s ∧
    TLSubmit.parse src = .ok s ∧ ∃ n ≤ 255, src.length = 8 * n

theorem parseRPDU_octets {bytes : List UInt8} {rp : RPData}
    (h : parseRPDU bytes = .ok (some rp)) :
    ∃ tpdu : List Bool, rp.tpdu = tpdu.map some ∧ ∃ n ≤ 255, tpdu.length = 8 * n := by
  have hparse : RPData.parse (unpack bytes) = .ok rp := by
    unfold parseRPDU at h
    cases hp : RPData.parse (unpack bytes) with
    | ok d =>
      rw [hp] at h
      cases h
      rfl
    | error e =>
      rw [hp] at h
      cases e <;> cases h
  obtain ⟨⟨-, hin, hend⟩, htpdu⟩ := RPData.parse_tpdu hparse
  have hlt := fieldAt_lt (unpack bytes) (RPData.userDataAt (unpack bytes)) 8
  refine ⟨_, htpdu, fieldAt (unpack bytes) (RPData.userDataAt (unpack bytes)) 8, by omega, ?_⟩
  unfold elementEnd at hend
  unfold RPData.tpduOf
  rw [List.length_take, List.length_drop]
  omega

theorem parseTPDU_ok {tpdu : List Bool} {tl : TLMessage} (h : parseTPDU tpdu = .ok (some tl)) :
    ∃ s, tl = .submit s ∧ TLSubmit.parse tpdu = .ok s := by
  unfold parseTPDU at h
  obtain ⟨mti, -, h⟩ := Except.bind_eq_ok.1 h
  split at h
  · obtain ⟨s, hs, h⟩ := Except.bind_eq_ok.1 h
    cases h
    exact ⟨s, rfl, hs⟩
  · cases h

/-- The content that the parser finds in a tree. -/
theorem parseContent_content {m0 : ShortMsg} {text : CString} {ok : Bool}
    (hct0 : m0.contentType = .unsupportedContent) (htl0 : m0.tlMessage = none)
    (h : ShortMsg.parseContent lib m0 text sip = .ok (ok, m')) : ParsedContent m' sip := by
  have hsubmit : ∀ tl, m0.tlMessage = some tl → ∃ (s : TLSubmit) (src : List Bool),
      tl = .submit s ∧ TLSubmit.parse src = .ok s ∧ ∃ n ≤ 255, src.length = 8 * n := by
    intro tl h
    rw [htl0] at h
    cases h
  cases ShortMsg.parseContent_iff.1 h with
  | missing hct =>
    refine ⟨fun h => (by cases h), fun h => (by cases h), fun _ => ⟨htl0, ?_⟩, hsubmit⟩
    rw [hct]
    simp
  | plain hct =>
    exact ⟨fun _ => ⟨htl0, hct⟩, fun h => (by cases h), fun h => (by cases h), hsubmit⟩
  | noRPData hct =>
    exact ⟨fun h => (by cases h), fun _ => hct, fun h => (by cases h), hsubmit⟩
  | noTPDU hct =>
    exact ⟨fun h => (by cases h), fun _ => hct, fun h => (by cases h), fun tl h => (by cases h)⟩
  | encoded hct hrp htl =>
    refine ⟨fun h => (by cases h), fun _ => hct, fun h => (by cases h), fun tl' h => ?_⟩
    obtain rfl := Option.some.inj h
    obtain ⟨s, rfl, hs⟩ := parseTPDU_ok htl
    unfold ShortMsg.decodeRPData at hrp
    split at hrp
    · cases hrp
    · obtain ⟨datastring, -, hrp⟩ := Except.bind_eq_ok.1 hrp
      obtain ⟨tpdu, htpdu, hlen⟩ := parseRPDU_octets hrp
      rw [htpdu, Frame.develop_map_some] at hs
      exact ⟨s, tpdu, rfl, hs, hlen⟩
  | @other ct hct hplain =>
    refine ⟨fun h => (by rw [hct0] at h; cases h), fun h => (by rw [hct0] at h; cases h),
      fun _ => ⟨htl0, ?_⟩, hsubmit⟩
    rw [hct]
    intro heq
    exact of_decide_eq_false (mediaType_is_ok hplain).symm (Option.some.inj heq)

theorem parse_content {ok : Bool} (hv : m.parsedIsValid = false) (h : m.parse lib = .ok (ok, m'))
    (hp : m'.parsed = some sip) : ParsedContent m' sip := by
  cases ht : m.text with
  | none =>
    rw [ShortMsg.parse_of_no_text hv ht] at h
    cases h
    cases hp
  | some text =>
    cases hparse : lib.messageParse (ShortMsg.buffer text m.textLength) with
    | none =>
      rw [ShortMsg.parse_of_rejected hv ht hparse] at h
      cases h
      cases hp
    | some tree =>
      rw [ShortMsg.parse_of_accepted hv ht hparse] at h
      obtain ⟨⟨ct, rp, tl, hm'⟩, -⟩ := ShortMsg.parseContent_ok h
      obtain rfl : tree = sip := by
        rw [hm'] at hp
        exact Option.some.inj hp
      exact parseContent_content rfl rfl h

theorem ShortMsg.WasParsed.content (hm : m.WasParsed lib) (hp : m.parsed = some sip) :
    ParsedContent m sip := by
  obtain ⟨m0, m1, ok, sip1, sip', hv, hparse, hp1, hp', hct, -, hcontent, htl⟩ := hm.parse
  obtain rfl : sip = sip' := Option.some.inj (hp.symm.trans hp')
  obtain ⟨hplain, hvnd, hunsupported, hsubmit⟩ := parse_content hv hparse hp1
  rw [← hcontent, ← htl, ← hct] at hplain hunsupported
  rw [← hcontent, ← hct] at hvnd
  rw [← htl] at hsubmit
  exact ⟨hplain, hvnd, hunsupported, hsubmit⟩

/-! ## The packed message -/

/-- `m'` is packed into the SMS-DELIVER `d`: its octets are in the body of its tree, if there is one,
as far as the length octet in front of them goes. -/
structure PackedDeliver (lib : Libs) (sip : SipMessage) (d : TLDeliver) (m' : ShortMsg) : Prop where
  tlMessage : m'.tlMessage = some (.deliver d)
  direction : m'.msToSc = false
  tree : ∃ sip', m'.parsed = some sip' ∧ sip'.contentType = sip.contentType
  tpdu : ∃ junk, m'.sentTpdu lib = if sip.bodies = [] then none
    else some ((develop junk d.sheet).take (8 * (d.octets % 256)))

/-- The RP-DATA that a packed body encodes. -/
theorem parseRPDU_packed {ref : Nat} {number : CString} {d : TLDeliver} (href : ref < 256)
    (junk : Nat → Bool) {sheet : Frame.Sheet}
    (hsheet : RPData.write ⟨ref, Address.ofDigits number, RPAddress.empty, d.sheet⟩ = .ok sheet) :
    ∃ rp fill, parseRPDU (packToString (develop junk sheet)) = .ok (some rp) ∧
      rp.tpdu = ((develop fill d.sheet).take (8 * (d.octets % 256))).map some := by
  obtain ⟨sheet', fill, hsheet', hdvd, hparse⟩ := RPData.parse_deliver ref number d href junk
  obtain rfl : sheet = sheet' := by
    rw [hsheet] at hsheet'
    injection hsheet'
  have hunpack : unpack (packToString (develop junk sheet)) = develop junk sheet :=
    unpack_packToString (by rw [Frame.develop_length]; exact hdvd)
  refine ⟨⟨ref, RPAddress.reread (Address.ofDigits number), RPAddress.empty,
    ((develop fill d.sheet).take (8 * (d.octets % 256))).map some⟩, fill, ?_, rfl⟩
  unfold parseRPDU RPData.parse
  rw [hunpack, hparse]
  rfl

theorem createSmsDelivery_packed (hl : lib.CodesBodies) {ud : TLUserData}
    (hp : m.parsed = some sip)
    (hcode : sip.bodies ≠ [] → ∀ text ∈ m.text, KnownCoding (ShortMsg.encodingOf text)) (h : ShortMsg.createSmsDelivery lib env body ud m = .ok m') :
    ∃ d, PackedDeliver lib sip d m' ∧ d.ud = ud ∧
      d.oa = Address.ofDigits (sip.sender.getD []) := by
  obtain ⟨sip1, d, m1, hsip1, hud, hoa, hpack, rfl⟩ := ShortMsg.createSmsDelivery_steps h
  obtain rfl : sip1 = sip := Option.some.inj (hsip1.symm.trans hp)
  obtain ⟨rp, sheet, sip2, hrp, hsheet, hsip2, hbodies⟩ := ShortMsg.packTpdu_steps hpack
  obtain rfl : sip2 = sip1 := Option.some.inj (hsip2.symm.trans hp)
  obtain rfl := Option.some.inj hrp
  have href : env.random % 255 < 256 := by omega
  obtain ⟨rp, fill, hrpdu, htpdu⟩ := parseRPDU_packed href env.junk hsheet
  obtain ⟨-, htl, -, -⟩ := ShortMsg.packTpdu_fields hpack
  refine ⟨d, ⟨htl, rfl, ?_, fill, ?_⟩, hud, hoa⟩
  · obtain ⟨-, rfl⟩ | ⟨-, text, -, rfl⟩ := hbodies
    · exact ⟨sip2, hp, rfl⟩
    · refine ⟨_, rfl, ?_⟩
      unfold ShortMsg.setBody
      split <;> rfl
  · unfold ShortMsg.sentTpdu
    obtain ⟨hb, rfl⟩ | ⟨hb, text, ht, rfl⟩ := hbodies
    · change (m.parsed.bind fun sip => sip.bodies.head?.bind _) = _
      rw [hp, Option.bind_some, if_pos hb, hb]
      rfl
    · obtain ⟨b, rest, hcons⟩ := List.exists_cons_of_ne_nil hb
      rw [if_neg hb]
      unfold ShortMsg.setBody
      rw [hcons]
      change (m.text.bind _) = _
      have ht' : m.text = some text := ht
      rw [ht', Option.bind_some]
      dsimp only
      rw [hl _ _ (hcode hb text ht'), hrpdu]
      change some (develop (fun _ => false) rp.tpdu) = _
      rw [htpdu, Frame.develop_map_some]

/-! ## The user data that go out -/

/-- The user data follow the other fields. -/
theorem TLDeliver.octets_eq (d : TLDeliver) :
    8 * d.octets = d.udAt + 8 + d.ud.sheet.length ∧
      d.octets = TLAddress.length d.oa + 11 + (d.ud.rawData.length + 7) / 8 := by
  rw [TLUserData.sheet_length]
  unfold TLDeliver.octets TLDeliver.udAt TLDeliver.dcsAt TLUserData.octets
  omega

theorem tlAddress_length_le (number : CString) :
    TLAddress.length (Address.ofDigits number) ≤ 12 := by
  have h := lengthV_le number
  unfold TLAddress.length
  omega

section

variable {d : TLDeliver}

theorem PackedDeliver.userData (h : PackedDeliver lib sip d m')
    (hct : sip.contentType = some ⟨some (str "application"), some (str "vnd.3gpp.sms")⟩) :
    m'.sentUserData lib = (m'.sentTpdu lib).bind d.readUserData ∧
      m'.sentText lib = (m'.sentUserData lib).elim (.ok []) ShortMsg.decodedText := by
  obtain ⟨sip', hp', hct'⟩ := h.tree
  have htype : m'.sentType = some ⟨some (str "application"), some (str "vnd.3gpp.sms")⟩ := by
    unfold ShortMsg.sentType
    rw [hp', Option.bind_some, hct', hct]
  constructor
  · unfold ShortMsg.sentUserData
    rw [if_pos htype, h.tlMessage]
  · unfold ShortMsg.sentText
    rw [htype, if_neg (by decide), h.direction, h.tlMessage]

/-- What can be read of an SMS-DELIVER that goes out. -/
theorem PackedDeliver.read (h : PackedDeliver lib sip d m')
    (hct : sip.contentType = some ⟨some (str "application"), some (str "vnd.3gpp.sms")⟩)
    (hdcs : d.ud.dcs < 256) : ∃ junk, m'.sentUserData lib =
      if sip.bodies ≠ [] ∧ d.udAt + 8 ≤ 8 * (d.octets % 256) then
        some ⟨d.ud.dcs, d.ud.udhi, d.ud.length % 256, Frame.reverseOctets
          ((develop junk d.ud.sheet).take (8 * (d.octets % 256) - (d.udAt + 8)))⟩
      else none := by
  obtain ⟨junk, htpdu⟩ := h.tpdu
  obtain ⟨fill, hread⟩ := d.readUserData_take hdcs junk
  refine ⟨fill, ?_⟩
  rw [(h.userData hct).1, htpdu]
  by_cases hb : sip.bodies = []
  · rw [if_pos hb, if_neg fun hand => hand.1 hb]
    rfl
  · rw [if_neg hb, Option.bind_some, hread]
    by_cases hk : d.udAt + 8 ≤ 8 * (d.octets % 256)
    · rw [if_pos hk, if_pos ⟨hb, hk⟩]
    · rw [if_neg hk, if_neg fun hand => hk hand.2]

/-- User data whose lengths fit go out as they are, with a last octet that is filled up. -/
theorem PackedDeliver.fits (h : PackedDeliver lib sip d m')
    (hct : sip.contentType = some ⟨some (str "application"), some (str "vnd.3gpp.sms")⟩)
    (hdcs : d.ud.dcs < 256) (hlen : d.ud.length < 256) (hb : sip.bodies ≠ [])
    (hoctets : d.octets ≤ 255) : ∃ fill : List Bool, fill.length < 8 ∧
      d.ud.rawData.length + fill.length = (d.ud.rawData.length + 7) / 8 * 8 ∧
      m'.sentUserData lib = some { d.ud with rawData := d.ud.rawData ++ fill } := by
  obtain ⟨junk, hread⟩ := h.read hct hdcs
  obtain ⟨fill, hshort, hfill, hreverse⟩ := d.ud.reverse_sheet junk
  have hsize := d.octets_eq.1
  have hmod : d.octets % 256 = d.octets := Nat.mod_eq_of_lt (by omega)
  have htake : (develop junk d.ud.sheet).take (8 * d.octets - (d.udAt + 8)) =
      develop junk d.ud.sheet := by
    refine List.take_of_length_le ?_
    rw [Frame.develop_length]
    omega
  refine ⟨fill, hshort, hfill, ?_⟩
  rw [hread, hmod, if_pos ⟨hb, by omega⟩, htake, hreverse, Nat.mod_eq_of_lt hlen]

theorem PackedDeliver.noBody (h : PackedDeliver lib sip d m')
    (hct : sip.contentType = some ⟨some (str "application"), some (str "vnd.3gpp.sms")⟩)
    (hb : sip.bodies = []) : m'.sentUserData lib = none := by
  obtain ⟨junk, htpdu⟩ := h.tpdu
  rw [(h.userData hct).1, htpdu, if_pos hb]
  rfl

/-- Nothing can be read without a body, or if the length of the TPDU overflows. -/
theorem PackedDeliver.lost (h : PackedDeliver lib sip d m')
    (hct : sip.contentType = some ⟨some (str "application"), some (str "vnd.3gpp.sms")⟩)
    (hdcs : d.ud.dcs < 256) (hraw : (d.ud.rawData.length + 7) / 8 < 256)
    (hoa : TLAddress.length d.oa ≤ 12) (hlost : ¬ (sip.bodies ≠ [] ∧ d.octets ≤ 255)) :
    m'.sentUserData lib = none := by
  obtain ⟨junk, hread⟩ := h.read hct hdcs
  obtain ⟨hsize, hoctets⟩ := d.octets_eq
  rw [hread, if_neg]
  rintro ⟨hb, hk⟩
  have hbig : 255 < d.octets := by
    by_contra hle
    exact hlost ⟨hb, by omega⟩
  have hmod : d.octets % 256 = d.octets - 256 := by omega
  rw [TLUserData.sheet_length] at hsize
  omega

/-- The text that goes out is not longer than the length octet tells. -/
theorem PackedDeliver.sentText_length (h : PackedDeliver lib sip d m')
    (hct : sip.contentType = some ⟨some (str "application"), some (str "vnd.3gpp.sms")⟩)
    (hdcs : d.ud.dcs < 256) (hudhi : d.ud.udhi = false) {t' : CString}
    (ht' : m'.sentText lib = .ok t') : t'.length ≤ 255 := by
  obtain ⟨junk, hread⟩ := h.read hct hdcs
  rw [(h.userData hct).2, hread] at ht'
  split at ht'
  · change ShortMsg.decodedText _ = _ at ht'
    rcases TLUserData.decodedText_ok.1 ht' with ⟨hr, hdecode⟩ | ⟨-, rfl⟩
    · obtain ⟨-, q, hloop⟩ := (TLUserData.decode_eq_ok hr).1 hdecode
      have hlen := (decodeLoop_ok hloop).1
      unfold TLUserData.textLength at hlen
      rw [if_neg (by simp [hudhi])] at hlen
      dsimp only at hlen
      omega
    · simp
  · cases ht'
    simp

end

/-! ## The text that is read back -/

theorem SameText.refl (t : CString) : SameText t t := ⟨rfl, fun _ _ h _ => h⟩

theorem sameText_nil {t' : CString} : SameText [] t' ↔ t' = [] := by
  constructor
  · intro h
    exact List.eq_nil_of_length_eq_zero h.length
  · rintro rfl
    exact SameText.refl []

theorem sameText_readable (t : CString) : SameText t (readable t) := by
  refine ⟨List.length_map _, fun i c hi hc => ?_⟩
  unfold readable
  rw [List.getElem?_map, hi]
  exact congrArg some ((decode_encodeGSMChar c).2.1 hc)

/-- Bits behind the raw data do not matter to a text that was decoded. -/
theorem decode_append {ud : TLUserData} (fill : List Bool) (hr : ud.Readable)
    (h : ud.decode = .ok t) : { ud with rawData := ud.rawData ++ fill }.decode = .ok t := by
  obtain ⟨hlong, q, hloop⟩ := (TLUserData.decode_eq_ok hr).1 h
  have hr' : TLUserData.Readable { ud with rawData := ud.rawData ++ fill } := by
    refine ⟨hr.1, ?_⟩
    have hle := hr.2
    rw [List.length_append]
    dsimp only
    omega
  have hsame : TLUserData.textLength { ud with rawData := ud.rawData ++ fill } = ud.textLength ∧
      TLUserData.textAt { ud with rawData := ud.rawData ++ fill } = ud.textAt := by
    unfold TLUserData.textLength TLUserData.textAt TLUserData.headerSeptets
    by_cases hudhi : ud.udhi = true
    · have htake : (ud.rawData ++ fill).take 8 = ud.rawData.take 8 :=
        List.take_append_of_le_length (hlong hudhi)
      simp only [htake, and_self]
    · simp only [if_neg hudhi, and_self]
  refine (TLUserData.decode_eq_ok hr').2 ⟨fun hudhi => ?_, q, ?_⟩
  · have hle := hlong hudhi
    rw [List.length_append]
    omega
  · rw [hsame.1, hsame.2]
    exact decodeLoop_append fill hloop

theorem udhSeptets_ge (udhl : Nat) : 2 ≤ udhSeptets udhl := by
  unfold udhSeptets
  omega

theorem headerSeptets_le (ud : TLUserData) : ud.headerSeptets ≤ 293 := by
  have hlt := Frame.ofBits_lt (ud.rawData.take 8).reverse
  have hpow : 2 ^ (ud.rawData.take 8).reverse.length ≤ 2 ^ 8 := by
    refine Nat.pow_le_pow_right (by decide) ?_
    rw [List.length_reverse]
    exact List.length_take_le _ _
  unfold TLUserData.headerSeptets udhSeptets
  omega

/-- No text is left behind the header just when the header takes all septets. -/
theorem textLength_eq_zero {ud : TLUserData} (hlen : ud.length < 256) :
    ud.textLength = 0 ↔
      if ud.udhi = true then ud.headerSeptets = ud.length else ud.length = 0 := by
  have hle := headerSeptets_le ud
  unfold TLUserData.textLength
  by_cases hudhi : ud.udhi = true
  · rw [if_pos hudhi, if_pos hudhi]
    omega
  · rw [if_neg hudhi, if_neg hudhi]

/-- User data with an octet that was filled up read as the text before, unless that cut a septet. -/
theorem recoded_text {ud : TLUserData} {fill : List Bool} (hlen : ud.length < 256)
    (hfill : ud.rawData.length + fill.length = (ud.rawData.length + 7) / 8 * 8)
    (ht : ShortMsg.decodedText ud = .ok t) :
    (∃ t', ShortMsg.decodedText { ud with rawData := ud.rawData ++ fill } = .ok t' ∧
      SameText t t') ↔ ¬ ud.LastSeptetCut := by
  set ud' : TLUserData := { ud with rawData := ud.rawData ++ fill } with hud'
  have hraw' : ud'.rawData.length = (ud.rawData.length + 7) / 8 * 8 := by
    rw [hud', List.length_append, hfill]
  have hud'len : ud'.length = ud.length := rfl
  rcases TLUserData.decodedText_ok.1 ht with ⟨hr, hdecode⟩ | ⟨hr, rfl⟩
  · refine iff_of_true ⟨t, ?_, SameText.refl t⟩ ?_
    · have hdecode' := decode_append fill hr hdecode
      unfold ShortMsg.decodedText
      rw [hdecode']
    · rintro ⟨-, hcut, -, -⟩
      have hle := hr.2
      omega
  by_cases hr' : ud'.Readable
  · have hdcs : decodable ud.dcs = true := hr'.1
    have hle : ud.length * 7 ≤ (ud.rawData.length + 7) / 8 * 8 := hraw' ▸ hr'.2
    have hcut : ud.rawData.length < 7 * ud.length := by
      by_contra hge
      exact hr ⟨hdcs, by omega⟩
    -- the text is empty just when the header takes all septets
    have hempty : (∃ t', ShortMsg.decodedText ud' = .ok t' ∧ SameText [] t') ↔
        (ud'.udhi = true → 8 ≤ ud'.rawData.length) ∧ ud'.textLength = 0 := by
      constructor
      · rintro ⟨t', ht', hsame⟩
        obtain rfl := sameText_nil.1 hsame
        rcases TLUserData.decodedText_ok.1 ht' with ⟨-, hdecode⟩ | ⟨hnot, -⟩
        · obtain ⟨hlong, q, hloop⟩ := (TLUserData.decode_eq_ok hr').1 hdecode
          exact ⟨hlong, (decodeLoop_ok hloop).1.symm⟩
        · exact absurd hr' hnot
      · rintro ⟨hlong, hzero⟩
        refine ⟨[], TLUserData.decodedText_ok.2 (.inl ⟨hr', ?_⟩), SameText.refl []⟩
        refine (TLUserData.decode_eq_ok hr').2 ⟨hlong, ud'.textAt, ?_⟩
        rw [hzero]
        rfl
    have hud'udhi : ud'.udhi = ud.udhi := rfl
    rw [hempty, textLength_eq_zero (by omega)]
    by_cases hudhi : ud.udhi = true
    · rw [if_pos (hud'udhi.trans hudhi), hud'len]
      have htwo := udhSeptets_ge (Frame.ofBits (ud'.rawData.take 8).reverse)
      have htwo' := udhSeptets_ge (Frame.ofBits (ud.rawData.take 8).reverse)
      by_cases hlong : 8 ≤ ud.rawData.length
      · have htake : (ud.rawData ++ fill).take 8 = ud.rawData.take 8 :=
          List.take_append_of_le_length hlong
        have hseptets : ud'.headerSeptets =
            udhSeptets (Frame.ofBits (ud.rawData.take 8).reverse) := by
          unfold TLUserData.headerSeptets
          rw [hud']
          exact congrArg (fun bits => udhSeptets (Frame.ofBits (List.reverse bits))) htake
        rw [hseptets]
        constructor
        · rintro ⟨-, heq⟩ ⟨-, -, -, hnot⟩
          exact hnot ⟨hudhi, heq⟩
        · intro hnot
          refine ⟨fun _ => by omega, ?_⟩
          by_contra hne
          exact hnot ⟨hdcs, hcut, by omega, fun hand => hne hand.2⟩
      · -- the first octet is not all there, and has no room for a header
        refine iff_of_false ?_ fun hnot => hnot ⟨hdcs, hcut, by omega, fun hand => ?_⟩
        · rintro ⟨-, heq⟩
          unfold TLUserData.headerSeptets at heq
          omega
        · have heq := hand.2
          omega
    · rw [if_neg fun h => hudhi (hud'udhi.symm.trans h)]
      refine iff_of_false ?_ fun hnot => hnot ⟨hdcs, hcut, by omega, fun hand => hudhi hand.1⟩
      rintro ⟨-, hzero⟩
      omega
  · refine iff_of_true ⟨[], TLUserData.decodedText_ok.2 (.inr ⟨hr', rfl⟩), SameText.refl []⟩ ?_
    rintro ⟨hdcs, -, hle, -⟩
    exact hr' ⟨hdcs, by omega⟩

/-! ## The ways of packing -/

open ShortMsg (ContentSent Packable CodingKnown WasParsed)

/-- A message that is not packed goes out with what it carries. -/
theorem sent_unchanged (hc : ParsedContent m sip) (hp : m.parsed = some sip)
    (ht : m.getText = .ok t) : ContentSent lib m t m := by
  have htype : m.sentType = sip.contentType := by
    unfold ShortMsg.sentType
    rw [hp]
    rfl
  unfold ShortMsg.getText at ht
  constructor
  · refine ⟨t, ?_, SameText.refl t⟩
    unfold ShortMsg.sentText
    cases hct : m.contentType with
    | textPlain =>
      rw [hct, hp] at ht
      rw [htype, if_pos (hc.plain hct).2, hp]
      exact ht
    | unsupportedContent =>
      obtain ⟨hnone, hne⟩ := hc.unsupported hct
      rw [hct] at ht
      rw [htype, if_neg hne, hnone]
      cases m.msToSc <;> exact ht
    | vnd3gppSms =>
      have hvnd := hc.vnd hct
      rw [hct] at ht
      dsimp only at ht
      rw [htype, if_neg (by rw [hvnd]; decide)]
      unfold ShortMsg.sentUserData
      rw [htype, if_pos hvnd]
      cases htl : m.tlMessage with
      | none =>
        rw [htl] at ht
        cases hms : m.msToSc <;> rw [hms] at ht <;> exact ht
      | some tl =>
        obtain ⟨s, src, rfl, -⟩ := hc.submit tl htl
        rw [htl] at ht
        cases hms : m.msToSc <;> rw [hms] at ht <;> exact ht
  · intro s hs hdcs
    have hct : m.contentType = .vnd3gppSms := by
      cases hct : m.contentType with
      | textPlain =>
        rw [(hc.plain hct).1] at hs
        cases hs
      | unsupportedContent =>
        rw [(hc.unsupported hct).1] at hs
        cases hs
      | vnd3gppSms => rfl
    refine ⟨s.ud, ?_, rfl, rfl, rfl, [], by decide, (List.append_nil _).symm⟩
    unfold ShortMsg.sentUserData
    rw [htype, if_pos (hc.vnd hct), hs]

/-- A message is packed as a text. -/
theorem packPlainText_sent (hp : m.parsed = some sip) {ok : Bool}
    (h : m.packPlainText t = .ok (ok, m')) : ContentSent lib m t m' ↔
      (t ≠ [] → sip.bodies ≠ []) ∧
        ∀ s, m.tlMessage = some (.submit s) → decodable s.ud.dcs = true := by
  obtain ⟨sip', omsg, hsip', homsg, rfl⟩ := ShortMsg.packPlainText_steps h
  obtain rfl : sip' = sip := Option.some.inj (hsip'.symm.trans hp)
  obtain rfl := ShortMsg.setContentType_ok homsg
  have htext : ∀ t', ShortMsg.sentText lib (ShortMsg.parsedWasChanged { m with
      parsed := some { ShortMsg.setBody sip' t with
        contentType := some ⟨some (str "text"), some (str "plain")⟩ },
      msToSc := false }) = .ok t' ↔ t' = (ShortMsg.setBody sip' t).bodies.headD [] := by
    intro t'
    change Except.ok _ = _ ↔ _
    constructor
    · intro h
      injection h with h
      exact h.symm
    · rintro rfl
      rfl
  constructor
  · intro hsent
    refine ⟨fun hne hb => ?_, fun s hs => ?_⟩
    · obtain ⟨t', ht', hsame⟩ := hsent.text
      have hset : ShortMsg.setBody sip' t = sip' := by
        unfold ShortMsg.setBody
        rw [hb]
      have hnil := (htext t').1 ht'
      rw [hset, hb] at hnil
      have hlen := hsame.length
      rw [hnil] at hlen
      exact hne (List.eq_nil_of_length_eq_zero hlen.symm)
    · by_contra hdcs
      obtain ⟨ud', hud', -⟩ := hsent.userData s hs (Bool.eq_false_of_not_eq_true hdcs)
      cases hud'
  · rintro ⟨hb, hdcs⟩
    refine ⟨⟨_, (htext _).2 rfl, ?_⟩, fun s hs hnot => ?_⟩
    · unfold ShortMsg.setBody
      cases hbodies : sip'.bodies with
      | nil =>
        have hnil : t = [] := by
          by_contra hne
          exact hb hne hbodies
        rw [hnil]
        dsimp only
        rw [hbodies]
        exact SameText.refl []
      | cons b rest => exact SameText.refl t
    · rw [hdcs s hs] at hnot
      cases hnot

/-- A message is packed as the user data of an SMS-DELIVER. -/
theorem packTextToTpdu_sent (hl : lib.CodesBodies) (hp : m.parsed = some sip) {ok : Bool}
    (hcode : sip.bodies ≠ [] → ∀ text ∈ m.text, KnownCoding (ShortMsg.encodingOf text))
    (h : m.packTextToTpdu lib env t = .ok (ok, m')) : ContentSent lib m t m' ↔
      ((t ≠ [] → sip.bodies ≠ []) ∧
        ∀ s, m.tlMessage = some (.submit s) → decodable s.ud.dcs = true) ∧ t.length ≤ 255 := by
  obtain ⟨m1, sip1, omsg, h1, hp1, homsg, rfl⟩ := ShortMsg.packTextToTpdu_steps h
  obtain rfl := ShortMsg.setContentType_ok homsg
  obtain ⟨d, hd, hud, hoa⟩ := createSmsDelivery_packed hl hp hcode h1
  -- the content type is set afterwards
  have hpacked : PackedDeliver lib { sip with
      contentType := some ⟨some (str "application"), some (str "vnd.3gpp.sms")⟩ } d
      (ShortMsg.parsedWasChanged { m1 with parsed := some { sip1 with
        contentType := some ⟨some (str "application"), some (str "vnd.3gpp.sms")⟩ } }) := by
    refine ⟨hd.tlMessage, hd.direction, ⟨_, rfl, rfl⟩, ?_⟩
    obtain ⟨junk, htpdu⟩ := hd.tpdu
    refine ⟨junk, ?_⟩
    unfold ShortMsg.sentTpdu at htpdu
    rw [hp1] at htpdu
    exact htpdu
  generalize ShortMsg.parsedWasChanged _ = m2 at hpacked ⊢
  have hdcs : d.ud.dcs < 256 := by
    rw [hud]
    exact Nat.zero_lt_succ 255
  have hoctets : t.length ≤ 255 → d.octets ≤ 255 := by
    intro hlen
    have hsize := d.octets_eq.2
    have haddr := tlAddress_length_le (sip.sender.getD [])
    rw [← hoa] at haddr
    rw [hud, encode7bit_rawData_length] at hsize
    omega
  constructor
  · intro hsent
    obtain ⟨t', ht', hsame⟩ := hsent.text
    refine ⟨⟨fun hne hb => ?_, fun s hs => ?_⟩, ?_⟩
    · rw [(hpacked.userData rfl).2, hpacked.noBody rfl hb] at ht'
      cases ht'
      exact hne (List.eq_nil_of_length_eq_zero hsame.length.symm)
    · by_contra hnot
      obtain ⟨ud', hud', hsame'⟩ := hsent.userData s hs (Bool.eq_false_of_not_eq_true hnot)
      obtain ⟨junk, hread⟩ := hpacked.read rfl hdcs
      rw [hread] at hud'
      split at hud'
      · -- the coding scheme is that of text
        cases hud'
        have hzero : s.ud.dcs = 0 := by
          rw [← hsame'.dcs, hud]
          rfl
        rw [hzero] at hnot
        exact hnot (by decide)
      · cases hud'
    · have hle := hpacked.sentText_length rfl hdcs (by rw [hud]; rfl) ht'
      rw [hsame.length] at hle
      exact hle
  · rintro ⟨⟨hb, hdecodable⟩, hlen⟩
    refine ⟨?_, fun s hs hnot => ?_⟩
    · rw [(hpacked.userData rfl).2]
      by_cases hbodies : sip.bodies = []
      · have hnil : t = [] := by
          by_contra hne
          exact hb hne hbodies
        rw [hpacked.noBody rfl hbodies, hnil]
        exact ⟨[], rfl, SameText.refl []⟩
      · have hlength : d.ud.length < 256 := by
          rw [hud]
          exact Nat.lt_succ_of_le hlen
        obtain ⟨fill, -, hfill, hsent⟩ := hpacked.fits rfl hdcs hlength hbodies (hoctets hlen)
        rw [hud, encode7bit_rawData_length] at hfill
        have hnil : fill = [] := List.eq_nil_of_length_eq_zero (by omega)
        refine ⟨readable t, ?_, sameText_readable t⟩
        rw [hsent, hnil, List.append_nil, hud]
        change ShortMsg.decodedText (TLUserData.encode7bit t) = _
        unfold ShortMsg.decodedText
        rw [decode_encode7bit]
    · rw [hdecodable s hs] at hnot
      cases hnot

/-- An SMS-SUBMIT is recoded. -/
theorem createSmsDelivery_sent (hl : lib.CodesBodies) (hc : ParsedContent m sip)
    (hp : m.parsed = some sip)
    (hcode : sip.bodies ≠ [] → ∀ text ∈ m.text, KnownCoding (ShortMsg.encodingOf text)) {s : TLSubmit} (hs : m.tlMessage = some (.submit s)) (ht : ShortMsg.decodedText s.ud = .ok t)
    (hvnd : m.contentType = .vnd3gppSms) (h1 : m.createSmsDelivery lib env t s.ud = .ok m') :
    ContentSent lib m t m' ↔ Recodable sip s.ud t := by
  obtain ⟨d, hd, hud, hoa⟩ := createSmsDelivery_packed hl hp hcode h1
  obtain ⟨s', src, hs', hsrc, n, hn, hlen⟩ := hc.submit _ hs
  obtain rfl : s = s' := TLMessage.submit.inj hs'
  obtain ⟨huserData, hin⟩ := submit_userData hsrc
  have hct := hc.vnd hvnd
  have hdcs : d.ud.dcs < 256 := by
    rw [hud, huserData]
    exact fieldAt_lt _ _ 8
  have hlength : s.ud.length < 256 := by
    rw [huserData]
    exact fieldAt_lt _ _ 8
  have hraw : (s.ud.rawData.length + 7) / 8 < 256 := by
    rw [huserData]
    dsimp only
    rw [Frame.reverseOctets_length, List.length_drop]
    omega
  have hoctets : d.octets = sip.deliverOctets s.ud := by
    unfold TLDeliver.octets SipMessage.deliverOctets
    rw [hoa, hud]
    omega
  have hsubmit : ∀ s', m.tlMessage = some (.submit s') → s' = s := by
    intro s' hs'
    rw [hs] at hs'
    injection hs' with hs'
    injection hs' with hs'
    exact hs'.symm
  unfold Recodable
  rw [← hoctets]
  by_cases hfits : sip.bodies ≠ [] ∧ d.octets ≤ 255
  · obtain ⟨fill, hshort, hfill, hsent⟩ :=
      hd.fits hct hdcs (by rw [hud]; exact hlength) hfits.1 hfits.2
    rw [hud] at hfill hsent
    rw [if_pos hfits, ← recoded_text hlength hfill ht]
    constructor
    · intro hcontent
      have htext := hcontent.text
      rw [(hd.userData hct).2, hsent] at htext
      exact htext
    · intro htext
      refine ⟨?_, fun s' hs' _ => ?_⟩
      · rw [(hd.userData hct).2, hsent]
        exact htext
      · rw [hsubmit s' hs']
        exact ⟨_, hsent, rfl, rfl, rfl, fill, hshort, rfl⟩
  · have hnone := hd.lost hct hdcs (by rw [hud]; exact hraw)
      (by rw [hoa]; exact tlAddress_length_le _) hfits
    rw [if_neg hfits]
    constructor
    · intro hcontent
      refine ⟨?_, ?_⟩
      · obtain ⟨t', ht', hsame⟩ := hcontent.text
        rw [(hd.userData hct).2, hnone] at ht'
        cases ht'
        exact List.eq_nil_of_length_eq_zero hsame.length.symm
      · by_contra hnot
        obtain ⟨ud', hud', -⟩ := hcontent.userData s hs (Bool.eq_false_of_not_eq_true hnot)
        rw [hnone] at hud'
        cases hud'
    · rintro ⟨rfl, hdecodable⟩
      refine ⟨⟨[], ?_, SameText.refl []⟩, fun s' hs' hnot => ?_⟩
      · rw [(hd.userData hct).2, hnone]
        rfl
      · rw [hsubmit s' hs', hdecodable] at hnot
        cases hnot

/-! ## The main result -/

theorem sent_flag {flag : Bool} :
    ContentSent lib m t { m' with needRepack := flag } ↔ ContentSent lib m t m' :=
  ⟨fun h => ⟨h.text, h.userData⟩, fun h => ⟨h.text, h.userData⟩⟩

theorem recodeTpdu_sent (hl : lib.CodesBodies) (hc : ParsedContent m sip) (hp : m.parsed = some sip)
    (hcode : sip.bodies ≠ [] → ∀ text ∈ m.text, KnownCoding (ShortMsg.encodingOf text)) (hct : m.contentType = .vnd3gppSms) (hms : m.msToSc = true) (ht : m.getText = .ok t)
    (h : m.recodeTpdu lib env t = .ok (true, m')) :
    ContentSent lib m t m' ↔ ∀ s, m.tlMessage = some (.submit s) → m.msToSc = true →
      Recodable sip s.ud t := by
  obtain ⟨hok, -⟩ | ⟨-, s, htl, h1⟩ := ShortMsg.recodeTpdu_steps h
  · cases hok
  have hdecoded : ShortMsg.decodedText s.ud = .ok t := by
    unfold ShortMsg.getText at ht
    rw [hct, hms, htl] at ht
    exact ht
  refine (createSmsDelivery_sent hl hc hp hcode htl hdecoded hct h1).trans ?_
  constructor
  · intro hr s' hs' _
    obtain rfl := TLMessage.submit.inj (Option.some.inj (htl.symm.trans hs'))
    exact hr
  · intro hall
    exact hall s htl hms

/-- A plain text stays one: its text is its body, and there are no user data. -/
theorem plainText_sent (hc : ParsedContent m sip) (hp : m.parsed = some sip)
    (hct : m.contentType = .textPlain) (ht : m.getText = .ok t)
    (h : m.packPlainText t = .ok (true, m')) : ContentSent lib m t m' := by
  have hnone := (hc.plain hct).1
  have htext : t = sip.bodies.headD [] := by
    unfold ShortMsg.getText at ht
    rw [hct, hp] at ht
    injection ht with ht
    exact ht.symm
  refine (packPlainText_sent hp h).2 ⟨fun hne hb => ?_, fun s hs => ?_⟩
  · rw [htext, hb] at hne
    exact hne rfl
  · rw [hnone] at hs
    cases hs

theorem packAs_sent (hl : lib.CodesBodies) (hc : ParsedContent m sip) (hp : m.parsed = some sip)
    (hcode : m.CodingKnown sip) (ht : m.getText = .ok t) (h : m.packAs lib env t = .ok (true, m')) :
    ContentSent lib m t m' ↔ Packable m sip t := by
  unfold Packable
  cases ShortMsg.packAs_cases h with
  | plain hplain h =>
    rcases hplain with hconvert | ⟨hconvert, hct⟩
    · rw [hconvert]
      exact packPlainText_sent hp h
    · rw [hconvert]
      refine iff_of_true (plainText_sent hc hp hct ht h) fun s hs => ?_
      rw [(hc.plain hct).1] at hs
      cases hs
  | encode hconvert h =>
    rw [hconvert]
    exact packTextToTpdu_sent hl hp (fun hb => hcode ⟨hb, .inl hconvert⟩) h
  | recode hconvert hct hms h =>
    rw [hconvert]
    exact recodeTpdu_sent hl hc hp (fun hb => hcode ⟨hb, .inr ⟨hconvert, hct, hms⟩⟩) hct hms ht h
  | packed hconvert hct hms =>
    rw [hconvert]
    refine iff_of_true (sent_unchanged hc hp ht) fun s _ hms' => ?_
    rw [hms] at hms'
    cases hms'

theorem packSmsForDelivery_sent (hl : lib.CodesBodies) (hm : m.WasParsed lib)
    (hp : m.parsed = some sip) (ht : m.getText = .ok t)
    (hcode : m.needRepack = true → m.CodingKnown sip)
    (h : m.packSmsForDelivery lib env = .ok (true, m')) :
    ContentSent lib m t m' ↔ (m.needRepack = true → Packable m sip t) := by
  have hc := hm.content hp
  obtain ⟨hno, -, rfl⟩ | ⟨hrepack, body, m2, flag, hbody, hpack, rfl⟩ :=
    ShortMsg.packSmsForDelivery_steps hm.valid h
  · refine iff_of_true (sent_unchanged hc hp ht) fun hrepack => ?_
    rw [hno] at hrepack
    cases hrepack
  · obtain rfl := Except.ok.inj (hbody.symm.trans ht)
    rw [sent_flag, forall_prop_of_true hrepack]
    exact packAs_sent hl hc hp (hcode hrepack) ht hpack

/-- A message that was parsed and then packed goes out with its text, and with user data that cannot be
decoded, if it is packable into a known coding or goes out as it is; and with a known coding only
then. -/
theorem ShortMsg.contentSent_iff (hl : lib.CodesBodies) (hm : m.WasParsed lib)
    (hp : m.parsed = some sip) (ht : m.getText = .ok t)
    (h : m.packSmsForDelivery lib env = .ok (true, m')) :
    ((m.needRepack = true → Packable m sip t ∧ CodingKnown m sip) → ContentSent lib m t m') ∧
      (ContentSent lib m t m' → m.needRepack = true → CodingKnown m sip → Packable m sip t) := by
  constructor
  · intro hpackable
    exact (packSmsForDelivery_sent hl hm hp ht (fun hrepack => (hpackable hrepack).2) h).2
      fun hrepack => (hpackable hrepack).1
  · intro hsent hrepack hcode
    exact (packSmsForDelivery_sent hl hm hp ht (fun _ => hcode) h).1 hsent hrepack

/-- The sample message, to be packed as user data. -/
def convertedMsg : ShortMsg := { parsedMsg sampleRequest with convertContentType := .vnd3gppSms }

theorem parsedMsg_wasParsed : convertedMsg.WasParsed (sampleLibs [sampleRequest] []) where
  valid := rfl
  parse := by
    refine ⟨{ parsedMsg sampleRequest with parsed := none, parsedIsValid := false },
      parsedMsg sampleRequest, true, sampleRequest, sampleRequest, rfl, ?_, rfl, rfl, rfl, rfl, rfl,
      rfl⟩
    decide +kernel

theorem ShortMsg.contentSent_iff_sample : ∃ m',
    convertedMsg.packSmsForDelivery (sampleLibs [sampleRequest] []) (sampleEnv 0) = .ok (true, m') ∧
      ContentSent (sampleLibs [sampleRequest] []) convertedMsg (str "hi") m' := by
  have hrun : (convertedMsg.packSmsForDelivery (sampleLibs [sampleRequest] [])
      (sampleEnv 0)).toOption.any Prod.fst = true := by decide +kernel
  cases h : convertedMsg.packSmsForDelivery (sampleLibs [sampleRequest] []) (sampleEnv 0) with
  | error e =>
    rw [h] at hrun
    cases hrun
  | ok r =>
    obtain ⟨ok, m'⟩ := r
    rw [h] at hrun
    obtain rfl : ok = true := hrun
    refine ⟨m', rfl, (contentSent_iff (SampleLibs.codesBodies [sampleRequest] [])
      parsedMsg_wasParsed rfl rfl h).1 fun _ => ⟨⟨⟨fun _ => ?_, fun s hs => ?_⟩, ?_⟩, ?_⟩⟩
    · decide
    · cases hs
    · decide
    · rintro - text ⟨⟩
      exact .inl (by decide +kernel)

/-- A message with eight-bit data. -/
def dataSip : SipMessage :=
  { sampleRequest with
    contentType := some ⟨some (str "application"), some (str "vnd.3gpp.sms")⟩
    contentLength := some (some (str "54"))
    bodies := [str "00010007912143658709210f01000c81515500200020000402e834"] }

/-- The message is to be relayed as a text. -/
def dataMsg : ShortMsg :=
  { parsedMsg dataSip with
    contentType := .vnd3gppSms
    convertContentType := .textPlain
    rpData := some ⟨1, RPAddress.empty, ⟨1, 1, str "+123456789012"⟩,
      (unpack [0x01, 0, 0x0C, 0x81, 0x51, 0x55, 0x00, 0x20, 0x00, 0x20, 0, 4, 2, 0xE8, 0x34]).map
        some⟩
    tlMessage := some (.submit ⟨false, 0, false, false, 0, ⟨0, 1, str "155500020002"⟩, 0, .week,
      ⟨4, false, 2, Frame.reverseOctets (unpack [0xE8, 0x34])⟩⟩) }

theorem dataMsg_wasParsed : dataMsg.WasParsed (sampleLibs [dataSip] []) where
  valid := rfl
  parse := by
    refine ⟨{ parsedMsg dataSip with parsed := none, parsedIsValid := false },
      { dataMsg with convertContentType := .unsupportedContent }, true, dataSip, dataSip, rfl, ?_,
      rfl, rfl, rfl, rfl, rfl, rfl⟩
    decide +kernel

/-- What the message is packed into: nothing is left of the data. -/
def emptiedMsg : ShortMsg :=
  { dataMsg with
    parsed := some { dataSip with
      contentType := some ⟨some (str "text"), some (str "plain")⟩, bodies := [[]] }
    parsedIsBetter := true
    msToSc := false
    needRepack := false }

theorem not_contentSent_data : ¬ ∀ (lib : Libs), lib.CodesBodies → ∀ (env : Env) (m m' : ShortMsg)
    (sip : SipMessage) (t : CString), m.WasParsed lib → m.parsed = some sip → m.getText = .ok t →
    m.packSmsForDelivery lib env = .ok (true, m') → ContentSent lib m t m' := by
  intro hall
  have hpack : dataMsg.packSmsForDelivery (sampleLibs [dataSip] []) (sampleEnv 0) =
      .ok (true, emptiedMsg) := by decide +kernel
  have hsent := hall _ (SampleLibs.codesBodies [dataSip] []) (sampleEnv 0) dataMsg emptiedMsg dataSip []
    dataMsg_wasParsed rfl (by decide +kernel) hpack
  obtain ⟨ud', hud', -⟩ := hsent.userData _ rfl rfl
  have hnone : emptiedMsg.sentUserData (sampleLibs [dataSip] []) = none := by decide +kernel
  rw [hnone] at hud'
  cases hud'

end Smqueue

import Smqueue.SentContent
import Smqueue.Proofs.PduLayoutProofs
import Smqueue.Proofs.ShortMsgProofs

/-!
# Packing: proofs

What each way of packing makes of a message.
-/

namespace Smqueue

open Frame (develop)

variable {lib : Libs} {env : Env} {m m' : ShortMsg} {body : CString} {ok : Bool}

theorem RPData.ofDeliver_eq (ref : Nat) (originator : Address) (d : TLDeliver) :
    RPData.ofDeliver ref originator d = .ok ⟨ref, originator, RPAddress.empty, d.sheet⟩ := by
  unfold RPData.ofDeliver
  rw [TLDeliver.write_eq]
  rfl

namespace ShortMsg

theorem setContentType_ok {type subtype : CString} {p p' : SipMessage}
    (h : setContentType p type subtype = .ok p') :
    p' = { p with contentType := some ⟨some type, some subtype⟩ } := by
  unfold setContentType at h
  obtain ⟨ct, -, h⟩ := Except.bind_eq_ok.1 h
  exact (Except.pure_eq_ok.1 h).symm

theorem packTpdu_steps (h : m.packTpdu lib env = .ok m') : ∃ rp sheet sip,
    m.rpData = some rp ∧ rp.write = .ok sheet ∧ m.parsed = some sip ∧
      (sip.bodies = [] ∧ m' = m.parsedWasChanged ∨
        sip.bodies ≠ [] ∧ ∃ text, m.text = some text ∧ m' = { m with
          parsed := some (setBody sip (lib.encodeToString
            (packToString (develop env.junk sheet)) (encodingOf text))) }.parsedWasChanged) := by
  unfold packTpdu at h
  obtain ⟨rp, hrp, h⟩ := Except.bind_eq_ok.1 h
  obtain ⟨sheet, hsheet, h⟩ := Except.bind_eq_ok.1 h
  obtain ⟨sip, hsip, h⟩ := Except.bind_eq_ok.1 h
  refine ⟨rp, sheet, sip, deref_eq_ok hrp, hsheet, deref_eq_ok hsip, ?_⟩
  dsimp only at h
  cases hb : sip.bodies with
  | nil =>
    rw [hb] at h
    exact .inl ⟨rfl, (Except.pure_eq_ok.1 h).symm⟩
  | cons b rest =>
    rw [if_neg (by rw [hb]; simp)] at h
    obtain ⟨text, htext, h⟩ := Except.bind_eq_ok.1 h
    exact .inr ⟨List.cons_ne_nil b rest, text, deref_eq_ok htext, (Except.pure_eq_ok.1 h).symm⟩

/-- The SMS-DELIVER that is made around user data, in the RP-DATA that is packed. -/
theorem createSmsDelivery_steps {ud : TLUserData}
    (h : m.createSmsDelivery lib env body ud = .ok m') : ∃ sip d m1, m.parsed = some sip ∧
      d.ud = ud ∧ d.oa = Address.ofDigits (sip.sender.getD []) ∧
      packTpdu lib env { m with
        rpData := some ⟨env.random % 255, Address.ofDigits env.config.fakeSrcSmsc, RPAddress.empty,
          d.sheet⟩
        tlMessage := some (.deliver d) } = .ok m1 ∧
      m' = { m1 with msToSc := false } := by
  unfold createSmsDelivery at h
  obtain ⟨sip, hsip, h⟩ := Except.bind_eq_ok.1 h
  obtain ⟨f, hf, h⟩ := Except.bind_eq_ok.1 h
  have hfrom := deref_eq_ok hf
  have hpacked : ∀ d : TLDeliver, (do
      let rp ← RPData.ofDeliver (env.random % 255) (Address.ofDigits env.config.fakeSrcSmsc) d
      let m ← packTpdu lib env { m with rpData := some rp, tlMessage := some (.deliver d) }
      return { m with msToSc := false }) = .ok m' → ∃ m1, packTpdu lib env { m with
        rpData := some ⟨env.random % 255, Address.ofDigits env.config.fakeSrcSmsc, RPAddress.empty,
          d.sheet⟩
        tlMessage := some (.deliver d) } = .ok m1 ∧ m' = { m1 with msToSc := false } := by
    intro d h
    obtain ⟨rp, hrp, h⟩ := Except.bind_eq_ok.1 h
    obtain rfl := Except.ok.inj (hrp.symm.trans (RPData.ofDeliver_eq _ _ d))
    obtain ⟨m1, hpack, h⟩ := Except.bind_eq_ok.1 h
    exact ⟨m1, hpack, (Except.pure_eq_ok.1 h).symm⟩
  dsimp only at h
  split at h
  · rename_i name hname
    obtain ⟨sender, hsender, h⟩ := Except.bind_eq_ok.1 h
    obtain rfl := Except.pure_eq_ok.1 hsender
    obtain ⟨m1, hpack, hm1⟩ := hpacked _ h
    refine ⟨sip, _, m1, deref_eq_ok hsip, rfl, ?_, hpack, hm1⟩
    unfold SipMessage.sender
    rw [hfrom, Option.bind_some, hname]
    rfl
  · rename_i hname
    obtain ⟨url, hurl, h⟩ := Except.bind_eq_ok.1 h
    obtain ⟨sender, hsender, h⟩ := Except.bind_eq_ok.1 h
    obtain ⟨m1, hpack, hm1⟩ := hpacked _ h
    refine ⟨sip, _, m1, deref_eq_ok hsip, rfl, ?_, hpack, hm1⟩
    unfold SipMessage.sender
    rw [hfrom, Option.bind_some, hname, deref_eq_ok hurl]
    change Address.ofDigits sender = Address.ofDigits (url.username.getD [])
    rw [deref_eq_ok hsender]
    rfl

/-- Packing changes the tree only. -/
theorem packTpdu_fields (h : m.packTpdu lib env = .ok m') : m'.rpData = m.rpData ∧
    m'.tlMessage = m.tlMessage ∧ m'.contentType = m.contentType ∧ m'.parsedIsBetter = true := by
  obtain ⟨rp, sheet, sip, -, -, -, ⟨-, rfl⟩ | ⟨-, text, -, rfl⟩⟩ := packTpdu_steps h
  · exact ⟨rfl, rfl, rfl, rfl⟩
  · exact ⟨rfl, rfl, rfl, rfl⟩

/-- The message that is made around user data. -/
theorem createSmsDelivery_deliver {ud : TLUserData}
    (h : m.createSmsDelivery lib env body ud = .ok m') :
    ∃ d rp, m'.tlMessage = some (.deliver d) ∧ m'.rpData = some rp ∧ d.ud = ud ∧
      rp.tpdu = d.sheet := by
  obtain ⟨sip, d, m1, -, hud, -, hpack, rfl⟩ := createSmsDelivery_steps h
  obtain ⟨hrp, htl, -, -⟩ := packTpdu_fields hpack
  exact ⟨d, _, htl, hrp, hud, rfl⟩

/-- The content type of the message is not set, the flag is. -/
theorem createSmsDelivery_fields {ud : TLUserData}
    (h : m.createSmsDelivery lib env body ud = .ok m') : m'.contentType = m.contentType ∧
      m'.msToSc = false ∧ m'.parsedIsBetter = true := by
  obtain ⟨sip, d, m1, -, -, -, hpack, rfl⟩ := createSmsDelivery_steps h
  obtain ⟨-, -, hct, hflag⟩ := packTpdu_fields hpack
  exact ⟨hct, rfl, hflag⟩

theorem packTextToTpdu_steps (h : m.packTextToTpdu lib env body = .ok (ok, m')) : ∃ m1 sip sip',
    m.createSmsDelivery lib env body (TLUserData.encode7bit body) = .ok m1 ∧ m1.parsed = some sip ∧
      setContentType sip (str "application") (str "vnd.3gpp.sms") = .ok sip' ∧
      m' = { m1 with parsed := some sip' }.parsedWasChanged := by
  unfold packTextToTpdu at h
  obtain ⟨m1, h1, h⟩ := Except.bind_eq_ok.1 h
  obtain ⟨sip, hsip, h⟩ := Except.bind_eq_ok.1 h
  obtain ⟨sip', hsip', h⟩ := Except.bind_eq_ok.1 h
  obtain ⟨-, rfl⟩ := Prod.mk.inj (Except.pure_eq_ok.1 h)
  exact ⟨m1, sip, sip', h1, deref_eq_ok hsip, hsip', rfl⟩

theorem packPlainText_steps (h : m.packPlainText body = .ok (ok, m')) : ∃ sip sip',
    m.parsed = some sip ∧ setContentType (setBody sip body) (str "text") (str "plain") = .ok sip' ∧
      m' = { m with parsed := some sip', msToSc := false }.parsedWasChanged := by
  unfold packPlainText at h
  obtain ⟨sip, hsip, h⟩ := Except.bind_eq_ok.1 h
  obtain ⟨sip', hsip', h⟩ := Except.bind_eq_ok.1 h
  obtain ⟨-, rfl⟩ := Prod.mk.inj (Except.pure_eq_ok.1 h)
  exact ⟨sip, sip', deref_eq_ok hsip, hsip', rfl⟩

theorem recodeTpdu_steps (h : m.recodeTpdu lib env body = .ok (ok, m')) :
    ok = false ∧ m' = m ∨ ok = true ∧ ∃ s, m.tlMessage = some (.submit s) ∧
      m.createSmsDelivery lib env body s.ud = .ok m' := by
  unfold recodeTpdu at h
  split at h
  · obtain ⟨rfl, rfl⟩ := Prod.mk.inj (Except.pure_eq_ok.1 h)
    exact .inl ⟨rfl, rfl⟩
  · rename_i s hs
    obtain ⟨m1, h1, h⟩ := Except.bind_eq_ok.1 h
    obtain ⟨rfl, rfl⟩ := Prod.mk.inj (Except.pure_eq_ok.1 h)
    exact .inr ⟨rfl, s, hs, h1⟩
  · obtain ⟨rfl, rfl⟩ := Prod.mk.inj (Except.pure_eq_ok.1 h)
    exact .inl ⟨rfl, rfl⟩

/-! ## The choice of the packing -/

/-- What is done with the text of a message, by the content type that is wanted and the one that is
there. -/
inductive PacksAs (lib : Libs) (env : Env) (body : CString) (m : ShortMsg) : Bool → ShortMsg → Prop where
  | plain {ok : Bool} {m' : ShortMsg} (hplain : m.convertContentType = .textPlain ∨
        m.convertContentType = .unsupportedContent ∧ m.contentType = .textPlain)
      (h : m.packPlainText body = .ok (ok, m')) : PacksAs lib env body m ok m'
  | encode {ok : Bool} {m' : ShortMsg} (hconvert : m.convertContentType = .vnd3gppSms)
      (h : m.packTextToTpdu lib env body = .ok (ok, m')) : PacksAs lib env body m ok m'
  | recode {ok : Bool} {m' : ShortMsg} (hconvert : m.convertContentType = .unsupportedContent)
      (hct : m.contentType = .vnd3gppSms) (hms : m.msToSc = true)
      (h : m.recodeTpdu lib env body = .ok (ok, m')) : PacksAs lib env body m ok m'
  | packed (hconvert : m.convertContentType = .unsupportedContent)
      (hct : m.contentType = .vnd3gppSms) (hms : m.msToSc = false) : PacksAs lib env body m true m
  | unsupported (hconvert : m.convertContentType = .unsupportedContent)
      (hct : m.contentType = .unsupportedContent) : PacksAs lib env body m false m

theorem packAs_cases (h : m.packAs lib env body = .ok (ok, m')) : PacksAs lib env body m ok m' := by
  unfold packAs at h
  split at h
  next hconvert => exact .plain (.inl hconvert) h
  next hconvert => exact .encode hconvert h
  next hconvert hct => exact .plain (.inr ⟨hconvert, hct⟩) h
  next hconvert hct =>
    split at h
    next hms => exact .recode hconvert hct hms h
    next hms =>
      cases h
      exact .packed hconvert hct (by simpa using hms)
  next hconvert hct =>
    cases h
    exact .unsupported hconvert hct

/-- A parsed message goes out as it is, or its text is packed, which may clear the flag for that. -/
theorem packSmsForDelivery_steps (hv : m.parsedIsValid = true)
    (h : m.packSmsForDelivery lib env = .ok (ok, m')) :
    m.needRepack = false ∧ ok = true ∧ m' = m ∨
      m.needRepack = true ∧ ∃ body m1 flag, m.getText = .ok body ∧
        m.packAs lib env body = .ok (ok, m1) ∧ m' = { m1 with needRepack := flag } := by
  unfold packSmsForDelivery at h
  cases hrepack : m.needRepack with
  | false =>
    rw [hrepack] at h
    cases h
    exact .inl ⟨rfl, rfl, rfl⟩
  | true =>
    rw [hrepack, if_neg (by decide), parse_of_valid hv] at h
    obtain ⟨⟨b, m1⟩, h1, h⟩ := Except.bind_eq_ok.1 h
    cases h1
    obtain ⟨body, hbody, h⟩ := Except.bind_eq_ok.1 h
    obtain ⟨⟨ok', m2⟩, hpack, h⟩ := Except.bind_eq_ok.1 h
    obtain ⟨rfl, rfl⟩ := Prod.mk.inj (Except.pure_eq_ok.1 h)
    refine .inr ⟨rfl, body, m2, if ok' then false else m2.needRepack, hbody, hpack, ?_⟩
    cases ok' <;> rfl

end ShortMsg

end Smqueue

import Mathlib.Data.List.TakeWhile
import Smqueue.Restart
import Smqueue.Proofs.CoherenceProofs
import Smqueue.Proofs.QueueRecordsProofs

/-!
# Proofs: messages that survive a restart

What the operations on a message do to the tree and the text that a restart looks at.
-/

namespace Smqueue

open Relation (ReflTransGen)
open SipMessage (HeaderEdit ContentEdit Edit)
open ShortMsg (TreeEdited contentLen bodyOf encodingOf decodeRPData parseContent)

variable {lib : Libs} {env : Env} {s : Settings} {q : SMq} {h : ShortMsgPending}
  {m m' : ShortMsg} {p p' : SipMessage} {text : CString}

/-! ## The checks of a request -/

/-- A request that passes the checks and can be given a tag. -/
structure Checked (p : SipMessage) : Prop where
  request : p.isRequest = true
  version : p.sipVersion = some (str "SIP/2.0")
  uri : ∃ uri, p.reqUri = some uri ∧ uri.scheme = some (str "sip") ∧ uri.host.isSome = true
  method : p.sipMethod = some (str "MESSAGE") ∧
      ((p.reqUri.bind SipUri.username).isSome = true ∧ ShortMsgPending.supportedContent p = true ∧
        ShortMsgPending.bodyMissing p = false ∧
        ShortMsgPending.cseqNames p (str "MESSAGE") = true) ∨
    p.sipMethod = some (str "REGISTER") ∧ ShortMsgPending.cseqNames p (str "REGISTER") = true
  callId : p.callId.isSome = true
  from_url : (p.fromHeader.bind NameAddr.url).isSome = true
  mime : p.mimeVersion.any (· ≠ some (str "1.0")) = false
  to_ok : ShortMsgPending.toHeaderOk p = true
  number : (ShortMsgPending.cseqNumberOf p).isSome = true
  tag : (ShortMsgPending.fromTag p).isSome = true

theorem checkRequest_eq_zero_iff : ShortMsgPending.checkRequest p = 0 ↔
    ∃ uri, p.reqUri = some uri ∧ uri.scheme = some (str "sip") ∧ uri.host.isSome = true ∧
      (p.sipMethod = some (str "MESSAGE") ∧ (uri.username.isSome = true ∧
          ShortMsgPending.supportedContent p = true ∧ ShortMsgPending.bodyMissing p = false ∧
          ShortMsgPending.cseqNames p (str "MESSAGE") = true) ∨
        p.sipMethod = some (str "REGISTER") ∧
          ShortMsgPending.cseqNames p (str "REGISTER") = true) := by
  unfold ShortMsgPending.checkRequest ShortMsgPending.checkHostPort
  have hne : str "REGISTER" ≠ str "MESSAGE" := by decide
  constructor
  · intro h
    split at h
    · cases h
    · rename_i uri huri
      refine ⟨uri, huri, ?_⟩
      split_ifs at h with hscheme hsip hhost hnone hmessage huser hct hbody hcseq hregister hcseq <;>
        cases h
      · refine ⟨not_not.1 hsip, Option.isSome_iff_ne_none.2 (by simpa using hhost),
          .inl ⟨hmessage, ?_, ?_, ?_, ?_⟩⟩
        · exact Option.isSome_iff_ne_none.2 (by simpa using huser)
        · simpa using hct
        · exact Bool.eq_false_iff.2 hbody
        · simpa using hcseq
      · exact ⟨not_not.1 hsip, Option.isSome_iff_ne_none.2 (by simpa using hhost),
          .inr ⟨hregister, by simpa using hcseq⟩⟩
  · rintro ⟨uri, huri, hscheme, hhost, hmethod⟩
    rw [huri]
    rcases hmethod with ⟨hm, huser, hct, hbody, hcseq⟩ | ⟨hm, hcseq⟩
    · simp [hscheme, hhost, hm, hct, hbody, hcseq, Option.isNone_eq_false_iff.2 huser]
    · simp [hscheme, hhost, hm, hcseq, hne]

theorem checkParsed_eq_zero_iff (hr : p.isRequest = true) : ShortMsgPending.checkParsed p = 0 ↔
    p.sipVersion = some (str "SIP/2.0") ∧ ShortMsgPending.checkRequest p = 0 ∧
      ShortMsgPending.checkCommon p = 0 := by
  have hresp : ¬ p.isResponse = true := by simpa [SipMessage.isRequest] using hr
  unfold ShortMsgPending.checkParsed
  dsimp only
  rw [if_neg hresp]
  constructor
  · intro h
    split at h
    · cases h
    · rename_i hversion
      split at h
      · rename_i hcode
        exact absurd h hcode
      · rename_i hcode
        exact ⟨not_not.1 hversion, not_not.1 hcode, h⟩
  · rintro ⟨hversion, hcode, hcommon⟩
    rw [if_neg (not_not.2 hversion), if_neg (not_not.2 hcode), hcommon]

/-- A request passes the checks and can be given a tag exactly if it is like this. -/
theorem checked_iff : Checked p ↔ p.isRequest = true ∧ ShortMsgPending.checkParsed p = 0 ∧
    (ShortMsgPending.cseqNumberOf p).isSome = true ∧ (ShortMsgPending.fromTag p).isSome = true := by
  constructor
  · intro hc
    refine ⟨hc.request, (checkParsed_eq_zero_iff hc.request).2 ⟨hc.version, ?_, ?_⟩, hc.number, hc.tag⟩
    · obtain ⟨uri, huri, hscheme, hhost⟩ := hc.uri
      refine checkRequest_eq_zero_iff.2 ⟨uri, huri, hscheme, hhost, ?_⟩
      have hmethod := hc.method
      rw [huri, Option.bind_some] at hmethod
      exact hmethod
    · exact ShortMsgPending.checkCommon_eq_zero_iff.2 ⟨hc.callId, hc.from_url, hc.mime, hc.to_ok⟩
  · rintro ⟨hr, hchecks, hnumber, htag⟩
    obtain ⟨hversion, hrequest, hcommon⟩ := (checkParsed_eq_zero_iff hr).1 hchecks
    obtain ⟨uri, huri, hscheme, hhost, hmethod⟩ := checkRequest_eq_zero_iff.1 hrequest
    obtain ⟨hid, hfrom, hmime, hto⟩ := ShortMsgPending.checkCommon_eq_zero_iff.1 hcommon
    refine ⟨hr, hversion, ⟨uri, huri, hscheme, hhost⟩, ?_, hid, hfrom, hmime, hto, hnumber, htag⟩
    rw [huri, Option.bind_some]
    exact hmethod

theorem Checked.editUri {f : SipUri → SipUri} (hc : Checked p)
    (hscheme : ∀ u, (f u).scheme = u.scheme)
    (hhost : ∀ u, u.host.isSome = true → (f u).host.isSome = true)
    (huser : ∀ u, u.username.isSome = true → (f u).username.isSome = true) :
    Checked (ShortMsg.editUri p f) := by
  obtain ⟨uri, huri, hsip, hhas⟩ := hc.uri
  have huri' : (ShortMsg.editUri p f).reqUri = some (f uri) := by
    unfold ShortMsg.editUri
    rw [huri]
    rfl
  refine ⟨hc.request, hc.version, ⟨f uri, huri', (hscheme uri).trans hsip, hhost uri hhas⟩, ?_, hc.callId,
    hc.from_url, hc.mime, hc.to_ok, hc.number, hc.tag⟩
  have hmethod := hc.method
  rw [huri, Option.bind_some] at hmethod
  rw [huri', Option.bind_some]
  exact hmethod.imp_left fun ⟨hm, hname, hrest⟩ => ⟨hm, huser uri hname, hrest⟩

theorem SipMessage.HeaderEdit.checked (he : HeaderEdit lib p p') (hc : Checked p) : Checked p' := by
  cases he with
  | appendVia =>
    exact ⟨hc.request, hc.version, hc.uri, hc.method, hc.callId, hc.from_url, hc.mime, hc.to_ok,
      hc.number, hc.tag⟩
  | setFromUsername =>
    refine ⟨hc.request, hc.version, hc.uri, hc.method, hc.callId, ?_, hc.mime, hc.to_ok, hc.number, ?_⟩
    · have hfrom := hc.from_url
      unfold ShortMsg.setFromUsername
      cases hf : p.fromHeader with
      | none => simp [hf] at hfrom
      | some f =>
        cases hu : f.url with
        | none => simp [hf, hu] at hfrom
        | some u => simp [hu]
    · have htag := hc.tag
      unfold ShortMsgPending.fromTag at htag ⊢
      unfold ShortMsg.setFromUsername
      cases hf : p.fromHeader with
      | none => simp [hf] at htag
      | some f => simpa [hf] using htag
  | setFromDisplayname =>
    refine ⟨hc.request, hc.version, hc.uri, hc.method, hc.callId, ?_, hc.mime, hc.to_ok, hc.number, ?_⟩
    · have hfrom := hc.from_url
      unfold ShortMsg.setFromDisplayname
      cases hf : p.fromHeader with
      | none => simp [hf] at hfrom
      | some f => simpa [hf] using hfrom
    · have htag := hc.tag
      unfold ShortMsgPending.fromTag at htag ⊢
      unfold ShortMsg.setFromDisplayname
      cases hf : p.fromHeader with
      | none => simp [hf] at htag
      | some f => simpa [hf] using htag
  | setUriUsername => exact hc.editUri (fun _ => rfl) (fun _ h => h) fun _ _ => rfl
  | setUriHostport => exact hc.editUri (fun _ => rfl) (fun _ _ => rfl) fun _ h => h
  | setToForSmsc h =>
    unfold SMq.setToForSmsc at h
    obtain ⟨toHeader, hto, h⟩ := Except.bind_eq_ok.1 h
    obtain ⟨url, hurl, h⟩ := Except.bind_eq_ok.1 h
    obtain ⟨uri, -, h⟩ := Except.bind_eq_ok.1 h
    obtain ⟨user, -, h⟩ := Except.bind_eq_ok.1 h
    cases h
    refine ⟨hc.request, hc.version, hc.uri, hc.method, hc.callId, hc.from_url, hc.mime, ?_, hc.number,
      hc.tag⟩
    have hok := hc.to_ok
    unfold ShortMsgPending.toHeaderOk at hok ⊢
    rw [deref_eq_ok hto, Option.bind_some, deref_eq_ok hurl, Option.any_some, Bool.and_eq_true] at hok
    rw [Option.bind_some, Option.any_some, Bool.and_eq_true]
    exact ⟨hok.1, rfl⟩
  | renewCallId =>
    exact ⟨hc.request, hc.version, hc.uri, hc.method, rfl, hc.from_url, hc.mime, hc.to_ok,
      hc.number, hc.tag⟩

theorem SipMessage.ContentEdit.checked (he : ContentEdit p p') (hc : Checked p) : Checked p' := by
  obtain ⟨ct, bodies, rfl, hlen, hct⟩ := he.same
  refine ⟨hc.request, hc.version, hc.uri, ?_, hc.callId, hc.from_url, hc.mime, hc.to_ok, hc.number,
    hc.tag⟩
  refine hc.method.imp_left fun ⟨hm, huser, hsupported, hbody, hcseq⟩ => ⟨hm, huser, ?_, ?_, hcseq⟩
  · rcases hct with rfl | rfl | rfl
    · exact hsupported
    · rfl
    · rfl
  · unfold ShortMsgPending.bodyMissing at hbody ⊢
    rw [hlen]
    exact hbody

theorem checked_of_edits (he : ReflTransGen (Edit lib) p p') (hc : Checked p) : Checked p' := by
  induction he with
  | refl => exact hc
  | tail _ hedit ih =>
    rcases hedit with hedit | hedit
    · exact hedit.checked ih
    · exact hedit.checked ih

/-! ## The content of a text -/

/-- The part of the parser behind osip accepts the tree of a text. -/
def ContentParses (lib : Libs) (text : CString) (p : SipMessage) : Prop :=
  ∃ m, parseContent lib {} text p = .ok (true, m)

theorem ContentParses.plain (hct : p.contentType = some ⟨some (str "text"), some (str "plain")⟩) :
    ContentParses lib text p := ⟨_, ShortMsg.parseContent_iff.2 (.plain hct)⟩

/-- A body of length zero is not decoded. -/
theorem ContentParses.empty
    (hct : p.contentType = some ⟨some (str "application"), some (str "vnd.3gpp.sms")⟩)
    (hlen : contentLen p = 0) : ContentParses lib text p := by
  have hrp : decodeRPData lib text p = .ok none := by
    unfold decodeRPData
    rw [if_pos hlen]
  exact ⟨_, ShortMsg.parseContent_iff.2 (.noRPData hct hrp)⟩

/-- The trees have the same content, and the headers that belong to it. -/
structure SameContent (p p' : SipMessage) : Prop where
  contentType : p'.contentType = p.contentType
  headers : p'.headers = p.headers
  bodies : p'.bodies = p.bodies
  contentLength : p'.contentLength = p.contentLength

theorem SameContent.refl (p : SipMessage) : SameContent p p := ⟨rfl, rfl, rfl, rfl⟩

theorem SameContent.trans {p'' : SipMessage} (h : SameContent p p') (h' : SameContent p' p'') :
    SameContent p p'' :=
  ⟨h'.contentType.trans h.contentType, h'.headers.trans h.headers, h'.bodies.trans h.bodies,
    h'.contentLength.trans h.contentLength⟩

/-- The decoding depends on the body and the transfer coding of a text only. -/
theorem decodeRPData_congr (hl : lib.Lawful) {text' : CString} (hlen : contentLen p' = contentLen p)
    (hs : contentLen p ≠ 0 → SameBody (contentLen p) text text') :
    decodeRPData lib text' p' = decodeRPData lib text p := by
  unfold ShortMsg.decodeRPData
  rw [hlen]
  by_cases hzero : contentLen p = 0
  · rw [if_pos hzero, if_pos hzero]
  · obtain ⟨hbody, hencoding⟩ := hs hzero
    rw [if_neg hzero, if_neg hzero, hencoding]
    cases hb : bodyOf text with
    | none =>
      rw [hb, Option.map_none, Option.map_eq_none_iff] at hbody
      rw [hbody]
    | some body =>
      rw [hb, Option.map_some] at hbody
      obtain ⟨body', hb', htake⟩ := Option.map_eq_some_iff.1 hbody
      rw [hb', deref_some, deref_some, Except.ok_bind, Except.ok_bind, ← hl.decode_take body', htake,
        hl.decode_take]

theorem ContentParses.of_sameBody (hl : lib.Lawful) {text' : CString}
    (hc : ContentParses lib text p) (hct : p'.contentType = p.contentType)
    (hlen : contentLen p' = contentLen p)
    (hs : contentLen p ≠ 0 → SameBody (contentLen p) text text') : ContentParses lib text' p' := by
  unfold ContentParses parseContent at hc ⊢
  rw [hct, decodeRPData_congr hl hlen hs]
  exact hc

/-- Other content is not decoded. -/
theorem ContentParses.of_other {text' : CString} (hc : ContentParses lib text p)
    (hct : p.contentType ≠ some ⟨some (str "application"), some (str "vnd.3gpp.sms")⟩) :
    ContentParses lib text' p := by
  obtain ⟨m, h⟩ := hc
  cases ShortMsg.parseContent_iff.1 h with
  | missing hnone => exact ⟨_, ShortMsg.parseContent_iff.2 (.missing hnone)⟩
  | plain hplain => exact .plain hplain
  | noRPData hsms | encoded hsms => exact absurd hsms hct
  | other hother hplain hencoded =>
    exact ⟨_, ShortMsg.parseContent_iff.2 (.other hother hplain hencoded)⟩

theorem SameContent.contentLen (hs : SameContent p p') : contentLen p' = contentLen p := by
  unfold ShortMsg.contentLen
  rw [hs.contentLength]

/-- A tree with the same content is printed like the first one. -/
theorem ContentParses.of_same (hl : lib.Lawful) (hc : ContentParses lib (lib.messageToStr p) p)
    (hs : SameContent p p') : ContentParses lib (lib.messageToStr p') p' :=
  hc.of_sameBody hl hs.contentType hs.contentLen fun _ =>
    hl.content_eq p p' hs.contentType hs.headers hs.bodies hs.contentLength

/-- The edits of the addresses leave the content alone. -/
theorem sameContent_of_edits (he : ReflTransGen (HeaderEdit lib) p p') : SameContent p p' := by
  induction he with
  | refl => exact .refl p
  | tail _ hedit ih =>
    cases hedit with
    | setToForSmsc h =>
      unfold SMq.setToForSmsc at h
      obtain ⟨toHeader, -, h⟩ := Except.bind_eq_ok.1 h
      obtain ⟨url, -, h⟩ := Except.bind_eq_ok.1 h
      obtain ⟨uri, -, h⟩ := Except.bind_eq_ok.1 h
      obtain ⟨user, -, h⟩ := Except.bind_eq_ok.1 h
      cases h
      exact ⟨ih.contentType, ih.headers, ih.bodies, ih.contentLength⟩
    | _ => exact ⟨ih.contentType, ih.headers, ih.bodies, ih.contentLength⟩

/-! ## Messages that survive -/

/-- The text is parsed into a tree that passes the checks, and so is its content. -/
structure Acceptable (lib : Libs) (text : CString) (p : SipMessage) : Prop where
  parse : lib.messageParse text = some p
  checked : Checked p
  content : ContentParses lib text p

/-- The message holds an acceptable text, whose content is still that of the tree. -/
def TextAcceptable (lib : Libs) (m : ShortMsg) : Prop :=
  ∃ text p, m.text = some text ∧ 0 ∉ text ∧ text.length < 2 ^ 16 ∧ Acceptable lib text p ∧
    ∀ sip ∈ m.parsed, SameContent p sip

/-- The message holds a tree that passes the checks, and the text that is saved is acceptable. -/
structure Sturdy (lib : Libs) (m : ShortMsg) : Prop where
  tree : ∃ p, m.parsed = some p ∧ Checked p
  text : m.parsedIsBetter = false → TextAcceptable lib m
  printed : m.parsedIsBetter = true → ∀ p ∈ m.parsed, ContentParses lib (lib.messageToStr p) p
  fits : m.parsedIsBetter = true → m.TextFits lib

/-- The message has a tree, and survives a restart if it is a request. -/
structure Survives (lib : Libs) (m : ShortMsg) : Prop where
  valid : m.parsedIsValid = true
  tree : ∃ p, m.parsed = some p
  sturdy : isRequestMsg m = true → Sturdy lib m

/-- A text whose content parses is parsed. -/
theorem parse_of_text (hv : m.parsedIsValid = false) (ht : m.text = some text)
    (hlen : m.textLength = text.length) (hp : lib.messageParse text = some p)
    (hc : ContentParses lib text p) : ∃ sm, m.parse lib = .ok (true, sm) ∧ sm.parsed = some p := by
  obtain ⟨m1, h1⟩ := hc
  obtain ⟨sm, hsm⟩ := (ShortMsg.parseContent_ok h1).2
    { m with text := some text, textLength := text.length, rpData := none, tlMessage := none
             contentType := .unsupportedContent, parsed := some p, parsedIsValid := true
             parsedIsBetter := false }
  refine ⟨sm, ?_, ?_⟩
  · rw [← ShortMsg.buffer_self text, ← hlen] at hp
    rw [ShortMsg.parse_of_accepted hv ht hp, ht, hlen]
    exact hsm
  · obtain ⟨⟨ct, rp, tl, rfl⟩, -⟩ := ShortMsg.parseContent_ok hsm
    rfl

/-- An acceptable tree is accepted. -/
theorem validate_of_parse {x : ShortMsgPending} {sm : ShortMsg} (hc : Checked p)
    (hparse : x.toShortMsg.parse lib = .ok (true, sm)) (hp : sm.parsed = some p) :
    ∃ x', x.validateShortMsg lib s env false = .ok (0, x') ∧ x'.parsed = some p := by
  obtain ⟨-, hchecks, hnumber, htag⟩ := checked_iff.1 hc
  obtain ⟨f, hf⟩ : ∃ f, p.fromHeader = some f := by
    obtain ⟨-, ⟨f, -, hf, -⟩, -⟩ := ShortMsgPending.parts_of_checkParsed hchecks
    exact ⟨f, hf⟩
  have hlog : ShortMsgPending.logsMissingFrom s p = false := by
    unfold ShortMsgPending.logsMissingFrom
    rw [hf]
    simp
  have hearly : ShortMsgPending.passesEarlyCheck s env x p false = true := rfl
  rw [ShortMsgPending.validateShortMsg_apply hparse hp hlog, if_neg (not_not.2 hchecks), if_pos hearly,
    ShortMsgPending.setQtag_apply (ShortMsg.parse_valid hparse :) hp hf hc.callId]
  unfold ShortMsgPending.cseqNumberOf at hnumber
  unfold ShortMsgPending.fromTag at htag
  rw [hf, Option.bind_some] at htag
  obtain ⟨tag, htag⟩ := Option.isSome_iff_exists.1 htag
  cases hcseq : p.cseq with
  | none => simp [hcseq] at hnumber
  | some cseq =>
    rw [hcseq, Option.bind_some] at hnumber
    obtain ⟨number, hnumber⟩ := Option.isSome_iff_exists.1 hnumber
    dsimp only
    rw [hnumber, htag]
    exact ⟨_, rfl, hp⟩

/-- An acceptable text is accepted when it is read back. -/
theorem accepted_of_text {l : ReadLoop} {srcaddr : List UInt8} (hzero : 0 ∉ text)
    (hfit : text.length < 2 ^ 16) (ha : Acceptable lib text p) (hlen : l.alength = text.length) :
    (∃ sm, (l.message text srcaddr).toShortMsg.parse lib = .ok (true, sm)) ∧
      ∃ m', (l.message text srcaddr).validateShortMsg lib s env false = .ok (0, m') ∧
        m'.parsed.any SipMessage.isRequest := by
  have htext : (l.message text srcaddr).text = some text := congrArg some (ReadLoop.cstr_of_not_mem hzero)
  have htextLength : (l.message text srcaddr).textLength = text.length := by
    change l.alength % 2 ^ 16 = text.length
    rw [hlen, Nat.mod_eq_of_lt hfit]
  obtain ⟨sm, hparse, hsm⟩ := parse_of_text rfl htext htextLength ha.parse ha.content
  obtain ⟨x', hvalid, hx'⟩ := validate_of_parse ha.checked hparse hsm
  refine ⟨⟨sm, hparse⟩, x', hvalid, ?_⟩
  rw [hx']
  exact ha.checked.request

/-- What is saved for a tree that is to be printed is an acceptable text. -/
theorem Sturdy.acceptable (hl : lib.Lawful) (hb : m.parsedIsBetter = true) (h : Sturdy lib m)
    (hp : m.parsed = some p) : Acceptable lib (lib.messageToStr p) p := by
  obtain ⟨p', hp', hc⟩ := h.tree
  obtain rfl := Option.some.inj (hp.symm.trans hp')
  exact ⟨hl.parse_toStr p, hc, h.printed hb p hp⟩

theorem Sturdy.restorable (hl : lib.Lawful) (hv : m.parsedIsValid = true) (h : Sturdy lib m) :
    Restorable lib m := by
  by_cases hb : m.parsedIsBetter = true
  · obtain ⟨p, hp, -⟩ := h.tree
    have hfit := h.fits hb p hp
    have hmod : (lib.messageToStr p).length % 2 ^ 16 = (lib.messageToStr p).length :=
      Nat.mod_eq_of_lt hfit
    have hprint : m.makeTextValid lib = .ok { m with
        textLength := (lib.messageToStr p).length, text := some (lib.messageToStr p)
        parsedIsValid := true, parsedIsBetter := false } := by
      unfold ShortMsg.makeTextValid
      rw [hb, hv, hp]
      change Except.ok { m with
        textLength := (lib.messageToStr p).length % 2 ^ 16
        text := some ((lib.messageToStr p).take ((lib.messageToStr p).length % 2 ^ 16))
        parsed := some p, parsedIsValid := true, parsedIsBetter := false } = _
      rw [hmod, List.take_length]
    exact ⟨_, lib.messageToStr p, hprint, rfl, fun l s env srcaddr hlen =>
      accepted_of_text (hl.toStr_noZero p) hfit (h.acceptable hl hb hp) hlen⟩
  · obtain ⟨text, p', htext, hzero, hfit, ha, -⟩ := h.text (Bool.eq_false_iff.2 hb)
    refine ⟨m, text, ?_, htext, fun l s env srcaddr hlen => accepted_of_text hzero hfit ha hlen⟩
    unfold ShortMsg.makeTextValid
    rw [if_neg (by simp [hb])]
    rfl

/-- The tree of a request that survives is printed with a content that can be parsed, if the text of an
SMS is like that. -/
theorem Survives.content_printed (hl : lib.Lawful) (hm : Survives lib m)
    (hr : isRequestMsg m = true) (hp : m.parsed = some p)
    (halike : p.contentType = some ⟨some (str "application"), some (str "vnd.3gpp.sms")⟩ →
      PrintsAlike lib m) : ContentParses lib (lib.messageToStr p) p := by
  have hsturdy := hm.sturdy hr
  by_cases hb : m.parsedIsBetter = true
  · exact hsturdy.printed hb p hp
  · obtain ⟨text, p0, htext, -, -, ha, hcontent⟩ := hsturdy.text (Bool.eq_false_iff.2 hb)
    have hsame := hcontent p hp
    have hown : ContentParses lib text p :=
      ha.content.of_sameBody hl hsame.contentType hsame.contentLen fun _ => ⟨rfl, rfl⟩
    by_cases hsms : p.contentType = some ⟨some (str "application"), some (str "vnd.3gpp.sms")⟩
    · exact hown.of_sameBody hl rfl rfl
        (halike hsms (Bool.eq_false_iff.2 hb) text htext p hp)
    · exact hown.of_other hsms

/-! ## Operations -/

/-- A request that was accepted from its text survives. -/
theorem ShortMsgPending.Validated.survives {x x' : ShortMsgPending} {sm : ShortMsg}
    (h : Validated lib x sm x') (hv : x.parsedIsValid = false) (htext : x.text = some text)
    (hzero : 0 ∉ text) (hfit : text.length < 2 ^ 16)
    (hsame : lib.messageParse (ShortMsg.buffer text x.textLength) = lib.messageParse text) :
    Survives lib x'.toShortMsg ∧ x'.parsedIsBetter = false := by
  obtain ⟨p, hp, hchecks, -, -, hnumber, htag⟩ := h.tree
  have hvalid := ShortMsg.parse_valid h.parse
  obtain ⟨⟨sip, valid, ct, rp, tl, rfl⟩, htree⟩ := ShortMsg.parse_ok hv h.parse
  obtain ⟨text', p', htext', hparse, hp', m1, hcontent⟩ := htree hvalid
  obtain rfl := Option.some.inj (htext.symm.trans htext')
  obtain rfl := Option.some.inj (hp.symm.trans hp')
  rw [hsame] at hparse
  obtain ⟨relay, tag, hash, rfl⟩ := h.same
  refine ⟨⟨hvalid, ⟨p, hp⟩, fun hr => ?_⟩, rfl⟩
  have hreq : p.isRequest = true := by
    have hsip : sip = some p := hp
    rw [hsip] at hr
    exact hr
  have hc : Checked p := checked_iff.2 ⟨hreq, hchecks, hnumber, htag⟩
  refine ⟨⟨p, hp, hc⟩, fun _ => ?_, (fun hb => nomatch hb), fun hb => nomatch hb⟩
  refine ⟨text, p, htext, hzero, hfit, ⟨hparse, hc, m1, hcontent⟩, fun sip hsip => ?_⟩
  obtain rfl := Option.some.inj (hp.symm.trans hsip)
  exact .refl p

theorem Survives.prints {x : ShortMsg} (hl : lib.Lawful) (hm : Survives lib m)
    (hfit : isRequestMsg m = true → m.TextFits lib) (h : m.Prints lib x) : Survives lib x := by
  by_cases hb : m.parsedIsBetter = true
  · rcases ShortMsg.makeTextValid_ok h with rfl | ⟨p, hv, hp, rfl⟩
    · exact hm
    · refine ⟨hv, ⟨p, hp⟩, fun hr => ?_⟩
      have ha := (hm.sturdy hr).acceptable hl hb hp
      have hmod : (lib.messageToStr p).length % 2 ^ 16 = (lib.messageToStr p).length :=
        Nat.mod_eq_of_lt (hfit hr p hp)
      refine ⟨⟨p, hp, ha.checked⟩, fun _ => ?_, (fun hb => nomatch hb), fun hb => nomatch hb⟩
      refine ⟨lib.messageToStr p, p, ?_, hl.toStr_noZero p, hfit hr p hp, ha, fun sip hsip => ?_⟩
      · change some ((lib.messageToStr p).take ((lib.messageToStr p).length % 2 ^ 16)) = _
        rw [hmod, List.take_length]
      · obtain rfl := Option.some.inj (hp.symm.trans hsip)
        exact .refl p
  · rw [Daemon.prints_self (by simpa using hb) h]
    exact hm

/-! ## Edits of the head -/

/-- A tree without a body is not packed. -/
theorem createSmsDelivery_of_empty {body : CString} {ud : TLUserData} (hp : m.parsed = some p)
    (hbodies : p.bodies = []) (h : m.createSmsDelivery lib env body ud = .ok m') :
    m'.parsed = some p := by
  obtain ⟨sip, d, m1, -, -, -, hpack, rfl⟩ := ShortMsg.createSmsDelivery_steps h
  obtain ⟨rp, sheet, sip', -, -, hsip', ⟨-, rfl⟩ | ⟨hne, -⟩⟩ := ShortMsg.packTpdu_steps hpack
  · exact hp
  · obtain rfl : sip' = p := Option.some.inj (hsip'.symm.trans hp)
    exact absurd hbodies hne

/-- The content is as it was, or a text, or a TPDU of length zero. -/
def HarmlessContent (p p' : SipMessage) : Prop :=
  SameContent p p' ∨ p'.contentType = some ⟨some (str "text"), some (str "plain")⟩ ∨
    p'.contentType = some ⟨some (str "application"), some (str "vnd.3gpp.sms")⟩ ∧ contentLen p' = 0

theorem contentLen_of_edits (he : ReflTransGen ContentEdit p p') : contentLen p' = contentLen p := by
  induction he with
  | refl => rfl
  | tail _ hedit ih =>
    obtain ⟨ct, bodies, rfl, -⟩ := hedit.same
    exact ih

/-- Packing that makes no SMS-DELIVER of a body. -/
theorem packAs_content {body : CString} {ok : Bool} (hp : m.parsed = some p)
    (hrepack : m.needRepack = true) (hg : ¬ PacksDeliver m p)
    (h : m.packAs lib env body = .ok (ok, m')) :
    ∃ p', m'.parsed = some p' ∧ HarmlessContent p p' ∧
      (m'.parsedIsBetter = false → SameContent p p') := by
  cases ShortMsg.packAs_cases h with
  | plain _ h =>
    obtain ⟨sip, sip', -, hsip', rfl⟩ := ShortMsg.packPlainText_steps h
    refine ⟨sip', rfl, .inr (.inl ?_), fun hb => nomatch hb⟩
    rw [ShortMsg.setContentType_ok hsip']
  | encode hconvert h =>
    obtain ⟨m1, sip, sip', h1, hsip, hsip', rfl⟩ := ShortMsg.packTextToTpdu_steps h
    -- there is no body, so that the length stays zero
    have hlen : contentLen p = 0 := by
      by_contra hne
      exact hg ⟨hrepack, .inl ⟨hconvert, .inr hne⟩⟩
    obtain ⟨p1, hp1, hedits⟩ := (ShortMsg.createSmsDelivery_edited h1).tree p hp
    obtain rfl : sip = p1 := Option.some.inj (hsip.symm.trans hp1)
    refine ⟨sip', rfl, .inr (.inr ?_), fun hb => nomatch hb⟩
    rw [ShortMsg.setContentType_ok hsip']
    exact ⟨rfl, (contentLen_of_edits hedits).trans hlen⟩
  | recode hconvert hct hms h =>
    obtain ⟨-, rfl⟩ | ⟨-, submit, htl, h1⟩ := ShortMsg.recodeTpdu_steps h
    · exact ⟨p, hp, .inl (.refl p), fun _ => .refl p⟩
    · have hbodies : p.bodies = [] := by
        by_contra hne
        exact hg ⟨hrepack, .inr ⟨hconvert, hct, hms, by rw [htl]; rfl, hne⟩⟩
      exact ⟨p, createSmsDelivery_of_empty hp hbodies h1, .inl (.refl p), fun _ => .refl p⟩
  | packed => exact ⟨p, hp, .inl (.refl p), fun _ => .refl p⟩
  | unsupported => exact ⟨p, hp, .inl (.refl p), fun _ => .refl p⟩

theorem packSmsForDelivery_content {ok : Bool} (hv : m.parsedIsValid = true) (hp : m.parsed = some p)
    (hg : ¬ PacksDeliver m p) (h : m.packSmsForDelivery lib env = .ok (ok, m')) :
    ∃ p', m'.parsed = some p' ∧ HarmlessContent p p' ∧
      (m'.parsedIsBetter = false → SameContent p p') := by
  obtain ⟨-, -, rfl⟩ | ⟨hrepack, body, m1, flag, -, hpack, rfl⟩ :=
    ShortMsg.packSmsForDelivery_steps hv h
  · exact ⟨p, hp, .inl (.refl p), fun _ => .refl p⟩
  · obtain ⟨p', hp', hcontent⟩ := packAs_content hp hrepack hg hpack
    exact ⟨p', hp', hcontent⟩

/-- An edit of the head keeps its content, or makes it one that can be parsed. -/
theorem SMq.HeadEdit.content (hv : h.parsedIsValid = true) (hp : h.parsed = some p)
    (hg : q.KeepsTexts lib env h) (he : q.HeadEdit lib env h m') :
    ∃ p', m'.parsed = some p' ∧ HarmlessContent p p' ∧
      (m'.parsedIsBetter = false → SameContent p p') := by
  have addresses : ∀ {m'}, TreeEdited (HeaderEdit lib) h.toShortMsg m' →
      ∃ p', m'.parsed = some p' ∧ HarmlessContent p p' ∧
        (m'.parsedIsBetter = false → SameContent p p') := by
    intro m' hedited
    obtain ⟨p', hp', hedits⟩ := hedited.tree p hp
    exact ⟨p', hp', .inl (sameContent_of_edits hedits), fun _ => sameContent_of_edits hedits⟩
  cases he with
  | lookupFromAddress _ hl => exact addresses (ShortMsg.lookupFromAddress_edited hl)
  | lookupUriImsi _ hl => exact addresses (ShortMsg.lookupUriImsi_edited hv hl)
  | lookupUriHostport _ hl => exact addresses (ShortMsg.lookupUriHostport_edited hv hl)
  | packSmsForDelivery hs hpack => exact packSmsForDelivery_content hv hp (hg.packs hs p hp) hpack
  | sendSIPInit _ _ _ hl => exact addresses (ShortMsg.sendSIP_edited hl)

theorem Survives.edited (hl : lib.Lawful) (hg : q.KeepsTexts lib env h)
    (he : q.HeadEdit lib env h m') (hm : Survives lib h.toShortMsg) (hfit : m'.TextFits lib) :
    Survives lib m' := by
  have hedited := he.treeEdited hm.valid
  obtain ⟨p, hp⟩ := hm.tree
  obtain ⟨p', hp', hedits⟩ := hedited.tree p hp
  refine ⟨hedited.valid.trans hm.valid, ⟨p', hp'⟩, fun hr => ?_⟩
  have hreq : isRequestMsg h.toShortMsg = true := by
    unfold isRequestMsg at hr ⊢
    rw [hp', Option.any_some, (sameTag_of_edits hedits).isRequest] at hr
    rw [hp]
    exact hr
  have hsturdy := hm.sturdy hreq
  obtain ⟨p0, hp0, hchecked⟩ := hsturdy.tree
  obtain rfl := Option.some.inj (hp.symm.trans hp0)
  obtain ⟨p1, hp1, hharmless, hsame⟩ := he.content hm.valid hp hg
  obtain rfl := Option.some.inj (hp'.symm.trans hp1)
  refine ⟨⟨p', hp', checked_of_edits hedits hchecked⟩, fun hb => ?_, fun hb p1 hp1 => ?_, fun _ => hfit⟩
  · have hbefore : h.parsedIsBetter = false := by
      by_contra hne
      rw [hedited.better (by simpa using hne)] at hb
      cases hb
    obtain ⟨text, p2, htext, hzero, hlen, ha, hcontent⟩ := hsturdy.text hbefore
    refine ⟨text, p2, hedited.text.trans htext, hzero, hlen, ha, fun sip hsip => ?_⟩
    obtain rfl := Option.some.inj (hp'.symm.trans hsip)
    exact (hcontent p hp).trans (hsame hb)
  · obtain rfl := Option.some.inj (hp'.symm.trans hp1)
    rcases hharmless with hsame | hplain | ⟨hvnd, hlen⟩
    · have hprinted : ContentParses lib (lib.messageToStr p) p := by
        refine hm.content_printed hl hreq hp fun hsms => hg.alike m' he hb ?_
        rw [hp', Option.bind_some, hsame.contentType]
        exact hsms
      exact hprinted.of_same hl hsame
    · exact .plain hplain
    · exact .empty hvnd hlen

/-! ## New messages -/

theorem zero_not_mem_cstr (buffer : List UInt8) : 0 ∉ cstr buffer := by
  intro h
  unfold cstr at h
  have hzero := List.mem_takeWhile_imp h
  simp at hzero

theorem length_cstr_le (buffer : List UInt8) : (cstr buffer).length ≤ buffer.length :=
  (List.takeWhile_prefix _).length_le

/-- A string is not changed by the zeros that `strncpy` pads it with. -/
theorem cstr_strncpy {n : Nat} (hzero : 0 ∉ text) (hlen : text.length ≤ n) :
    cstr (strncpy text n) = text := by
  have hpos : ∀ c ∈ text, decide (c ≠ 0) = true := fun c hc =>
    decide_eq_true fun h0 => hzero (h0 ▸ hc)
  unfold cstr strncpy
  rw [List.take_of_length_le hlen, List.takeWhile_append_of_pos hpos]
  cases n - text.length with
  | zero => exact List.append_nil _
  | succ k => exact List.append_nil _

/-- A request that the program originates survives. -/
theorem finishMsg_survives (hl : lib.Lawful) {x x' : ShortMsgPending} (hv : x.parsedIsValid = true)
    (hb : x.parsedIsBetter = true) (hf : SMq.finishMsg lib env s x = .ok (0, x')) :
    Survives lib x'.toShortMsg := by
  unfold SMq.finishMsg at hf
  obtain ⟨sm, hsm, hf⟩ := Except.bind_eq_ok.1 hf
  obtain ⟨sm', hsm', hf⟩ := Except.bind_eq_ok.1 hf
  obtain ⟨sm'', hvalid⟩ := ShortMsgPending.validated_of_ok hf
  unfold ShortMsg.makeTextValid at hsm
  rw [hb, hv, if_pos (by rfl)] at hsm
  obtain ⟨p, -, hsm⟩ := Except.bind_eq_ok.1 hsm
  cases hsm
  unfold ShortMsg.unparse at hsm'
  dsimp only at hsm'
  rw [if_neg (by simp)] at hsm'
  cases hsm'
  let n := (lib.messageToStr p).length % 2 ^ 16
  have hn : n ≤ (lib.messageToStr p).length := Nat.mod_le _ _
  have hlen : ((lib.messageToStr p).take n).length = n := by
    rw [List.length_take, Nat.min_eq_left hn]
  refine (hvalid.survives rfl rfl (fun h0 => ?_) ?_ ?_).1
  · exact hl.toStr_noZero p (List.mem_of_mem_take h0)
  · change ((lib.messageToStr p).take n).length < 2 ^ 16
    rw [hlen]
    exact Nat.mod_lt _ (by omega)
  · change lib.messageParse (ShortMsg.buffer ((lib.messageToStr p).take n) n) = _
    have hbuffer := ShortMsg.buffer_self ((lib.messageToStr p).take n)
    rw [hlen] at hbuffer
    rw [hbuffer]

theorem survives_kept (hl : lib.Lawful) : Kept lib (Survives lib) where
  valid := fun _ hm => hm.valid
  prints := fun _ _ hm hfit h => hm.prints hl (fun _ => hfit) h
  finished := fun _ _ _ _ hv hb hf => finishMsg_survives hl hv hb hf

namespace Daemon

variable {d d' : Daemon}

/-- A datagram that is parsed like its text makes a message that survives. -/
theorem arrive_survives {buffer srcaddr : List UInt8} {smp : ShortMsgPending}
    {id : MsgId} {early : Bool} (hlen : buffer.length ≤ bufferSize)
    (hsame : lib.messageParse (ShortMsg.buffer (cstr buffer) buffer.length) =
      lib.messageParse (cstr buffer))
    (hv : ({ datagram buffer srcaddr with id := id } : ShortMsgPending).validateShortMsg lib s env
      early = .ok (0, smp)) : Survives lib smp.toShortMsg ∧ smp.parsedIsBetter = false := by
  obtain ⟨sm, hvalid⟩ := ShortMsgPending.validated_of_ok hv
  have hsmall : buffer.length < 2 ^ 16 := by
    unfold bufferSize at hlen
    omega
  have hmod : buffer.length % 2 ^ 16 = buffer.length := Nat.mod_eq_of_lt hsmall
  have hcstr := length_cstr_le buffer
  have htext : ({ datagram buffer srcaddr with id := id } : ShortMsgPending).text =
      some (cstr buffer) := by
    change some (cstr (strncpy (cstr buffer) (buffer.length % 2 ^ 16))) = some (cstr buffer)
    rw [hmod, cstr_strncpy (zero_not_mem_cstr buffer) hcstr]
  refine hvalid.survives rfl htext (zero_not_mem_cstr buffer) (by omega) ?_
  · change lib.messageParse (ShortMsg.buffer (cstr buffer) (buffer.length % 2 ^ 16)) = _
    rw [hmod]
    exact hsame

theorem StartAccepted.holds (h : d.StartAccepted lib) :
    d.Holds (Survives lib) := by
  refine { h.sound with queue := fun m hm => ?_, accepted := fun smp hsmp => ?_ }
  · obtain ⟨m', ⟨m0, text, s, env, early, ⟨htext, hzero, hlen, hfit⟩, hv, hvalid⟩, heq⟩ :=
      h.accepted m hm
    obtain ⟨sm, hvalid⟩ := ShortMsgPending.validated_of_ok hvalid
    rw [heq]
    refine (hvalid.survives hv htext hzero hfit ?_).1
    rw [hlen, ShortMsg.buffer_self]
  · rw [h.reader] at hsmp
    cases hsmp

theorem Holds.next_survives {a : DaemonAct} (hl : lib.Lawful) (h : d.Holds (Survives lib))
    (hg : d.KeepsTexts lib a) (hn : d.next lib a = some d') : d'.Holds (Survives lib) := by
  refine h.next (survives_kept hl) hn (fun env buffer srcaddr smp ha hv => ?_)
    (fun env ha head hhead hdue => ?_) (fun ha m hm sm hs hp => ?_)
  · subst ha
    exact arrive_survives (arrive_fits hn) hg hv
  · subst ha
    have hkeeps := hg head hhead hdue
    exact ⟨fun sm he hs hfit => hs.edited hl hkeeps he hfit, hkeeps.fits⟩
  · by_cases hb : m.parsedIsBetter = true
    · exact hs.prints hl (fun hr => (hs.sturdy hr).fits hb) hp
    · rw [prints_self (by simpa using hb) hp]
      exact hs

/-- Every queued request is accepted again after a restart. -/
theorem restorable_of_keepsTexts (lib : Libs) (hl : lib.Lawful) {d : Daemon}
    (h : Runs.GuardedRun (StartAccepted lib) (Step lib) (KeepsTexts lib) d) :
    ∀ m ∈ d.queue.timeSortedList, isRequestMsg m.toShortMsg = true → Restorable lib m.toShortMsg := by
  have hall : d.Holds (Survives lib) := h.invariant (Holds (Survives lib))
    (fun _ h0 => h0.holds) fun _ _ _ hi hg hn => hi.next_survives hl hg hn
  intro m hm hr
  have hs := hall.queue m hm
  exact (hs.sturdy hr).restorable hl hs.valid

/-! ## A message that is relayed -/

/-- A message with an SMS-SUBMIT. -/
def submitSip : SipMessage :=
  { sampleRequest with
    contentType := some ⟨some (str "application"), some (str "vnd.3gpp.sms")⟩
    contentLength := some (some (str "54"))
    bodies := [str "00010007912143658709210f01000c81515500200020000002e834"] }

/-- The message as it is read from the queue file. -/
def submitText : ShortMsgPending where
  text := some (SampleLibs.messageText submitSip)
  textLength := (SampleLibs.messageText submitSip).length
  msToSc := true
  id := 0
  state := .requestMsgDelivery

/-- The message as it is accepted. -/
def submitMsg : ShortMsgPending :=
  { queuedMsg 0 .requestMsgDelivery 0 submitSip with
    contentType := .vnd3gppSms
    rpData := some ⟨1, RPAddress.empty, ⟨1, 1, str "+123456789012"⟩,
      (unpack [0x01, 0, 0x0C, 0x81, 0x51, 0x55, 0x00, 0x20, 0x00, 0x20, 0, 0, 2, 0xE8, 0x34]).map
        some⟩
    tlMessage := some (.submit ⟨false, 0, false, false, 0, ⟨0, 1, str "155500020002"⟩, 0, .week,
      ⟨0, false, 2, Frame.reverseOctets (unpack [0xE8, 0x34])⟩⟩) }

/-- The same message with the address of the relay. -/
def locatedSip : SipMessage :=
  { submitSip with reqUri := some (sampleUri (str "+15550002") (some (str "5064"))) }

/-- The text that it is converted to for the relay. -/
def relayedSip : SipMessage :=
  { locatedSip with
    contentType := some ⟨some (str "text"), some (str "plain")⟩
    bodies := [str "hi"] }

/-- The message with the SMS-DELIVER that it is packed into otherwise. -/
def deliverSip : SipMessage :=
  { submitSip with
    bodies := [str "010103a1000000130409915155001000002110100000000002e834"] }

def restartSips : List SipMessage := [submitSip, locatedSip, relayedSip, deliverSip, sampleRequest]

/-- The libraries that know these messages. -/
def restartLibs : Libs := sampleLibs restartSips []

theorem known_restart : SampleLibs.Known restartSips :=
  ⟨by decide +kernel, by decide +kernel, by decide +kernel, by decide +kernel, by decide +kernel⟩

theorem submitText_accepted : submitText.validateShortMsg restartLibs {} (sampleEnv 0) false =
    .ok (0, submitMsg) := by
  decide +kernel

/-- The text of a message that waits, which came from port 5062 of the own machine. -/
def waitingText : ShortMsgPending where
  srcaddr := [2, 0, 19, 198, 127, 0, 0, 1, 0, 0, 0, 0, 0, 0, 0, 0]
  text := some (SampleLibs.messageText sampleRequest)
  textLength := (SampleLibs.messageText sampleRequest).length
  msToSc := true
  id := 1
  state := .requestDestinationSipurl
  nextActionTime := 100

/-- The message that waits. -/
def waitingMsg : ShortMsgPending :=
  { queuedMsg 1 .requestDestinationSipurl 100 sampleRequest with srcaddr := waitingText.srcaddr }

theorem waitingText_accepted : waitingText.validateShortMsg restartLibs {} (sampleEnv 0) false =
    .ok (0, waitingMsg) := by
  decide +kernel

/-- The message when its destination is to be looked up. -/
def locateMsg : ShortMsgPending := { submitMsg with state := .requestDestinationSipurl }

/-- The message when it is to be sent to the relay as a text. -/
def relayMsg : ShortMsgPending :=
  { submitMsg with
    parsed := some locatedSip
    parsedIsBetter := true
    convertContentType := .textPlain }

/-- The relay takes texts. -/
def relayDaemon : Daemon where
  queue :=
    { settings :=
        { globalRelay := str "127.0.0.1"
          globalRelayPort := str "5064"
          globalRelayContentType := .textPlain }
      timeSortedList := [locateMsg, waitingMsg]
      nextId := 2 }
  events := []
  reader := .waiting
  writer := .waiting

theorem relayDaemon_start : relayDaemon.StartAccepted restartLibs where
  distinct := ⟨by decide, by decide⟩
  reader := rfl
  writer := rfl
  events := fun _ he => (by cases he)
  fits := Nat.zero_le _
  accepted := by
    refine List.forall_mem_cons.2 ⟨⟨submitMsg, ⟨submitText, _, {}, sampleEnv 0, false,
      ⟨rfl, ?_, rfl, ?_⟩, rfl, submitText_accepted⟩, rfl⟩, List.forall_mem_singleton.2
      ⟨_, ⟨waitingText, _, {}, sampleEnv 0, false, ⟨rfl, ?_, rfl, ?_⟩, rfl, waitingText_accepted⟩,
        rfl⟩⟩
    · exact known_restart.noZero submitSip List.mem_cons_self
    · decide +kernel
    · exact known_restart.noZero sampleRequest (by simp [restartSips])
    · decide +kernel

/-- The texts of a pass fit that makes trees of the sample messages only. -/
theorem restart_fits {h : ShortMsgPending} (hh : h ∈ q.timeSortedList)
    (hs : h.state = .requestDestinationSipurl ∨ h.state = .requestMsgDelivery)
    (hq : ∀ m ∈ q.timeSortedList, m.parsedIsValid = true ∧
      ∃ p, m.parsed = some p ∧ p ∈ restartSips)
    (he : ∀ sm, q.HeadEdit restartLibs (sampleEnv 0) h sm →
      ∃ p, sm.parsed = some p ∧ p ∈ restartSips) :
    ∀ m, q.Makes restartLibs (sampleEnv 0) h m → m.toShortMsg.TextFits restartLibs := by
  have htexts : ∀ sip ∈ restartSips, (restartLibs.messageToStr sip).length < 2 ^ 16 := by
    decide +kernel
  have hinitial : h.state ≠ .initialState := by
    rintro hi
    rcases hs with hs | hs <;> rw [hi] at hs <;> cases hs
  have horiginated : ∀ x, ¬ q.Originated restartLibs (sampleEnv 0) h x := by
    intro x ho
    cases ho with
    | reply hi | registered hi => exact hinitial hi
    | answered _ ha => exact hinitial ha.1
    | notLocated hi | register hi | awaited hi =>
      rcases hs with hs | hs <;> rw [hi] at hs <;> cases hs
  intro m hm sip hsip
  obtain ⟨-, p, hp, hmem⟩ := SMq.Makes.tree hh hq horiginated he hm
  obtain rfl := Option.some.inj (hp.symm.trans hsip)
  exact htexts p hmem

/-! The destination is looked up. -/

theorem locateMsg_located : (locateMsg.toShortMsg.lookupUriHostport restartLibs (sampleEnv 0)
    relayDaemon.queue.settings).toOption.map (fun r => r.2.parsed) = some (some locatedSip) := by
  decide +kernel

theorem locateMsg_edited {sm : ShortMsg}
    (he : relayDaemon.queue.HeadEdit restartLibs (sampleEnv 0) locateMsg sm) :
    sm.parsed = some locatedSip := by
  cases he with
  | lookupUriHostport _ hl =>
    have hparsed := locateMsg_located
    rw [hl] at hparsed
    exact Option.some.inj hparsed
  | lookupFromAddress hs | lookupUriImsi hs | packSmsForDelivery hs | sendSIPInit hs => cases hs

/-- The tree of an SMS is edited, whose text is like the printed one. -/
theorem locate_keepsTexts :
    relayDaemon.queue.KeepsTexts restartLibs (sampleEnv 0) locateMsg where
  packs := fun hs => by cases hs
  alike := by
    rintro sm - - - - text ht sip hsip -
    obtain rfl := Option.some.inj hsip
    obtain rfl := Option.some.inj ht
    have hprint : SampleLibs.toStr restartSips submitSip = SampleLibs.messageText submitSip :=
      if_pos List.mem_cons_self
    change SameBody _ _ (SampleLibs.toStr restartSips submitSip)
    rw [hprint]
    exact ⟨rfl, rfl⟩
  fits := restart_fits List.mem_cons_self (.inl rfl)
    (List.forall_mem_cons.2 ⟨⟨rfl, submitSip, rfl, by simp [restartSips]⟩,
      List.forall_mem_singleton.2 ⟨rfl, sampleRequest, rfl, by simp [restartSips]⟩⟩)
    fun sm he => ⟨locatedSip, locateMsg_edited he, by simp [restartSips]⟩

/-! The message is sent. -/

theorem relayMsg_packed : (relayMsg.toShortMsg.packSmsForDelivery restartLibs
    (sampleEnv 0)).toOption.map (fun r => r.2.parsed) = some (some relayedSip) := by
  decide +kernel

theorem relayMsg_edited {sm : ShortMsg} (he : q.HeadEdit restartLibs (sampleEnv 0) relayMsg sm) :
    sm.parsed = some relayedSip := by
  cases he with
  | packSmsForDelivery _ hpack =>
    have hparsed := relayMsg_packed
    rw [hpack] at hparsed
    exact Option.some.inj hparsed
  | lookupFromAddress hs | lookupUriImsi hs | lookupUriHostport hs | sendSIPInit hs => cases hs

/-- The SMS-SUBMIT is packed as a text. -/
theorem relay_keepsTexts (hq : q.timeSortedList = [relayMsg, waitingMsg]) :
    q.KeepsTexts restartLibs (sampleEnv 0) relayMsg where
  packs := by
    rintro - sip - ⟨-, ⟨hconvert, -⟩ | ⟨hconvert, -⟩⟩ <;> cases hconvert
  alike := fun _ _ _ _ hb => by cases hb
  fits := by
    refine restart_fits (hq ▸ List.mem_cons_self) (.inr rfl) ?_ fun sm he =>
      ⟨relayedSip, relayMsg_edited he, by simp [restartSips]⟩
    rw [hq]
    exact List.forall_mem_cons.2 ⟨⟨rfl, locatedSip, rfl, by simp [restartSips]⟩,
      List.forall_mem_singleton.2 ⟨rfl, sampleRequest, rfl, by simp [restartSips]⟩⟩

/-- The steps of the writer up to the second pass. -/
def locateSteps : List DaemonAct :=
  [.receive, .pass (sampleEnv 0), .unlock, .tidy none, .receive]

/-- The first pass looks the destination up, and the second one sends the message. -/
def relaySteps : List DaemonAct := locateSteps ++ [.pass (sampleEnv 0)]

/-- A queued message as far as the example shows it. -/
structure ShownMsg where
  id : MsgId
  state : SmState
  parsed : Option SipMessage
deriving DecidableEq

def shownQueue (d : Daemon) : List ShownMsg :=
  d.queue.timeSortedList.map fun m => ⟨m.id, m.state, m.parsed⟩

theorem relay_located : (relayDaemon.run restartLibs locateSteps).map
    (fun d => d.queue.timeSortedList) = some [relayMsg, waitingMsg] := by
  decide +kernel

theorem relay_passed : (relayDaemon.run restartLibs relaySteps).map shownQueue =
    some [⟨1, .requestDestinationSipurl, some sampleRequest⟩,
      ⟨0, .askedForMsgDelivery, some relayedSip⟩] := by
  decide +kernel

theorem locate_guarded {d : Daemon} (h : relayDaemon.next restartLibs .receive = some d) :
    d.KeepsTexts restartLibs (.pass (sampleEnv 0)) := by
  obtain rfl := Option.some.inj h
  rintro m ⟨⟩ -
  exact locate_keepsTexts

theorem relay_guarded {d : Daemon} (h : relayDaemon.run restartLibs locateSteps = some d) :
    d.KeepsTexts restartLibs (.pass (sampleEnv 0)) := by
  have hqueue := relay_located
  rw [h] at hqueue
  have hlist : d.queue.timeSortedList = [relayMsg, waitingMsg] := Option.some.inj hqueue
  intro m hm _
  rw [hlist] at hm
  obtain rfl := Option.some.inj hm
  exact relay_keepsTexts hlist

/-- The passes meet the condition, and no datagram arrives. -/
theorem relay_run {init : Daemon → Prop} (h0 : init relayDaemon) {d : Daemon}
    (hrun : relayDaemon.run restartLibs relaySteps = some d) :
    Runs.GuardedRun init (Step restartLibs) (fun d a => d.KeepsTexts restartLibs a ∧
      ∀ env buffer srcaddr, a ≠ .arrive env buffer srcaddr) d := by
  unfold relaySteps at hrun
  rw [run_append] at hrun
  obtain ⟨d3, hlocate, hlast⟩ := Option.bind_eq_some_iff.1 hrun
  obtain ⟨d1, hreceive, hpasses⟩ := Option.bind_eq_some_iff.1 hlocate
  obtain ⟨d2, hpass, hrest⟩ := Option.bind_eq_some_iff.1 hpasses
  obtain ⟨d4, hsent, hend⟩ := Option.bind_eq_some_iff.1 hlast
  obtain rfl := Option.some.inj hend
  have hstart : Runs.GuardedRun init (Step restartLibs) (fun d a => d.KeepsTexts restartLibs a ∧
      ∀ env buffer srcaddr, a ≠ .arrive env buffer srcaddr) relayDaemon := .start h0
  have hreceived := hstart.next (a := DaemonAct.receive) ⟨trivial, fun _ _ _ ha => by cases ha⟩
    hreceive
  have hlooked := hreceived.next (a := DaemonAct.pass (sampleEnv 0))
    ⟨locate_guarded hreceive, fun _ _ _ ha => by cases ha⟩ hpass
  have hready := guardedRun_run hlooked (fun a ha d => ?_) hrest
  · exact hready.next (a := DaemonAct.pass (sampleEnv 0))
      ⟨relay_guarded hlocate, fun _ _ _ ha => by cases ha⟩ hsent
  · simp only [List.mem_cons, List.not_mem_nil, or_false] at ha
    rcases ha with rfl | rfl | rfl <;> exact ⟨trivial, fun _ _ _ ha => by cases ha⟩

theorem restorable_of_keepsTexts_relayed : ∃ d, relayDaemon.run restartLibs relaySteps = some d ∧
    shownQueue d = [⟨1, .requestDestinationSipurl, some sampleRequest⟩,
      ⟨0, .askedForMsgDelivery, some relayedSip⟩] ∧
    ∀ m ∈ d.queue.timeSortedList, Restorable restartLibs m.toShortMsg := by
  obtain ⟨d, hrun, hshown⟩ := Option.map_eq_some_iff.1 relay_passed
  have hr : Runs.GuardedRun (StartAccepted restartLibs) (Step restartLibs)
      (KeepsTexts restartLibs) d := (relay_run relayDaemon_start hrun).mono fun _ _ hg => hg.1
  refine ⟨d, hrun, hshown, fun m hm => ?_⟩
  refine restorable_of_keepsTexts restartLibs (SampleLibs.lawful known_restart []) hr m hm ?_
  have hmem : ⟨m.id, m.state, m.parsed⟩ ∈ shownQueue d := List.mem_map_of_mem hm
  rw [hshown] at hmem
  have hrequests : ∀ x ∈ [ShownMsg.mk 1 .requestDestinationSipurl (some sampleRequest),
      ⟨0, .askedForMsgDelivery, some relayedSip⟩], x.parsed.any SipMessage.isRequest = true := by
    decide
  exact hrequests _ hmem

/-! ## A message that is lost -/

/-- The message is to be delivered at once. -/
def submitDaemon : Daemon where
  queue := { settings := {}, timeSortedList := [submitMsg], nextId := 1 }
  events := []
  reader := .waiting
  writer := .waiting

theorem submitDaemon_start : submitDaemon.StartAccepted restartLibs where
  distinct := ⟨by decide, by decide⟩
  reader := rfl
  writer := rfl
  events := fun _ he => (by cases he)
  fits := Nat.zero_le _
  accepted := fun m hm => by
    obtain rfl := List.mem_singleton.1 hm
    refine ⟨submitMsg, ⟨submitText, _, {}, sampleEnv 0, false, ⟨rfl, ?_, rfl, ?_⟩, rfl,
      submitText_accepted⟩, rfl⟩
    · exact known_restart.noZero submitSip (List.mem_cons_self ..)
    · decide +kernel

/-- The message was sent, and holds the text of the SMS-DELIVER. -/
def IsDelivered (m : ShortMsgPending) : Bool :=
  m.parsed = some deliverSip && !m.parsedIsBetter &&
    m.text = some (SampleLibs.messageText deliverSip)

theorem submitDaemon_run : ((submitDaemon.run restartLibs
    [.receive, .pass (sampleEnv 0)]).bind fun d => d.queue.timeSortedList.head?).any IsDelivered =
      true := by
  decide +kernel

/-- The text of an SMS-DELIVER is not parsed again, so that the message is lost. -/
theorem not_restorable_delivered : ¬ ∀ (lib : Libs), lib.Lawful → ∀ d : Daemon,
    Runs.Reachable (StartAccepted lib) (Step lib) d → ∀ m ∈ d.queue.timeSortedList,
    isRequestMsg m.toShortMsg = true → Restorable lib m.toShortMsg := by
  intro hall
  obtain ⟨m, hm, hdelivered⟩ := (Option.any_eq_true _ _).1 submitDaemon_run
  obtain ⟨d, hrun, hhead⟩ := Option.bind_eq_some_iff.1 hm
  simp only [IsDelivered, Bool.and_eq_true, Bool.not_eq_true', decide_eq_true_eq] at hdelivered
  obtain ⟨⟨hparsed, hbetter⟩, htext⟩ := hdelivered
  have hreach : Runs.Reachable (StartAccepted restartLibs)
      (Step restartLibs) d :=
    reachable_run (.start submitDaemon_start) hrun
  have hrequest : isRequestMsg m.toShortMsg = true := by
    unfold isRequestMsg
    rw [hparsed]
    rfl
  obtain ⟨saved, text, hsaved, hsavedText, hread⟩ := hall restartLibs
    (SampleLibs.lawful known_restart []) d hreach m (SMq.head_mem hhead) hrequest
  unfold ShortMsg.makeTextValid at hsaved
  rw [hbetter, Bool.false_and] at hsaved
  cases hsaved
  obtain rfl := Option.some.inj (hsavedText.symm.trans htext)
  obtain ⟨⟨sm, hparse⟩, -⟩ := hread (ReadLoop.start [] 0 0
    (SampleLibs.messageText deliverSip).length 0 0) {} (sampleEnv 0) [] rfl
  have hrefused : (((ReadLoop.start [] 0 0 (SampleLibs.messageText deliverSip).length 0 0).message
      (SampleLibs.messageText deliverSip) []).toShortMsg.parse
        restartLibs).toOption.any Prod.fst = false := by
    decide +kernel
  rw [hparse] at hrefused
  cases hrefused

end Daemon

end Smqueue

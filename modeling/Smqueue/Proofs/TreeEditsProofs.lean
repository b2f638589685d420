import Smqueue.TreeEdits
import Smqueue.Proofs.SmscProofs
import Smqueue.Proofs.ValidationProofs

/-!
# Proofs: edits of the tree of a message

Every operation of the state machine on an accepted message edits its tree.
-/

namespace Smqueue

open Relation (ReflTransGen)

variable {lib : Libs} {env : Env} {s : Settings} {p p' : SipMessage}

namespace ShortMsg

open SipMessage (HeaderEdit ContentEdit)

variable {m m1 m2 m' : ShortMsg} {body : CString} {ok : Bool} {r r' : SipMessage → SipMessage → Prop}

theorem TreeEdited.refl (m : ShortMsg) : TreeEdited r m m :=
  ⟨rfl, rfl, rfl, id, fun p hp => ⟨p, hp, .refl⟩⟩

theorem TreeEdited.trans (h1 : TreeEdited r m m1) (h2 : TreeEdited r m1 m2) :
    TreeEdited r m m2 := by
  refine ⟨h2.text.trans h1.text, h2.textLength.trans h1.textLength, h2.valid.trans h1.valid,
    fun hb => h2.better (h1.better hb), fun p hp => ?_⟩
  obtain ⟨p1, hp1, he1⟩ := h1.tree p hp
  obtain ⟨p2, hp2, he2⟩ := h2.tree p1 hp1
  exact ⟨p2, hp2, he1.trans he2⟩

theorem TreeEdited.mono (hr : ∀ p p', r p p' → r' p p') (h : TreeEdited r m m') :
    TreeEdited r' m m' := by
  refine ⟨h.text, h.textLength, h.valid, h.better, fun p hp => ?_⟩
  obtain ⟨p', hp', he⟩ := h.tree p hp
  exact ⟨p', hp', ReflTransGen.mono hr _ _ he⟩

/-- The fields that belong to neither form may change. -/
theorem TreeEdited.of_same (htext : m'.text = m.text) (hlen : m'.textLength = m.textLength)
    (hvalid : m'.parsedIsValid = m.parsedIsValid)
    (hbetter : m.parsedIsBetter = true → m'.parsedIsBetter = true) (htree : m'.parsed = m.parsed) :
    TreeEdited r m m' :=
  ⟨htext, hlen, hvalid, hbetter, fun p hp => ⟨p, htree.trans hp, .refl⟩⟩

theorem TreeEdited.of_edits (hp : m.parsed = some p) (he : ReflTransGen r p p') :
    TreeEdited r m { m with parsed := some p' } := by
  refine ⟨rfl, rfl, rfl, id, fun p0 hp0 => ⟨p', rfl, ?_⟩⟩
  rw [hp] at hp0
  obtain rfl := Option.some.inj hp0
  exact he

theorem TreeEdited.parsedWasChanged (h : TreeEdited r m m') :
    TreeEdited r m m'.parsedWasChanged :=
  h.trans (.of_same rfl rfl rfl (fun _ => rfl) rfl)

/-! ## Lookups -/

theorem lookupFromAddress_edited {next : SmState}
    (h : m.lookupFromAddress lib env s = .ok (next, m')) : TreeEdited (HeaderEdit lib) m m' := by
  unfold lookupFromAddress at h
  obtain ⟨p, hp, h⟩ := Except.bind_eq_ok.1 h
  obtain ⟨f, -, h⟩ := Except.bind_eq_ok.1 h
  obtain ⟨url, -, h⟩ := Except.bind_eq_ok.1 h
  have hvia : TreeEdited (HeaderEdit lib) m { m with parsed := some (SMq.appendVia lib s p) } :=
    .of_edits (deref_eq_ok hp) (.single .appendVia)
  split at h
  · cases h
    exact .refl _
  · dsimp only at h
    split at h
    · cases h
      exact .refl _
    · split at h
      · cases h
        exact .refl _
      · split at h
        · cases h
          exact hvia
        · split at h
          · cases h
            exact hvia
          · split at h
            · cases h
              exact hvia
            · rename_i newfrom hnew
              cases h
              have hfrom : ReflTransGen (HeaderEdit lib) (SMq.appendVia lib s p)
                  (setFromDisplayname (setFromUsername (SMq.appendVia lib s p) newfrom) newfrom) :=
                (ReflTransGen.single .setFromUsername).tail .setFromDisplayname
              exact (hvia.trans (.of_edits rfl hfrom)).parsedWasChanged

theorem lookupUriImsi_edited {next : Option SmState} (hv : m.parsedIsValid = true)
    (h : m.lookupUriImsi lib env s = .ok (next, m')) : TreeEdited (HeaderEdit lib) m m' := by
  unfold lookupUriImsi at h
  rw [parse_of_valid hv] at h
  obtain ⟨⟨ok, m1⟩, h1, h⟩ := Except.bind_eq_ok.1 h
  cases h1
  obtain ⟨p, hp, h⟩ := Except.bind_eq_ok.1 h
  obtain ⟨uri, -, h⟩ := Except.bind_eq_ok.1 h
  split at h
  · cases h
    exact .refl _
  · dsimp only at h
    split at h
    · cases h
      exact .refl _
    · split at h
      · split at h
        · cases h
          exact (TreeEdited.of_edits (deref_eq_ok hp)
            (.single .setUriUsername)).parsedWasChanged
        · split at h
          · cases h
            exact .refl _
          · obtain ⟨user?, -, h⟩ := Except.bind_eq_ok.1 h
            obtain ⟨sender, -, h⟩ := Except.bind_eq_ok.1 h
            cases h
            cases env.hlr.mapCLIDGlobal sender with
            | some newfrom =>
              exact (TreeEdited.of_edits (deref_eq_ok hp) (.single .setFromUsername)).trans
                (.of_same rfl rfl rfl id rfl)
            | none =>
              exact (TreeEdited.of_edits (deref_eq_ok hp) .refl).trans (.of_same rfl rfl rfl id rfl)
      · split at h
        · cases h
          exact .refl _
        · cases h
          exact .refl _

theorem lookupUriHostport_edited {next : SmState} (hv : m.parsedIsValid = true)
    (h : m.lookupUriHostport lib env s = .ok (next, m')) : TreeEdited (HeaderEdit lib) m m' := by
  unfold lookupUriHostport at h
  rw [parse_of_valid hv] at h
  obtain ⟨⟨ok, m1⟩, h1, h⟩ := Except.bind_eq_ok.1 h
  cases h1
  obtain ⟨p, hp, h⟩ := Except.bind_eq_ok.1 h
  obtain ⟨uri, -, h⟩ := Except.bind_eq_ok.1 h
  split at h
  · cases h
    exact .refl _
  · rename_i imsi hu
    let m2 := if needsTranslation imsi then m.convertMessage s.globalRelayContentType else m
    have hconvert : TreeEdited (HeaderEdit lib) m m2 := by
      by_cases hn : needsTranslation imsi = true
      · rw [show m2 = m.convertMessage s.globalRelayContentType from if_pos hn]
        exact .of_same rfl rfl rfl id rfl
      · rw [show m2 = m from if_neg hn]
        exact .refl m
    have hp2 : m2.parsed = some p := by
      by_cases hn : needsTranslation imsi = true
      · rw [show m2 = m.convertMessage s.globalRelayContentType from if_pos hn]
        exact deref_eq_ok hp
      · rw [show m2 = m from if_neg hn]
        exact deref_eq_ok hp
    let p1 := editUri p fun u =>
      { u with host := some (destination env s imsi).1, port := some (destination env s imsi).2 }
    have hend : ∀ c : CallId, TreeEdited (HeaderEdit lib) m ({ m2 with
        parsed := some { p1 with callId := some (renewCallId s env.callNumber c) } } :
          ShortMsg).parsedWasChanged := by
      intro c
      have h1 : HeaderEdit lib p p1 := .setUriHostport
      have h2 : HeaderEdit lib p1 { p1 with callId := some (renewCallId s env.callNumber c) } :=
        .renewCallId
      exact (hconvert.trans (.of_edits hp2 ((ReflTransGen.single h1).tail h2))).parsedWasChanged
    obtain ⟨uri2, -, h⟩ := Except.bind_eq_ok.1 h
    obtain ⟨host, -, h⟩ := Except.bind_eq_ok.1 h
    dsimp only at h
    split at h
    · obtain ⟨c, -, h⟩ := Except.bind_eq_ok.1 h
      obtain ⟨number, -, h⟩ := Except.bind_eq_ok.1 h
      cases h
      exact hend _
    · obtain ⟨c, -, h⟩ := Except.bind_eq_ok.1 h
      obtain ⟨number, -, h⟩ := Except.bind_eq_ok.1 h
      cases h
      exact hend _

/-! ## Packing -/

theorem packTpdu_edited (h : m.packTpdu lib env = .ok m') : TreeEdited ContentEdit m m' := by
  obtain ⟨rp, sheet, sip, -, -, hsip, ⟨-, rfl⟩ | ⟨-, text, -, rfl⟩⟩ := packTpdu_steps h
  · exact (TreeEdited.refl m).parsedWasChanged
  · exact (TreeEdited.of_edits hsip (.single .setBody)).parsedWasChanged

theorem createSmsDelivery_edited {ud : TLUserData}
    (h : m.createSmsDelivery lib env body ud = .ok m') : TreeEdited ContentEdit m m' := by
  obtain ⟨sip, d, m1, -, -, -, hpack, rfl⟩ := createSmsDelivery_steps h
  have hstart : ∀ rp tl, TreeEdited ContentEdit m { m with rpData := some rp, tlMessage := some tl } :=
    fun _ _ => .of_same rfl rfl rfl id rfl
  exact ((hstart _ _).trans (packTpdu_edited hpack)).trans (.of_same rfl rfl rfl id rfl)

theorem packTextToTpdu_edited (h : m.packTextToTpdu lib env body = .ok (ok, m')) :
    TreeEdited ContentEdit m m' := by
  obtain ⟨m1, sip, sip', h1, hsip, hsip', rfl⟩ := packTextToTpdu_steps h
  exact (createSmsDelivery_edited h1).trans
    (TreeEdited.of_edits hsip (.single (.setVnd3gppSms hsip'))).parsedWasChanged

theorem packPlainText_edited (h : m.packPlainText body = .ok (ok, m')) : TreeEdited ContentEdit m m' := by
  obtain ⟨sip, sip', hsip, hsip', rfl⟩ := packPlainText_steps h
  have hedits : ReflTransGen (ContentEdit) sip sip' :=
    (ReflTransGen.single .setBody).tail (.setTextPlain hsip')
  exact (TreeEdited.of_edits hsip hedits).trans (.of_same rfl rfl rfl (fun _ => rfl) rfl)

theorem recodeTpdu_edited (h : m.recodeTpdu lib env body = .ok (ok, m')) :
    TreeEdited ContentEdit m m' := by
  obtain ⟨-, rfl⟩ | ⟨-, s, -, h1⟩ := recodeTpdu_steps h
  · exact .refl _
  · exact createSmsDelivery_edited h1

theorem packAs_edited (h : m.packAs lib env body = .ok (ok, m')) : TreeEdited ContentEdit m m' := by
  cases packAs_cases h with
  | plain _ h => exact packPlainText_edited h
  | encode _ h => exact packTextToTpdu_edited h
  | recode _ _ _ h => exact recodeTpdu_edited h
  | packed => exact .refl _
  | unsupported => exact .refl _

theorem packSmsForDelivery_edited (hv : m.parsedIsValid = true)
    (h : m.packSmsForDelivery lib env = .ok (ok, m')) : TreeEdited ContentEdit m m' := by
  obtain ⟨-, -, rfl⟩ | ⟨-, body, m1, flag, -, hpack, rfl⟩ := packSmsForDelivery_steps hv h
  · exact .refl _
  · exact (packAs_edited hpack).trans (.of_same rfl rfl rfl id rfl)

/-! ## All operations -/

theorem sendSIP_edited {address : CString} (h : SMq.sendSIP m address = .ok m') :
    TreeEdited (HeaderEdit lib) m m' := by
  unfold SMq.sendSIP at h
  obtain ⟨p, hp, h⟩ := Except.bind_eq_ok.1 h
  obtain ⟨p', hp', h⟩ := Except.bind_eq_ok.1 h
  cases h
  have hedits : ReflTransGen (HeaderEdit lib) p p' :=
    (ReflTransGen.single .setUriUsername).tail (.setToForSmsc hp')
  exact (TreeEdited.of_edits (deref_eq_ok hp) hedits).parsedWasChanged

theorem makeTextValid_ok (h : m.makeTextValid lib = .ok m') :
    m' = m ∨ ∃ p, m.parsedIsValid = true ∧ m.parsed = some p ∧ m' = { m with
      textLength := (lib.messageToStr p).length % 2 ^ 16
      text := some ((lib.messageToStr p).take ((lib.messageToStr p).length % 2 ^ 16))
      parsedIsBetter := false } := by
  unfold makeTextValid at h
  split at h
  · rename_i hb
    rw [Bool.and_eq_true] at hb
    obtain ⟨p, hp, h⟩ := Except.bind_eq_ok.1 h
    cases h
    exact .inr ⟨p, hb.2, deref_eq_ok hp, by rw [hb.2]⟩
  · cases h
    exact .inl rfl

/-- An accepted message keeps its tree when its text is made valid, and is not parsed again. -/
theorem Refresh.tree (hv : m.parsedIsValid = true) (h : Refresh lib m m') :
    m'.parsedIsValid = true ∧ m'.parsed = m.parsed := by
  rcases h with h | ⟨ok, h⟩
  · rcases makeTextValid_ok h with rfl | ⟨p, -, hp, rfl⟩
    · exact ⟨hv, rfl⟩
    · exact ⟨hv, rfl⟩
  · rw [parse_of_valid hv] at h
    cases h
    exact ⟨hv, rfl⟩

end ShortMsg

/-- The state machine edits the tree of a head that has one. -/
theorem SMq.HeadEdit.treeEdited {q : SMq} {h : ShortMsgPending} {sm : ShortMsg}
    (hv : h.parsedIsValid = true) (he : q.HeadEdit lib env h sm) :
    ShortMsg.TreeEdited (SipMessage.Edit lib) h.toShortMsg sm := by
  cases he with
  | lookupFromAddress _ hl =>
    exact (ShortMsg.lookupFromAddress_edited hl).mono fun _ _ => .inl
  | lookupUriImsi _ hl => exact (ShortMsg.lookupUriImsi_edited hv hl).mono fun _ _ => .inl
  | lookupUriHostport _ hl => exact (ShortMsg.lookupUriHostport_edited hv hl).mono fun _ _ => .inl
  | packSmsForDelivery _ hp =>
    exact (ShortMsg.packSmsForDelivery_edited hv hp).mono fun _ _ => .inr
  | sendSIPInit _ _ _ hl => exact (ShortMsg.sendSIP_edited hl).mono fun _ _ => .inl

/-! ## What the edits of a tree keep -/

/-- The trees have the same tag, and both are requests or both are responses. -/
structure SipMessage.SameTag (p p' : SipMessage) : Prop where
  tag : ShortMsgPending.tagOf p' = ShortMsgPending.tagOf p
  isRequest : p'.isRequest = p.isRequest

theorem SipMessage.HeaderEdit.sameTag (h : HeaderEdit lib p p') : SameTag p p' := by
  cases h with
  | setFromUsername =>
    refine ⟨?_, rfl⟩
    unfold ShortMsgPending.tagOf ShortMsgPending.fromTag ShortMsg.setFromUsername
    cases p.fromHeader <;> rfl
  | setFromDisplayname =>
    refine ⟨?_, rfl⟩
    unfold ShortMsgPending.tagOf ShortMsgPending.fromTag ShortMsg.setFromDisplayname
    cases p.fromHeader <;> rfl
  | setToForSmsc h =>
    unfold SMq.setToForSmsc at h
    obtain ⟨toHeader, -, h⟩ := Except.bind_eq_ok.1 h
    obtain ⟨url, -, h⟩ := Except.bind_eq_ok.1 h
    obtain ⟨uri, -, h⟩ := Except.bind_eq_ok.1 h
    obtain ⟨user, -, h⟩ := Except.bind_eq_ok.1 h
    cases h
    exact ⟨rfl, rfl⟩
  | _ => exact ⟨rfl, rfl⟩

/-- The content type and the text of a body are all that an edit of the content changes. -/
theorem SipMessage.ContentEdit.same (h : ContentEdit p p') :
    ∃ ct bodies, p' = { p with contentType := ct, bodies := bodies } ∧
      bodies.length = p.bodies.length ∧
      (ct = p.contentType ∨ ct = some ⟨some (str "text"), some (str "plain")⟩ ∨
        ct = some ⟨some (str "application"), some (str "vnd.3gpp.sms")⟩) := by
  cases h with
  | @setBody body =>
    unfold ShortMsg.setBody
    split
    · exact ⟨p.contentType, p.bodies, rfl, rfl, .inl rfl⟩
    · rename_i b bs hb
      exact ⟨p.contentType, body :: bs, rfl, by rw [hb]; rfl, .inl rfl⟩
  | setTextPlain h => exact ⟨_, _, ShortMsg.setContentType_ok h, rfl, .inr (.inl rfl)⟩
  | setVnd3gppSms h => exact ⟨_, _, ShortMsg.setContentType_ok h, rfl, .inr (.inr rfl)⟩

theorem SipMessage.Edit.sameTag (h : Edit lib p p') : SameTag p p' := by
  rcases h with h | h
  · exact h.sameTag
  · obtain ⟨ct, bodies, rfl, -⟩ := h.same
    exact ⟨rfl, rfl⟩

theorem sameTag_of_edits (h : ReflTransGen (SipMessage.Edit lib) p p') : SipMessage.SameTag p p' := by
  induction h with
  | refl => exact ⟨rfl, rfl⟩
  | tail _ he ih => exact ⟨he.sameTag.tag.trans ih.tag, he.sameTag.isRequest.trans ih.isRequest⟩

end Smqueue

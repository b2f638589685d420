import Smqueue.BounceLoops
import Smqueue.Proofs.DelaysProofs
import Smqueue.Proofs.SentContentProofs

/-!
# Proofs: bounces of bounces

A bounce is sent from the number for bounces, and none of the states that it can be in has a lookup
that gives it another sender.
-/

namespace Smqueue

open Runs (GuardedRun)

variable {lib : Libs} {env : Env} {q q1 q' : SMq} {h x : ShortMsgPending} {code : CString} {i : MsgId}

/-! ## The sender of a message -/

/-- The message is from the given number, and not an encoded one. -/
structure ShortMsg.IsBounce (code : CString) (m : ShortMsg) : Prop where
  valid : m.parsedIsValid = true
  content : m.contentType ≠ .vnd3gppSms
  tree : ∃ p recipient, m.parsed = some p ∧ p.fromUsername = .ok (some code) ∧
    p.toUsername = .ok (some recipient)

namespace ShortMsg

variable {m m' : ShortMsg} {ok : Bool}

/-- The tree may have changed, but not its sender and its recipient. -/
theorem IsBounce.edited (hb : m.IsBounce code) (hv : m'.parsedIsValid = m.parsedIsValid)
    (hct : m'.contentType = m.contentType)
    (ht : ∀ p, m.parsed = some p → ∃ p', m'.parsed = some p' ∧ p'.fromHeader = p.fromHeader ∧
      p'.toHeader = p.toHeader) : m'.IsBounce code := by
  obtain ⟨p, recipient, hp, hfrom, hto⟩ := hb.tree
  obtain ⟨p', hp', hf, ht'⟩ := ht p hp
  refine ⟨hv.trans hb.valid, hct ▸ hb.content, p', recipient, hp', ?_, ?_⟩
  · unfold SipMessage.fromUsername
    rw [hf]
    exact hfrom
  · unfold SipMessage.toUsername
    rw [ht']
    exact hto

theorem IsBounce.refresh (hb : m.IsBounce code) (hr : Refresh lib m m') : m'.IsBounce code := by
  have htree := Refresh.tree hb.valid hr
  refine hb.edited (htree.1.trans hb.valid.symm) ?_ fun p hp => ⟨p, htree.2.trans hp, rfl, rfl⟩
  rcases hr with hr | ⟨ok, hr⟩
  · rcases makeTextValid_ok hr with rfl | ⟨p, -, -, rfl⟩ <;> rfl
  · rw [parse_of_valid hb.valid] at hr
    cases hr
    rfl

theorem IsBounce.lookupUriImsi {s : Settings} {next : Option SmState} (hb : m.IsBounce code)
    (hc : env.hlr.mapCLIDGlobal code = none)
    (hl : m.lookupUriImsi lib env s = .ok (next, m')) : m'.IsBounce code := by
  obtain ⟨p, recipient, hp, hfrom, hto⟩ := hb.tree
  unfold ShortMsg.lookupUriImsi at hl
  rw [parse_of_valid hb.valid] at hl
  obtain ⟨⟨ok, m1⟩, h1, hl⟩ := Except.bind_eq_ok.1 hl
  cases h1
  obtain ⟨sip, hsip, hl⟩ := Except.bind_eq_ok.1 hl
  obtain rfl := Option.some.inj (hp.symm.trans (deref_eq_ok hsip))
  obtain ⟨uri, -, hl⟩ := Except.bind_eq_ok.1 hl
  split at hl
  · cases hl
    exact hb
  · dsimp only at hl
    split at hl
    · cases hl
      exact hb
    · split at hl
      · split at hl
        · cases hl
          exact ⟨hb.valid, hb.content, _, recipient, rfl, hfrom, hto⟩
        · split at hl
          · cases hl
            exact hb
          · rw [hfrom] at hl
            change Except.ok _ = _ at hl
            rw [hc] at hl
            cases hl
            exact ⟨hb.valid, hb.content, p, recipient, rfl, hfrom, hto⟩
      · split at hl <;> cases hl <;> exact hb

theorem IsBounce.lookupUriHostport {s : Settings} {next : SmState} (hb : m.IsBounce code)
    (hl : m.lookupUriHostport lib env s = .ok (next, m')) : m'.IsBounce code := by
  obtain ⟨p, recipient, hp, hfrom, hto⟩ := hb.tree
  unfold ShortMsg.lookupUriHostport at hl
  rw [parse_of_valid hb.valid] at hl
  obtain ⟨⟨ok, m1⟩, h1, hl⟩ := Except.bind_eq_ok.1 hl
  cases h1
  obtain ⟨sip, hsip, hl⟩ := Except.bind_eq_ok.1 hl
  obtain rfl := Option.some.inj (hp.symm.trans (deref_eq_ok hsip))
  obtain ⟨uri, -, hl⟩ := Except.bind_eq_ok.1 hl
  split at hl
  · cases hl
    exact hb
  · rename_i imsi hu
    have hend : ∀ (u : SipUri → SipUri) (c : CallId), IsBounce code ({ (if needsTranslation imsi then
        m.convertMessage s.globalRelayContentType else m) with
          parsed := some { editUri p u with callId := some (renewCallId s env.callNumber c) } } :
            ShortMsg).parsedWasChanged := by
      intro u c
      by_cases hn : needsTranslation imsi = true
      · rw [if_pos hn]
        exact ⟨hb.valid, hb.content, _, recipient, rfl, hfrom, hto⟩
      · rw [if_neg hn]
        exact ⟨hb.valid, hb.content, _, recipient, rfl, hfrom, hto⟩
    obtain ⟨uri2, -, hl⟩ := Except.bind_eq_ok.1 hl
    obtain ⟨host, -, hl⟩ := Except.bind_eq_ok.1 hl
    dsimp only at hl
    split at hl
    · obtain ⟨c, -, hl⟩ := Except.bind_eq_ok.1 hl
      obtain ⟨number, -, hl⟩ := Except.bind_eq_ok.1 hl
      cases hl
      exact hend _ _
    · obtain ⟨c, -, hl⟩ := Except.bind_eq_ok.1 hl
      obtain ⟨number, -, hl⟩ := Except.bind_eq_ok.1 hl
      cases hl
      exact hend _ _

/-! ## Packing -/

theorem packAs_contentType {body : CString} (hp : m.packAs lib env body = .ok (ok, m')) :
    m'.contentType = m.contentType := by
  cases packAs_cases hp with
  | plain _ h =>
    obtain ⟨sip, sip', -, -, rfl⟩ := packPlainText_steps h
    rfl
  | encode _ h =>
    obtain ⟨m1, sip, sip', h1, -, -, rfl⟩ := packTextToTpdu_steps h
    exact (createSmsDelivery_fields h1).1
  | recode _ _ _ h =>
    obtain ⟨-, rfl⟩ | ⟨-, s, -, h1⟩ := recodeTpdu_steps h
    · rfl
    · exact (createSmsDelivery_fields h1).1
  | packed => rfl
  | unsupported => rfl

/-- The edits of the content leave the addresses alone. -/
theorem addresses_of_edits {p p' : SipMessage} (he : Relation.ReflTransGen SipMessage.ContentEdit p p') :
    p'.fromHeader = p.fromHeader ∧ p'.toHeader = p.toHeader := by
  induction he with
  | refl => exact ⟨rfl, rfl⟩
  | tail _ hedit ih =>
    obtain ⟨ct, bodies, rfl, -⟩ := hedit.same
    exact ih

theorem IsBounce.packSmsForDelivery (hb : m.IsBounce code)
    (hp : m.packSmsForDelivery lib env = .ok (ok, m')) : m'.IsBounce code := by
  have hedited := packSmsForDelivery_edited hb.valid hp
  refine hb.edited hedited.valid ?_ fun p htree => ?_
  · obtain ⟨-, -, rfl⟩ | ⟨-, body, m1, flag, -, hpack, rfl⟩ := packSmsForDelivery_steps hb.valid hp
    · rfl
    · have hcontent := packAs_contentType hpack
      exact hcontent
  · obtain ⟨p', hp', hedits⟩ := hedited.tree p htree
    exact ⟨p', hp', addresses_of_edits hedits⟩

end ShortMsg

theorem ShortMsg.IsBounce.bounceText_eq {m : ShortMsgPending} {errstr : CString}
    (hb : m.IsBounce code) (hc : env.config.bounceCode = code) :
    SMq.bounceText env m errstr = .ok none := by
  obtain ⟨p, recipient, hp, hfrom, hto⟩ := hb.tree
  obtain ⟨text, htext⟩ : ∃ text, m.toShortMsg.getText = .ok text := by
    unfold ShortMsg.getText
    cases hct : m.contentType with
    | textPlain =>
      rw [hp]
      exact ⟨_, rfl⟩
    | vnd3gppSms => exact absurd hct hb.content
    | unsupportedContent => exact ⟨_, rfl⟩
  unfold SMq.bounceText
  rw [hp, htext]
  change (p.toUsername >>= fun _ => _) = _
  rw [hto]
  change (p.fromUsername >>= fun _ => _) = _
  rw [hfrom]
  change (pure (if env.config.bounceCode = code then none else _) : Except Fault _) = _
  rw [if_pos hc]
  rfl

/-- A message from the number for bounces is not bounced. -/
theorem ShortMsg.IsBounce.not_bounced {m : ShortMsgPending} (hb : m.IsBounce code)
    (hc : env.config.bounceCode = code) (q : SMq) (errstr : CString) :
    q.bounceMessage lib env m errstr = .ok (.noState, q) := by
  unfold SMq.bounceMessage
  rw [hb.bounceText_eq hc]
  rfl

/-! ## The bounce when it is built -/

namespace SMq

/-- A message that was built from a tree was printed and parsed, and has passed the checks. -/
theorem finishMsg_parsed {s : Settings} {x x' : ShortMsgPending} {p : SipMessage}
    (hv : x.parsedIsValid = true) (hbetter : x.parsedIsBetter = true) (hp : x.parsed = some p)
    (hf : finishMsg lib env s x = .ok (0, x')) : ∃ p', x'.parsedIsValid = true ∧
      x'.parsed = some p' ∧ ShortMsgPending.checkParsed p' = 0 ∧ ParsedContent x'.toShortMsg p' ∧
      ∃ n, n = (lib.messageToStr p).length % 2 ^ 16 ∧
        lib.messageParse (ShortMsg.buffer ((lib.messageToStr p).take n) n) = some p' := by
  unfold finishMsg at hf
  obtain ⟨sm, hsm, hf⟩ := Except.bind_eq_ok.1 hf
  obtain ⟨sm', hsm', hf⟩ := Except.bind_eq_ok.1 hf
  unfold ShortMsg.makeTextValid at hsm
  rw [hbetter, hv, if_pos (by rfl), hp] at hsm
  cases hsm
  unfold ShortMsg.unparse at hsm'
  dsimp only at hsm'
  rw [if_neg (by simp)] at hsm'
  cases hsm'
  obtain ⟨sm'', hvalid⟩ := ShortMsgPending.validated_of_ok hf
  obtain ⟨p', hp', hcheck, -⟩ := hvalid.tree
  have hparse := hvalid.parse
  obtain ⟨relay, tag, hash, rfl⟩ := hvalid.same
  cases hsip : lib.messageParse (ShortMsg.buffer _ _) with
  | none =>
    rw [ShortMsg.parse_of_rejected rfl rfl hsip] at hparse
    cases hparse
  | some sip =>
    rw [ShortMsg.parse_of_accepted rfl rfl hsip] at hparse
    have hcontent := parseContent_content rfl rfl hparse
    obtain ⟨⟨ct, rp, tl, rfl⟩, -⟩ := ShortMsg.parseContent_ok hparse
    obtain rfl := Option.some.inj hp'
    exact ⟨sip, rfl, rfl, hcheck, ⟨hcontent.plain, hcontent.vnd, hcontent.unsupported,
      hcontent.submit⟩, _, rfl, hsip⟩

theorem replySip_sentBy (hl : lib.KeepsSender code) {s : Settings} {sip : SipMessage}
    {recipient text : CString} : (replySip lib env s sip code recipient text).SentBy code :=
  fun f u hf hu => hl.line s.myIpaddress (cseqNumber sip) f u hf hu

/-- The sender of a tree that passes the checks is there. -/
theorem fromUsername_of_sentBy {p : SipMessage} (hs : p.SentBy code)
    (hcheck : ShortMsgPending.checkParsed p = 0) : p.fromUsername = .ok (some code) := by
  obtain ⟨-, ⟨f, u, hf, hu⟩, -⟩ := ShortMsgPending.parts_of_checkParsed hcheck
  unfold SipMessage.fromUsername
  rw [hf]
  change (deref f.url >>= fun _ => _) = _
  rw [hu]
  exact congrArg Except.ok (hs f u hf hu)

theorem originateMsg_isBounce {recipient text : CString} {m : ShortMsgPending}
    (hl : lib.KeepsSender code)
    (ho : originateMsg lib env q code recipient text = .ok (q1, 0, m)) : m.IsBounce code := by
  unfold originateMsg at ho
  dsimp only at ho
  obtain ⟨sip, -, ho⟩ := Except.bind_eq_ok.1 ho
  obtain ⟨⟨errcode, response⟩, htag, ho⟩ := Except.bind_eq_ok.1 ho
  obtain ⟨⟨errcode', response'⟩, hf, ho⟩ := Except.bind_eq_ok.1 ho
  cases ho
  obtain ⟨⟨tag, hash, rfl⟩, -⟩ := ShortMsgPending.setQtag_ok rfl htag
  obtain ⟨p', hvalid, hp', hcheck, hcontent, n, hn, hparse⟩ := finishMsg_parsed rfl rfl rfl hf
  obtain ⟨hsent, hct⟩ := hl.text _ p' n (replySip_sentBy hl) hn hparse
  obtain ⟨-, -, t, u, recipient', ht, hu, hrecipient⟩ :=
    ShortMsgPending.parts_of_checkParsed hcheck
  refine ⟨hvalid, fun hk => absurd (hcontent.vnd hk) (hct rfl), p', recipient', hp',
    fromUsername_of_sentBy hsent hcheck, ?_⟩
  unfold SipMessage.toUsername
  rw [ht]
  change (deref t.url >>= fun _ => _) = _
  rw [hu]
  exact congrArg Except.ok hrecipient

/-! ## The states of a bounce -/

/-- A bounce is in one of these states, in which its sender is not looked up. -/
def carriesBounce : SmState → Bool
  | .noState | .deleteMeState | .requestDestinationImsi | .requestDestinationSipurl
  | .requestMsgDelivery | .askedForMsgDelivery | .awaitingTryMsgDelivery => true
  | _ => false

theorem carriesBounce_of_calls {s : SmState} (hs : carriesBounce s = true) :
    ∀ c ∈ s.calls, carriesBounce c.2 = true := by
  cases s <;> first | cases hs; done | decide

/-- No step of a pass takes a bounce to another state. -/
theorem Turn.carriesBounce {e e' : Place} (hhead : h.id = i → carriesBounce h.state = true)
    (he : e.id = i → carriesBounce e.state = true) (ht : q.Turn lib env h e e') :
    e'.id = i → carriesBounce e'.state = true := by
  intro hid
  cases ht with
  | call hid' hs _ => exact carriesBounce_of_calls (hhead (hid'.symm.trans hid)) _ hs
  | reset _ _ hs => rcases hs with rfl | rfl <;> rfl
  | delayed _ _ _ => exact he hid
  | postponed _ _ => exact he hid
  | rejected _ _ hs => rcases hs with rfl | rfl <;> rfl
  | redirected _ _ => rfl
  | restarted _ hu =>
    have hstate := he hid
    rename_i hr
    cases hst : e.state <;> rw [hst] at hu hstate <;> first | cases hu; done | cases hstate

theorem Inserted.carriesBounce {e : Place} (he : q.Inserted env e) :
    SMq.carriesBounce e.state = true := by
  obtain ⟨rfl | rfl | rfl⟩ := he <;> rfl

/-- The state machine keeps the sender of a bounce at the head. -/
theorem HeadEdit.isBounce {sm : ShortMsg} (hc : env.hlr.mapCLIDGlobal code = none)
    (hs : carriesBounce h.state = true) (hb : h.IsBounce code) (he : q.HeadEdit lib env h sm) :
    sm.IsBounce code := by
  cases he with
  | lookupFromAddress hl _ =>
    cases hst : h.state <;> rw [hst] at hl hs <;> first | cases hl; done | cases hs
  | lookupUriImsi _ hl => exact hb.lookupUriImsi hc hl
  | lookupUriHostport _ hl => exact hb.lookupUriHostport hl
  | packSmsForDelivery _ hp => exact hb.packSmsForDelivery hp
  | sendSIPInit hst _ _ _ =>
    rw [hst] at hs
    cases hs

theorem Change.isBounce {m m' : ShortMsgPending} (hc : env.hlr.mapCLIDGlobal code = none)
    (hhead : h.id = i → carriesBounce h.state = true) (hb : m.id = i → m.IsBounce code)
    (hch : q.Change lib env h m m') : m'.id = i → m'.IsBounce code := by
  intro hid
  have hm : m.IsBounce code := hb (hch.same.1.symm.trans hid)
  cases hch with
  | refresh hr => exact hm.refresh hr
  | edit hid' hsm he =>
    have hi : h.id = i := hid'.symm.trans hid
    rw [hsm] at hm
    exact he.isBounce hc (hhead hi) hm
  | tag _ ht =>
    obtain ⟨⟨tag, hash, rfl⟩, -⟩ := ShortMsgPending.setQtag_ok hm.valid ht
    exact hm
  | move _ => exact hm

/-- The messages with the identity `i` are bounces, in states of bounces. -/
def HoldsBounce (code : CString) (i : MsgId) (q : SMq) : Prop :=
  ∀ m ∈ q.timeSortedList, m.id = i → m.IsBounce code ∧ carriesBounce m.state = true

/-- So they are after a pass, if all that the pass originates with that identity are bounces. -/
theorem processTimeout_holdsBounce (hd : q.Distinct) (hc : env.hlr.mapCLIDGlobal code = none)
    (hq : q.processTimeout lib env = .ok q') (hb : HoldsBounce code i q)
    (hnew : q.nextId = i → ∀ h ∈ q.timeSortedList.head?, h.nextActionTime ≤ env.clock.entry →
      ∀ m, q.Originated lib env h m → m.IsBounce code) : HoldsBounce code i q' := by
  have hstates : ∀ e ∈ q'.agenda, e.id = i → carriesBounce e.state = true := by
    have hold : ∀ e ∈ q.agenda, e.id = i → carriesBounce e.state = true := by
      intro e he hid
      obtain ⟨m, hm, rfl⟩ := List.mem_map.1 he
      exact (hb m hm hid).2
    rcases processTimeout_turned hd hq with rfl | ⟨h, hhead, -, ht⟩
    · exact hold
    · exact (ht.along hold (fun e he _ => he.carriesBounce)
        fun e e' he hee => hee.carriesBounce (fun hid => (hb h (head_mem hhead) hid).2) he).2
  intro m' hm' hid
  refine ⟨?_, hstates _ (mem_agenda hm') hid⟩
  revert hid
  rcases processTimeout_outcome hd hq with rfl | ⟨h, hhead, hdue, -, ho⟩
  · exact fun hid => (hb m' hm' hid).1
  · have hh := head_mem hhead
    have hkeeps : ∀ l, (∀ m ∈ l, m.id = i → m.IsBounce code) →
        Population.Evolves (q.Change lib env h) (q.Incoming lib env h) l q'.timeSortedList →
          m'.id = i → m'.IsBounce code := by
      intro l hl he
      refine (he.along hl (fun x hx hid => ?_) fun m m' hm hch => ?_).2 m' hm'
      · have hfresh := (hx.isNew hd hh).1
        cases hx with
        | inserted ho =>
          have hbounce := hnew (hfresh.symm.trans hid) h hhead hdue _ ho
          exact hbounce
      · exact hch.isBounce hc (fun hid => (hb h hh hid).2) hm
    cases ho with
    | quiet he => exact hkeeps _ (fun m hm hid => (hb m hm hid).1) he.messages
    | attempt _ he _ =>
      refine hkeeps _ (fun m hm hid => ?_) he
      rcases mem_attempted hm with rfl | ⟨hm, -⟩
      · exact (hb h hh hid).1
      · exact (hb m hm hid).1

theorem passOrigin_of_passBounces (hb : q.passBounces lib env = true) :
    q.passOrigin lib env ≠ none := by
  obtain ⟨h, hhead, hb⟩ := (Option.any_eq_true _ _).1 hb
  rw [Bool.and_eq_true, decide_eq_true_eq] at hb
  obtain ⟨hdue, hb⟩ := hb
  unfold passOrigin
  rw [hhead, Option.bind_some, if_neg (not_lt.2 hdue)]
  unfold dispatchOrigin
  split at hb
  · rename_i hst
    rw [Bool.and_eq_true] at hb
    rw [hst]
    dsimp only
    rw [if_pos hb.1]
    exact Option.isSome_iff_ne_none.1 hb.2
  · rename_i hst
    rw [hst]
    exact Option.isSome_iff_ne_none.1 hb
  · cases hb

/-- What a pass that bounces a message originates is the bounce. -/
theorem Originated.isBounce {m : ShortMsgPending} (hl : lib.KeepsSender code)
    (hc : env.config.bounceCode = code) (hhead : q.timeSortedList.head? = some h)
    (hb : q.passBounces lib env = true) (ho : q.Originated lib env h m) : m.IsBounce code := by
  subst hc
  have hpath : h.state = .requestDestinationImsi ∨
      h.state = .initialState ∧ respondsTo h.toShortMsg = true := by
    unfold passBounces at hb
    rw [hhead] at hb
    obtain ⟨-, hb⟩ := Bool.and_eq_true _ _ ▸ hb
    split at hb
    · exact .inr ⟨‹_›, (Bool.and_eq_true _ _ ▸ hb).1⟩
    · exact .inl ‹_›
    · cases hb
  have hrequest : h.state = .initialState → isTextMessage h.toShortMsg = true → False := by
    intro hs ht
    rcases hpath with hpath | ⟨-, hresp⟩
    · rw [hs] at hpath
      cases hpath
    · obtain ⟨p, hp, hpr⟩ := (Option.any_eq_true _ _).1 hresp
      obtain ⟨p', hp', hpt⟩ := (Option.any_eq_true _ _).1 ht
      obtain rfl := Option.some.inj (hp.symm.trans hp')
      unfold SipMessage.isRequest at hpt
      rw [hpr] at hpt
      cases hpt
  cases ho with
  | reply hs hm _ _ _ _ _ => exact (hrequest hs hm).elim
  | notLocated _ _ _ ho => exact originateMsg_isBounce hl ho
  | answered _ _ _ _ ho => exact originateMsg_isBounce hl ho
  | registered hs hm _ _ _ _ => exact (hrequest hs hm).elim
  | register hs _ =>
    rcases hpath with hpath | ⟨hpath, -⟩ <;> rw [hs] at hpath <;> cases hpath
  | awaited hs _ _ _ _ =>
    rcases hpath with hpath | ⟨hpath, -⟩ <;> rw [hs] at hpath <;> cases hpath

end SMq

namespace Daemon

variable {d d' : Daemon}

/-- The message `i` has been inserted, and is a bounce as long as it is queued. -/
structure CarriesBounce (code : CString) (i : MsgId) (d : Daemon) : Prop extends Old i d where
  holds : SMq.HoldsBounce code i d.queue

theorem HoldsBounce.edited (hb : SMq.HoldsBounce code i d.queue)
    (he : OnlyEdited (ShortMsg.Refresh lib) d d') : SMq.HoldsBounce code i d'.queue := by
  intro x' hx' hid
  obtain ⟨x, hx, hedit⟩ := he.queue x' hx'
  obtain ⟨hbounce, hstate⟩ := hb x hx (hedit.id.symm.trans hid)
  rcases hedit with rfl | ⟨sm, hr, rfl⟩
  · exact ⟨hbounce, hstate⟩
  · exact ⟨hbounce.refresh hr, hstate⟩

theorem CarriesBounce.next {a : DaemonAct} (hb : d.CarriesBounce code i)
    (hg : d.BouncesAs code a) (hn : d.next lib a = some d') : d'.CarriesBounce code i := by
  refine { hb.toOld.next hn with holds := ?_ }
  cases next_happened hb.toSound hn with
  | passed ha hq _ =>
    subst ha
    exact SMq.processTimeout_holdsBounce hb.distinct hg.2 hq hb.holds
      fun hid => absurd hid (Nat.ne_of_gt hb.known)
  | arrived _ _ hq _ =>
    rw [hq]
    exact hb.holds
  | spliced _ hr hq _ =>
    rw [hq]
    intro m hm hid
    rcases List.mem_cons.1 hm with rfl | hm
    · refine absurd ?_ hb.not_held
      unfold held
      rw [hr]
      exact congrArg some hid
    · exact hb.holds m hm hid
  | parsed he => exact HoldsBounce.edited hb.holds he.refresh_of_parses
  | dumped _ he => exact HoldsBounce.edited hb.holds he.refresh_of_prints

/-- The pass that originates a bounce inserts it. -/
theorem carriesBounce_of_pass {d : Daemon} (hl : lib.KeepsSender code) (hs : d.Sound)
    (hc : d.BouncesAs code (.pass env)) (hb : d.queue.passBounces lib env = true)
    (hn : d.next lib (.pass env) = some d') : d'.CarriesBounce code d.queue.nextId := by
  have hholds : SMq.HoldsBounce code d.queue.nextId d.queue := fun m hm hid =>
    absurd (hid ▸ Agenda.mem_ids.2 ⟨_, SMq.mem_agenda hm, rfl⟩) (SMq.nextId_not_mem hs.distinct)
  have hsound : d'.Sound := hs.next hn
  obtain ⟨timedOut, q', -, hq, rfl⟩ := pass_ok hn
  have horigin : d.queue.passOrigin lib env ≠ none := SMq.passOrigin_of_passBounces hb
  have hnext : d.queue.nextId < q'.nextId := by
    obtain ⟨s, hs'⟩ := Option.ne_none_iff_exists'.1 horigin
    rcases SMq.processTimeout_ok hs.distinct hq with ⟨-, -, hnone⟩ | ⟨m, gone, -, -, he, -⟩
    · exact absurd hnone horigin
    · have hle := he.nextId
      rw [hs'] at hle
      exact hle
  refine { hsound with known := hnext, not_held := fun hheld => ?_, holds := ?_ }
  · exact absurd (hs.held_fresh _ hheld).1 (Nat.lt_irrefl _)
  · exact SMq.processTimeout_holdsBounce hs.distinct hc.2 hq hholds
      fun _ h hhead _ m ho => ho.isBounce hl hc.1 hhead hb

/-- A pass in which a bounce is the head, or is answered, originates nothing. -/
theorem CarriesBounce.silent (hb : d.CarriesBounce code i) : d.Silent lib code i where
  sender := by
    intro m hm hid
    obtain ⟨p, recipient, hp, hfrom, -⟩ := (hb.holds m hm hid).1.tree
    exact ⟨p, hp, hfrom⟩
  answered := fun m hm hid env hc q errstr => (hb.holds m hm hid).1.not_bounced hc.1 q errstr
  notLocated := by
    intro m hm hid env hc s next sm hl q errstr
    have hsm : sm.IsBounce code := (hb.holds m hm hid).1.lookupUriImsi hc.2 hl
    exact ShortMsg.IsBounce.not_bounced (m := { m with toShortMsg := sm }) hsm hc.1 q errstr
  origin := by
    intro h hhead hor env hc
    have hnone : ∀ (q : SMq) (m : ShortMsgPending) (errstr : CString), m.IsBounce code →
        q.bounceOrigin lib env m errstr = none := by
      intro q m errstr hm
      unfold SMq.bounceOrigin
      rw [hm.bounceText_eq hc.1]
    have hdispatch : d.queue.dispatchOrigin lib env h = none := by
      rcases hor with hid | ⟨response, hs, hresp, hp, sent, hsel, hid⟩
      · obtain ⟨hbounce, hstate⟩ := hb.holds h (SMq.head_mem hhead) hid
        unfold SMq.dispatchOrigin
        split <;> rename_i hst <;> try (rw [hst] at hstate; cases hstate)
        · unfold SMq.lookupOrigin
          split
          · rename_i sm hl
            have hsm : sm.IsBounce code := hbounce.lookupUriImsi hc.2 hl
            exact hnone _ { h with toShortMsg := sm } _ hsm
          · rfl
        · rfl
      · unfold SMq.dispatchOrigin
        rw [hs]
        dsimp only
        rw [if_pos (by unfold SMq.respondsTo; rw [hp]; exact hresp)]
        have hsent := (hb.holds sent (SMq.selected_mem hsel) hid).1
        unfold SMq.responseOrigin
        unfold SMq.selected at hsel
        obtain ⟨tag, htag, hfind⟩ := Option.bind_eq_some_iff.1 hsel
        rw [htag, hp]
        change ((d.queue.remove h.id).findQueuedMsgByTag tag).bind _ = none
        rw [hfind]
        change SMq.statusOrigin _ _ _ _ _ = none
        unfold SMq.statusOrigin
        split
        · exact hnone _ _ _ hsent
        · rfl
    unfold SMq.passOrigin
    rw [hhead]
    change (if _ then none else d.queue.dispatchOrigin lib env h) = none
    rw [hdispatch]
    exact ite_self none

/-- In a run in which bounces are sent from a number without a global number, a bounce keeps that
number as its sender, is never bounced, and makes the program originate nothing. -/
theorem run_silent (hl : lib.KeepsSender code) (h : Bounced lib code i d) : d.Silent lib code i := by
  obtain ⟨before, hc, hb, rfl, pass, after⟩ := h
  rename_i d1 d2 env
  have hs : d1.Sound := before.invariant Sound (fun _ h0 => h0.sound) fun _ _ _ hs _ hn => hs.next hn
  have hcarries := after.invariant (CarriesBounce code d1.queue.nextId)
    (by rintro _ rfl; exact carriesBounce_of_pass hl hs hc hb pass)
    fun _ _ _ hb hg hn => hb.next hg hn
  exact hcarries.silent

/-! ## A bounce that cannot be located -/

/-- The bounce of the sample message. -/
def sampleBounce : SipMessage where
  sipMethod := some (str "MESSAGE")
  reqUri := some (sampleUri (str "+15550001") (some (str "5062")))
  vias := sampleVias.map Prod.snd
  fromHeader := some ⟨some (str "101"), some (sampleUri (str "101") none),
    [(str "tag", some (str "1"))]⟩
  toHeader := some ⟨none, some (sampleUri (str "+15550001") none), []⟩
  callId := some ⟨some (str "1"), some (str "127.0.0.1")⟩
  cseq := some ⟨some (str "1"), some (str "MESSAGE")⟩
  contentType := some ⟨some (str "text"), some (str "plain")⟩
  bodies := [str "Can't send your SMS to +15550002: Phone not registered here.: hi"]

/-- The address lines of the bounce. -/
def bounceNames : List (CString × NameAddr) :=
  [(str "101<sip:101@127.0.0.1>;tag=1",
    ⟨some (str "101"), some (sampleUri (str "101") none), [(str "tag", some (str "1"))]⟩),
   (str "<sip:+15550001@127.0.0.1>", ⟨none, some (sampleUri (str "+15550001") none), []⟩)]

/-- Libraries that print and parse the sample message and its bounce only. -/
def bounceLibs : Libs :=
  { addressLibs [] bounceNames
      [(str "sip:+15550001@127.0.0.1:5062", sampleUri (str "+15550001") (some (str "5062")))] with
    messageParse := fun s => [sampleRequest, sampleBounce].find? (SampleLibs.messageText · = s)
    messageToStr := fun m =>
      if m ∈ [sampleRequest, sampleBounce] then SampleLibs.messageText m else [] }

theorem bounceLibs_keepsSender : bounceLibs.KeepsSender (str "101") where
  line := by
    intro ip tag f u hf hu
    obtain ⟨e, hfind, rfl⟩ := Option.map_eq_some_iff.1 hf
    have hmem := List.mem_of_find?_eq_some hfind
    have hfound := List.find?_some hfind
    have heq : e.1 = _ := of_decide_eq_true hfound
    rcases List.mem_cons.1 hmem with rfl | hmem
    · cases hu
      rfl
    · obtain rfl := List.mem_singleton.1 hmem
      -- the line of the recipient does not start with the number
      cases heq
  text := by
    intro p p' n hp hn hparse
    by_cases hknown : p ∈ [sampleRequest, sampleBounce]
    · have hprint : bounceLibs.messageToStr p = SampleLibs.messageText p := if_pos hknown
      rw [hprint] at hn hparse
      subst hn
      have hback : ∀ p ∈ [sampleRequest, sampleBounce],
          let n := (SampleLibs.messageText p).length % 2 ^ 16
          bounceLibs.messageParse (ShortMsg.buffer ((SampleLibs.messageText p).take n) n) =
            some p := by
        decide +kernel
      obtain rfl := Option.some.inj ((hback p hknown).symm.trans hparse)
      refine ⟨hp, fun hplain hencoded => ?_⟩
      rw [hplain] at hencoded
      exact absurd hencoded (by decide)
    · have hprint : bounceLibs.messageToStr p = [] := if_neg hknown
      rw [hprint] at hn hparse
      subst hn
      have hnone : bounceLibs.messageParse (ShortMsg.buffer [] 0) = none := by decide +kernel
      exact absurd (hnone.symm.trans hparse) (by simp)

/-- A message that cannot be located. -/
def bounceDaemon : Daemon where
  queue :=
    { settings := {}
      timeSortedList := [queuedMsg 0 .requestDestinationImsi 0 sampleRequest]
      nextId := 1 }
  events := []
  reader := .waiting
  writer := .waiting

theorem bounceDaemon_start : bounceDaemon.Start where
  distinct := by
    refine ⟨List.nodup_singleton 0, fun i hi => ?_⟩
    obtain rfl := List.mem_singleton.1 hi
    exact Nat.zero_lt_one
  reader := rfl
  writer := rfl
  events := fun _ he => (by cases he)
  fits := Nat.zero_le _

/-- The steps after the bounce, in which the message that was bounced is taken out, and the bounce
cannot be located either. -/
def bounceSteps : List DaemonAct :=
  [.sendNested, .unlock, .tidy none, .receive, .pass (sampleEnv 0), .unlock, .receive,
    .pass (sampleEnv 0)]

theorem run_silent_bounce : bounceLibs.KeepsSender (str "101") ∧ ∃ d,
    Bounced bounceLibs (str "101") 1 d ∧ d.queue.agenda = [⟨1, .noState, 0⟩] ∧
      d.Silent bounceLibs (str "101") 1 := by
  refine ⟨bounceLibs_keepsSender, ?_⟩
  have hone : (bounceDaemon.run bounceLibs (.receive :: .pass (sampleEnv 0) :: bounceSteps)).any
      (fun d => d.queue.agenda = [⟨1, .noState, 0⟩]) = true := by decide +kernel
  obtain ⟨d, hrun, hagenda⟩ := (Option.any_eq_true _ _).1 hone
  obtain ⟨d1, hreceive, hrest⟩ := Option.bind_eq_some_iff.1 hrun
  obtain ⟨d2, hpass, hlast⟩ := Option.bind_eq_some_iff.1 hrest
  have hsteps : ∀ a ∈ bounceSteps, ∀ d, BouncesAs (str "101") d a := by
    intro a ha d
    simp only [bounceSteps, List.mem_cons, List.not_mem_nil, or_false] at ha
    rcases ha with rfl | rfl | rfl | rfl | rfl | rfl | rfl | rfl <;> trivial
  have h0 : GuardedRun Start (Step bounceLibs) (BouncesAs (str "101")) bounceDaemon :=
    .start bounceDaemon_start
  have h1 := h0.next (a := DaemonAct.receive) trivial hreceive
  cases hreceive
  have hbounces : bounceDaemon.queue.passBounces bounceLibs (sampleEnv 0) = true := by
    decide +kernel
  have hafter : GuardedRun (· = d2) (Step bounceLibs) (BouncesAs (str "101")) d :=
    guardedRun_run (.start rfl) hsteps hlast
  have hb : Bounced bounceLibs (str "101") 1 d := .mk h1 ⟨rfl, rfl⟩ hbounces rfl hpass hafter
  exact ⟨d, hb, of_decide_eq_true hagenda, run_silent bounceLibs_keepsSender hb⟩

end Daemon

end Smqueue

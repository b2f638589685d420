import Smqueue.Routing
import Smqueue.Proofs.LifecycleProofs
import Smqueue.Proofs.RegistrationsProofs
import Smqueue.Proofs.ReprocessingProofs
import Smqueue.Proofs.WellFormedProofs

/-!
# Proofs: where the messages go

A message gets under delivery by a lookup of its address, and from then on nothing changes its request
URI until the address is looked up again. The registrations that the program builds are the exception:
they are inserted under delivery.
-/

namespace Smqueue

open Relation (ReflTransGen)
open Runs (Reachable)

variable {lib : Libs} {env : Env} {q q1 q' : SMq} {h m m' : ShortMsgPending} {e e' : Place}
  {s : SmState} {d d1 d' : Daemon}

/-! ## The states -/

/-- Only the lookup of the address brings a message under delivery. -/
theorem SmState.calls_isUnderDelivery (t : SmState) (ht : t ≠ requestDestinationSipurl) :
    ∀ c ∈ t.calls, c.2.isUnderDelivery = true → c.1.isUnderDelivery = true := by
  cases t with
  | outOfRange n =>
    intro c hc
    cases hc
  | requestDestinationSipurl => exact absurd rfl ht
  | _ => decide

theorem SMq.isUnderDelivery_of_looksUpFrom (hs : looksUpFrom s = true) :
    s.isUnderDelivery = false := by
  cases s <;> first | rfl | exact absurd hs (by decide)

theorem SMq.Turn.isUnderDelivery (hh : h.state ≠ .requestDestinationSipurl)
    (ht : q.Turn lib env h e e') (hs : e'.state.isUnderDelivery = true) :
    e.state.isUnderDelivery = true := by
  cases ht with
  | call _ hcall _ => exact SmState.calls_isUnderDelivery _ hh _ hcall hs
  | reset _ _ hst => rcases hst with rfl | rfl <;> cases hs
  | delayed _ _ _ => exact hs
  | postponed _ _ => exact hs
  | rejected _ _ hst => rcases hst with rfl | rfl <;> cases hs
  | redirected _ _ => cases hs
  | restarted _ _ => cases hs

/-! ## The request URI -/

namespace ShortMsg

variable {sm sm' : ShortMsg}

theorem GoesTo.congr {st : Settings} (hg : sm.GoesTo env st) (hu : sm'.requestUri = sm.requestUri) :
    sm'.GoesTo env st := by
  obtain ⟨user, huser, hdest⟩ := hg
  have hsome : sm.requestUri ≠ none := fun hnone => by
    change sm.requestUri.bind SipUri.username = some user at huser
    rw [hnone] at huser
    cases huser
  have hdestination : ∀ x : ShortMsg, x.requestUri ≠ none → SMnet.destination x =
      deref x.requestUri >>= fun uri => pure (uri.host, uri.port.getD (uri.scheme.getD (str "sip"))) := by
    intro x hx
    unfold SMnet.destination requestUri at *
    cases hp : x.parsed with
    | none =>
      rw [hp] at hx
      exact absurd rfl hx
    | some p => rfl
  refine ⟨user, ?_, ?_⟩
  · change sm'.requestUri.bind SipUri.username = some user
    rw [hu]
    exact huser
  · rw [hdestination sm' (hu ▸ hsome), hu, ← hdestination sm hsome]
    exact hdest

/-- Packing a message leaves its request URI and its Call-ID alone. -/
theorem packSmsForDelivery_requestUri {ok : Bool} (hv : sm.parsedIsValid = true)
    (hp : sm.packSmsForDelivery lib env = .ok (ok, sm')) (hsome : sm.parsed.isSome = true) :
    sm'.requestUri = sm.requestUri ∧ sm'.callNumber = sm.callNumber := by
  obtain ⟨p, hparsed⟩ := Option.isSome_iff_exists.1 hsome
  obtain ⟨p', hp', hedits⟩ := (packSmsForDelivery_edited hv hp).tree p hparsed
  have hsame : p'.reqUri = p.reqUri ∧ p'.callId = p.callId := by
    clear hp'
    induction hedits with
    | refl => exact ⟨rfl, rfl⟩
    | tail _ hedit ih =>
      obtain ⟨ct, bodies, rfl, -⟩ := hedit.same
      exact ih
  unfold requestUri callNumber
  rw [hp', hparsed]
  exact ⟨hsame.1, congrArg (Option.bind · CallId.number) hsame.2⟩

/-- A message goes to the address that was looked up for it. -/
theorem lookupUriHostport_goesTo {st : Settings} (hv : sm.parsedIsValid = true)
    (hl : sm.lookupUriHostport lib env st = .ok (.requestMsgDelivery, sm')) :
    sm'.parsedIsValid = true ∧ sm'.GoesTo env st ∧ sm'.callNumber = some env.callNumber := by
  unfold lookupUriHostport at hl
  rw [parse_of_valid hv] at hl
  obtain ⟨⟨ok, m1⟩, h1, hl⟩ := Except.bind_eq_ok.1 hl
  cases h1
  obtain ⟨sip, hsip, hl⟩ := Except.bind_eq_ok.1 hl
  obtain ⟨uri, huri, hl⟩ := Except.bind_eq_ok.1 hl
  have huri' : sip.reqUri = some uri := deref_eq_ok huri
  split at hl
  · cases hl
  · rename_i imsi himsi
    have himsi' : uri.username = some imsi := himsi
    obtain ⟨uri', -, hl⟩ := Except.bind_eq_ok.1 hl
    obtain ⟨host, -, hl⟩ := Except.bind_eq_ok.1 hl
    have hgoes : ∀ (x : ShortMsg) (callId : Option CallId), x.parsed = some
        { editUri sip fun u => { u with
            host := some (destination env st imsi).1
            port := some (destination env st imsi).2 } with callId := callId } →
        x.GoesTo env st := by
      intro x callId hx
      refine ⟨imsi, ?_, ?_⟩
      · unfold SMq.requestUser editUri at *
        rw [hx, huri']
        exact himsi'
      · unfold SMnet.destination editUri at *
        rw [hx, huri']
        rfl
    dsimp only at hl
    split at hl
    all_goals
      obtain ⟨callId, -, hl⟩ := Except.bind_eq_ok.1 hl
      obtain ⟨number, -, hl⟩ := Except.bind_eq_ok.1 hl
      cases hl
      refine ⟨?_, hgoes _ _ rfl, rfl⟩
      by_cases ht : needsTranslation imsi = true
      · simp only [if_pos ht]
        exact hv
      · simp only [if_neg ht]
        exact hv

end ShortMsg

namespace SMq

/-- A message keeps its identity and its link, its request URI and its Call-ID. -/
structure Keeps (m m' : ShortMsgPending) : Prop where
  id : m'.id = m.id
  linktag : m'.linktag = m.linktag
  uri : m'.requestUri = m.requestUri
  call : m'.callNumber = m.callNumber

theorem Keeps.refl (m : ShortMsgPending) : Keeps m m := ⟨rfl, rfl, rfl, rfl⟩

theorem Keeps.trans {x y z : ShortMsgPending} (h : Keeps x y) (h' : Keeps y z) : Keeps x z :=
  ⟨h'.id.trans h.id, h'.linktag.trans h.linktag, h'.uri.trans h.uri, h'.call.trans h.call⟩

/-- The SIP message was parsed or printed again. -/
theorem Keeps.of_parsed {sm : ShortMsg} (h : sm.parsed = m.parsed) :
    Keeps m { m with toShortMsg := sm } :=
  ⟨rfl, rfl, congrArg (Option.bind · SipMessage.reqUri) h,
    congrArg (fun p => (Option.bind p SipMessage.callId).bind CallId.number) h⟩

/-- Of a message under delivery, and of one that is not the head, no change touches the request URI
and the Call-ID. -/
theorem Change.keeps (hw : m.WellFormed) (hh : m.id = h.id → h.state.isUnderDelivery = true)
    (hc : q.Change lib env h m m') : Keeps m m' := by
  cases hc with
  | refresh hr => exact .of_parsed (hr.tree hw.valid).2
  | tag _ ht =>
    obtain ⟨⟨tag, hash, rfl⟩, -⟩ := ShortMsgPending.setQtag_ok hw.valid ht
    exact ⟨rfl, rfl, rfl, rfl⟩
  | move _ => exact ⟨rfl, rfl, rfl, rfl⟩
  | edit hid hsm he =>
    have hs := hh hid
    cases he with
    | packSmsForDelivery _ hp =>
      obtain ⟨p, hp', -⟩ := hw.tree
      rw [← hsm] at hp
      obtain ⟨huri, hcall⟩ := ShortMsg.packSmsForDelivery_requestUri hw.valid hp (by rw [hp']; rfl)
      exact ⟨rfl, rfl, huri, hcall⟩
    | lookupFromAddress hl _ =>
      rw [isUnderDelivery_of_looksUpFrom hl] at hs
      cases hs
    | lookupUriImsi hl _ | lookupUriHostport hl _ | sendSIPInit hl _ _ _ =>
      rw [hl] at hs
      cases hs

theorem changes_keep (hw : m.WellFormed) (hh : m.id = h.id → h.state.isUnderDelivery = true)
    (hc : ReflTransGen (q.Change lib env h) m m') : Keeps m m' ∧ m'.WellFormed := by
  induction hc with
  | refl => exact ⟨.refl m, hw⟩
  | tail _ hc ih =>
    obtain ⟨hkeeps, hw'⟩ := ih
    exact ⟨hkeeps.trans (hc.keeps hw' fun hid => hh (hkeeps.id.symm.trans hid)),
      hc.lasting ShortMsgPending.wellFormed_lasting hw'⟩

/-! ## The messages that a pass inserts -/

/-- A call of `set_state` inserts nothing. -/
theorem mem_agenda_of_setState {i : MsgId} {now : Time} (hq : q.setState i s now = .ok q')
    (he : e ∈ q'.agenda) (hid : e.id ≠ i) : e ∈ q.agenda := by
  obtain ⟨x, hx, ha, -⟩ := setState_ok hq
  rw [ha, Agenda.requeue, if_pos (mem_ids_agenda hx)] at he
  rcases (List.mem_orderedInsert _).1 he with rfl | he
  · exact absurd rfl hid
  · exact List.mem_of_mem_filter he

theorem not_mem_of_nextId (hd : q.Distinct) (hid : e.id = q.nextId) : e ∉ q.agenda := fun he =>
  Nat.lt_irrefl _ (hid ▸ hd.lt_nextId _ (Agenda.mem_ids.2 ⟨e, he, rfl⟩))

/-- The message with the new identity has the state in which it was inserted. -/
theorem Pushed.state_of_new {fresh : Option SmState} (hp : Pushed env q q' fresh)
    (hnew : ∀ e ∈ q.agenda, e.id ≠ q.nextId) (he : e ∈ q'.agenda) (hid : e.id = q.nextId) :
    fresh = some e.state := by
  rw [hp.agenda] at he
  rcases List.mem_append.1 he with he | he
  · cases fresh with
    | none => cases he
    | some st =>
      obtain rfl := List.mem_singleton.1 he
      rfl
  · exact absurd hid (hnew e he)

/-- The bounce of a message that cannot be located is not inserted under delivery. -/
theorem notLocated_state {sm : ShortMsg} (hd : q.Distinct) (hh : h ∈ q.timeSortedList)
    (hs : h.state = .requestDestinationImsi)
    (hl : h.toShortMsg.lookupUriImsi lib env q.settings = .ok (none, sm))
    (hq : q.dispatch lib env h = .ok q') (he : e ∈ q'.agenda) (hid : e.id = q.nextId) :
    e.state.isUnderDelivery = false := by
  have hlt : h.id < q.nextId := hd.lt_nextId _ (Agenda.mem_ids.2 ⟨_, mem_agenda hh, rfl⟩)
  have hne : e.id ≠ h.id := fun heq => Nat.ne_of_gt hlt (hid.symm.trans heq)
  unfold dispatch at hq
  rw [hs] at hq
  obtain ⟨⟨next, q1⟩, hlook, hq⟩ := Except.bind_eq_ok.1 hq
  unfold lookupUriImsi at hlook
  rw [hl] at hlook
  obtain ⟨hp, -⟩ := bounceMessage_ok hlook
  have hstore : (q.store { h with toShortMsg := sm }).agenda = q.agenda :=
    agenda_store_same hd.nodup hh rfl
  have hfresh := hp.state_of_new (fun x hx hxid => not_mem_of_nextId hd hxid (hstore ▸ hx))
    (mem_agenda_of_setState hq he hne) hid
  rcases bounceOrigin_state hfresh with hst | hst <;> rw [hst] <;> rfl

/-- The reply of a command is not inserted under delivery. -/
theorem reply_state {r : ShortCodeResult} (hd : q.Distinct) (hhead : q.timeSortedList.head? = some h)
    (hdue : h.nextActionTime ≤ env.clock.entry) (hs : h.state = .initialState)
    (hm : isTextMessage h.toShortMsg = true)
    (hc : q.callShortCode lib env h = .ok (some r)) (ha : r.action = .reply)
    (hq : q.processTimeout lib env = .ok q') (he : e ∈ q'.agenda) (hid : e.id = q.nextId) :
    e.state.isUnderDelivery = false := by
  have hh : h ∈ q.timeSortedList := head_mem hhead
  have hlt : h.id < q.nextId := hd.lt_nextId _ (Agenda.mem_ids.2 ⟨_, mem_agenda hh, rfl⟩)
  have hne : e.id ≠ h.id := fun heq => Nat.ne_of_gt hlt (hid.symm.trans heq)
  rw [processTimeout_text hhead hdue hs hm] at hq
  obtain ⟨⟨next, q1⟩, hcode, hq⟩ := Except.bind_eq_ok.1 hq
  obtain ⟨⟨gone, hran, -⟩, hp⟩ := handleShortCode_ok hd.nodup hh hcode
  have hold : ∀ x ∈ (q.afterShortCode lib env h).1.agenda,
      x.id ≠ (q.afterShortCode lib env h).1.nextId := by
    intro x hx hxid
    rw [hran.frame.nextId] at hxid
    refine not_mem_of_nextId hd hxid ?_
    rw [hran.agenda] at hx
    cases gone with
    | none => exact hx
    | some g => exact List.mem_of_mem_filter hx
  have hfresh := hp.state_of_new hold (mem_agenda_of_setState hq he hne)
    (hid.trans hran.frame.nextId.symm)
  unfold afterShortCode resultOrigin at hfresh
  rw [hc] at hfresh
  dsimp only at hfresh
  rw [ha] at hfresh
  split at hfresh
  · split at hfresh
    · rw [originateOrigin_eq hfresh]
      rfl
    · cases hfresh
  · rename_i hreg _
    cases hreg
  · cases hfresh

/-- The bounce of a message that was answered with an error is not inserted under delivery. -/
theorem answered_state {sent : ShortMsgPending} {response : SipMessage} (hd : q.Distinct)
    (hsel : sent ∈ q.selected h)
    (ha : q.Answers h response sent.id) (hc : response.statusCode.tdiv 100 = 4)
    (hq : q.dispatch lib env h = .ok q') (he : e ∈ q'.agenda) (hid : e.id = q.nextId) :
    e.state.isUnderDelivery = false := by
  obtain ⟨hs, hresp, hparsed, -⟩ := ha
  have hold : ∀ x ∈ (q.remove h.id).agenda, x.id ≠ q.nextId := fun x hx hxid => by
    rw [agenda_remove] at hx
    exact not_mem_of_nextId hd hxid (List.mem_of_mem_filter hx)
  have hretimed : ∀ {q1 : SMq} {i : MsgId} {st : SmState} {t : Time},
      q1.agenda = Agenda.retime i st t (q.remove h.id).agenda → e ∉ q1.agenda := by
    intro q1 i st t hag hmem
    have hids : e.id ∈ Agenda.ids (Agenda.retime i st t (q.remove h.id).agenda) :=
      Agenda.mem_ids.2 ⟨e, hag ▸ hmem, rfl⟩
    rw [Agenda.ids_retime] at hids
    obtain ⟨x, hx, hxid⟩ := Agenda.mem_ids.1 hids
    exact hold x hx (hxid.trans hid)
  unfold dispatch at hq
  rw [hs] at hq
  dsimp only at hq
  unfold SMq.processInitial at hq
  rw [hparsed] at hq
  obtain ⟨sip, hsip, hq⟩ := Except.bind_eq_ok.1 hq
  cases hsip
  have hreq : ¬ response.isRequest = true := by
    unfold SipMessage.isRequest
    rw [hresp]
    decide
  rw [if_neg hreq] at hq
  unfold SMq.handleResponse at hq
  obtain ⟨tag, htag, hq⟩ := Except.bind_eq_ok.1 hq
  have hfind : (q.remove h.id).findQueuedMsgByTag tag = some sent := by
    unfold selected at hsel
    rw [deref_eq_ok htag] at hsel
    exact hsel
  rw [hfind, hparsed] at hq
  obtain ⟨response', hr, hq⟩ := Except.bind_eq_ok.1 hq
  cases hr
  unfold SMq.handleStatus at hq
  simp only [hc] at hq
  split at hq
  · exact absurd he (hretimed (setStateInPlaceAt_ok hq).1)
  · obtain ⟨⟨next, q1⟩, hb, hq⟩ := Except.bind_eq_ok.1 hq
    obtain ⟨hp, -⟩ := bounceMessage_ok hb
    obtain ⟨x, hx, hag, -⟩ := setStateInPlace_ok hq
    rw [hag] at he
    obtain ⟨y, hy, rfl⟩ := List.mem_map.1 he
    by_cases hy' : y.id = sent.id
    · rw [if_pos hy'] at hid
      exact absurd hid (hold sent.entry (mem_agenda (findQueuedMsgByTag_some hfind).1))
    · rw [if_neg hy'] at hid ⊢
      have hfresh := hp.state_of_new hold hy hid
      rcases bounceOrigin_state hfresh with hst | hst <;> rw [hst] <;> rfl

/-! ## One pass -/

/-- What a pass with the head `h` has to do with a message that is under delivery afterwards. -/
inductive Routes (env : Env) (q : SMq) (h m' : ShortMsgPending) : Prop
  /-- The message was under delivery before. -/
  | kept {m : ShortMsgPending} (hm : m ∈ q.timeSortedList) (hk : Keeps m m')
      (hs : m.state.isUnderDelivery = true) : Routes env q h m'
  | lookedUp (hid : m'.id = h.id) (hs : h.state = .requestDestinationSipurl)
      (hg : m'.toShortMsg.GoesTo env q.settings) (hc : m'.callNumber = some env.callNumber) :
      Routes env q h m'
  | registration (hid : m'.id = q.nextId) (hl : m'.linktag.isSome = true) : Routes env q h m'

/-- The lookup of the address of the head. -/
theorem lookedUp_routes {next : SmState} (hd : q.Distinct) (hh : h ∈ q.timeSortedList)
    (hw : h.WellFormed) (hs : h.state = .requestDestinationSipurl)
    (hl : lookupUriHostport lib env q.settings h = .ok (next, m))
    (hq : (q.store m).setState h.id next env.clock.final = .ok q')
    (hm' : m' ∈ q'.timeSortedList) (hu : m'.state.isUnderDelivery = true) :
    q.Routes env h m' := by
  have hentry : m.entry = h.entry := lookupUriHostport_entry hl
  have hid : m.id = h.id := congrArg Agenda.Entry.id hentry
  by_cases hne : m'.id = h.id
  · have hd1 : (q.store m).Distinct :=
      (Moved.of_agenda (h := h.id) (agenda_store_same hd.nodup hh hentry) (store_frame _ _)).distinct hd
    have hmem : m ∈ (q.store m).timeSortedList := List.mem_map.2 ⟨h, hh, if_pos hid.symm⟩
    rw [← hid] at hq
    obtain ⟨-, hfind⟩ := setState_find hd1 hmem hq
    have hd' : q'.Distinct := (Moved.setState hd1 (.refl _ m.id) hq).distinct hd1
    have hself := find_mem hd'.nodup hm'
    rw [hne, ← hid, hfind] at hself
    obtain rfl := Option.some.inj hself
    have hnext : next = .requestMsgDelivery := by
      rcases lookupUriHostport_next hl with rfl | rfl
      · cases hu
      · rfl
    subst hnext
    unfold SMq.lookupUriHostport at hl
    obtain ⟨⟨next, sm⟩, hsm, hl⟩ := Except.bind_eq_ok.1 hl
    dsimp only at hl
    split at hl
    · rename_i hno
      cases hl
      cases hno
    · obtain ⟨⟨code, m1⟩, htag, hl⟩ := Except.bind_eq_ok.1 hl
      cases hl
      obtain ⟨hv, hgoes, hcall⟩ := ShortMsg.lookupUriHostport_goesTo hw.valid hsm
      obtain ⟨⟨tag, hash, rfl⟩, -⟩ := ShortMsgPending.setQtag_ok hv htag
      exact .lookedUp hne hs hgoes hcall
  · have hold := setState_others hq m' hm' hne
    obtain ⟨x, hx, hxm⟩ := List.mem_map.1 hold
    have hx' : x.id ≠ m.id := fun hxid => by
      rw [if_pos hxid] at hxm
      exact hne (hxm ▸ hid)
    rw [if_neg hx'] at hxm
    obtain rfl := hxm
    exact .kept hx (.refl x) hu

/-- The places that a message under delivery comes from, if the pass looks up no address. -/
theorem turns_isUnderDelivery (hh : h.state ≠ .requestDestinationSipurl)
    (ht : ReflTransGen (q.Turn lib env h) e e') (hs : e'.state.isUnderDelivery = true) :
    e'.id = e.id ∧ e.state.isUnderDelivery = true := by
  induction ht with
  | refl => exact ⟨rfl, hs⟩
  | tail _ ht ih =>
    obtain ⟨hid, hst⟩ := ih (ht.isUnderDelivery hh hs)
    exact ⟨ht.follows.1.trans hid, hst⟩

theorem changes_id (hc : ReflTransGen (q.Change lib env h) m m') : m'.id = m.id := by
  induction hc with
  | refl => rfl
  | tail _ hc ih => exact hc.same.1.trans ih

/-- A message that stems from a queued one. -/
theorem Routes.of_queued {n : Nat} (hd : q.Distinct) (hw : ∀ m ∈ q.timeSortedList, m.WellFormed)
    (hh : h ∈ q.timeSortedList) (hs : h.state ≠ .requestDestinationSipurl)
    (ht : Turned lib env q h q q') (hm' : m' ∈ q'.timeSortedList)
    (hu : m'.state.isUnderDelivery = true) (hm : m ∈ q.timeSortedList)
    (hc : ReflTransGen (q.Change lib env h) { m with retries := n } m') : q.Routes env h m' := by
  have hid : m'.id = ({ m with retries := n } : ShortMsgPending).id := changes_id hc
  have hst : m.state.isUnderDelivery = true := by
    obtain ⟨e, he, hway⟩ := ht m'.entry (mem_agenda hm')
    obtain ⟨heid, hest⟩ := turns_isUnderDelivery hs hway hu
    rcases he with he | he
    · rw [hasState_self hd hm e he (heid.symm.trans hid)] at hest
      exact hest
    · cases he with
      | mk _ =>
        have hlt : m.id < q.nextId := hd.lt_nextId _ (Agenda.mem_ids.2 ⟨_, mem_agenda hm, rfl⟩)
        exact absurd (hid.symm.trans heid) (Nat.ne_of_lt hlt)
  have hwell : ShortMsgPending.WellFormed { m with retries := n } :=
    ⟨(hw m hm).valid, (hw m hm).tree⟩
  have hhead : ({ m with retries := n } : ShortMsgPending).id = h.id →
      h.state.isUnderDelivery = true := fun hmid => by
    rw [← hasState_self hd hh m.entry (mem_agenda hm) hmid]
    exact hst
  obtain ⟨hkeeps, -⟩ := changes_keep hwell hhead hc
  exact .kept hm ⟨hkeeps.id, hkeeps.linktag, hkeeps.uri, hkeeps.call⟩ hst

/-- A message that the pass inserts. -/
theorem Routes.of_incoming (hd : q.Distinct) (hhead : q.timeSortedList.head? = some h)
    (hdue : h.nextActionTime ≤ env.clock.entry) (hq : q.processTimeout lib env = .ok q')
    (hdispatch : q.dispatch lib env h = .ok q') (hm' : m' ∈ q'.timeSortedList)
    (hu : m'.state.isUnderDelivery = true) (hi : q.Incoming lib env h m)
    (hc : ReflTransGen (q.Change lib env h) m m') : q.Routes env h m' := by
  have hh : h ∈ q.timeSortedList := head_mem hhead
  have hlt : h.id < q.nextId := hd.lt_nextId _ (Agenda.mem_ids.2 ⟨_, mem_agenda hh, rfl⟩)
  have hnew : m.id = q.nextId := (hi.isNew hd hh).1
  have hwell : m.WellFormed := hi.lasting ShortMsgPending.wellFormed_lasting
  obtain ⟨hkeeps, -⟩ := changes_keep hwell
    (fun hid => absurd (hid.symm.trans hnew) (Nat.ne_of_lt hlt)) hc
  have hid : m'.id = q.nextId := hkeeps.id.trans hnew
  have not_under : m'.entry.state.isUnderDelivery = false → q.Routes env h m' := fun hno =>
    absurd (hu.symm.trans hno) (by decide)
  have linked : m.linktag.isSome = true → q.Routes env h m' := fun hl =>
    .registration hid (hkeeps.linktag ▸ hl)
  cases hi with
  | inserted ho =>
    cases ho with
    | reply hs ht hcall ha _ _ _ =>
      exact not_under (reply_state hd hhead hdue hs ht hcall ha hq (mem_agenda hm') hid)
    | notLocated hs hl _ _ =>
      exact not_under (notLocated_state hd hh hs hl hdispatch (mem_agenda hm') hid)
    | answered hsel ha hcode _ _ =>
      exact not_under (answered_state hd hsel ha hcode hdispatch (mem_agenda hm') hid)
    | registered _ _ _ _ _ ho =>
      obtain ⟨tag, -, htag⟩ := registerMsg_linktag ho
      exact linked (by rw [htag]; rfl)
    | register _ ho =>
      obtain ⟨tag, -, htag⟩ := registerMsg_linktag ho
      exact linked (by rw [htag]; rfl)
    | awaited _ _ _ _ ho =>
      obtain ⟨tag, -, htag⟩ := registerMsg_linktag ho
      exact linked (by rw [htag]; rfl)

/-- Where the messages under delivery come from. -/
theorem processTimeout_routes (hd : q.Distinct) (hw : ∀ m ∈ q.timeSortedList, m.WellFormed)
    (hq : q.processTimeout lib env = .ok q') (hm' : m' ∈ q'.timeSortedList)
    (hu : m'.state.isUnderDelivery = true) : q' = q ∨ ∃ h, q.timeSortedList.head? = some h ∧
      h.nextActionTime ≤ env.clock.entry ∧ q.Routes env h m' := by
  rcases processTimeout_outcome hd hq with rfl | ⟨h, hhead, hdue, hdispatch, ho⟩
  · exact .inl rfl
  · have hh : h ∈ q.timeSortedList := head_mem hhead
    refine .inr ⟨h, hhead, hdue, ?_⟩
    by_cases hs : h.state = .requestDestinationSipurl
    · unfold dispatch at hdispatch
      rw [hs] at hdispatch
      obtain ⟨⟨next, m⟩, hl, hset⟩ := Except.bind_eq_ok.1 hdispatch
      have hid : m.id = h.id := congrArg Agenda.Entry.id (lookupUriHostport_entry hl)
      have hset : (q.store m).setState m.id next env.clock.final = .ok q' := hset
      rw [hid] at hset
      exact lookedUp_routes hd hh (hw h hh) hs hl hset hm' hu
    · have ht : Turned lib env q h q q' := dispatch_turned hd hh hdispatch
      cases ho with
      | quiet he =>
        obtain ⟨m, hm, hc⟩ := he.messages m' hm'
        rcases hm with hm | hi
        · exact .of_queued hd hw hh hs ht hm' hu hm hc
        · exact .of_incoming hd hhead hdue hq hdispatch hm' hu hi hc
      | attempt _ he _ =>
        obtain ⟨m, hm, hc⟩ := he m' hm'
        rcases hm with hm | hi
        · rcases mem_attempted hm with rfl | ⟨hm, -⟩
          · exact .of_queued hd hw hh hs ht hm' hu hh hc
          · exact .of_queued hd hw hh hs ht hm' hu hm hc
        · exact .of_incoming hd hhead hdue hq hdispatch hm' hu hi hc

end SMq

/-! ## Runs -/

theorem Edited.keeps (he : Edited (ShortMsg.Refresh lib) m m') (hw : m.WellFormed) :
    SMq.Keeps m m' := by
  rcases he with rfl | ⟨sm, hr, rfl⟩
  · exact .refl _
  · exact .of_parsed (hr.tree hw.valid).2

namespace Daemon

/-- What a step has to do with a message that is under delivery afterwards. -/
inductive Routes (d : Daemon) (l : List Lookup) (m' : ShortMsgPending) : Prop
  | kept {m : ShortMsgPending} (hm : m ∈ d.queue.timeSortedList) (hk : SMq.Keeps m m')
      (hs : m.state.isUnderDelivery = true) : Routes d l m'
  | lookedUp {env : Env} (hl : l = [(m'.id, env, d.queue.settings)])
      (hg : m'.toShortMsg.GoesTo env d.queue.settings) (hc : m'.callNumber = some env.callNumber) :
      Routes d l m'
  | registration (hid : m'.id = d.queue.nextId) (hl : m'.linktag.isSome = true) : Routes d l m'

theorem Routes.of_edited {l : List Lookup} (hw : ∀ m ∈ d.queue.timeSortedList, m.WellFormed)
    (he : OnlyEdited (ShortMsg.Refresh lib) d d') (hm' : m' ∈ d'.queue.timeSortedList)
    (hu : m'.state.isUnderDelivery = true) : d.Routes l m' := by
  obtain ⟨m, hm, hmm⟩ := he.queue m' hm'
  exact .kept hm (hmm.keeps (hw m hm)) (hmm.state ▸ hu)

theorem mem_lookedUp {a : DaemonAct} {x : Lookup} (hx : x ∈ d.lookedUp a) :
    ∃ m ∈ d.queue.timeSortedList, m.id = x.1 ∧ m.state = .requestDestinationSipurl := by
  cases a with
  | pass env =>
    obtain ⟨m, hm, rfl⟩ := List.mem_map.1 hx
    obtain ⟨hhead, hs⟩ := Option.filter_eq_some_iff.1 (Option.mem_toList.1 hm)
    exact ⟨m, List.mem_of_head? hhead, rfl, (of_decide_eq_true hs).2⟩
  | _ => cases hx

theorem next_routes {a : DaemonAct} (h : Program.Holding ShortMsgPending.WellFormed d)
    (hn : d.next lib a = some d') (hm' : m' ∈ d'.queue.timeSortedList)
    (hu : m'.state.isUnderDelivery = true) : d.Routes (d.lookedUp a) m' := by
  cases next_happened h.toSound hn with
  | @passed env ha hq hr =>
    rcases SMq.processTimeout_routes h.distinct h.queue hq hm' hu with hq' | ⟨x, hhead, hdue, hroutes⟩
    · exact .kept (hq' ▸ hm') (.refl m') hu
    · cases hroutes with
      | kept hm hk hs => exact .kept hm hk hs
      | lookedUp hid hs hg hc =>
        refine .lookedUp ?_ hg hc
        rw [ha, hid]
        unfold Daemon.lookedUp
        dsimp only
        rw [hhead, Option.filter_some, if_pos (decide_eq_true ⟨hdue, hs⟩)]
        rfl
      | registration hid hl => exact .registration hid hl
  | arrived ha hv hq hr =>
    rw [hq] at hm'
    exact .kept hm' (.refl m') hu
  | spliced ha hr hq hr' =>
    rw [hq] at hm'
    rcases List.mem_cons.1 hm' with rfl | hm
    · cases hu
    · exact .kept hm (.refl m') hu
  | parsed he => exact .of_edited h.queue he.refresh_of_parses hm' hu
  | dumped _ he => exact .of_edited h.queue he.refresh_of_prints hm' hu

theorem lastLookup_append {i : MsgId} {l l' : List Lookup} :
    lastLookup i (l ++ l') = (lastLookup i l).or (lastLookup i l') := by
  unfold lastLookup
  rw [List.find?_append]
  cases l.find? (·.1 = i) <;> rfl

theorem lastLookup_eq_none {i : MsgId} {l : List Lookup} (h : ∀ x ∈ l, x.1 ≠ i) :
    lastLookup i l = none := by
  unfold lastLookup
  rw [Option.map_eq_none_iff, List.find?_eq_none]
  exact fun x hx hid => h x hx (of_decide_eq_true hid)

theorem lookedUp_none {a : DaemonAct} {i : MsgId}
    (h : ∀ m ∈ d.queue.timeSortedList, m.state = .requestDestinationSipurl → m.id ≠ i) :
    lastLookup i (d.lookedUp a) = none := by
  refine lastLookup_eq_none fun x hx => ?_
  obtain ⟨m, hm, hid, hs⟩ := mem_lookedUp hx
  rw [← hid]
  exact h m hm hs

/-- No address is looked up for a message that is not there yet. -/
theorem lookedUp_unborn {a : DaemonAct} {i : MsgId} (hd : d.queue.Distinct)
    (hi : d.queue.nextId ≤ i) : lastLookup i (d.lookedUp a) = none :=
  lookedUp_none fun _ hm _ => (SMq.ne_of_nextId_le hd hm hi).symm

theorem Addressed.step {a : DaemonAct} {l : List Lookup}
    (h : Program.Holding ShortMsgPending.WellFormed d) (hn : d.next lib a = some d1)
    (ha : Addressed d1.queue l m) : Addressed d.queue (l ++ d.lookedUp a) m := by
  cases ha with
  | lookedUp hl hg hc =>
    refine .lookedUp ?_ hg hc
    rw [lastLookup_append, hl]
    rfl
  | registration hl hnew hlink =>
    have hle : d.queue.nextId ≤ m.id := Nat.le_trans (next_nextId h.toSound hn) hnew
    refine .registration ?_ hle hlink
    rw [lastLookup_append, hl, lookedUp_unborn h.distinct hle]
    rfl
  | before hl hm0 hid hs hu hlink hcall =>
    cases next_routes h hn hm0 hs with
    | kept hm hk hst =>
      refine .before ?_ hm (hk.id.symm.trans hid) hst (hk.uri.symm.trans hu)
        (hk.linktag.symm.trans hlink) (hk.call.symm.trans hcall)
      rw [lastLookup_append, hl, lookedUp_none fun x hx hxs hxid => ?_]
      · rfl
      · have hsame := SMq.hasState_self h.distinct hm x.entry (SMq.mem_agenda hx)
          (hxid.trans (hid.symm.trans hk.id))
        rw [← hsame] at hst
        change x.state.isUnderDelivery = true at hst
        rw [hxs] at hst
        cases hst
    | lookedUp hlook hg hc =>
      refine .lookedUp (s := d.queue.settings) ?_ (hg.congr hu.symm) (hcall.symm.trans hc)
      rw [lastLookup_append, hl, hlook, ← hid]
      simp [lastLookup]
    | registration hnew hl0 =>
      have hle : d.queue.nextId ≤ m.id := Nat.le_of_eq (hnew.symm.trans hid)
      refine .registration ?_ hle (hlink ▸ hl0)
      rw [lastLookup_append, hl, lookedUp_unborn h.distinct hle]
      rfl

theorem addressed_of_run {acts : List DaemonAct}
    (h : Program.Holding ShortMsgPending.WellFormed d) (hr : d.run lib acts = some d')
    (hm : m ∈ d'.queue.timeSortedList) (hu : m.state.isUnderDelivery = true) :
    Addressed d.queue (d.lookups lib acts) m := by
  induction acts generalizing d with
  | nil =>
    cases hr
    exact .before rfl hm rfl hu rfl rfl rfl
  | cons a acts ih =>
    obtain ⟨d1, hn, hrest⟩ := Option.bind_eq_some_iff.1 hr
    have hlater := ih (h.thread ShortMsgPending.wellFormed_lasting hn) hrest
    have hlookups : d.lookups lib (a :: acts) = d1.lookups lib acts ++ d.lookedUp a := by
      change (d.next lib a).elim [] _ ++ _ = _
      rw [hn]
      rfl
    rw [hlookups]
    exact hlater.step h hn

end Daemon

namespace Program

/-- A message under delivery goes to the address that was looked up for it at last: in every run from a
state of the program, whatever was in the queue file, this is the last lookup of the run for the message
itself, with the registry and the settings of that time. Without one, the message is a registration that
the program has built, or its request URI is what it was at the start of the run. -/
theorem run_addressed (lib : Libs) (p : Program) (d' : Daemon) (acts : List DaemonAct)
    (m : ShortMsgPending) (hr : Reachable Start (Step lib) p) (h : p.daemon.run lib acts = some d')
    (hm : m ∈ d'.queue.timeSortedList) (hu : m.state.isUnderDelivery = true) :
    Daemon.Addressed p.daemon.queue (p.daemon.lookups lib acts) m :=
  Daemon.addressed_of_run (holding_of_lasting ShortMsgPending.wellFormed_lasting hr) h hm hu

/-- The recipient of the sample message is looked up, and the message is put under delivery. -/
theorem run_addressed_sample : ∃ p d',
    (recordStart 8).next (sampleLibs [sampleRequest] sampleVias)
      (.load (sampleEnv 0) fun _ => some []) = some p ∧
    p.daemon.run (sampleLibs [sampleRequest] sampleVias) [.receive, .pass (sampleEnv 0)] = some d' ∧
    (∃ m ∈ d'.queue.timeSortedList, m.state.isUnderDelivery = true) ∧
    ∀ m ∈ d'.queue.timeSortedList, m.state.isUnderDelivery = true →
      Daemon.Addressed p.daemon.queue
        (p.daemon.lookups (sampleLibs [sampleRequest] sampleVias) [.receive, .pass (sampleEnv 0)]) m := by
  have hrun : ((recordStart 8).next (sampleLibs [sampleRequest] sampleVias)
      (.load (sampleEnv 0) fun _ => some [])).any (fun p =>
        (p.daemon.run (sampleLibs [sampleRequest] sampleVias) [.receive, .pass (sampleEnv 0)]).any
          fun d' => d'.queue.timeSortedList.any fun m => m.state.isUnderDelivery) = true := by
    decide +kernel
  obtain ⟨p, hp, hrun⟩ := (Option.any_eq_true _ _).1 hrun
  obtain ⟨d', hd', hu⟩ := (Option.any_eq_true _ _).1 hrun
  obtain ⟨m, hm, hmu⟩ := List.any_eq_true.1 hu
  exact ⟨p, d', hp, hd', ⟨m, hm, hmu⟩, fun m hm hmu => run_addressed _ p d' _ m
    ((Runs.GuardedRun.start (recordStart_start 8)).next trivial hp) hd' hm hmu⟩

end Program

end Smqueue

import Smqueue.Transitions
import Smqueue.Proofs.ChangesProofs

/-!
# Proofs: the graph of the states

Every place in the queue after a pass stems from one before it by the steps that `SMq.Turn` lists, or
from the one in which the pass inserts a message.
-/

namespace Smqueue

open Population (Evolves)

variable {lib : Libs} {env : Env} {q0 q q1 q2 q' : SMq} {h m m' : ShortMsgPending} {i : MsgId}
  {s a : SmState} {now : Time}

namespace SMq

/-! ## Parts of a pass -/

theorem Turned.refl (q : SMq) : Turned lib env q0 h q q := Evolves.refl _

theorem Turned.trans (ht : Turned lib env q0 h q q1) (ht' : Turned lib env q0 h q1 q2) :
    Turned lib env q0 h q q2 := Evolves.trans ht ht'

theorem Turned.of_agenda (ha : q'.agenda = q.agenda) : Turned lib env q0 h q q' :=
  Evolves.subset fun _ he => ha ▸ he

theorem Turned.of_ran {gone : Option MsgId} (hr : Ran q q' gone) : Turned lib env q0 h q q' := by
  refine Evolves.subset fun e he => ?_
  rw [hr.agenda] at he
  cases gone with
  | none => exact he
  | some g => exact List.mem_of_mem_filter he

theorem Turned.remove (q : SMq) (i : MsgId) : Turned lib env q0 h q (q.remove i) := by
  refine Evolves.subset fun _ he => ?_
  rw [agenda_remove] at he
  exact List.mem_of_mem_filter he

theorem Turned.of_pushed {fresh : Option SmState} (hp : Pushed env q q' fresh)
    (hnext : q.nextId = q0.nextId) (hset : q.settings = q0.settings)
    (hfresh : ∀ st ∈ fresh, st = .requestDestinationImsi ∨ st = .requestDestinationSipurl ∨
      st = .requestMsgDelivery) : Turned lib env q0 h q q' := by
  have ha := hp.agenda
  cases fresh with
  | none => exact .of_agenda ha
  | some st =>
    have hin : q0.Inserted env (q.freshEntry env st) := by
      have hins : q0.Inserted env ⟨q0.nextId, st, q0.originDue env st⟩ := .mk (hfresh st rfl)
      rw [← hnext] at hins
      unfold freshEntry originDue at *
      rw [hset]
      exact hins
    unfold Turned
    rw [ha]
    exact Evolves.cons hin

/-- The message `i` is in the state `a`, if it is there. -/
def HasState (q : SMq) (i : MsgId) (a : SmState) : Prop := ∀ e ∈ q.agenda, e.id = i → e.state = a

theorem hasState_self (hd : q.Distinct) (hm : m ∈ q.timeSortedList) : q.HasState m.id m.state := by
  intro e he hid
  obtain ⟨x, hx, rfl⟩ := List.mem_map.1 he
  obtain rfl : x = m := by
    have hfind := find_mem hd.nodup hm
    rw [← hid] at hfind
    exact Option.some.inj ((find_mem hd.nodup hx).symm.trans hfind)
  rfl

theorem HasState.of_agenda (hs : q.HasState i a) (ha : q'.agenda = q.agenda) : q'.HasState i a := by
  intro e he hid
  rw [ha] at he
  exact hs e he hid

theorem HasState.of_ran {gone : Option MsgId} (hs : q.HasState i a) (hr : Ran q q' gone) :
    q'.HasState i a := by
  intro e he hid
  refine hs e ?_ hid
  rw [hr.agenda] at he
  cases gone with
  | none => exact he
  | some g => exact List.mem_of_mem_filter he

theorem HasState.of_pushed {fresh : Option SmState} (hs : q.HasState i a)
    (hp : Pushed env q q' fresh) (hi : i < q.nextId) : q'.HasState i a := by
  intro e he hid
  rw [hp.agenda] at he
  rcases List.mem_append.1 he with he | he
  · cases fresh with
    | none => cases he
    | some st =>
      obtain rfl := List.mem_singleton.1 he
      exact absurd hid (Nat.ne_of_gt hi)
  · exact hs e he hid

theorem HasState.setState (hq : q.setState i s now = .ok q') : q'.HasState i s := by
  obtain ⟨x, hx, ha, -⟩ := setState_ok hq
  intro e he hid
  rw [ha, Agenda.requeue, if_pos (mem_ids_agenda hx)] at he
  rcases (List.mem_orderedInsert _).1 he with rfl | he
  · rfl
  · exact absurd hid (of_decide_eq_true (List.mem_filter.1 he).2)

/-- A call of `set_state` on the head. -/
theorem Turned.setState (hid : i = h.id) (hs : q.HasState i a) (hcall : (a, s) ∈ h.state.calls)
    (hset : q.settings = q0.settings) (hnow : now = env.clock.first ∨ now = env.clock.final)
    (hq : q.setState i s now = .ok q') : Turned lib env q0 h q q' := by
  obtain ⟨x, hx, ha, -⟩ := setState_ok hq
  have hxid := (find_some hx).2
  have hxs : x.state = a := hs x.entry (mem_agenda (find_some hx).1) hxid
  refine Evolves.changed fun e he => ?_
  rw [ha, Agenda.requeue, if_pos (mem_ids_agenda hx)] at he
  rcases (List.mem_orderedInsert _).1 he with rfl | he
  · refine .inr ⟨x.entry, mem_agenda (find_some hx).1, ?_⟩
    have hturn : q0.Turn lib env h x.entry
        ⟨x.id, s, now + q0.settings.timeouts.get x.state s⟩ := by
      refine .call (hxid.trans hid) ?_ hnow
      change (x.state, s) ∈ _
      rw [hxs]
      exact hcall
    rw [hset]
    rw [hxid] at hturn
    exact hturn
  · exact .inl (List.mem_of_mem_filter he)

/-- A message that gets a state and a time where it stands. -/
theorem Turned.retimed {t : Time} (ha : q'.agenda = Agenda.retime i s t q.agenda)
    (hturn : ∀ e ∈ q.agenda, e.id = i → q0.Turn lib env h e ⟨e.id, s, t⟩) :
    Turned lib env q0 h q q' := by
  refine Evolves.changed fun e he => ?_
  rw [ha] at he
  obtain ⟨x, hx, rfl⟩ := List.mem_map.1 he
  by_cases hid : x.id = i
  · rw [if_pos hid]
    refine .inr ⟨x, hx, ?_⟩
    have := hturn x hx hid
    rw [hid] at this
    exact this
  · rw [if_neg hid]
    exact .inl hx

/-! ## The next states -/

theorem lookupFromAddress_next {sm sm' : ShortMsg} {st : Settings}
    (hl : sm.lookupFromAddress lib env st = .ok (s, sm')) :
    s = .noState ∨ s = .requestDestinationImsi := by
  unfold ShortMsg.lookupFromAddress at hl
  obtain ⟨sip, -, hl⟩ := Except.bind_eq_ok.1 hl
  obtain ⟨from?, -, hl⟩ := Except.bind_eq_ok.1 hl
  obtain ⟨url, -, hl⟩ := Except.bind_eq_ok.1 hl
  dsimp only at hl
  repeat' split at hl
  all_goals
    cases hl
    simp

theorem lookupUriImsi_next {sm sm' : ShortMsg} {st : Settings}
    (hl : sm.lookupUriImsi lib env st = .ok (some s, sm')) :
    s = .noState ∨ s = .requestDestinationSipurl := by
  unfold ShortMsg.lookupUriImsi at hl
  obtain ⟨⟨ok, m1⟩, -, hl⟩ := Except.bind_eq_ok.1 hl
  obtain ⟨sip, -, hl⟩ := Except.bind_eq_ok.1 hl
  obtain ⟨uri, -, hl⟩ := Except.bind_eq_ok.1 hl
  dsimp only at hl
  split at hl
  · cases hl
    exact .inl rfl
  · split at hl
    · cases hl
      exact .inl rfl
    · split at hl
      · split at hl
        · cases hl
          exact .inr rfl
        · split at hl
          · cases hl
          · obtain ⟨from?, -, hl⟩ := Except.bind_eq_ok.1 hl
            obtain ⟨sender, -, hl⟩ := Except.bind_eq_ok.1 hl
            cases hl
            exact .inr rfl
      · split at hl
        · cases hl
          exact .inr rfl
        · cases hl
          exact .inl rfl

theorem lookupUriHostport_next {st : Settings} (hl : lookupUriHostport lib env st m = .ok (s, m')) :
    s = .noState ∨ s = .requestMsgDelivery := by
  unfold SMq.lookupUriHostport at hl
  obtain ⟨⟨next, sm⟩, hsm, hl⟩ := Except.bind_eq_ok.1 hl
  have hnext : next = .noState ∨ next = .requestMsgDelivery := by
    unfold ShortMsg.lookupUriHostport at hsm
    obtain ⟨⟨ok, m1⟩, -, hsm⟩ := Except.bind_eq_ok.1 hsm
    obtain ⟨sip, -, hsm⟩ := Except.bind_eq_ok.1 hsm
    obtain ⟨uri, -, hsm⟩ := Except.bind_eq_ok.1 hsm
    split at hsm
    · cases hsm
      exact .inl rfl
    · obtain ⟨uri', -, hsm⟩ := Except.bind_eq_ok.1 hsm
      obtain ⟨host, -, hsm⟩ := Except.bind_eq_ok.1 hsm
      dsimp only at hsm
      split at hsm
      all_goals
        obtain ⟨callId, -, hsm⟩ := Except.bind_eq_ok.1 hsm
        obtain ⟨number, -, hsm⟩ := Except.bind_eq_ok.1 hsm
        cases hsm
        exact .inr rfl
  dsimp only at hl
  split at hl
  · cases hl
    exact hnext
  · obtain ⟨⟨code, m1⟩, -, hl⟩ := Except.bind_eq_ok.1 hl
    cases hl
    exact hnext

theorem bouncedState_or (fresh : Option SmState) :
    bouncedState fresh = .noState ∨ bouncedState fresh = .deleteMeState := by
  unfold bouncedState
  split
  · exact .inr rfl
  · exact .inl rfl

theorem registerHandset_next (hq : q.registerHandset lib env m = .ok (s, q')) :
    s = .deleteMeState ∨ s = .askedToRegisterHandset := by
  unfold registerHandset at hq
  obtain ⟨⟨q1, code, m1⟩, -, hq⟩ := Except.bind_eq_ok.1 hq
  dsimp only at hq
  split at hq
  · cases hq
    exact .inl rfl
  · obtain ⟨q2, -, hq⟩ := Except.bind_eq_ok.1 hq
    cases hq
    exact .inr rfl

theorem handleShortCode_next {next : Option SmState}
    (hq : q.handleShortCode lib env m = .ok (next, q')) :
    (SmState.initialState, next.getD .requestFromAddressLookup) ∈ SmState.initialState.calls := by
  unfold handleShortCode at hq
  obtain ⟨res, -, hq⟩ := Except.bind_eq_ok.1 hq
  cases res with
  | none =>
    cases hq
    decide
  | some r =>
    change finishShortCode lib env m.id r = _ at hq
    unfold finishShortCode at hq
    cases ha : r.action <;> rw [ha] at hq <;> dsimp only at hq
    case reply =>
      obtain ⟨x, -, hq⟩ := Except.bind_eq_ok.1 hq
      obtain ⟨addresses, -, hq⟩ := Except.bind_eq_ok.1 hq
      obtain ⟨⟨ok, q1⟩, -, hq⟩ := Except.bind_eq_ok.1 hq
      cases hq
      cases ok
      · exact (by decide : (SmState.initialState, SmState.noState) ∈ SmState.initialState.calls)
      · exact (by decide : (SmState.initialState, SmState.deleteMeState) ∈ SmState.initialState.calls)
    case register =>
      obtain ⟨x, -, hq⟩ := Except.bind_eq_ok.1 hq
      obtain ⟨⟨st, q1⟩, hreg, hq⟩ := Except.bind_eq_ok.1 hq
      cases hq
      rcases registerHandset_next hreg with rfl | rfl
      · exact (by decide : (SmState.initialState, SmState.deleteMeState) ∈ SmState.initialState.calls)
      · exact (by decide :
          (SmState.initialState, SmState.askedToRegisterHandset) ∈ SmState.initialState.calls)
    case retryAfterDelay =>
      obtain ⟨x, -, hq⟩ := Except.bind_eq_ok.1 hq
      cases hq
      decide
    all_goals
      cases hq
      decide

/-! ## The head on its way -/

/-- A part of a pass from `q0` has led to `q`, with the head `h` in the state `a`. -/
structure Reached (lib : Libs) (env : Env) (q0 : SMq) (h : ShortMsgPending) (q : SMq) (a : SmState) :
    Prop where
  turned : Turned lib env q0 h q0 q
  state : q.HasState h.id a
  settings : q.settings = q0.settings

theorem Reached.start (hd : q.Distinct) (hh : h ∈ q.timeSortedList) :
    Reached lib env q h q h.state := ⟨.refl q, hasState_self hd hh, rfl⟩

theorem Reached.of_agenda (hr : Reached lib env q0 h q a) (ha : q'.agenda = q.agenda)
    (hf : Frame q q') : Reached lib env q0 h q' a :=
  ⟨hr.turned.trans (.of_agenda ha), hr.state.of_agenda ha, hf.settings.trans hr.settings⟩

theorem Reached.setState (hr : Reached lib env q0 h q a) (hcall : (a, s) ∈ h.state.calls)
    (hnow : now = env.clock.first ∨ now = env.clock.final) (hq : q.setState h.id s now = .ok q') :
    Reached lib env q0 h q' s := by
  obtain ⟨-, -, -, hf⟩ := setState_ok hq
  exact ⟨hr.turned.trans (.setState rfl hr.state hcall hr.settings hnow hq), .setState hq,
    hf.settings.trans hr.settings⟩

theorem Reached.pushed {fresh : Option SmState} (hr : Reached lib env q0 h q a)
    (hp : Pushed env q q' fresh) (hnext : q.nextId = q0.nextId) (hi : h.id < q.nextId)
    (hfresh : ∀ st ∈ fresh, st = .requestDestinationImsi ∨ st = .requestDestinationSipurl ∨
      st = .requestMsgDelivery) : Reached lib env q0 h q' a :=
  ⟨hr.turned.trans (.of_pushed hp hnext hr.settings hfresh), hr.state.of_pushed hp hi,
    hp.settings.trans hr.settings⟩

/-! ## The states of the messages that a pass inserts -/

theorem originateOrigin_eq {sender recipient text : CString} {st : SmState}
    (ho : q.originateOrigin lib env sender recipient text s = some st) : st = s := by
  unfold originateOrigin at ho
  split at ho
  · split at ho
    · exact (Option.some.inj ho).symm
    · cases ho
  · cases ho

theorem bounceOrigin_state {errstr : CString} {st : SmState}
    (ho : q.bounceOrigin lib env m errstr = some st) :
    st = .requestDestinationImsi ∨ st = .requestDestinationSipurl := by
  unfold bounceOrigin at ho
  split at ho
  · rw [originateOrigin_eq ho]
    unfold bounceState
    split
    · exact .inr rfl
    · exact .inl rfl
  · cases ho

theorem registerOrigin_state {st : SmState} (ho : q.registerOrigin lib env m = some st) :
    st = .requestMsgDelivery := by
  unfold registerOrigin at ho
  split at ho
  · split at ho
    · exact (Option.some.inj ho).symm
    · cases ho
  · cases ho

theorem afterShortCode_state {st : SmState} (ho : (q.afterShortCode lib env m).2 = some st) :
    st = .requestDestinationSipurl ∨ st = .requestMsgDelivery := by
  unfold afterShortCode at ho
  split at ho
  · unfold resultOrigin at ho
    split at ho
    · split at ho
      · exact .inl (originateOrigin_eq ho)
      · cases ho
    · exact .inr (registerOrigin_state ho)
    · cases ho
  · cases ho

/-! ## Responses -/

theorem restarted_some {sent old : ShortMsgPending} (ho : q.restarted lib sent = some old) :
    old ∈ q.timeSortedList ∧ underRegistration old.state = true := by
  unfold restarted at ho
  split at ho
  · split at ho
    · obtain ⟨hlink, hu⟩ := Option.filter_eq_some_iff.1 ho
      unfold getLink at hlink
      obtain ⟨tag, -, hfind⟩ := Option.bind_eq_some_iff.1 hlink
      exact ⟨(findQueuedMsgByTag_some hfind).1, hu⟩
    · cases ho
  · cases ho

theorem answered_turned {sent : ShortMsgPending} {response : SipMessage} (hd : q.Distinct)
    (hs : sent ∈ (q.remove h.id).timeSortedList) (ha : q.Answers h response sent.id)
    (hq : (q.remove h.id).handleStatus lib env response sent = .ok q') :
    Turned lib env q h (q.remove h.id) q' := by
  have hd1 : (q.remove h.id).Distinct := (Effect.removed hd).distinct
  have hstate : (q.remove h.id).HasState sent.id sent.state := hasState_self hd1 hs
  have hacked : postpones response.statusCode →
      (q.remove h.id).increaseAckedMsgTimeout env sent = .ok q' →
      Turned lib env q h (q.remove h.id) q' := by
    intro hc hq
    refine .retimed (setStateInPlaceAt_ok hq).1 fun e he hid => ?_
    rw [← hstate e he hid]
    exact .postponed (hid ▸ ha) hc
  have hredirected : redirects response.statusCode →
      (q.remove h.id).setStateInPlace sent.id .requestDestinationImsi env.clock.first = .ok q' →
      Turned lib env q h (q.remove h.id) q' := by
    intro hc hq
    refine .retimed (setStateInPlace_answered hd1 hs hq).1 fun e he hid => ?_
    unfold dueIn
    rw [← hstate e he hid]
    exact .redirected (hid ▸ ha) hc
  unfold SMq.handleStatus at hq
  dsimp only at hq
  split at hq
  case h_1 hcode => exact hacked (.inl hcode) hq
  case h_2 hcode =>
    obtain ⟨q2, rfl, hag, -⟩ := handleSuccess_removed hd1 hs hq
    refine Turned.trans ?_ (.remove q2 sent.id)
    cases hold : (q.remove h.id).restarted lib sent with
    | none =>
      rw [hold] at hag
      exact .of_agenda hag
    | some old =>
      rw [hold] at hag
      obtain ⟨hmem, hu⟩ := restarted_some hold
      refine .retimed hag fun e he hid => ?_
      have hest : e.state = old.state := hasState_self hd1 hmem e he hid
      unfold dueIn
      rw [← hest] at hu ⊢
      exact .restarted (.mk hs ha hcode hold hid.symm) hu
  case h_3 hcode =>
    split at hq
    case isTrue hretry => exact hacked (.inr (.inr ⟨hcode, hretry⟩)) hq
    case isFalse hretry =>
      obtain ⟨⟨next, q1⟩, hb, hq⟩ := Except.bind_eq_ok.1 hq
      obtain ⟨hp, rfl⟩ := bounceMessage_ok hb
      have hpushed : Turned lib env q h (q.remove h.id) q1 := by
        refine .of_pushed hp rfl rfl fun st hst => ?_
        rcases bounceOrigin_state hst with hst | hst
        · exact .inl hst
        · exact .inr (.inl hst)
      have hlt : sent.id < (q.remove h.id).nextId :=
        hd1.lt_nextId _ (Agenda.mem_ids.2 ⟨_, mem_agenda hs, rfl⟩)
      have hstate1 : q1.HasState sent.id sent.state := hstate.of_pushed hp hlt
      refine hpushed.trans ?_
      obtain ⟨x, hx, hag, -⟩ := setStateInPlace_ok hq
      have hxs : x.state = sent.state :=
        hstate1 x.entry (mem_agenda (find_some hx).1) (find_some hx).2
      have hset : q1.settings = q.settings := hp.settings
      rw [hxs, hset] at hag
      refine .retimed hag fun e he hid => ?_
      rw [← hstate1 e he hid]
      exact .rejected (hid ▸ ha) ⟨hcode, hretry⟩ (bouncedState_or _)
  case h_4 hcode => exact hacked (.inr (.inl hcode)) hq
  case h_5 hcode => exact hredirected (.inl hcode) hq
  case h_6 hcode => exact hredirected (.inr hcode) hq
  case h_7 =>
    cases hq
    exact .refl _

theorem handleResponse_turned (hd : q.Distinct) (hs : h.state = .initialState)
    (hr : h.parsed.any SipMessage.isResponse = true)
    (hq : q.handleResponse lib env h = .ok q') : Turned lib env q h q q' := by
  unfold SMq.handleResponse at hq
  obtain ⟨tag, htag, hq⟩ := Except.bind_eq_ok.1 hq
  have hremove : Turned lib env q h q (q.remove h.id) := .remove q h.id
  cases hfind : (q.remove h.id).findQueuedMsgByTag tag with
  | none =>
    rw [hfind] at hq
    cases hq
    exact hremove
  | some sent =>
    rw [hfind] at hq
    obtain ⟨response, hresp, hq⟩ := Except.bind_eq_ok.1 hq
    have hparsed := deref_eq_ok hresp
    rw [hparsed] at hr
    have hsel : sent ∈ q.selected h := by
      unfold selected
      rw [deref_eq_ok htag]
      exact hfind
    exact hremove.trans (answered_turned hd (findQueuedMsgByTag_some hfind).1
      ⟨hs, by simpa using hr, hparsed, sent, hsel, rfl⟩ hq)

/-! ## The cases of `process_timeout` -/

theorem Reached.processFromLookup (hr : Reached lib env q0 h q a) (hd : q.Distinct)
    (hm : m ∈ q.timeSortedList) (hid : m.id = h.id)
    (hcall : ∀ s, s = .noState ∨ s = .requestDestinationImsi → (a, s) ∈ h.state.calls)
    (hq : q.processFromLookup lib env m = .ok q') : Turned lib env q0 h q0 q' := by
  obtain ⟨⟨next, sm⟩, hlook, hq⟩ := Except.bind_eq_ok.1 hq
  have hstored : Reached lib env q0 h (q.store { m with toShortMsg := sm }) a :=
    hr.of_agenda (agenda_store_same hd.nodup hm rfl) (store_frame _ _)
  exact (hstored.setState (hcall next (lookupFromAddress_next hlook)) (.inr rfl) (hid ▸ hq)).turned

theorem Reached.sendPacked (hr : Reached lib env q0 h q .requestMsgDelivery) (hd : q.Distinct)
    (hm : m ∈ q.timeSortedList) (hid : m.id = h.id) (hdel : delivers h.state = true)
    (hq : q.sendPacked lib env m = .ok q') : Turned lib env q0 h q0 q' := by
  have hcalls : ∀ s, s = .noState ∨ s = .deleteMeState ∨ s = .askedForMsgDelivery →
      (SmState.requestMsgDelivery, s) ∈ h.state.calls := by
    intro s hs
    cases hst : h.state <;> simp [hst, delivers, SmState.calls] at hdel ⊢ <;> exact hs
  unfold SMq.sendPacked at hq
  by_cases hmax : env.config.maxRetries ≠ 0 ∧ env.config.maxRetries < m.retries
  · rw [if_pos hmax] at hq
    exact (hr.setState (hcalls _ (.inr (.inl rfl))) (.inr rfl) (hid ▸ hq)).turned
  · rw [if_neg hmax] at hq
    by_cases hsoon : q.tooSoon env = true
    · rw [if_pos hsoon] at hq
      obtain rfl := Except.pure_eq_ok.1 hq
      refine hr.turned.trans (.retimed (agenda_store q { m with
        nextActionTime := m.nextActionTime + msSMSRateLimit env.config }) fun e he heid => ?_)
      have hst : e.state = .requestMsgDelivery := hr.state e he (heid.trans hid)
      have hme : m.entry = e := by
        refine find_entry hd.nodup (find_mem hd.nodup hm) he heid
      have hms : m.state = e.state := congrArg Agenda.Entry.state hme
      have hdue : m.nextActionTime = e.due := congrArg Agenda.Entry.due hme
      dsimp only
      rw [hms, hdue]
      exact .delayed (heid.trans hid) hdel hst
    · rw [if_neg hsoon] at hq
      obtain ⟨sm, -, hq⟩ := Except.bind_eq_ok.1 hq
      have hstored : Reached lib env q0 h (q.store { m with toShortMsg := sm })
          .requestMsgDelivery :=
        hr.of_agenda (agenda_store_same hd.nodup hm rfl) (store_frame _ _)
      have hsent : Reached lib env q0 h { q.store { m with toShortMsg := sm } with
          spacingTimer := q.spacingAt env
          delivered := ⟨m.id, q.spacingAt env, env.clock.sending⟩ :: q.delivered }
            .requestMsgDelivery :=
        hstored.of_agenda rfl ⟨rfl, rfl, rfl⟩
      exact (hsent.setState (hcalls _ (.inr (.inr rfl))) (.inr rfl) (hid ▸ hq)).turned

theorem Reached.processDelivery (hr : Reached lib env q0 h q .requestMsgDelivery) (hd : q.Distinct)
    (hm : m ∈ q.timeSortedList) (hid : m.id = h.id) (hdel : delivers h.state = true)
    (hq : q.processDelivery lib env m = .ok q') : Turned lib env q0 h q0 q' := by
  unfold SMq.processDelivery at hq
  obtain ⟨⟨ok, sm⟩, -, hq⟩ := Except.bind_eq_ok.1 hq
  have hag : (q.store { m with toShortMsg := sm, retries := m.retries + 1 }).agenda = q.agenda :=
    agenda_store_same hd.nodup hm rfl
  have hstored := hr.of_agenda hag (store_frame _ _)
  have hd' : (q.store { m with toShortMsg := sm, retries := m.retries + 1 }).Distinct :=
    (Moved.of_agenda (h := m.id) hag (store_frame _ _)).distinct hd
  cases ok with
  | false =>
    have hcall : (SmState.requestMsgDelivery, SmState.noState) ∈ h.state.calls := by
      cases hst : h.state <;> simp [hst, delivers, SmState.calls] at hdel ⊢
    exact (hstored.setState hcall (.inr rfl) (hid ▸ hq)).turned
  | true =>
    have hmem : { m with toShortMsg := sm, retries := m.retries + 1 } ∈
        (q.store { m with toShortMsg := sm, retries := m.retries + 1 }).timeSortedList :=
      List.mem_map.2 ⟨m, hm, if_pos rfl⟩
    exact hstored.sendPacked hd' hmem hid hdel hq

theorem Reached.processRegister (hr : Reached lib env q0 h q .registerHandset)
    (hnext : q.nextId = q0.nextId) (hi : h.id < q.nextId) (hid : m.id = h.id)
    (hcall : ∀ s, s = .deleteMeState ∨ s = .askedToRegisterHandset →
      (SmState.registerHandset, s) ∈ h.state.calls)
    (hq : q.processRegister lib env m = .ok q') : Turned lib env q0 h q0 q' := by
  obtain ⟨⟨next, q1⟩, hreg, hq⟩ := Except.bind_eq_ok.1 hq
  have hpushed := hr.pushed (registerHandset_ok hreg) hnext hi fun st hst =>
    .inr (.inr (registerOrigin_state hst))
  exact (hpushed.setState (hcall next (registerHandset_next hreg)) (.inr rfl) (hid ▸ hq)).turned

theorem processInitial_turned (hd : q.Distinct) (hh : h ∈ q.timeSortedList)
    (hs : h.state = .initialState) (hq : q.processInitial lib env h = .ok q') :
    Turned lib env q h q q' := by
  have hstart : Reached lib env q h q h.state := .start hd hh
  rw [hs] at hstart
  unfold SMq.processInitial at hq
  obtain ⟨sip, hsip, hq⟩ := Except.bind_eq_ok.1 hq
  by_cases hreq : sip.isRequest = true
  · rw [if_pos hreq] at hq
    obtain ⟨eq, -, hq⟩ := Except.bind_eq_ok.1 hq
    cases eq with
    | false =>
      refine (hstart.setState ?_ (.inr rfl) hq).turned
      rw [hs]
      decide
    | true =>
      obtain ⟨⟨next, q1⟩, hcode, hq⟩ := Except.bind_eq_ok.1 hq
      obtain ⟨⟨gone, hran, -⟩, hp⟩ := handleShortCode_ok hd.nodup hh hcode
      have hlt : h.id < q.nextId := hd.lt_nextId _ (Agenda.mem_ids.2 ⟨_, mem_agenda hh, rfl⟩)
      have hafter : Reached lib env q h (q.afterShortCode lib env h).1 .initialState :=
        ⟨.of_ran hran, hstart.state.of_ran hran, hran.frame.settings⟩
      have hpushed := hafter.pushed hp hran.frame.nextId (hran.frame.nextId ▸ hlt) fun st hst =>
        .inr (afterShortCode_state hst)
      refine (hpushed.setState ?_ (.inr rfl) hq).turned
      rw [hs]
      exact handleShortCode_next hcode
  · rw [if_neg hreq] at hq
    refine handleResponse_turned hd hs ?_ hq
    rw [deref_eq_ok hsip]
    simpa [SipMessage.isRequest] using hreq

/-- The two calls of `set_state` on a head in a state without a case are one step. -/
theorem reset_turned (hd : q.Distinct) (hh : h ∈ q.timeSortedList) (hcase : h.state.hasCase = false)
    (hs : q.setState h.id .initialState env.clock.first = .ok q1) (hm : q1.msg h.id = .ok m)
    (hq : q1.processFromLookup lib env m = .ok q') : Turned lib env q h q q' := by
  obtain ⟨hmem, hid⟩ := find_some (msg_ok hm)
  have hd1 : q1.Distinct := ((Moved.refl q h.id).setState hd hs).distinct hd
  obtain ⟨⟨next, sm⟩, hlook, hq⟩ := Except.bind_eq_ok.1 hq
  have hag : (q1.store { m with toShortMsg := sm }).agenda = q1.agenda :=
    agenda_store_same hd1.nodup hmem rfl
  have hstate : (q1.store { m with toShortMsg := sm }).HasState h.id .initialState :=
    (HasState.setState hs).of_agenda hag
  obtain ⟨x0, hx0, ha0, hf0⟩ := setState_ok hs
  obtain ⟨x, hx, ha, -⟩ := setState_ok hq
  have hxid : x.id = h.id := (find_some hx).2.trans hid
  have hxs : x.state = .initialState := hstate x.entry (mem_agenda (find_some hx).1) hxid
  have hset : (q1.store { m with toShortMsg := sm }).settings = q.settings := hf0.settings
  have hm1 : m.id ∈ Agenda.ids (q1.store { m with toShortMsg := sm }).agenda := mem_ids_agenda hx
  refine Evolves.changed fun e he => ?_
  rw [ha, Agenda.requeue, if_pos hm1, hxs, hset, hag, hid] at he
  rcases (List.mem_orderedInsert _).1 he with rfl | he
  · exact .inr ⟨h.entry, mem_agenda hh, .reset rfl hcase (lookupFromAddress_next hlook)⟩
  · obtain ⟨he, hne⟩ := List.mem_filter.1 he
    rw [ha0, Agenda.requeue, if_pos (mem_ids_agenda hx0)] at he
    rcases (List.mem_orderedInsert _).1 he with rfl | he
    · exact absurd rfl (of_decide_eq_true hne)
    · exact .inl (List.mem_of_mem_filter he)

/-- What the case for the state of the head makes of the places in the queue. -/
theorem dispatch_turned (hd : q.Distinct) (hh : h ∈ q.timeSortedList)
    (hq : q.dispatch lib env h = .ok q') : Turned lib env q h q q' := by
  have hlt : h.id < q.nextId := hd.lt_nextId _ (Agenda.mem_ids.2 ⟨_, mem_agenda hh, rfl⟩)
  have hstart : Reached lib env q h q h.state := .start hd hh
  have hstored : ∀ {x : ShortMsgPending}, x.entry = h.entry →
      Reached lib env q h (q.store x) h.state := fun hx =>
    hstart.of_agenda (agenda_store_same hd.nodup hh hx) (store_frame _ _)
  cases dispatch_steps hq with
  | initial hs hq => exact processInitial_turned hd hh hs hq
  | finished hs hq =>
    subst hq
    exact .remove q h.id
  | lookedUpFrom hs hq =>
    rw [hs] at hstart
    refine hstart.processFromLookup hd hh rfl (fun s hnext => ?_) hq
    rw [hs]
    rcases hnext with rfl | rfl <;> decide
  | @foundImsi next sm hs hl hq =>
    have hsm : Reached lib env q h (q.store { h with toShortMsg := sm }) h.state := hstored rfl
    refine (hsm.setState ?_ (.inr rfl) hq).turned
    rw [hs]
    rcases lookupUriImsi_next hl with rfl | rfl <;> decide
  | @notLocated next sm q1 hs hl hb hq =>
    obtain ⟨hp, hnext⟩ := bounceMessage_ok hb
    have hcall : (h.state, next) ∈ h.state.calls := by
      rw [hs, hnext]
      rcases bouncedState_or _ with hb | hb <;> rw [hb] <;> decide
    have hsm : Reached lib env q h (q.store { h with toShortMsg := sm }) h.state := hstored rfl
    have hpushed := hsm.pushed hp rfl hlt fun st hst => by
      rcases bounceOrigin_state hst with hst | hst
      · exact .inl hst
      · exact .inr (.inl hst)
    exact (hpushed.setState hcall (.inr rfl) hq).turned
  | foundHostport hs hl hq =>
    refine ((hstored (lookupUriHostport_entry hl)).setState ?_ (.inr rfl) hq).turned
    rw [hs]
    rcases lookupUriHostport_next hl with rfl | rfl <;> decide
  | delivered hs hq =>
    rw [hs] at hstart
    exact hstart.processDelivery hd hh rfl (by rw [hs]; rfl) hq
  | @redelivered q1 m1 hs hset hm1 hq =>
    obtain ⟨hmem1, hid⟩ := find_some (msg_ok hm1)
    have hready : Reached lib env q h q1 .requestMsgDelivery := by
      refine hstart.setState ?_ (.inl rfl) hset
      rw [hs]
      decide
    have hd1 : q1.Distinct := ((Moved.refl q h.id).setState hd hset).distinct hd
    exact hready.processDelivery hd1 hmem1 hid (by rw [hs]; rfl) hq
  | unanswered hs hq =>
    refine (hstart.setState ?_ (.inr rfl) hq).turned
    rw [hs]
    decide
  | awaitedRegister hs hq =>
    unfold SMq.processAwaitingRegister at hq
    obtain ⟨⟨ready, m'⟩, hready, hq⟩ := Except.bind_eq_ok.1 hq
    have hentry := readyToRegister_entry hready
    have hid : m'.id = h.id := congrArg Agenda.Entry.id hentry
    cases ready with
    | false =>
      have hq : (q.store m').setState m'.id .awaitingRegisterHandset env.clock.final = .ok q' := hq
      refine ((hstored hentry).setState ?_ (.inr rfl) (hid ▸ hq)).turned
      rw [hs]
      decide
    | true =>
      obtain ⟨q1, hset, hq⟩ := Except.bind_eq_ok.1 hq
      obtain ⟨m1, hm1, hq⟩ := Except.bind_eq_ok.1 hq
      obtain ⟨hmem1, hid1⟩ := find_some (msg_ok hm1)
      have hregister : Reached lib env q h q1 .registerHandset := by
        refine (hstored hentry).setState ?_ (.inl rfl) (hid ▸ hset)
        rw [hs]
        decide
      have hnext : q1.nextId = q.nextId := by
        obtain ⟨-, -, -, hf⟩ := setState_ok hset
        exact hf.nextId
      refine hregister.processRegister hnext (hnext ▸ hlt) (hid1.trans hid) (fun s hnext => ?_) hq
      rw [hs]
      rcases hnext with rfl | rfl <;> decide
  | registered hs hq =>
    rw [hs] at hstart
    refine hstart.processRegister rfl hlt rfl (fun s hnext => ?_) hq
    rw [hs]
    rcases hnext with rfl | rfl <;> decide
  | unregistered hs hq =>
    refine (hstart.setState ?_ (.inr rfl) hq).turned
    rw [hs]
    decide
  | reset hs hset hm1 hq => exact reset_turned hd hh hs hset hm1 hq

/-- What a pass makes of the places in the queue. -/
theorem processTimeout_turned (hd : q.Distinct) (hq : q.processTimeout lib env = .ok q') :
    q' = q ∨ ∃ h, q.timeSortedList.head? = some h ∧ h.nextActionTime ≤ env.clock.entry ∧
      Turned lib env q h q q' := by
  unfold SMq.processTimeout at hq
  split at hq
  · cases hq
    exact .inl rfl
  · rename_i h rest hl
    split at hq
    · cases hq
      exact .inl rfl
    · rename_i hdue
      have hh : h ∈ q.timeSortedList := hl ▸ List.mem_cons_self
      exact .inr ⟨h, by rw [hl]; rfl, Int.not_lt.1 hdue, dispatch_turned hd hh hq⟩

end SMq

end Smqueue

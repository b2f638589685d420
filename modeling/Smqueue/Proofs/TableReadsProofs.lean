import Smqueue.TableReads
import Smqueue.Proofs.TransitionsProofs

/-!
# Proofs: the table of timeouts in memory

A pass reads inside the table as long as all messages are in states with a case. With debug messages
it does so if it calls `set_state` for `NO_STATE` at most.
-/

namespace Smqueue

variable {lib : Libs} {env : Env} {q0 q q1 q2 q' : SMq} {h m m' : ShortMsgPending} {i : MsgId}
  {s a : SmState} {now : Time}

/-! ## The states with a case -/

theorem SmState.inTable_of_hasCase (hs : s.hasCase = true) : s.InTable := by
  cases s <;> first | cases hs; done | decide

/-- Every row of the table has an entry for every state. -/
theorem timeoutRows_square : ∀ row ∈ timeoutRows, row.length = timeoutRows.length := by decide

/-- The case for a state calls `set_state` with states that have a case only. -/
theorem SmState.calls_hasCase (hs : s.hasCase = true) : ∀ c ∈ s.calls, c.2.hasCase = true := by
  cases s <;> first | cases hs; done | decide

namespace SMq

/-! ## Reads -/

/-- All queued messages are in states with a case. -/
def HasCases (q : SMq) : Prop := ∀ e ∈ q.agenda, e.state.hasCase = true

theorem HasCases.inTable (hc : q.HasCases) (hm : m ∈ q.timeSortedList) : m.state.InTable :=
  SmState.inTable_of_hasCase (hc m.entry (mem_agenda hm))

theorem LooksInside.of_reads (h : q'.tableReads = q.tableReads) : LooksInside q q' :=
  fun _ hr => .inl (h ▸ hr)

theorem LooksInside.trans (h : LooksInside q q1) (h' : LooksInside q1 q2) : LooksInside q q2 := by
  intro r hr
  rcases h' r hr with hr | hr
  · exact h r hr
  · exact .inr hr

/-- What a call of `set_state` on a message in the state `a` reads. -/
theorem LooksInside.readTable (ha : a.InTable) (hs : s.InTable)
    (hlogs : q.settings.logsDebug = true → s = .noState)
    (hr : q'.tableReads = (q.readTable a s).tableReads) : LooksInside q q' := by
  intro r hmem
  rw [hr] at hmem
  rcases List.mem_append.1 hmem with hmem | hmem
  · by_cases hdebug : q.settings.logsDebug = true
    · rw [if_pos hdebug] at hmem
      obtain rfl := List.mem_singleton.1 hmem
      exact .inr ⟨ha, congrArg SmState.toNat (hlogs hdebug)⟩
    · rw [if_neg hdebug] at hmem
      cases hmem
  · rcases List.mem_cons.1 hmem with rfl | hmem
    · exact .inr ⟨ha, hs⟩
    · exact .inl hmem

/-- A message that a pass inserts was in no state before. -/
theorem LooksInside.of_pushed {fresh : Option SmState} (hp : Pushed env q q' fresh)
    (hfresh : ∀ st ∈ fresh, st.InTable)
    (hlogs : q.settings.logsDebug = true → fresh = none) : LooksInside q q' := by
  have hr := hp.reads
  cases fresh with
  | none => exact .of_reads hr
  | some st =>
    exact .readTable (by decide) (hfresh st rfl) (fun hdebug => nomatch hlogs hdebug) hr

/-- A part of a pass from `q0` has led to `q`, with the message `i` in the state `a`, and has read
inside the table. -/
structure Looked (q0 : SMq) (i : MsgId) (q : SMq) (a : SmState) : Prop where
  looks : LooksInside q0 q
  state : q.HasState i a
  settings : q.settings = q0.settings

theorem Looked.start (hd : q.Distinct) (hm : m ∈ q.timeSortedList) : Looked q m.id q m.state :=
  ⟨.of_reads rfl, hasState_self hd hm, rfl⟩

theorem Looked.of_agenda (hl : Looked q0 i q a) (ha : q'.agenda = q.agenda) (hf : Frame q q')
    (hr : q'.tableReads = q.tableReads) : Looked q0 i q' a :=
  ⟨hl.looks.trans (.of_reads hr), hl.state.of_agenda ha, hf.settings.trans hl.settings⟩

theorem Looked.pushed {fresh : Option SmState} (hl : Looked q0 i q a) (hp : Pushed env q q' fresh)
    (hi : i < q.nextId) (hfresh : ∀ st ∈ fresh, st.InTable)
    (hlogs : q0.settings.logsDebug = true → fresh = none) : Looked q0 i q' a := by
  refine ⟨hl.looks.trans (.of_pushed hp hfresh fun hdebug => hlogs ?_), hl.state.of_pushed hp hi,
    hp.settings.trans hl.settings⟩
  rw [← hl.settings]
  exact hdebug

theorem Looked.setState (hl : Looked q0 i q a) (ha : a.InTable) (hs : s.InTable)
    (hlogs : q0.settings.logsDebug = true → s = .noState) (hq : q.setState i s now = .ok q') :
    Looked q0 i q' s := by
  obtain ⟨x, hx, hr⟩ := setState_reads hq
  obtain ⟨-, -, -, hf⟩ := setState_ok hq
  have hxs : x.state = a := hl.state x.entry (mem_agenda (find_some hx).1) (find_some hx).2
  refine ⟨hl.looks.trans (.readTable ha hs (fun hdebug => hlogs ?_) (hxs ▸ hr)), .setState hq,
    hf.settings.trans hl.settings⟩
  rw [← hl.settings]
  exact hdebug

theorem Looked.setStateInPlace (hl : Looked q0 i q a) (ha : a.InTable) (hs : s.InTable)
    (hlogs : q0.settings.logsDebug = true → s = .noState)
    (hq : q.setStateInPlace i s now = .ok q') : LooksInside q0 q' := by
  obtain ⟨x, hx, hr⟩ := setStateInPlace_reads hq
  have hxs : x.state = a := hl.state x.entry (mem_agenda (find_some hx).1) (find_some hx).2
  refine hl.looks.trans (.readTable ha hs (fun hdebug => hlogs ?_) (hxs ▸ hr))
  rw [← hl.settings]
  exact hdebug

/-! ## The next states -/

theorem inTable_of_terminal (hs : s = .noState ∨ s = .deleteMeState) : s.InTable := by
  rcases hs with rfl | rfl <;> decide

theorem bounceOrigin_inTable {errstr : CString} {st : SmState}
    (ho : q.bounceOrigin lib env m errstr = some st) : st.InTable := by
  rcases bounceOrigin_state ho with rfl | rfl <;> decide

/-- A command after which the message is of no use has inserted no message. -/
theorem finishShortCode_noState {r : ShortCodeResult}
    (hq : finishShortCode lib env i r = .ok (some .noState, q')) :
    resultOrigin lib env i r = none := by
  unfold finishShortCode at hq
  unfold resultOrigin
  cases ha : r.action <;> rw [ha] at hq <;> dsimp only at hq ⊢
  case reply =>
    obtain ⟨x, hx, hq⟩ := Except.bind_eq_ok.1 hq
    obtain ⟨⟨shortcode, imsi⟩, haddr, hq⟩ := Except.bind_eq_ok.1 hq
    obtain ⟨⟨ok, q1⟩, ho, hq⟩ := Except.bind_eq_ok.1 hq
    obtain ⟨-, hok⟩ := originateSm_ok ho
    rw [msg_ok hx]
    dsimp only
    rw [haddr]
    cases hor : r.queue.originateOrigin lib env shortcode imsi r.reply .requestDestinationSipurl with
    | none => exact hor
    | some st =>
      rw [hor] at hok
      subst hok
      cases hq
  case register =>
    obtain ⟨x, -, hq⟩ := Except.bind_eq_ok.1 hq
    obtain ⟨⟨st, q1⟩, hreg, hq⟩ := Except.bind_eq_ok.1 hq
    cases hq
    rcases registerHandset_next hreg with hst | hst <;> cases hst

theorem handleShortCode_noState (hq : q.handleShortCode lib env m = .ok (some .noState, q')) :
    (q.afterShortCode lib env m).2 = none := by
  unfold handleShortCode at hq
  unfold afterShortCode
  obtain ⟨res, hres, hq⟩ := Except.bind_eq_ok.1 hq
  rw [hres]
  cases res with
  | none => rfl
  | some r => exact finishShortCode_noState hq

/-! ## Responses -/

theorem StatusLogsInside.looks {sent : ShortMsgPending} {response : SipMessage} (hd : q.Distinct)
    (hc : q.HasCases) (hs : sent ∈ q.timeSortedList)
    (hlogs : q.settings.logsDebug = true → q.StatusLogsInside lib env response sent)
    (hq : q.handleStatus lib env response sent = .ok q') : LooksInside q q' := by
  have hstart : Looked q sent.id q sent.state := .start hd hs
  have hin : sent.state.InTable := hc.inTable hs
  unfold StatusLogsInside at hlogs
  unfold SMq.handleStatus at hq
  dsimp only at hq
  split at hq
  case h_1 => exact .of_reads (setStateInPlaceAt_reads hq)
  case h_2 hcode =>
    rw [hcode] at hlogs
    obtain ⟨q2, rfl, -, -, hr⟩ := handleSuccess_removed hd hs hq
    cases hold : q.restarted lib sent with
    | none =>
      rw [hold] at hr
      exact .of_reads hr
    | some old =>
      rw [hold] at hr hlogs
      have hold' : old.state.InTable := hc.inTable (restarted_some hold).1
      exact .readTable hold' (by decide) (fun hdebug => nomatch hlogs hdebug) hr
  case h_3 hcode =>
    rw [hcode] at hlogs
    split at hq
    case isTrue => exact .of_reads (setStateInPlaceAt_reads hq)
    case isFalse hretry =>
      have hnone : q.settings.logsDebug = true →
          q.bounceOrigin lib env sent (errorText response) = none := by
        intro hdebug
        rcases hlogs hdebug with h480 | h486 | hnone
        · exact absurd (.inl h480) hretry
        · exact absurd (.inr h486) hretry
        · exact hnone
      obtain ⟨⟨next, q1⟩, hb, hq⟩ := Except.bind_eq_ok.1 hq
      obtain ⟨hp, hnext⟩ := bounceMessage_ok hb
      have hlt : sent.id < q.nextId :=
        hd.lt_nextId _ (Agenda.mem_ids.2 ⟨_, mem_agenda hs, rfl⟩)
      have hpushed := hstart.pushed hp hlt (fun _ hst => bounceOrigin_inTable hst) hnone
      refine hpushed.setStateInPlace hin ?_ (fun hdebug => ?_) hq
      · exact inTable_of_terminal (hnext ▸ bouncedState_or _)
      · rw [hnext]
        exact congrArg bouncedState (hnone hdebug)
  case h_4 => exact .of_reads (setStateInPlaceAt_reads hq)
  case h_5 hcode =>
    rw [hcode] at hlogs
    exact hstart.setStateInPlace hin (by decide) (fun hdebug => (hlogs hdebug).elim) hq
  case h_6 hcode =>
    rw [hcode] at hlogs
    exact hstart.setStateInPlace hin (by decide) (fun hdebug => (hlogs hdebug).elim) hq
  case h_7 =>
    cases hq
    exact .of_reads rfl

theorem ResponseLogsInside.looks (hd : q.Distinct) (hc : q.HasCases)
    (hlogs : q.settings.logsDebug = true → q.ResponseLogsInside lib env h)
    (hq : q.handleResponse lib env h = .ok q') : LooksInside q q' := by
  unfold SMq.handleResponse at hq
  obtain ⟨tag, htag, hq⟩ := Except.bind_eq_ok.1 hq
  cases hfind : (q.remove h.id).findQueuedMsgByTag tag with
  | none =>
    rw [hfind] at hq
    cases hq
    exact .of_reads rfl
  | some sent =>
    rw [hfind] at hq
    obtain ⟨response, hresp, hq⟩ := Except.bind_eq_ok.1 hq
    have hcases : (q.remove h.id).HasCases := by
      intro e he
      rw [agenda_remove] at he
      exact hc e (List.mem_of_mem_filter he)
    refine StatusLogsInside.looks (q := q.remove h.id) (Effect.removed hd).distinct hcases
      (findQueuedMsgByTag_some hfind).1 (fun hdebug => ?_) hq
    exact hlogs hdebug tag (deref_eq_ok htag) response (deref_eq_ok hresp) sent hfind

/-! ## The cases of `process_timeout` -/

theorem Looked.processInitial (hd : q.Distinct) (hc : q.HasCases) (hh : h ∈ q.timeSortedList)
    (hs : h.state = .initialState)
    (hlogs : q.settings.logsDebug = true → q.DispatchLogsInside lib env h)
    (hq : q.processInitial lib env h = .ok q') : LooksInside q q' := by
  have hstart : Looked q h.id q h.state := .start hd hh
  unfold DispatchLogsInside at hlogs
  rw [hs] at hstart hlogs
  unfold SMq.processInitial at hq
  obtain ⟨sip, hsip, hq⟩ := Except.bind_eq_ok.1 hq
  have hparsed := deref_eq_ok hsip
  have hresponds : respondsTo h.toShortMsg = !sip.isRequest := by
    unfold respondsTo SipMessage.isRequest
    rw [hparsed]
    simp
  by_cases hreq : sip.isRequest = true
  · rw [if_pos hreq] at hq
    rw [hresponds, hreq] at hlogs
    obtain ⟨eq, hmethod, hq⟩ := Except.bind_eq_ok.1 hq
    cases eq with
    | false => exact (hstart.setState (by decide) (by decide) (fun _ => rfl) hq).looks
    | true =>
      have hmessage : methodOf h.toShortMsg = some (str "MESSAGE") := by
        obtain ⟨x, hx, hmethod⟩ := Except.bind_eq_ok.1 hmethod
        obtain rfl : x = str "MESSAGE" := of_decide_eq_true (Except.pure_eq_ok.1 hmethod)
        unfold methodOf
        rw [hparsed]
        exact deref_eq_ok hx
      obtain ⟨⟨next, q1⟩, hcode, hq⟩ := Except.bind_eq_ok.1 hq
      have hnext : q.settings.logsDebug = true → next = some .noState := by
        intro hdebug
        have hall := hlogs hdebug
        rw [if_neg (by decide), if_pos hmessage] at hall
        exact hall next q1 hcode
      obtain ⟨⟨gone, hran, -⟩, hp⟩ := handleShortCode_ok hd.nodup hh hcode
      have hlt : h.id < q.nextId := hd.lt_nextId _ (Agenda.mem_ids.2 ⟨_, mem_agenda hh, rfl⟩)
      have hafter : Looked q h.id (q.afterShortCode lib env h).1 .initialState :=
        ⟨.of_reads hran.reads, hstart.state.of_ran hran, hran.frame.settings⟩
      have hpushed := hafter.pushed hp (hran.frame.nextId ▸ hlt)
        (fun st hst => by rcases afterShortCode_state hst with rfl | rfl <;> decide)
        (fun hdebug => by
          obtain rfl := hnext hdebug
          exact handleShortCode_noState hcode)
      have hin : (next.getD .requestFromAddressLookup).InTable :=
        SmState.inTable_of_hasCase
          (SmState.calls_hasCase (by decide) _ (handleShortCode_next hcode))
      refine (hpushed.setState (by decide) hin (fun hdebug => ?_) hq).looks
      rw [hnext hdebug]
      rfl
  · rw [if_neg hreq] at hq
    rw [hresponds, Bool.eq_false_iff.2 hreq] at hlogs
    exact ResponseLogsInside.looks hd hc hlogs hq

theorem Looked.sendPacked (hl : Looked q0 m.id q .requestMsgDelivery) (hd : q.Distinct)
    (hm : m ∈ q.timeSortedList)
    (hlogs : q0.settings.logsDebug = true →
      ¬ (env.config.maxRetries ≠ 0 ∧ env.config.maxRetries < m.retries) ∧ q.tooSoon env = true)
    (hq : q.sendPacked lib env m = .ok q') : LooksInside q0 q' := by
  unfold SMq.sendPacked at hq
  by_cases hmax : env.config.maxRetries ≠ 0 ∧ env.config.maxRetries < m.retries
  · rw [if_pos hmax] at hq
    exact (hl.setState (by decide) (by decide) (fun hdebug => absurd hmax (hlogs hdebug).1) hq).looks
  · rw [if_neg hmax] at hq
    by_cases hsoon : q.tooSoon env = true
    · rw [if_pos hsoon] at hq
      obtain rfl := Except.pure_eq_ok.1 hq
      exact hl.looks.trans (.of_reads rfl)
    · rw [if_neg hsoon] at hq
      obtain ⟨sm, -, hq⟩ := Except.bind_eq_ok.1 hq
      have hstored : Looked q0 m.id (q.store { m with toShortMsg := sm }) .requestMsgDelivery :=
        hl.of_agenda (agenda_store_same hd.nodup hm rfl) (store_frame _ _) rfl
      have hsent : Looked q0 m.id { q.store { m with toShortMsg := sm } with
          spacingTimer := q.spacingAt env
          delivered := ⟨m.id, q.spacingAt env, env.clock.sending⟩ :: q.delivered }
            .requestMsgDelivery :=
        hstored.of_agenda rfl ⟨rfl, rfl, rfl⟩ rfl
      exact (hsent.setState (by decide) (by decide)
        (fun hdebug => absurd (hlogs hdebug).2 hsoon) hq).looks

theorem Looked.processDelivery (hl : Looked q0 m.id q .requestMsgDelivery) (hd : q.Distinct)
    (hm : m ∈ q.timeSortedList)
    (hlogs : q0.settings.logsDebug = true → ∀ sm,
      m.toShortMsg.packSmsForDelivery lib env = .ok (true, sm) → q.delays lib env m = true)
    (hq : q.processDelivery lib env m = .ok q') : LooksInside q0 q' := by
  unfold SMq.processDelivery at hq
  obtain ⟨⟨ok, sm⟩, hpack, hq⟩ := Except.bind_eq_ok.1 hq
  have hag : (q.store { m with toShortMsg := sm, retries := m.retries + 1 }).agenda = q.agenda :=
    agenda_store_same hd.nodup hm rfl
  have hstored := hl.of_agenda hag (store_frame _ _) rfl
  cases ok with
  | false => exact (hstored.setState (by decide) (by decide) (fun _ => rfl) hq).looks
  | true =>
    have hd' : (q.store { m with toShortMsg := sm, retries := m.retries + 1 }).Distinct :=
      (Moved.of_agenda (h := m.id) hag (store_frame _ _)).distinct hd
    have hmem : { m with toShortMsg := sm, retries := m.retries + 1 } ∈
        (q.store { m with toShortMsg := sm, retries := m.retries + 1 }).timeSortedList :=
      List.mem_map.2 ⟨m, hm, if_pos rfl⟩
    refine Looked.sendPacked (m := { m with toShortMsg := sm, retries := m.retries + 1 }) hstored hd'
      hmem (fun hdebug => ?_) hq
    have hdelays := hlogs hdebug sm hpack
    unfold delays at hdelays
    rw [hpack] at hdelays
    obtain ⟨hmax, hsoon⟩ := Bool.and_eq_true_iff.1 hdelays
    exact ⟨by simpa [or_iff_not_imp_left] using hmax, hsoon⟩

/-- Without debug messages, all states of a registration are in the table. -/
theorem Looked.processRegister (hl : Looked q0 m.id q .registerHandset) (hi : m.id < q.nextId)
    (hlogs : q0.settings.logsDebug ≠ true)
    (hq : q.processRegister lib env m = .ok q') : LooksInside q0 q' := by
  obtain ⟨⟨next, q1⟩, hreg, hq⟩ := Except.bind_eq_ok.1 hq
  have hpushed := hl.pushed (registerHandset_ok hreg) hi
    (fun st hst => by rw [registerOrigin_state hst]; decide) fun hdebug => absurd hdebug hlogs
  have hin : next.InTable := by rcases registerHandset_next hreg with rfl | rfl <;> decide
  exact (hpushed.setState (by decide) hin (fun hdebug => absurd hdebug hlogs) hq).looks

/-- The case for the state of the head reads inside the table. -/
theorem DispatchLogsInside.looks (hd : q.Distinct) (hc : q.HasCases) (hh : h ∈ q.timeSortedList)
    (hlogs : q.settings.logsDebug = true → q.DispatchLogsInside lib env h)
    (hq : q.dispatch lib env h = .ok q') : LooksInside q q' := by
  have hlt : h.id < q.nextId := hd.lt_nextId _ (Agenda.mem_ids.2 ⟨_, mem_agenda hh, rfl⟩)
  have hstart : Looked q h.id q h.state := .start hd hh
  have hcase : h.state.hasCase = true := hc h.entry (mem_agenda hh)
  have hstored : ∀ {x : ShortMsgPending} {a : SmState}, x.entry = h.entry → h.state = a →
      Looked q h.id (q.store x) a := fun hx ha =>
    ha ▸ hstart.of_agenda (agenda_store_same hd.nodup hh hx) (store_frame _ _) rfl
  have hall := hlogs
  unfold DispatchLogsInside at hlogs
  cases dispatch_steps hq with
  | initial hs hq => exact Looked.processInitial hd hc hh hs hall hq
  | finished hs hq =>
    subst hq
    exact .of_reads rfl
  | lookedUpFrom hs hq =>
    rw [hs] at hstart hlogs
    obtain ⟨⟨next, sm⟩, hlook, hq⟩ := Except.bind_eq_ok.1 hq
    dsimp only at hq
    have hsm : Looked q h.id (q.store { h with toShortMsg := sm }) .requestFromAddressLookup :=
      hstored rfl hs
    have hin : next.InTable := by rcases lookupFromAddress_next hlook with rfl | rfl <;> decide
    exact (hsm.setState (by decide) hin (fun hdebug => hlogs hdebug next sm hlook) hq).looks
  | @foundImsi next sm hs hl hq =>
    have hsm : Looked q h.id (q.store { h with toShortMsg := sm }) .requestDestinationImsi :=
      hstored rfl hs
    rw [hs] at hlogs
    have hin : next.InTable := by rcases lookupUriImsi_next hl with rfl | rfl <;> decide
    refine (hsm.setState (by decide) hin (fun hdebug => ?_) hq).looks
    refine hlogs hdebug next (q.store { h with toShortMsg := sm }) ?_
    unfold SMq.lookupUriImsi
    rw [hl]
    rfl
  | @notLocated next sm q1 hs hl hb hq =>
    have hsm : Looked q h.id (q.store { h with toShortMsg := sm }) .requestDestinationImsi :=
      hstored rfl hs
    rw [hs] at hlogs
    have hnext : q.settings.logsDebug = true → next = .noState := by
      intro hdebug
      refine hlogs hdebug next q1 ?_
      unfold SMq.lookupUriImsi
      rw [hl]
      exact hb
    obtain ⟨hp, hstate⟩ := bounceMessage_ok hb
    have hpushed := hsm.pushed hp hlt (fun _ hst => bounceOrigin_inTable hst) fun hdebug => by
      rw [hnext hdebug] at hstate
      cases hor : (q.store { h with toShortMsg := sm }).bounceOrigin lib env
          { h with toShortMsg := sm } env.config.notRegistered with
      | none => rfl
      | some st =>
        rw [hor] at hstate
        cases hstate
    have hin : next.InTable := inTable_of_terminal (hstate ▸ bouncedState_or _)
    exact (hpushed.setState (by decide) hin hnext hq).looks
  | @foundHostport next m' hs hl hq =>
    have hsm : Looked q h.id (q.store m') .requestDestinationSipurl :=
      hstored (lookupUriHostport_entry hl) hs
    rw [hs] at hlogs
    have hin : next.InTable := by rcases lookupUriHostport_next hl with rfl | rfl <;> decide
    exact (hsm.setState (by decide) hin (fun hdebug => hlogs hdebug next m' hl) hq).looks
  | delivered hs hq =>
    rw [hs] at hstart hlogs
    exact hstart.processDelivery hd hh hlogs hq
  | @redelivered q1 m1 hs hset hm1 hq =>
    rw [hs] at hstart hlogs
    obtain ⟨hmem1, hid⟩ := find_some (msg_ok hm1)
    have hd1 : q1.Distinct := ((Moved.refl q h.id).setState hd hset).distinct hd
    have hready := hstart.setState (by decide) (by decide) (fun hdebug => (hlogs hdebug).elim) hset
    rw [← hid] at hready
    exact hready.processDelivery hd1 hmem1 (fun hdebug => (hlogs hdebug).elim) hq
  | unanswered hs hq =>
    rw [hs] at hstart hlogs
    exact (hstart.setState (by decide) (by decide) (fun hdebug => (hlogs hdebug).elim) hq).looks
  | awaitedRegister hs hq =>
    rw [hs] at hlogs
    unfold SMq.processAwaitingRegister at hq
    obtain ⟨⟨ready, m'⟩, hready, hq⟩ := Except.bind_eq_ok.1 hq
    have hentry := readyToRegister_entry hready
    have hid : m'.id = h.id := congrArg Agenda.Entry.id hentry
    have hsm : Looked q h.id (q.store m') .awaitingRegisterHandset := hstored hentry hs
    cases ready with
    | false =>
      rw [← hid] at hsm
      exact (hsm.setState (by decide) (by decide) (fun hdebug => (hlogs hdebug).elim) hq).looks
    | true =>
      obtain ⟨q1, hset, hq⟩ := Except.bind_eq_ok.1 hq
      obtain ⟨m1, hm1, hq⟩ := Except.bind_eq_ok.1 hq
      obtain ⟨-, hid1⟩ := find_some (msg_ok hm1)
      have hregister := hsm.setState (by decide) (by decide) (fun hdebug => (hlogs hdebug).elim)
        (hid ▸ hset)
      have hnext : q1.nextId = q.nextId := by
        obtain ⟨-, -, -, hf⟩ := setState_ok hset
        exact hf.nextId
      rw [← hid1.trans hid] at hregister hlt
      exact hregister.processRegister (hnext ▸ hlt) hlogs hq
  | registered hs hq =>
    rw [hs] at hstart hlogs
    exact hstart.processRegister hlt hlogs hq
  | unregistered hs hq =>
    rw [hs] at hstart hlogs
    exact (hstart.setState (by decide) (by decide) (fun hdebug => (hlogs hdebug).elim) hq).looks
  | reset hs _ _ _ =>
    rw [hs] at hcase
    cases hcase

/-- A pass reads inside the table. -/
theorem PassLogsInside.looks (hd : q.Distinct) (hc : q.HasCases) (hlogs : q.PassLogsInside lib env)
    (hq : q.processTimeout lib env = .ok q') : LooksInside q q' := by
  unfold SMq.processTimeout at hq
  split at hq
  · cases hq
    exact .of_reads rfl
  · rename_i h rest hl
    split at hq
    · cases hq
      exact .of_reads rfl
    · rename_i hdue
      have hh : h ∈ q.timeSortedList := hl ▸ List.mem_cons_self
      refine DispatchLogsInside.looks hd hc hh (fun hdebug => ?_) hq
      exact hlogs hdebug h (by rw [hl]; rfl) (Int.not_lt.1 hdue)

end SMq

end Smqueue

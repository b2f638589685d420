import Smqueue.Transitions
import Smqueue.Proofs.ResponseProofs

/-!
# Proofs: the effect of a pass

Every branch of `process_timeout` has an effect in the sense of `Effect`, and keeps the order exactly
under the condition that `DispatchKeepsOrder` states for it (`processTimeout_ok`).
-/

namespace Smqueue

open Agenda (Fits ids)

variable {lib : Libs} {env : Env} {q q1 q2 q' : SMq} {m : ShortMsgPending} {h : MsgId}

namespace SMq

theorem Effect.congr {keeps keeps' : Prop} {gone : List MsgId} {fresh : Option SmState}
    (he : Effect q q' h keeps gone fresh) (hk : keeps ↔ keeps') :
    Effect q q' h keeps' gone fresh :=
  { he with order := fun hq => (he.order hq).trans hk }

/-! ## Branches that only move the head -/

theorem Moved.trans_agenda (hm : Moved q q1 h) (ha : q2.agenda = q1.agenda) (hf : Frame q1 q2) :
    Moved q q2 h := by
  have h2 : Moved q1 q2 h := .of_agenda ha hf
  exact ⟨h2.others.trans hm.others, h2.perm.trans hm.perm, fun hq => h2.order (hm.order hq),
    hm.frame.trans hf⟩

theorem Moved.store {x : ShortMsgPending} (hd : q.Distinct) (hm : Moved q q1 h)
    (hmem : m ∈ q1.timeSortedList) (he : x.entry = m.entry) : Moved q (q1.store x) h :=
  hm.trans_agenda (agenda_store_same (hm.distinct hd).nodup hmem he) (store_frame _ _)

/-- A change of state keeps the content of the message and everything but the list and the trace of
the table. -/
theorem setState_find {s : SmState} {now : Time} (hd : q.Distinct) (hmem : m ∈ q.timeSortedList)
    (hs : q.setState m.id s now = .ok q1) :
    (∃ l reads, q1 = { q with timeSortedList := l, tableReads := reads }) ∧
      q1.find m.id = some { m with state := s, nextActionTime := q.dueIn m s now } := by
  have hd1 : q1.Distinct := (Moved.setState hd (.refl q m.id) hs).distinct hd
  have hfind : ∀ {x}, q.msg m.id = .ok x → x = m := fun hx =>
    Option.some.inj ((msg_ok hx).symm.trans (find_mem hd.nodup hmem))
  unfold setState setStateAt at hs
  obtain ⟨x, hx, hs⟩ := Except.bind_eq_ok.1 hs
  obtain ⟨y, hy, hs⟩ := Except.bind_eq_ok.1 hs
  rw [hfind hx, hfind hy] at hs
  obtain rfl := Except.pure_eq_ok.1 hs
  refine ⟨⟨_, _, rfl⟩, ?_⟩
  exact find_mem (m := { m with state := s, nextActionTime := q.dueIn m s now }) hd1.nodup
    ((List.mem_orderedInsert _).2 (.inl rfl))

/-- The message is the one that was put back. -/
theorem setState_msg {m1 : ShortMsgPending} {s : SmState} {now : Time} (hd : q.Distinct)
    (hmem : m ∈ q.timeSortedList) (hs : q.setState m.id s now = .ok q1)
    (hm1 : q1.msg m.id = .ok m1) :
    m1 = { m with state := s, nextActionTime := q.dueIn m s now } :=
  Option.some.inj ((msg_ok hm1).symm.trans (setState_find hd hmem hs).2)

theorem processFromLookup_ok (hd : q.Distinct) (hh : m.id ∈ ids q.agenda)
    (hmv : Moved q q1 m.id) (hmem : m ∈ q1.timeSortedList)
    (h : q1.processFromLookup lib env m = .ok q') : Effect q q' m.id True [] none := by
  obtain ⟨⟨next, sm⟩, -, h⟩ := Except.bind_eq_ok.1 h
  have hst : Moved q (q1.store { m with toShortMsg := sm }) m.id := hmv.store hd hmem rfl
  exact .moved env hd hh hst h

theorem lookupUriHostport_entry {s : Settings} {next : SmState} {m' : ShortMsgPending}
    (h : lookupUriHostport lib env s m = .ok (next, m')) : m'.entry = m.entry := by
  unfold lookupUriHostport at h
  obtain ⟨⟨next, sm⟩, -, h⟩ := Except.bind_eq_ok.1 h
  dsimp only at h
  split at h
  · cases h
    rfl
  · obtain ⟨⟨code, m1⟩, h1, h⟩ := Except.bind_eq_ok.1 h
    cases h
    exact ((ShortMsgPending.setQtag_same h1).entry :)

theorem readyToRegister_entry {ready : Bool} {m' : ShortMsgPending}
    (h : readyToRegister lib env m = .ok (ready, m')) : m'.entry = m.entry := by
  unfold readyToRegister at h
  obtain ⟨⟨ok, sm⟩, -, h⟩ := Except.bind_eq_ok.1 h
  dsimp only at h
  split at h
  · cases h
    rfl
  · obtain ⟨user, -, h⟩ := Except.bind_eq_ok.1 h
    cases h
    rfl

/-! ## Delivery -/

/-- The rate limiter changes the time of the message where it stands. -/
theorem Effect.delayed {s : SmState} {t : Time} (hd : q.Distinct) (hh : h ∈ ids q.agenda)
    (hm : Moved q q1 h) (ha : q'.agenda = Agenda.retime h s t q1.agenda) (hf : Frame q1 q') :
    Effect q q' h (Fits h t q1.agenda) [] none := by
  have hids : ids q'.agenda = ids q1.agenda := by
    rw [ha]
    exact Agenda.ids_retime _ _ _
  have hd1 := hm.distinct hd
  refine ⟨fun hq => ?_, ?_, ?_, ⟨?_, fun i hi => ?_⟩, ?_, ?_, ?_⟩
  · unfold InOrder
    rw [ha]
    exact Agenda.sorted_retime_iff hd1.nodup (hm.order hq)
  · have hoth : ids (q'.others h) = ids (q1.others h) := by
      unfold SMq.others
      rw [Agenda.ids_erase, Agenda.ids_erase, hids]
    rw [hoth, hm.others]
    simp
  · rw [hids]
    exact iff_of_true (hm.perm.mem_iff.2 hh) List.not_mem_nil
  · rw [hids]
    exact hd1.nodup
  · rw [hids] at hi
    rw [hf.nextId]
    exact hd1.lt_nextId i hi
  · exact hf.settings.trans hm.frame.settings
  · exact hf.posted.trans hm.frame.posted
  · rw [hf.nextId, hm.frame.nextId]
    exact Nat.le_refl _

theorem sendPacked_ok (hd : q.Distinct) (hh : m.id ∈ ids q.agenda) (hmv : Moved q q1 m.id)
    (hmem : m ∈ q1.timeSortedList) (h : q1.sendPacked lib env m = .ok q') :
    Effect q q' m.id (¬ (env.config.maxRetries ≠ 0 ∧ env.config.maxRetries < m.retries) →
      q1.tooSoon env → Fits m.id (m.nextActionTime + msSMSRateLimit env.config) q1.agenda)
      [] none := by
  unfold sendPacked at h
  by_cases hmax : env.config.maxRetries ≠ 0 ∧ env.config.maxRetries < m.retries
  · rw [if_pos hmax] at h
    exact (Effect.moved env hd hh hmv h).congr
      (iff_of_true trivial fun hn => absurd hmax hn)
  · rw [if_neg hmax] at h
    by_cases hsoon : q1.tooSoon env = true
    · rw [if_pos hsoon] at h
      obtain rfl := Except.pure_eq_ok.1 h
      have ha := agenda_store q1
        { m with nextActionTime := m.nextActionTime + msSMSRateLimit env.config }
      exact (Effect.delayed hd hh hmv ha (store_frame _ _)).congr
        ⟨fun hfit _ _ => hfit, fun hfit => hfit hmax hsoon⟩
    · rw [if_neg hsoon] at h
      obtain ⟨sm, -, h⟩ := Except.bind_eq_ok.1 h
      have hst : Moved q (q1.store { m with toShortMsg := sm }) m.id := hmv.store hd hmem rfl
      refine (Effect.moved env hd hh ?_ h).congr
        (iff_of_true trivial fun _ hs => absurd hs hsoon)
      exact hst.trans_agenda rfl ⟨rfl, rfl, rfl⟩

theorem processDelivery_ok (hd : q.Distinct) (hh : m.id ∈ ids q.agenda) (hmv : Moved q q1 m.id)
    (hmem : m ∈ q1.timeSortedList) (h : q1.processDelivery lib env m = .ok q') :
    Effect q q' m.id (q1.delays lib env m →
      Fits m.id (m.nextActionTime + msSMSRateLimit env.config) q1.agenda) [] none := by
  unfold processDelivery at h
  unfold delays
  obtain ⟨⟨ok, sm⟩, hpack, h⟩ := Except.bind_eq_ok.1 h
  rw [hpack]
  have hmv' : Moved q (q1.store { m with toShortMsg := sm, retries := m.retries + 1 }) m.id :=
    hmv.store hd hmem rfl
  cases ok with
  | false =>
    exact (Effect.moved env hd hh hmv' h).congr
      (iff_of_true trivial fun hn => absurd hn (by simp))
  | true =>
    have hmem' : { m with toShortMsg := sm, retries := m.retries + 1 } ∈
        (q1.store { m with toShortMsg := sm, retries := m.retries + 1 }).timeSortedList :=
      List.mem_map.2 ⟨m, hmem, if_pos rfl⟩
    have hagenda : (q1.store { m with toShortMsg := sm, retries := m.retries + 1 }).agenda =
        q1.agenda := agenda_store_same (hmv.distinct hd).nodup hmem rfl
    refine (sendPacked_ok (m := { m with toShortMsg := sm, retries := m.retries + 1 }) hd hh hmv'
      hmem' h).congr ?_
    have hsoon : (q1.store { m with toShortMsg := sm, retries := m.retries + 1 }).tooSoon env =
        q1.tooSoon env := rfl
    rw [hagenda, hsoon]
    simp only [Bool.and_eq_true, Bool.not_eq_true', Bool.and_eq_false_iff, decide_eq_false_iff_not,
      not_and_or, and_imp]

/-! ## Registration -/

/-- The REGISTER message depends neither on the other messages nor on the state of the message that
is registered. -/
theorem registerMsg_congr (lib : Libs) (env : Env) (q : SMq) (m : ShortMsgPending)
    (l : List ShortMsgPending) (reads : List TableRead) (s : SmState) (t : Time) :
    registerMsg lib env { q with timeSortedList := l, tableReads := reads }
        { m with state := s, nextActionTime := t } =
      (registerMsg lib env q m).map fun r =>
        ({ r.1 with timeSortedList := l, tableReads := reads }, r.2) := by
  have hhalf : ∀ method,
      originateHalfSm lib env { q with timeSortedList := l, tableReads := reads } method =
        ({ (originateHalfSm lib env q method).1 with timeSortedList := l, tableReads := reads },
          (originateHalfSm lib env q method).2) := by
    intro method
    unfold originateHalfSm newCallId newCSeq
    by_cases hreg : method = str "REGISTER" <;> by_cases hid : q.haveRegisterCallId = true <;>
      simp [hreg, hid]
  unfold registerMsg
  rw [hhalf]
  have hset : ({ (originateHalfSm lib env q (str "REGISTER")).1 with
      timeSortedList := l, tableReads := reads } : SMq).settings = (originateHalfSm lib env q (str "REGISTER")).1.settings := rfl
  dsimp only
  rw [hset]
  have hresp : ∀ set r, registerResponse lib env set r
      { m with state := s, nextActionTime := t } = registerResponse lib env set r m :=
    fun _ _ => rfl
  rw [hresp]
  cases registerResponse lib env (originateHalfSm lib env q (str "REGISTER")).1.settings
    (originateHalfSm lib env q (str "REGISTER")).2 m <;> rfl

theorem registerOrigin_congr (lib : Libs) (env : Env) (q : SMq) (m : ShortMsgPending)
    (l : List ShortMsgPending) (reads : List TableRead) (s : SmState) (t : Time) :
    registerOrigin lib env { q with timeSortedList := l, tableReads := reads }
        { m with state := s, nextActionTime := t } = registerOrigin lib env q m := by
  unfold registerOrigin
  rw [registerMsg_congr]
  cases registerMsg lib env q m <;> rfl

theorem frontFits_frame {fresh : Option SmState} {l : List (Agenda.Entry MsgId SmState Time)}
    (hs : q1.settings = q.settings) : FrontFits env q1 fresh l ↔ FrontFits env q fresh l := by
  unfold FrontFits originDue
  rw [hs]

theorem processRegister_ok (hd : q.Distinct) (hh : m.id ∈ ids q.agenda) (hmv : Moved q q1 m.id)
    (h : q1.processRegister lib env m = .ok q') :
    Effect q q' m.id (FrontFits env q (q1.registerOrigin lib env m) (q.others m.id)) []
      (q1.registerOrigin lib env m) := by
  obtain ⟨⟨next, q2⟩, hreg, h⟩ := Except.bind_eq_ok.1 h
  have he := Effect.requeued hd hh hmv (Ran.refl q1) (registerHandset_ok hreg) h
  refine he.congr ?_
  rw [hmv.others]
  exact frontFits_frame hmv.frame.settings

theorem processAwaitingRegister_ok (hd : q.Distinct) (hmem : m ∈ q.timeSortedList)
    (h : q.processAwaitingRegister lib env m = .ok q') :
    Effect q q' m.id (match readyToRegister lib env m with
      | .ok (true, m') => FrontFits env q (q.registerOrigin lib env m') (q.others m.id)
      | _ => True) [] (match readyToRegister lib env m with
      | .ok (true, m') => q.registerOrigin lib env m'
      | _ => none) := by
  have hh : m.id ∈ ids q.agenda := Agenda.mem_ids.2 ⟨_, mem_agenda hmem, rfl⟩
  unfold processAwaitingRegister at h
  obtain ⟨⟨ready, m'⟩, hready, h⟩ := Except.bind_eq_ok.1 h
  rw [hready]
  have hentry := readyToRegister_entry hready
  have hid : m'.id = m.id := congrArg Agenda.Entry.id hentry
  have hmv : Moved q (q.store m') m.id := (Moved.refl q m.id).store hd hmem hentry
  cases ready with
  | false =>
    have hs : (q.store m').setState m.id .awaitingRegisterHandset env.clock.final = .ok q' := by
      rw [← hid]
      exact h
    exact .moved env hd hh hmv hs
  | true =>
    obtain ⟨q2, hs, h⟩ := Except.bind_eq_ok.1 h
    obtain ⟨m2, hm2, h⟩ := Except.bind_eq_ok.1 h
    have hmem' : m' ∈ (q.store m').timeSortedList := List.mem_map.2 ⟨m, hmem, if_pos hid.symm⟩
    obtain ⟨⟨l, reads, hl⟩, hfind⟩ := setState_find (hmv.distinct hd) hmem' hs
    have hm2' := Option.some.inj ((msg_ok hm2).symm.trans hfind)
    have horigin : q2.registerOrigin lib env m2 = q.registerOrigin lib env m' := by
      rw [hm2', hl, registerOrigin_congr]
      exact registerOrigin_congr lib env q m' _ _ m'.state m'.nextActionTime
    have hmv2 : Moved q q2 m.id := hmv.setState hd (hid ▸ hs)
    have hid2 : m2.id = m.id := by
      rw [hm2']
      exact hid
    rw [← hid2] at hh hmv2 ⊢
    have he := processRegister_ok hd hh hmv2 h
    rw [horigin] at he
    exact he

/-! ## The whole pass -/

theorem processInitial_ok (hd : q.Distinct) (hmem : m ∈ q.timeSortedList)
    (hst : m.state = .initialState) (h : q.processInitial lib env m = .ok q') :
    ∃ gone, Effect q q' m.id (q.DispatchKeepsOrder lib env m) gone (q.dispatchOrigin lib env m) ∧
      Removal env q m gone := by
  have hh : m.id ∈ ids q.agenda := Agenda.mem_ids.2 ⟨_, mem_agenda hmem, rfl⟩
  unfold processInitial at h
  unfold DispatchKeepsOrder dispatchOrigin
  rw [hst]
  obtain ⟨sip, hsip, h⟩ := Except.bind_eq_ok.1 h
  have hsip' := deref_eq_ok hsip
  dsimp only at h ⊢
  by_cases hreq : sip.isRequest = true
  · have hresp : ¬ respondsTo m.toShortMsg := by
      unfold respondsTo
      rw [hsip']
      simpa [SipMessage.isRequest] using hreq
    rw [if_pos hreq] at h
    rw [if_neg hresp, if_neg hresp]
    unfold strcmpEq at h
    obtain ⟨eq, heq, h⟩ := Except.bind_eq_ok.1 h
    obtain ⟨method, hmeth, heq⟩ := Except.bind_eq_ok.1 heq
    have hmethod : methodOf m.toShortMsg = some method := by
      unfold methodOf
      rw [hsip']
      exact deref_eq_ok hmeth
    obtain rfl := Except.pure_eq_ok.1 heq
    rw [hmethod]
    by_cases hmsg : method = str "MESSAGE"
    · rw [if_pos (congrArg some hmsg), if_pos (congrArg some hmsg)]
      rw [if_neg (by simp [hmsg])] at h
      obtain ⟨⟨next, q2⟩, hcode, h⟩ := Except.bind_eq_ok.1 h
      obtain ⟨⟨gone, hran, hzap⟩, hp⟩ := handleShortCode_ok hd.nodup hmem hcode
      refine ⟨gone.toList, .requeued hd hh (.refl q m.id) hran hp h, ?_⟩
      cases gone with
      | none => exact .nothing
      | some g => exact .zapped hst hresp (hmethod.trans (congrArg some hmsg)) (hzap g rfl)
    · rw [if_neg (fun hs => hmsg (Option.some.inj hs)), if_neg (fun hs => hmsg (Option.some.inj hs))]
      rw [if_pos (by simp [hmsg])] at h
      exact ⟨[], .moved env hd hh (.refl q m.id) h, .nothing⟩
  · have hresp : respondsTo m.toShortMsg := by
      unfold respondsTo
      rw [hsip']
      simpa [SipMessage.isRequest] using hreq
    rw [if_neg hreq] at h
    rw [if_pos hresp, if_pos hresp]
    obtain ⟨gone, he, hgone⟩ := handleResponse_ok hd hmem h
    refine ⟨_, he, ?_⟩
    rcases hgone with rfl | ⟨i, hi, rfl⟩
    · exact .response hst hresp
    · exact .acknowledged hst hresp hi

/-! ## The switch over the state -/

/-- What the case for the state of `m` does. A state that no case names is reset before the sender is
looked up. -/
inductive Dispatched (lib : Libs) (env : Env) (q : SMq) (m : ShortMsgPending) (q' : SMq) : Prop
  | initial (hs : m.state = .initialState) (hq : q.processInitial lib env m = .ok q')
  | finished (hs : m.state = .noState ∨ m.state = .deleteMeState) (hq : q' = q.remove m.id)
  | lookedUpFrom (hs : m.state = .requestFromAddressLookup)
      (hq : q.processFromLookup lib env m = .ok q')
  | foundImsi {next : SmState} {sm : ShortMsg} (hs : m.state = .requestDestinationImsi)
      (hl : m.toShortMsg.lookupUriImsi lib env q.settings = .ok (some next, sm))
      (hq : (q.store { m with toShortMsg := sm }).setState m.id next env.clock.final = .ok q')
  | notLocated {next : SmState} {sm : ShortMsg} {q1 : SMq} (hs : m.state = .requestDestinationImsi)
      (hl : m.toShortMsg.lookupUriImsi lib env q.settings = .ok (none, sm))
      (hb : (q.store { m with toShortMsg := sm }).bounceMessage lib env { m with toShortMsg := sm }
        env.config.notRegistered = .ok (next, q1))
      (hq : q1.setState m.id next env.clock.final = .ok q')
  | foundHostport {next : SmState} {m' : ShortMsgPending} (hs : m.state = .requestDestinationSipurl)
      (hl : lookupUriHostport lib env q.settings m = .ok (next, m'))
      (hq : (q.store m').setState m.id next env.clock.final = .ok q')
  | delivered (hs : m.state = .requestMsgDelivery) (hq : q.processDelivery lib env m = .ok q')
  | redelivered {q1 : SMq} {m1 : ShortMsgPending} (hs : m.state = .awaitingTryMsgDelivery)
      (hset : q.setState m.id .requestMsgDelivery env.clock.first = .ok q1)
      (hm1 : q1.msg m.id = .ok m1) (hq : q1.processDelivery lib env m1 = .ok q')
  | unanswered (hs : m.state = .askedForMsgDelivery)
      (hq : q.setState m.id .awaitingTryMsgDelivery env.clock.final = .ok q')
  | awaitedRegister (hs : m.state = .awaitingRegisterHandset)
      (hq : q.processAwaitingRegister lib env m = .ok q')
  | registered (hs : m.state = .registerHandset) (hq : q.processRegister lib env m = .ok q')
  | unregistered (hs : m.state = .askedToRegisterHandset)
      (hq : q.setState m.id .awaitingRegisterHandset env.clock.final = .ok q')
  | reset {q1 : SMq} {m1 : ShortMsgPending} (hs : m.state.hasCase = false)
      (hset : q.setState m.id .initialState env.clock.first = .ok q1)
      (hm1 : q1.msg m.id = .ok m1) (hq : q1.processFromLookup lib env m1 = .ok q')

/-- One case of the switch was run. -/
theorem dispatch_steps (h : q.dispatch lib env m = .ok q') : Dispatched lib env q m q' := by
  unfold dispatch at h
  cases hst : m.state
  all_goals
    rw [hst] at h
    dsimp only at h
  case initialState => exact .initial hst h
  case noState =>
    obtain ⟨sm, -, h⟩ := Except.bind_eq_ok.1 h
    exact .finished (.inl hst) (Except.pure_eq_ok.1 h).symm
  case deleteMeState => exact .finished (.inr hst) (Except.pure_eq_ok.1 h).symm
  case requestFromAddressLookup => exact .lookedUpFrom hst h
  case requestDestinationImsi =>
    obtain ⟨⟨next, q1⟩, hlook, h⟩ := Except.bind_eq_ok.1 h
    unfold lookupUriImsi at hlook
    obtain ⟨⟨res, sm⟩, hres, hlook⟩ := Except.bind_eq_ok.1 hlook
    cases res with
    | some st =>
      obtain ⟨rfl, rfl⟩ := Prod.mk.inj (Except.pure_eq_ok.1 hlook)
      exact .foundImsi hst hres h
    | none => exact .notLocated hst hres hlook h
  case requestDestinationSipurl =>
    obtain ⟨⟨next, m'⟩, hlook, h⟩ := Except.bind_eq_ok.1 h
    have hid : m'.id = m.id := congrArg Agenda.Entry.id (lookupUriHostport_entry hlook)
    exact .foundHostport hst hlook (hid ▸ h :)
  case requestMsgDelivery => exact .delivered hst h
  case awaitingTryMsgDelivery =>
    obtain ⟨q1, hset, h⟩ := Except.bind_eq_ok.1 h
    obtain ⟨m1, hm1, h⟩ := Except.bind_eq_ok.1 h
    exact .redelivered hst hset hm1 h
  case askedForMsgDelivery => exact .unanswered hst h
  case awaitingRegisterHandset => exact .awaitedRegister hst h
  case registerHandset => exact .registered hst h
  case askedToRegisterHandset => exact .unregistered hst h
  all_goals
    obtain ⟨q1, hset, h⟩ := Except.bind_eq_ok.1 h
    obtain ⟨m1, hm1, h⟩ := Except.bind_eq_ok.1 h
    refine .reset ?_ hset hm1 h
    rw [hst]
    rfl

/-- A state that no case names makes the pass insert nothing. -/
theorem dispatchOrigin_of_not_hasCase (hs : m.state.hasCase = false) :
    q.DispatchKeepsOrder lib env m = True ∧ q.dispatchOrigin lib env m = none := by
  unfold DispatchKeepsOrder dispatchOrigin
  cases hst : m.state
  all_goals
    rw [hst] at hs
    first | exact ⟨rfl, rfl⟩ | cases hs

/-- What a pass does to the queue, once its head `m` is due. -/
theorem dispatch_ok (hd : q.Distinct) (hmem : m ∈ q.timeSortedList)
    (h : q.dispatch lib env m = .ok q') :
    ∃ gone, Effect q q' m.id (q.DispatchKeepsOrder lib env m) gone (q.dispatchOrigin lib env m) ∧
      Removal env q m gone := by
  have hh : m.id ∈ ids q.agenda := Agenda.mem_ids.2 ⟨_, mem_agenda hmem, rfl⟩
  have hrefl := Moved.refl q m.id
  cases dispatch_steps h with
  | initial hs hq => exact processInitial_ok hd hmem hs hq
  | finished hs hq =>
    subst hq
    refine ⟨[m.id], ?_, .finished hs⟩
    rcases hs with hs | hs
    all_goals
      rw [DispatchKeepsOrder, dispatchOrigin, hs]
      exact .removed hd
  | lookedUpFrom hs hq =>
    rw [DispatchKeepsOrder, dispatchOrigin, hs]
    exact ⟨[], processFromLookup_ok hd hh hrefl hmem hq, .nothing⟩
  | @foundImsi next sm hs hl hq =>
    have hmv : Moved q (q.store { m with toShortMsg := sm }) m.id := hrefl.store hd hmem rfl
    have hnone : q.lookupOrigin lib env m = none := by
      unfold lookupOrigin
      rw [hl]
    rw [DispatchKeepsOrder, dispatchOrigin, hs]
    dsimp only
    rw [hnone]
    exact ⟨[], (Effect.moved env hd hh hmv hq).congr (iff_of_true trivial frontFits_none),
      .nothing⟩
  | @notLocated next sm q1 hs hl hb hq =>
    have hmv : Moved q (q.store { m with toShortMsg := sm }) m.id := hrefl.store hd hmem rfl
    obtain ⟨hp, -⟩ := bounceMessage_ok hb
    rw [DispatchKeepsOrder, dispatchOrigin, hs]
    dsimp only
    unfold lookupOrigin
    rw [hl]
    refine ⟨[], (Effect.requeued hd hh hmv (.refl _) hp hq).congr ?_, .nothing⟩
    rw [hmv.others]
    exact frontFits_frame rfl
  | foundHostport hs hl hq =>
    have hmv := hrefl.store hd hmem (lookupUriHostport_entry hl)
    rw [DispatchKeepsOrder, dispatchOrigin, hs]
    exact ⟨[], .moved env hd hh hmv hq, .nothing⟩
  | delivered hs hq =>
    rw [DispatchKeepsOrder, dispatchOrigin, hs]
    exact ⟨[], processDelivery_ok hd hh hrefl hmem hq, .nothing⟩
  | @redelivered q1 m1 hs hset hm1 hq =>
    obtain ⟨⟨l, reads, hl⟩, -⟩ := setState_find hd hmem hset
    have hm1' := setState_msg hd hmem hset hm1
    obtain ⟨hmem1, hid⟩ := find_some (msg_ok hm1)
    obtain ⟨x, hx, ha, -⟩ := setState_ok hset
    obtain rfl : m = x := Option.some.inj ((find_mem hd.nodup hmem).symm.trans hx)
    have hmv := hrefl.setState hd hset
    rw [← hid] at hmv
    have hdel : q1.delays lib env m1 = q.delays lib env m := by
      rw [hm1', hl]
      rfl
    have hdue : m1.nextActionTime = q.dueIn m .requestMsgDelivery env.clock.first := by
      rw [hm1']
    have ha' : q1.agenda = Agenda.requeue m.id .requestMsgDelivery
        (q.dueIn m .requestMsgDelivery env.clock.first) q.agenda := ha
    have he := processDelivery_ok hd (hid ▸ hh) hmv hmem1 hq
    rw [hid, hdel, hdue, ha'] at he
    rw [DispatchKeepsOrder, dispatchOrigin, hs]
    exact ⟨[], he, .nothing⟩
  | unanswered hs hq =>
    rw [DispatchKeepsOrder, dispatchOrigin, hs]
    exact ⟨[], .moved env hd hh hrefl hq, .nothing⟩
  | awaitedRegister hs hq =>
    rw [DispatchKeepsOrder, dispatchOrigin, hs]
    exact ⟨[], processAwaitingRegister_ok hd hmem hq, .nothing⟩
  | registered hs hq =>
    rw [DispatchKeepsOrder, dispatchOrigin, hs]
    exact ⟨[], processRegister_ok hd hh hrefl hq, .nothing⟩
  | unregistered hs hq =>
    rw [DispatchKeepsOrder, dispatchOrigin, hs]
    exact ⟨[], .moved env hd hh hrefl hq, .nothing⟩
  | reset hs hset hm1 hq =>
    obtain ⟨hmem1, hid⟩ := find_some (msg_ok hm1)
    have hmv := hrefl.setState hd hset
    have hquiet : q.DispatchKeepsOrder lib env m = True ∧ q.dispatchOrigin lib env m = none :=
      dispatchOrigin_of_not_hasCase hs
    rw [hquiet.1, hquiet.2]
    rw [← hid] at hh hmv ⊢
    exact ⟨[], processFromLookup_ok hd hh hmv hmem1 hq, .nothing⟩

end SMq

end Smqueue

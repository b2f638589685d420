import Smqueue.Changes
import Smqueue.Proofs.PassProofs
import Smqueue.Proofs.ValidationProofs
import Smqueue.Lib.Proofs.PopulationProofs

/-!
# Proofs: the changes of a pass

Every message that is queued after a pass stems from a queued message, or from the one that the pass
inserts, by the changes that `Smqueue.Changes` lists. Each operation on the queue is looked at once;
the branches of the state machine are put together from them.
-/

namespace Smqueue

namespace SMq

open Relation (ReflTransGen)
open Population (Evolves)

variable {lib : Libs} {env : Env} {q0 q q1 q2 q' : SMq} {h m m' : ShortMsgPending} {i : MsgId}
  {s : SmState} {t : Time}

/-! ## Operations on the queue -/

theorem Evolved.refl (q : SMq) : Evolved lib env q0 h q q := ⟨.refl _, rfl⟩

theorem Evolved.trans (he : Evolved lib env q0 h q q1) (he' : Evolved lib env q0 h q1 q2) :
    Evolved lib env q0 h q q2 :=
  ⟨he.messages.trans he'.messages, he'.delivered.trans he.delivered⟩

/-- Everything but the list and the deliveries may change. -/
theorem Evolved.of_list (hl : q'.timeSortedList = q.timeSortedList)
    (hd : q'.delivered = q.delivered) : Evolved lib env q0 h q q' := by
  refine ⟨.subset fun x hx => ?_, hd⟩
  rw [hl] at hx
  exact hx

theorem Evolved.readTable {s s' : SmState} : Evolved lib env q0 h q (q.readTable s s') :=
  .of_list rfl rfl

theorem Evolved.store (hm : m ∈ q.timeSortedList) (hc : ReflTransGen (q0.Change lib env h) m m') :
    Evolved lib env q0 h q (q.store m') := by
  refine ⟨fun x' hx' => ?_, rfl⟩
  obtain ⟨x, hx, rfl⟩ := List.mem_map.1 hx'
  by_cases hid : x.id = m'.id
  · rw [if_pos hid]
    exact ⟨m, .inl hm, hc⟩
  · rw [if_neg hid]
    exact ⟨x, .inl hx, .refl⟩

theorem Evolved.refresh {sm : ShortMsg} (hm : m ∈ q.timeSortedList)
    (hr : ShortMsg.Refresh lib m.toShortMsg sm) :
    Evolved lib env q0 h q (q.store { m with toShortMsg := sm }) :=
  .store hm (.single (.refresh hr))

theorem Evolved.edit {sm : ShortMsg} (hid : m.id = h.id) (hsm : m.toShortMsg = h.toShortMsg)
    (hm : m ∈ q.timeSortedList) (he : q0.HeadEdit lib env h sm) :
    Evolved lib env q0 h q (q.store { m with toShortMsg := sm }) :=
  .store hm (.single (.edit hid hsm he))

theorem Evolved.remove (q : SMq) (i : MsgId) : Evolved lib env q0 h q (q.remove i) :=
  ⟨.subset fun _ hx => List.mem_of_mem_filter hx, rfl⟩

theorem Evolved.debugDump (hq : q.debugDump lib = .ok q') : Evolved lib env q0 h q q' := by
  unfold SMq.debugDump at hq
  obtain ⟨l, hl, hq⟩ := Except.bind_eq_ok.1 hq
  obtain rfl := Except.pure_eq_ok.1 hq
  refine ⟨.changed fun x' hx' => ?_, rfl⟩
  obtain ⟨x, hx, hf⟩ := Except.mem_mapM hl hx'
  obtain ⟨sm, hsm, hf⟩ := Except.bind_eq_ok.1 hf
  obtain rfl := Except.pure_eq_ok.1 hf
  exact .inr ⟨x, hx, .refresh (.inl hsm)⟩

theorem Evolved.setStateAt (hm : ∀ x ∈ q.timeSortedList, x.id = i → q0.Moves h x s)
    (hq : q.setStateAt i s t = .ok q') : Evolved lib env q0 h q q' := by
  unfold SMq.setStateAt at hq
  obtain ⟨x, hx, hq⟩ := Except.bind_eq_ok.1 hq
  obtain rfl := Except.pure_eq_ok.1 hq
  obtain ⟨hmem, hid⟩ := find_some (msg_ok hx)
  refine ⟨.changed fun y hy => ?_, rfl⟩
  rcases (List.mem_orderedInsert _).1 hy with rfl | hy
  · exact .inr ⟨x, hmem, .move (hm x hmem hid)⟩
  · exact .inl (List.mem_of_mem_filter hy)

theorem Evolved.setState {now : Time} (hm : ∀ x ∈ q.timeSortedList, x.id = i → q0.Moves h x s)
    (hq : q.setState i s now = .ok q') : Evolved lib env q0 h q q' := by
  unfold SMq.setState at hq
  obtain ⟨x, -, hq⟩ := Except.bind_eq_ok.1 hq
  exact Evolved.readTable.trans (.setStateAt hm hq)

/-- The head may be put into any state. -/
theorem Evolved.setHead {now : Time} (hid : i = h.id) (hq : q.setState i s now = .ok q') :
    Evolved lib env q0 h q q' :=
  .setState (fun _ _ hx => .head (hx.trans hid)) hq

theorem Evolved.setStateInPlaceAt (hm : ∀ x ∈ q.timeSortedList, x.id = i → q0.Moves h x s)
    (hq : q.setStateInPlaceAt i s t = .ok q') : Evolved lib env q0 h q q' := by
  unfold SMq.setStateInPlaceAt at hq
  obtain ⟨x, hx, hq⟩ := Except.bind_eq_ok.1 hq
  obtain rfl := Except.pure_eq_ok.1 hq
  obtain ⟨hmem, hid⟩ := find_some (msg_ok hx)
  exact .store hmem (.single (.move (hm x hmem hid)))

theorem Evolved.setStateInPlace {now : Time}
    (hm : ∀ x ∈ q.timeSortedList, x.id = i → q0.Moves h x s)
    (hq : q.setStateInPlace i s now = .ok q') : Evolved lib env q0 h q q' := by
  unfold SMq.setStateInPlace at hq
  obtain ⟨x, -, hq⟩ := Except.bind_eq_ok.1 hq
  exact Evolved.readTable.trans (.setStateInPlaceAt hm hq)

theorem Evolved.insertNewMessageIn {now : Time} (ho : q0.Originated lib env h m)
    (hq : q.insertNewMessageIn lib m s now = .ok q') : Evolved lib env q0 h q q' := by
  unfold SMq.insertNewMessageIn SMq.insertNewMessageAt at hq
  obtain ⟨q1, hdump, hq⟩ := Except.bind_eq_ok.1 hq
  obtain rfl := Except.pure_eq_ok.1 hq
  have hcons : Evolved lib env q0 h q { q.readTable m.state s with timeSortedList :=
      { m with state := s, nextActionTime := now + q.settings.timeouts.get m.state s } ::
        q.timeSortedList } := ⟨.cons (.inserted ho), rfl⟩
  have hall := hcons.trans (.debugDump hdump)
  exact ⟨hall.messages, hall.delivered⟩

/-! ## Originated messages -/

theorem Drawn.evolved (hd : Drawn q q') : Evolved lib env q0 h q q' := .of_list hd.list hd.delivered

theorem Evolved.originateSm {sender recipient text : CString} {ok : Bool}
    (ho : ∀ q1 m, originateMsg lib env q sender recipient text = .ok (q1, 0, m) →
      q0.Originated lib env h m)
    (hq : originateSm lib env q sender recipient text s = .ok (ok, q')) :
    Evolved lib env q0 h q q' := by
  unfold SMq.originateSm at hq
  obtain ⟨⟨q1, code, m⟩, h1, hq⟩ := Except.bind_eq_ok.1 hq
  have hdrawn : Evolved lib env q0 h q q1 := (originateMsg_ok h1).1.evolved
  dsimp only at hq
  by_cases hc : code = 0
  · subst hc
    rw [if_pos rfl] at hq
    obtain ⟨q2, h2, hq⟩ := Except.bind_eq_ok.1 hq
    cases hq
    exact hdrawn.trans (.insertNewMessageIn (ho _ _ h1) h2)
  · rw [if_neg hc] at hq
    cases hq
    exact hdrawn

theorem Evolved.registerHandset {next : SmState}
    (ho : ∀ q1 m', registerMsg lib env q m = .ok (q1, 0, m') → q0.Originated lib env h m')
    (hq : q.registerHandset lib env m = .ok (next, q')) : Evolved lib env q0 h q q' := by
  unfold SMq.registerHandset at hq
  obtain ⟨⟨q1, code, m1⟩, h1, hq⟩ := Except.bind_eq_ok.1 hq
  have hdrawn : Evolved lib env q0 h q q1 := (registerMsg_ok h1).1.evolved
  dsimp only at hq
  by_cases hc : code = 0
  · subst hc
    rw [if_neg (by simp)] at hq
    obtain ⟨q2, h2, hq⟩ := Except.bind_eq_ok.1 hq
    cases hq
    exact hdrawn.trans (.insertNewMessageIn (ho _ _ h1) h2)
  · rw [if_pos hc] at hq
    cases hq
    exact hdrawn

theorem Evolved.bounceMessage {errstr : CString} {next : SmState}
    (ho : ∀ bounceto errmsg q1 m', bounceText env m errstr = .ok (some (bounceto, errmsg)) →
      originateMsg lib env q env.config.bounceCode bounceto errmsg = .ok (q1, 0, m') →
      q0.Originated lib env h m')
    (hq : q.bounceMessage lib env m errstr = .ok (next, q')) : Evolved lib env q0 h q q' := by
  unfold SMq.bounceMessage at hq
  obtain ⟨text, h1, hq⟩ := Except.bind_eq_ok.1 hq
  rcases text with _ | ⟨bounceto, errmsg⟩
  · cases hq
    exact .refl q
  · obtain ⟨⟨ok, q1⟩, h2, hq⟩ := Except.bind_eq_ok.1 hq
    cases hq
    exact .originateSm (fun q1 m' h3 => ho bounceto errmsg q1 m' h1 h3) h2

/-- The next state of a message that was bounced is a terminal one. -/
theorem bounceMessage_terminal {errstr : CString} {next : SmState}
    (hq : q.bounceMessage lib env m errstr = .ok (next, q')) : next.isTerminal = true := by
  obtain ⟨-, rfl⟩ := bounceMessage_ok hq
  unfold bouncedState
  split <;> rfl

theorem originateMsg_finished {sender recipient text : CString}
    (ho : originateMsg lib env q sender recipient text = .ok (q1, 0, m)) :
    ∃ s x, x.parsedIsValid = true ∧ x.parsedIsBetter = true ∧ finishMsg lib env s x = .ok (0, m) := by
  unfold originateMsg at ho
  dsimp only at ho
  obtain ⟨sip, -, ho⟩ := Except.bind_eq_ok.1 ho
  obtain ⟨⟨code, response⟩, htag, ho⟩ := Except.bind_eq_ok.1 ho
  obtain ⟨⟨errcode, response'⟩, hf, ho⟩ := Except.bind_eq_ok.1 ho
  cases ho
  obtain ⟨⟨tag, hash, rfl⟩, -⟩ := ShortMsgPending.setQtag_ok rfl htag
  exact ⟨_, _, rfl, rfl, hf⟩

theorem registerMsg_finished {x : ShortMsgPending}
    (ho : registerMsg lib env q x = .ok (q1, 0, m)) :
    ∃ s y, y.parsedIsValid = true ∧ y.parsedIsBetter = true ∧ finishMsg lib env s y = .ok (0, m) := by
  unfold registerMsg at ho
  obtain ⟨⟨errcode, response⟩, hr, ho⟩ := Except.bind_eq_ok.1 ho
  cases ho
  unfold registerResponse at hr
  obtain ⟨sip, -, hr⟩ := Except.bind_eq_ok.1 hr
  obtain ⟨user, -, hr⟩ := Except.bind_eq_ok.1 hr
  obtain ⟨imsi, -, hr⟩ := Except.bind_eq_ok.1 hr
  obtain ⟨tree, -, hr⟩ := Except.bind_eq_ok.1 hr
  obtain ⟨⟨code, response'⟩, htag, hr⟩ := Except.bind_eq_ok.1 hr
  obtain ⟨linktag, -, hr⟩ := Except.bind_eq_ok.1 hr
  obtain ⟨⟨tag, hash, rfl⟩, -⟩ := ShortMsgPending.setQtag_ok rfl htag
  exact ⟨_, _, rfl, rfl, hr⟩

/-- A message that the pass inserts was built as a tree, and has passed the checks. -/
theorem Originated.finished (ho : q.Originated lib env h m) :
    ∃ s x, x.parsedIsValid = true ∧ x.parsedIsBetter = true ∧ finishMsg lib env s x = .ok (0, m) := by
  cases ho with
  | reply _ _ _ _ _ _ ho => exact originateMsg_finished ho
  | notLocated _ _ _ ho => exact originateMsg_finished ho
  | answered _ _ _ _ ho => exact originateMsg_finished ho
  | registered _ _ _ _ _ ho => exact registerMsg_finished ho
  | register _ ho => exact registerMsg_finished ho
  | awaited _ _ _ _ ho => exact registerMsg_finished ho

/-! ## Commands -/

variable {text : CString} {r : ShortCodeResult}

theorem countMsg_evolved {cfg : Config} {c c' : QueueCounts} (hc : countMsg lib cfg c m = .ok (c', m')) :
    m' = m ∨ ∃ sm, ShortMsg.Refresh lib m.toShortMsg sm ∧ m' = { m with toShortMsg := sm } := by
  unfold countMsg at hc
  split at hc
  · obtain ⟨sm, hsm, hc⟩ := Except.bind_eq_ok.1 hc
    obtain ⟨sip, -, hc⟩ := Except.bind_eq_ok.1 hc
    obtain ⟨uri, -, hc⟩ := Except.bind_eq_ok.1 hc
    obtain ⟨from?, -, hc⟩ := Except.bind_eq_ok.1 hc
    obtain ⟨sender, -, hc⟩ := Except.bind_eq_ok.1 hc
    obtain ⟨host, -, hc⟩ := Except.bind_eq_ok.1 hc
    obtain ⟨user, -, hc⟩ := Except.bind_eq_ok.1 hc
    cases hc
    exact .inr ⟨sm, .inl hsm, rfl⟩
  · split at hc
    · cases hc
      exact .inl rfl
    · cases hc
      exact .inl rfl

theorem countMsgs_evolved {cfg : Config} {c c' : QueueCounts} {l l' : List ShortMsgPending}
    (hc : countMsgs lib cfg c l = .ok (c', l')) :
    Evolves (q0.Change lib env h) (q0.Incoming lib env h) l l' := by
  induction l generalizing c c' l' with
  | nil =>
    cases hc
    exact .refl _
  | cons x xs ih =>
    obtain ⟨⟨c1, x1⟩, h1, hc⟩ := Except.bind_eq_ok.1 hc
    obtain ⟨⟨c2, l2⟩, h2, hc⟩ := Except.bind_eq_ok.1 hc
    cases hc
    intro y hy
    rcases List.mem_cons.1 hy with rfl | hy
    · refine ⟨x, .inl (List.mem_cons_self ..), ?_⟩
      rcases countMsg_evolved h1 with rfl | ⟨sm, he, rfl⟩
      · exact .refl
      · exact .single (.refresh he)
    · obtain ⟨z, hz, hzy⟩ := ih h2 y hy
      exact ⟨z, hz.imp_left (List.mem_cons_of_mem _), hzy⟩

theorem whiplashQuit_evolved (hr : q.whiplashQuit lib env text = .ok r) :
    Evolved lib env q0 h q r.queue ∧ r.action ≠ .retryAfterDelay := by
  unfold whiplashQuit at hr
  dsimp only at hr
  split at hr
  · cases hr
    exact ⟨.refl q, fun h => nomatch h⟩
  · split at hr
    · cases hr
      exact ⟨.refl q, fun h => nomatch h⟩
    · split at hr
      · cases hr
        exact ⟨.refl q, fun h => nomatch h⟩
      · split at hr
        · obtain ⟨q1, h1, hr⟩ := Except.bind_eq_ok.1 hr
          cases hr
          exact ⟨.debugDump h1, fun h => nomatch h⟩
        · cases hr
          exact ⟨.refl q, fun h => nomatch h⟩

theorem shortcodeFourOneOne_evolved (hr : q.shortcodeFourOneOne lib env i text = .ok r) :
    Evolved lib env q0 h q r.queue ∧ r.action ≠ .retryAfterDelay := by
  unfold shortcodeFourOneOne at hr
  obtain ⟨⟨c, l⟩, h1, hr⟩ := Except.bind_eq_ok.1 hr
  have hl : Evolved lib env q0 h q { q with timeSortedList := l } := ⟨countMsgs_evolved h1, rfl⟩
  obtain ⟨m, -, hr⟩ := Except.bind_eq_ok.1 hr
  obtain ⟨sip, -, hr⟩ := Except.bind_eq_ok.1 hr
  obtain ⟨from?, -, hr⟩ := Except.bind_eq_ok.1 hr
  obtain ⟨username, -, hr⟩ := Except.bind_eq_ok.1 hr
  dsimp only at hr
  split at hr
  · cases hr
    exact ⟨hl, fun h => nomatch h⟩
  · cases hr
    exact ⟨hl, fun h => nomatch h⟩

theorem shortcodeZapQueued_evolved (hr : q.shortcodeZapQueued env text = .ok r) :
    Evolved lib env q0 h q r.queue ∧ r.action ≠ .retryAfterDelay := by
  have haction : ∀ b : Prop, [Decidable b] →
      (if b then ShortCodeAction.done else .reply) ≠ .retryAfterDelay := by
    intro b _
    split <;> exact fun h => nomatch h
  unfold shortcodeZapQueued at hr
  dsimp only at hr
  generalize (if text.head? = some 45 then text.drop 1 else text) = tag at hr
  split at hr
  · split at hr
    · cases hr
    · cases hr
      exact ⟨.refl q, haction _⟩
  · split at hr
    · cases hr
      exact ⟨.refl q, haction _⟩
    · cases hr
      exact ⟨.remove q _, haction _⟩

/-- `sendSIP_init_text` does not get past the address that it has freed. -/
theorem sendSIPInitText_ne_ok (m sm : ShortMsg) : sendSIPInitText m ≠ .ok sm := by
  intro h
  unfold sendSIPInitText at h
  obtain ⟨sip, -, h⟩ := Except.bind_eq_ok.1 h
  obtain ⟨user?, -, h⟩ := Except.bind_eq_ok.1 h
  obtain ⟨user, -, h⟩ := Except.bind_eq_ok.1 h
  obtain ⟨sent, -, h⟩ := Except.bind_eq_ok.1 h
  cases h

theorem shortcodeSmsc_evolved (hm : m ∈ q.timeSortedList) (hs : m.state = .initialState)
    (hc : q.commandOf m.toShortMsg = some .smsc) (hr : q.shortcodeSmsc env m text = .ok r) :
    Evolved lib env q m q r.queue ∧ r.action ≠ .retryAfterDelay := by
  unfold shortcodeSmsc at hr
  split at hr
  · obtain ⟨sm, hsm, -⟩ := Except.bind_eq_ok.1 hr
    exact absurd hsm (sendSIPInitText_ne_ok m.toShortMsg sm)
  · rename_i ht
    obtain ⟨⟨action, sm⟩, hsubmit, hr⟩ := Except.bind_eq_ok.1 hr
    cases hr
    have hself : Evolved lib env q m q (q.store { m with toShortMsg := m.toShortMsg }) :=
      .store hm .refl
    have hsent : (if env.gatewayRuns = true then ShortCodeAction.done else .internalError) ≠
        .retryAfterDelay := by
      split <;> exact fun h => nomatch h
    unfold submitSMS at hsubmit
    dsimp only at hsubmit
    split at hsubmit
    · cases hsubmit
      exact ⟨hself, hsent⟩
    · split at hsubmit
      · cases hsubmit
        exact ⟨hself, hsent⟩
      · obtain ⟨sm', hsm, hsubmit⟩ := Except.bind_eq_ok.1 hsubmit
        cases hsubmit
        exact ⟨.edit rfl rfl hm (.sendSIPInit hs hc ht hsm), fun h => nomatch h⟩
  · cases hr
    exact ⟨.refl q, fun h => nomatch h⟩

/-- A command edits messages, and leaves the queue alone if it asks for another attempt later. -/
theorem runShortCode_evolved {imsi : Option CString} {code : ShortCode}
    (hm : m ∈ q.timeSortedList) (hs : m.state = .initialState)
    (hc : q.commandOf m.toShortMsg = some code)
    (hr : q.runShortCode lib env m imsi text code = .ok r) :
    Evolved lib env q m q r.queue ∧ (r.action = .retryAfterDelay → r.queue = q) := by
  have never : Evolved lib env q m q r.queue ∧ r.action ≠ .retryAfterDelay →
      Evolved lib env q m q r.queue ∧ (r.action = .retryAfterDelay → r.queue = q) :=
    fun ⟨he, hn⟩ => ⟨he, fun ha => absurd ha hn⟩
  cases code with
  | whiplashQuit => exact never (whiplashQuit_evolved hr)
  | debugDump =>
    obtain ⟨q1, h1, hr⟩ := Except.bind_eq_ok.1 hr
    cases hr
    exact never ⟨.debugDump h1, fun h => nomatch h⟩
  | quickChk =>
    cases hr
    exact never ⟨.refl q, fun h => nomatch h⟩
  | fourOneOne => exact never (shortcodeFourOneOne_evolved hr)
  | zapQueued => exact never (shortcodeZapQueued_evolved hr)
  | register =>
    obtain ⟨imsi, -, hr⟩ := Except.bind_eq_ok.1 hr
    cases hr
    have hq : (q.shortcodeRegister env imsi text).queue = q := shortcodeRegister_queue imsi
    refine ⟨?_, fun _ => hq⟩
    rw [hq]
    exact .refl q
  | smsc => exact never (shortcodeSmsc_evolved hm hs hc hr)

theorem callShortCode_evolved (hm : m ∈ q.timeSortedList) (hs : m.state = .initialState)
    (hr : q.callShortCode lib env m = .ok (some r)) :
    Evolved lib env q m q r.queue ∧ (r.action = .retryAfterDelay → r.queue = q) := by
  unfold callShortCode at hr
  obtain ⟨sip, hsip, hr⟩ := Except.bind_eq_ok.1 hr
  obtain ⟨uri, huri, hr⟩ := Except.bind_eq_ok.1 hr
  obtain ⟨number, hnumber, hr⟩ := Except.bind_eq_ok.1 hr
  split at hr
  · cases hr
  · rename_i code hcode
    have hc : q.commandOf m.toShortMsg = some code := by
      unfold commandOf
      rw [deref_eq_ok hsip, Option.bind_some, deref_eq_ok huri, Option.bind_some,
        deref_eq_ok hnumber]
      exact hcode
    obtain ⟨bods, -, hr⟩ := Except.bind_eq_ok.1 hr
    obtain ⟨imsi, -, hr⟩ := Except.bind_eq_ok.1 hr
    obtain ⟨r', h4, hr⟩ := Except.bind_eq_ok.1 hr
    cases hr
    exact runShortCode_evolved hm hs hc h4

/-- What is done with the result of a command. -/
theorem finishShortCode_evolved {next : Option SmState} (hs : m.state = .initialState)
    (ht : isTextMessage m.toShortMsg = true) (hc : q.callShortCode lib env m = .ok (some r))
    (hq : finishShortCode lib env m.id r = .ok (next, q')) :
    Evolved lib env q m r.queue q' ∨
      r.action = .retryAfterDelay ∧ ∃ x, r.queue.msg m.id = .ok x ∧ q' = r.queue.attempted x := by
  unfold finishShortCode at hq
  cases ha : r.action <;> rw [ha] at hq <;> dsimp only at hq
  case reply =>
    obtain ⟨x, hx, hq⟩ := Except.bind_eq_ok.1 hq
    obtain ⟨⟨shortcode, imsi⟩, haddr, hq⟩ := Except.bind_eq_ok.1 hq
    obtain ⟨⟨ok, q1⟩, hsm, hq⟩ := Except.bind_eq_ok.1 hq
    cases hq
    exact .inl (.originateSm (fun _ _ ho => .reply hs ht hc ha hx haddr ho) hsm)
  case register =>
    obtain ⟨x, hx, hq⟩ := Except.bind_eq_ok.1 hq
    obtain ⟨⟨st, q1⟩, hreg, hq⟩ := Except.bind_eq_ok.1 hq
    cases hq
    exact .inl (.registerHandset (fun _ _ ho => .registered hs ht hc ha hx ho) hreg)
  case retryAfterDelay =>
    obtain ⟨x, hx, hq⟩ := Except.bind_eq_ok.1 hq
    cases hq
    exact .inr ⟨rfl, x, hx, rfl⟩
  all_goals
    cases hq
    exact .inl (.of_list rfl rfl)

theorem handleShortCode_evolved {next : Option SmState} (hd : q.Distinct)
    (hm : m ∈ q.timeSortedList) (hs : m.state = .initialState)
    (ht : isTextMessage m.toShortMsg = true)
    (hq : q.handleShortCode lib env m = .ok (next, q')) :
    Evolved lib env q m q q' ∨ q.Attempt lib env m [] ∧ q' = q.attempted m := by
  unfold handleShortCode at hq
  obtain ⟨res, hcall, hq⟩ := Except.bind_eq_ok.1 hq
  cases res with
  | none =>
    cases hq
    exact .inl (.refl q)
  | some r =>
    obtain ⟨hr, hretry⟩ := callShortCode_evolved hm hs hcall
    rcases finishShortCode_evolved hs ht hcall hq with he | ⟨ha, x, hx, rfl⟩
    · exact .inl (hr.trans he)
    · rw [hretry ha] at hx ⊢
      obtain rfl : m = x := Option.some.inj ((find_mem hd.nodup hm).symm.trans (msg_ok hx))
      exact .inr ⟨.retryAfterDelay hs ht hcall ha, rfl⟩

/-! ## Responses -/

theorem Evolved.restartLinked {sent : ShortMsgPending} (hd : (Agenda.ids q.agenda).Nodup)
    (hq : q.restartLinked env sent = .ok q') : Evolved lib env q0 h q q' := by
  unfold SMq.restartLinked at hq
  split at hq
  · cases hq
    exact .refl q
  · rename_i old hold
    have hmem : old ∈ q.timeSortedList := by
      unfold getLink at hold
      obtain ⟨tag, -, hfind⟩ := Option.bind_eq_some_iff.1 hold
      exact (findQueuedMsgByTag_some hfind).1
    split at hq
    · rename_i hu
      refine .setStateInPlace (fun x hx hid => .restarted ?_) hq
      have hfind := find_mem hd hx
      rw [hid, find_mem hd hmem] at hfind
      rw [← Option.some.inj hfind]
      exact hu
    · cases hq
      exact .refl q

theorem Evolved.handleSuccess {sent : ShortMsgPending} (hd : (Agenda.ids q.agenda).Nodup)
    (hs : sent ∈ q.timeSortedList) (hq : q.handleSuccess lib env sent = .ok q') :
    Evolved lib env q0 h q q' := by
  obtain ⟨ok, sm, q2, hparse, h2, rfl⟩ := handleSuccess_steps hq
  have hstore : Evolved lib env q0 h q (q.store { sent with toShortMsg := sm }) :=
    .refresh hs (.inr ⟨_, hparse⟩)
  have hd1 : (Agenda.ids (q.store { sent with toShortMsg := sm }).agenda).Nodup := by
    have hagenda : (q.store { sent with toShortMsg := sm }).agenda = q.agenda :=
      agenda_store_same hd hs rfl
    rw [hagenda]
    exact hd
  have hlinked : Evolved lib env q0 h (q.store { sent with toShortMsg := sm }) q2 := by
    split at h2
    · exact .restartLinked hd1 h2
    · cases h2
      exact .refl _
  exact (hstore.trans hlinked).trans (.remove q2 _)

theorem Evolved.handleStatus {sent : ShortMsgPending} {response : SipMessage}
    (hd : (Agenda.ids q.agenda).Nodup) (hs : sent ∈ q.timeSortedList)
    (hsel : sent ∈ q0.selected h) (ha : q0.Answers h response sent.id)
    (hq0 : q = q0.remove h.id) (hq : q.handleStatus lib env response sent = .ok q') :
    Evolved lib env q0 h q q' := by
  have hsame : ∀ x ∈ q.timeSortedList, x.id = sent.id → x.state = sent.state := by
    intro x hx hid
    have hfind := find_mem hd hx
    rw [hid, find_mem hd hs] at hfind
    rw [Option.some.inj hfind]
  have hretime : response.statusCode.tdiv 100 = 1 ∨ response.statusCode.tdiv 100 = 4 ∨
      response.statusCode.tdiv 100 = 5 → q.increaseAckedMsgTimeout env sent = .ok q' →
      Evolved lib env q0 h q q' := by
    intro hc hq
    refine .setStateInPlaceAt (fun x hx hid => ?_) hq
    rw [← hsame x hx hid]
    rw [← hid] at ha
    exact .retimed ha hc
  have hredirect : response.statusCode.tdiv 100 = 3 ∨ response.statusCode.tdiv 100 = 6 →
      q.setStateInPlace sent.id .requestDestinationImsi env.clock.first = .ok q' →
      Evolved lib env q0 h q q' := by
    intro hc hq
    refine .setStateInPlace (fun x hx hid => ?_) hq
    rw [← hid] at ha
    exact .redirected ha hc
  unfold SMq.handleStatus at hq
  dsimp only at hq
  split at hq
  case h_1 hc => exact hretime (.inl hc) hq
  case h_2 hc => exact .handleSuccess hd hs hq
  case h_3 hc =>
    split at hq
    · exact hretime (.inr (.inl hc)) hq
    · obtain ⟨⟨next, q1⟩, hb, hq⟩ := Except.bind_eq_ok.1 hq
      have hbounce : Evolved lib env q0 h q q1 := by
        refine .bounceMessage (fun bounceto errmsg q2 m' htext ho => ?_) hb
        rw [hq0] at ho
        exact .answered hsel ha hc htext ho
      refine hbounce.trans (.setStateInPlace (fun x _ hid => ?_) hq)
      rw [← hid] at ha
      exact .bounced ha hc (bounceMessage_terminal hb)
  case h_4 hc => exact hretime (.inr (.inr hc)) hq
  case h_5 hc => exact hredirect (.inl hc) hq
  case h_6 hc => exact hredirect (.inr hc) hq
  case h_7 =>
    cases hq
    exact .refl q

theorem Evolved.handleResponse (hd : q.Distinct) (hs : m.state = .initialState)
    (hr : m.parsed.any SipMessage.isResponse = true)
    (hq : q.handleResponse lib env m = .ok q') : Evolved lib env q m q q' := by
  unfold SMq.handleResponse at hq
  obtain ⟨tag, htag, hq⟩ := Except.bind_eq_ok.1 hq
  have hremove : Evolved lib env q m q (q.remove m.id) := .remove q m.id
  cases hfind : (q.remove m.id).findQueuedMsgByTag tag with
  | none =>
    rw [hfind] at hq
    cases hq
    exact hremove
  | some sent =>
    rw [hfind] at hq
    obtain ⟨response, hresp, hq⟩ := Except.bind_eq_ok.1 hq
    have hparsed := deref_eq_ok hresp
    rw [hparsed] at hr
    have hsel : sent ∈ q.selected m := by
      unfold selected
      rw [deref_eq_ok htag]
      exact hfind
    have hd1 : (q.remove m.id).Distinct := (Effect.removed hd).distinct
    exact hremove.trans (.handleStatus hd1.nodup (findQueuedMsgByTag_some hfind).1 hsel
      ⟨hs, by simpa using hr, hparsed, sent, hsel, rfl⟩ rfl hq)

/-! ## Branches of the state machine -/

theorem Evolved.processFromLookup (hid : m.id = h.id) (hsm : m.toShortMsg = h.toShortMsg)
    (hs : looksUpFrom h.state = true) (hset : q.settings = q0.settings) (hm : m ∈ q.timeSortedList)
    (hq : q.processFromLookup lib env m = .ok q') : Evolved lib env q0 h q q' := by
  obtain ⟨⟨next, sm⟩, hlook, hq⟩ := Except.bind_eq_ok.1 hq
  rw [hsm, hset] at hlook
  have hstore : Evolved lib env q0 h q (q.store { m with toShortMsg := sm }) :=
    .edit hid hsm hm (.lookupFromAddress hs hlook)
  exact hstore.trans (.setHead hid hq)

theorem Evolved.processRegister (hid : m.id = h.id)
    (ho : ∀ q1 m', registerMsg lib env q m = .ok (q1, 0, m') → q0.Originated lib env h m')
    (hq : q.processRegister lib env m = .ok q') : Evolved lib env q0 h q q' := by
  obtain ⟨⟨next, q1⟩, hreg, hq⟩ := Except.bind_eq_ok.1 hq
  have hpushed : Evolved lib env q0 h q q1 := .registerHandset ho hreg
  exact hpushed.trans (.setHead hid hq)

theorem Evolved.processAwaitingRegister (hm : m ∈ q.timeSortedList)
    (hs : m.state = .awaitingRegisterHandset)
    (hq : q.processAwaitingRegister lib env m = .ok q') : Evolved lib env q m q q' := by
  unfold SMq.processAwaitingRegister at hq
  obtain ⟨⟨ready, m'⟩, hready, hq⟩ := Except.bind_eq_ok.1 hq
  have hready' := hready
  have hid : m'.id = m.id := congrArg Agenda.Entry.id (readyToRegister_entry hready)
  have hedit : ∃ sm, ShortMsg.Refresh lib m.toShortMsg sm ∧ m' = { m with toShortMsg := sm } := by
    unfold readyToRegister at hready'
    obtain ⟨⟨ok, sm⟩, hparse, hready'⟩ := Except.bind_eq_ok.1 hready'
    refine ⟨sm, .inr ⟨_, hparse⟩, ?_⟩
    dsimp only at hready'
    split at hready'
    · cases hready'
      rfl
    · obtain ⟨user, -, hready'⟩ := Except.bind_eq_ok.1 hready'
      cases hready'
      rfl
  obtain ⟨sm, he, hm'⟩ := hedit
  have hstore : Evolved lib env q m q (q.store m') := by
    rw [hm']
    exact .refresh hm he
  cases ready with
  | false => exact hstore.trans (.setHead hid hq)
  | true =>
    obtain ⟨q1, hset, hq⟩ := Except.bind_eq_ok.1 hq
    obtain ⟨y, hy, hq⟩ := Except.bind_eq_ok.1 hq
    have hmoved : Evolved lib env q m (q.store m') q1 := .setHead hid hset
    have hyid : y.id = m.id := (find_some (msg_ok hy)).2.trans hid
    refine (hstore.trans hmoved).trans (.processRegister hyid (fun _ _ ho => ?_) hq)
    exact .awaited hs hready hset hy ho

/-! ## Delivery -/

/-- The head is delivered, possibly after it was put into the state for it. -/
theorem processDelivery_outcome {x : ShortMsgPending} (hm : m ∈ q.timeSortedList)
    (hs : delivers m.state = true) (hx : x = { m with state := s, nextActionTime := t })
    (hmem : x ∈ q1.timeSortedList)
    (hothers : ∀ y ∈ q1.timeSortedList, y.id ≠ m.id → y ∈ q.timeSortedList)
    (hdel : q1.delivered = q.delivered) (hspacing : q1.spacingTimer = q.spacingTimer)
    (hq : q1.processDelivery lib env x = .ok q') : Outcome lib env q m q' := by
  have hsoon : q1.tooSoon env = q.tooSoon env := by
    unfold tooSoon
    rw [hspacing]
  have hat : q1.spacingAt env = q.spacingAt env := by
    unfold spacingAt
    rw [hspacing]
  obtain ⟨⟨ok, sm⟩, hpack, hq⟩ := Except.bind_eq_ok.1 hq
  subst hx
  let x1 : ShortMsgPending := { m with
    toShortMsg := sm, state := s, nextActionTime := t, retries := m.retries + 1 }
  have hx1 : x1 ∈ (q1.store x1).timeSortedList := List.mem_map.2 ⟨_, hmem, if_pos rfl⟩
  have hstart : Evolves (q.Change lib env m) (q.Incoming lib env m) (q.attempted m).timeSortedList
      (q1.store x1).timeSortedList := by
    intro y' hy'
    obtain ⟨y, hy, rfl⟩ := List.mem_map.1 hy'
    by_cases hid : y.id = x1.id
    · rw [if_pos hid]
      refine ⟨{ m with retries := m.retries + 1 }, .inl (List.mem_map.2 ⟨m, hm, if_pos rfl⟩), ?_⟩
      have hmove : q.Change lib env m { m with retries := m.retries + 1 }
          { m with retries := m.retries + 1, state := s, nextActionTime := t } := .move (.head rfl)
      exact (ReflTransGen.single hmove).tail (.edit rfl rfl (.packSmsForDelivery hs hpack))
    · rw [if_neg hid]
      exact ⟨y, .inl (List.mem_map.2 ⟨y, hothers y hy hid, if_neg hid⟩), .refl⟩
  cases ok with
  | false =>
    have hset : Evolved lib env q m (q1.store x1) q' := .setHead rfl hq
    exact .attempt (.unpacked hs hpack) (hstart.trans hset.messages) (hset.delivered.trans hdel)
  | true =>
    dsimp only at hq
    rw [if_pos rfl] at hq
    unfold sendPacked at hq
    split at hq
    · rename_i hx
      have hset : Evolved lib env q m (q1.store x1) q' := .setHead rfl hq
      exact .attempt (.exceeded hs hpack hx) (hstart.trans hset.messages)
        (hset.delivered.trans hdel)
    · rename_i hx
      split at hq
      · rename_i ht
        obtain rfl := Except.pure_eq_ok.1 hq
        have hdelay : Evolved lib env q m (q1.store x1) ((q1.store x1).store
            { x1 with nextActionTime := x1.nextActionTime + msSMSRateLimit env.config }) :=
          .store hx1 (.single (.move (.head rfl)))
        exact .attempt (.delayed hs hpack hx (hsoon.symm.trans ht))
          (hstart.trans hdelay.messages) hdel
      · rename_i ht
        obtain ⟨sm2, hsend, hq⟩ := Except.bind_eq_ok.1 hq
        unfold deliverMsgDatagram at hsend
        obtain ⟨sm1, htext, hsend⟩ := Except.bind_eq_ok.1 hsend
        obtain ⟨⟨ok, sm3⟩, hparse, hsend⟩ := Except.bind_eq_ok.1 hsend
        cases hsend
        have hedit1 : q.Change lib env m x1 { x1 with toShortMsg := sm1 } := 
          .refresh (.inl htext)
        have hedit2 : q.Change lib env m { x1 with toShortMsg := sm1 } { x1 with toShortMsg := sm3 } :=
          .refresh (m := { x1 with toShortMsg := sm1 }) (.inr ⟨_, hparse⟩)
        have hsent : Evolved lib env q m (q1.store x1)
            ((q1.store x1).store { x1 with toShortMsg := sm3 }) :=
          .store hx1 ((ReflTransGen.single hedit1).tail hedit2)
        have hset : Evolved lib env q m _ q' := .setHead rfl hq
        have hfalse : q.tooSoon env = false := by
          rw [← hsoon]
          exact Bool.eq_false_iff.2 ht
        refine .attempt (.sent hs hpack hx hfalse)
          ((hstart.trans hsent.messages).trans hset.messages) (hset.delivered.trans ?_)
        exact congrArg₂ (fun u l => (⟨m.id, u, env.clock.sending⟩ : Delivery) :: l) hat hdel

theorem setState_others {now : Time} (hq : q.setState i s now = .ok q1) :
    ∀ y ∈ q1.timeSortedList, y.id ≠ i → y ∈ q.timeSortedList := by
  intro y hy hid
  unfold setState setStateAt at hq
  obtain ⟨x, -, hq⟩ := Except.bind_eq_ok.1 hq
  obtain ⟨z, hz, hq⟩ := Except.bind_eq_ok.1 hq
  obtain rfl := Except.pure_eq_ok.1 hq
  rcases (List.mem_orderedInsert _).1 hy with rfl | hy
  · exact absurd (find_some (msg_ok hz)).2 hid
  · exact List.mem_of_mem_filter hy

/-! ## The whole pass -/

theorem processInitial_outcome (hd : q.Distinct) (hm : m ∈ q.timeSortedList)
    (hs : m.state = .initialState) (hq : q.processInitial lib env m = .ok q') :
    Outcome lib env q m q' := by
  unfold processInitial at hq
  obtain ⟨sip, hsip, hq⟩ := Except.bind_eq_ok.1 hq
  dsimp only at hq
  by_cases hreq : sip.isRequest = true
  · rw [if_pos hreq] at hq
    obtain ⟨eq, heq, hq⟩ := Except.bind_eq_ok.1 hq
    split at hq
    · exact .quiet (.setHead rfl hq)
    · rename_i htrue
      obtain ⟨⟨next, q1⟩, hcode, hq⟩ := Except.bind_eq_ok.1 hq
      have hset : Evolved lib env q m q1 q' := .setHead rfl hq
      have htext : isTextMessage m.toShortMsg = true := by
        obtain ⟨method, hmethod, heq⟩ := Except.bind_eq_ok.1 heq
        obtain rfl := Except.pure_eq_ok.1 heq
        have hname : method = str "MESSAGE" := by simpa using htrue
        unfold isTextMessage
        rw [deref_eq_ok hsip, Option.any_some, hreq, deref_eq_ok hmethod, hname, Bool.true_and]
        exact decide_eq_true rfl
      rcases handleShortCode_evolved hd hm hs htext hcode with he | ⟨ha, rfl⟩
      · exact .quiet (he.trans hset)
      · exact .attempt ha hset.messages hset.delivered
  · rw [if_neg hreq] at hq
    have hresp : m.parsed.any SipMessage.isResponse = true := by
      rw [deref_eq_ok hsip]
      simpa [SipMessage.isRequest] using hreq
    exact .quiet (.handleResponse hd hs hresp hq)

/-- The sender is looked up in a state that no case names. -/
theorem looksUpFrom_of_not_hasCase {s : SmState} (hs : s.hasCase = false) :
    looksUpFrom s = true := by
  cases s <;> first | rfl | cases hs

/-- What a pass does to the messages, once its head `m` is due. -/
theorem dispatch_outcome (hd : q.Distinct) (hm : m ∈ q.timeSortedList)
    (hq : q.dispatch lib env m = .ok q') : Outcome lib env q m q' := by
  cases dispatch_steps hq with
  | initial hs hq => exact processInitial_outcome hd hm hs hq
  | finished hs hq =>
    subst hq
    exact .quiet (.remove q m.id)
  | lookedUpFrom hs hq =>
    have hfrom : looksUpFrom m.state = true := by
      rw [hs]
      rfl
    exact .quiet (.processFromLookup rfl rfl hfrom rfl hm hq)
  | @foundImsi next sm hs hl hq =>
    have hstore : Evolved lib env q m q (q.store { m with toShortMsg := sm }) :=
      .edit rfl rfl hm (.lookupUriImsi hs hl)
    exact .quiet (hstore.trans (.setHead rfl hq))
  | @notLocated next sm q1 hs hl hb hq =>
    have hstore : Evolved lib env q m q (q.store { m with toShortMsg := sm }) :=
      .edit rfl rfl hm (.lookupUriImsi hs hl)
    have hbounce : Evolved lib env q m (q.store { m with toShortMsg := sm }) q1 :=
      .bounceMessage (fun _ _ _ _ htext ho => .notLocated hs hl htext ho) hb
    exact .quiet ((hstore.trans hbounce).trans (.setHead rfl hq))
  | @foundHostport next m' hs hl hq =>
    have hchange : ReflTransGen (q.Change lib env m) m m' := by
      unfold lookupUriHostport at hl
      obtain ⟨⟨st, sm⟩, hsm, hl⟩ := Except.bind_eq_ok.1 hl
      have hedit : q.Change lib env m m { m with toShortMsg := sm } :=
        .edit rfl rfl (.lookupUriHostport hs hsm)
      dsimp only at hl
      split at hl
      · cases hl
        exact .single hedit
      · obtain ⟨⟨code, m1⟩, htag, hl⟩ := Except.bind_eq_ok.1 hl
        cases hl
        exact (ReflTransGen.single hedit).tail (.tag rfl htag)
    have hstore : Evolved lib env q m q (q.store m') := .store hm hchange
    exact .quiet (hstore.trans (.setHead rfl hq))
  | delivered hs hq =>
    have hdelivers : delivers m.state = true := by
      rw [hs]
      rfl
    exact processDelivery_outcome hm hdelivers rfl hm (fun _ hy _ => hy) rfl rfl hq
  | redelivered hs hset hm1 hq =>
    obtain ⟨⟨l, reads, hl⟩, -⟩ := setState_find hd hm hset
    have hdelivers : delivers m.state = true := by
      rw [hs]
      rfl
    refine processDelivery_outcome hm hdelivers (setState_msg hd hm hset hm1)
      (find_some (msg_ok hm1)).1 (setState_others hset) ?_ ?_ hq
    · rw [hl]
    · rw [hl]
  | unanswered hs hq => exact .quiet (.setHead rfl hq)
  | awaitedRegister hs hq => exact .quiet (.processAwaitingRegister hm hs hq)
  | registered hs hq => exact .quiet (.processRegister rfl (fun _ _ ho => .register hs ho) hq)
  | unregistered hs hq => exact .quiet (.setHead rfl hq)
  | @reset q1 m1 hs hset hm1 hq =>
    obtain ⟨hmem1, hid⟩ := find_some (msg_ok hm1)
    obtain ⟨⟨l, reads, hl⟩, -⟩ := setState_find hd hm hset
    have hmoved : Evolved lib env q m q q1 := .setHead rfl hset
    have hsm : m1.toShortMsg = m.toShortMsg := by rw [setState_msg hd hm hset hm1]
    have hsettings : q1.settings = q.settings := by rw [hl]
    exact .quiet (hmoved.trans
      (.processFromLookup hid hsm (looksUpFrom_of_not_hasCase hs) hsettings hmem1 hq))

/-- One pass does nothing, or it works on its due head. -/
theorem processTimeout_outcome (hd : q.Distinct) (hq : q.processTimeout lib env = .ok q') :
    q' = q ∨ ∃ m, q.timeSortedList.head? = some m ∧ m.nextActionTime ≤ env.clock.entry ∧
      q.dispatch lib env m = .ok q' ∧ Outcome lib env q m q' := by
  unfold processTimeout at hq
  cases hl : q.timeSortedList with
  | nil =>
    rw [hl] at hq
    cases hq
    exact .inl rfl
  | cons m rest =>
    rw [hl] at hq
    dsimp only at hq
    split at hq
    · cases hq
      exact .inl rfl
    · rename_i hdue
      have hm : m ∈ q.timeSortedList := by
        rw [hl]
        exact List.mem_cons_self ..
      exact .inr ⟨m, rfl, not_lt.1 hdue, hq, dispatch_outcome hd hm hq⟩

end SMq

end Smqueue

import Smqueue.Delays
import Smqueue.SampleLibs
import Smqueue.Proofs.AttemptsProofs
import Smqueue.Proofs.DelaysProofs

/-!
# Proofs: the rate limiter

Only the sending of a datagram sets the timer, and no datagram is sent while the timer has not run for
the time of the rate limiter. So the datagrams are that far apart.
-/

namespace Smqueue

open Runs (GuardedRun)

variable {lib : Libs} {env : Env} {q q1 q' : SMq} {m m' sent : ShortMsgPending} {i : MsgId}
  {s : SmState} {t now : Time} {r : ShortCodeResult} {text : CString}

namespace SMq

/-! ## The timer is left alone -/

/-- The timer of the rate limiter is as it was. -/
def SameTimer (q q' : SMq) : Prop := q'.spacingTimer = q.spacingTimer

theorem SameTimer.trans (h : SameTimer q q1) (h' : SameTimer q1 q') : SameTimer q q' :=
  Eq.trans h' h

theorem debugDump_sameTimer (h : q.debugDump lib = .ok q') : SameTimer q q' := by
  unfold debugDump at h
  obtain ⟨l, -, h⟩ := Except.bind_eq_ok.1 h
  cases h
  rfl

theorem insertNewMessageIn_sameTimer (h : q.insertNewMessageIn lib m s now = .ok q') :
    SameTimer q q' := by
  unfold insertNewMessageIn insertNewMessageAt at h
  obtain ⟨q1, hdump, h⟩ := Except.bind_eq_ok.1 h
  cases h
  have hinserted := debugDump_sameTimer hdump
  exact hinserted

theorem setState_sameTimer (h : q.setState i s now = .ok q') : SameTimer q q' := by
  unfold setState setStateAt at h
  obtain ⟨x, -, h⟩ := Except.bind_eq_ok.1 h
  obtain ⟨y, -, h⟩ := Except.bind_eq_ok.1 h
  cases h
  rfl

theorem setStateInPlaceAt_sameTimer (h : q.setStateInPlaceAt i s t = .ok q') : SameTimer q q' := by
  unfold setStateInPlaceAt at h
  obtain ⟨x, -, h⟩ := Except.bind_eq_ok.1 h
  cases h
  rfl

theorem setStateInPlace_sameTimer (h : q.setStateInPlace i s now = .ok q') : SameTimer q q' := by
  unfold setStateInPlace at h
  obtain ⟨x, -, h⟩ := Except.bind_eq_ok.1 h
  exact setStateInPlaceAt_sameTimer (q := q.readTable x.state s) h

/-! ## Originated messages -/

theorem originateHalfSm_sameTimer (lib : Libs) (env : Env) (q : SMq) (method : CString) :
    SameTimer q (originateHalfSm lib env q method).1 := by
  unfold originateHalfSm newCallId newCSeq SameTimer
  dsimp only
  split <;> split <;> rfl

theorem originateSm_sameTimer {sender recipient : CString} {ok : Bool}
    (h : originateSm lib env q sender recipient text s = .ok (ok, q')) : SameTimer q q' := by
  unfold originateSm at h
  obtain ⟨⟨q1, code, m⟩, h1, h⟩ := Except.bind_eq_ok.1 h
  have hbuilt : SameTimer q q1 := by
    unfold originateMsg at h1
    obtain ⟨sip, -, h1⟩ := Except.bind_eq_ok.1 h1
    obtain ⟨⟨c, m1⟩, -, h1⟩ := Except.bind_eq_ok.1 h1
    obtain ⟨⟨c2, m2⟩, -, h1⟩ := Except.bind_eq_ok.1 h1
    cases h1
    exact originateHalfSm_sameTimer lib env q (str "MESSAGE")
  dsimp only at h
  split at h
  · obtain ⟨q2, h2, h⟩ := Except.bind_eq_ok.1 h
    cases h
    exact hbuilt.trans (insertNewMessageIn_sameTimer h2)
  · cases h
    exact hbuilt

theorem registerHandset_sameTimer {next : SmState}
    (h : q.registerHandset lib env m = .ok (next, q')) : SameTimer q q' := by
  unfold registerHandset at h
  obtain ⟨⟨q1, code, m1⟩, h1, h⟩ := Except.bind_eq_ok.1 h
  have hbuilt : SameTimer q q1 := by
    unfold registerMsg at h1
    obtain ⟨⟨c, m2⟩, -, h1⟩ := Except.bind_eq_ok.1 h1
    cases h1
    exact originateHalfSm_sameTimer lib env q (str "REGISTER")
  dsimp only at h
  split at h
  · cases h
    exact hbuilt
  · obtain ⟨q2, h2, h⟩ := Except.bind_eq_ok.1 h
    cases h
    exact hbuilt.trans (insertNewMessageIn_sameTimer h2)

theorem bounceMessage_sameTimer {errstr : CString} {next : SmState}
    (h : q.bounceMessage lib env m errstr = .ok (next, q')) : SameTimer q q' := by
  unfold bounceMessage at h
  obtain ⟨bounced, -, h⟩ := Except.bind_eq_ok.1 h
  rcases bounced with _ | ⟨bounceto, errmsg⟩
  · cases h
    rfl
  · obtain ⟨⟨ok, q1⟩, h2, h⟩ := Except.bind_eq_ok.1 h
    cases h
    exact originateSm_sameTimer h2

/-! ## Commands -/

theorem whiplashQuit_sameTimer (h : q.whiplashQuit lib env text = .ok r) : SameTimer q r.queue := by
  unfold whiplashQuit at h
  dsimp only at h
  split at h
  · cases h
    rfl
  · split at h
    · cases h
      rfl
    · split at h
      · cases h
        rfl
      · split at h
        · obtain ⟨q1, h1, h⟩ := Except.bind_eq_ok.1 h
          cases h
          exact debugDump_sameTimer h1
        · cases h
          rfl

theorem shortcodeFourOneOne_sameTimer (h : q.shortcodeFourOneOne lib env i text = .ok r) :
    SameTimer q r.queue := by
  unfold shortcodeFourOneOne at h
  obtain ⟨⟨c, l⟩, -, h⟩ := Except.bind_eq_ok.1 h
  obtain ⟨m, -, h⟩ := Except.bind_eq_ok.1 h
  obtain ⟨sip, -, h⟩ := Except.bind_eq_ok.1 h
  obtain ⟨from?, -, h⟩ := Except.bind_eq_ok.1 h
  obtain ⟨username, -, h⟩ := Except.bind_eq_ok.1 h
  dsimp only at h
  split at h <;> cases h <;> rfl

theorem shortcodeZapQueued_sameTimer (h : q.shortcodeZapQueued env text = .ok r) :
    SameTimer q r.queue := by
  unfold shortcodeZapQueued at h
  dsimp only at h
  generalize (if text.head? = some 45 then text.drop 1 else text) = tag at h
  split at h
  · split at h <;> cases h
    rfl
  · split at h <;> cases h <;> rfl

theorem shortcodeSmsc_sameTimer (h : q.shortcodeSmsc env m text = .ok r) : SameTimer q r.queue := by
  unfold shortcodeSmsc at h
  split at h
  · obtain ⟨sm, -, h⟩ := Except.bind_eq_ok.1 h
    cases h
    rfl
  · obtain ⟨⟨action, sm⟩, -, h⟩ := Except.bind_eq_ok.1 h
    cases h
    rfl
  · cases h
    rfl

theorem runShortCode_sameTimer {imsi : Option CString} {code : ShortCode}
    (h : q.runShortCode lib env m imsi text code = .ok r) : SameTimer q r.queue := by
  cases code with
  | whiplashQuit => exact whiplashQuit_sameTimer h
  | debugDump =>
    obtain ⟨q1, h1, h⟩ := Except.bind_eq_ok.1 h
    cases h
    exact debugDump_sameTimer h1
  | quickChk =>
    cases h
    rfl
  | fourOneOne => exact shortcodeFourOneOne_sameTimer h
  | zapQueued => exact shortcodeZapQueued_sameTimer h
  | register =>
    obtain ⟨imsi, -, h⟩ := Except.bind_eq_ok.1 h
    cases h
    rw [shortcodeRegister_queue]
    rfl
  | smsc => exact shortcodeSmsc_sameTimer h

theorem finishShortCode_sameTimer {next : Option SmState}
    (h : finishShortCode lib env i r = .ok (next, q')) : SameTimer r.queue q' := by
  unfold finishShortCode at h
  cases ha : r.action <;> rw [ha] at h <;> dsimp only at h
  case reply =>
    obtain ⟨x, -, h⟩ := Except.bind_eq_ok.1 h
    obtain ⟨addresses, -, h⟩ := Except.bind_eq_ok.1 h
    obtain ⟨⟨ok, q1⟩, hsm, h⟩ := Except.bind_eq_ok.1 h
    cases h
    exact originateSm_sameTimer hsm
  case register =>
    obtain ⟨x, -, h⟩ := Except.bind_eq_ok.1 h
    obtain ⟨⟨st, q1⟩, hreg, h⟩ := Except.bind_eq_ok.1 h
    cases h
    exact registerHandset_sameTimer hreg
  case retryAfterDelay =>
    obtain ⟨x, -, h⟩ := Except.bind_eq_ok.1 h
    cases h
    rfl
  all_goals
    cases h
    rfl

theorem handleShortCode_sameTimer {next : Option SmState}
    (h : q.handleShortCode lib env m = .ok (next, q')) : SameTimer q q' := by
  unfold handleShortCode at h
  obtain ⟨res, hcall, h⟩ := Except.bind_eq_ok.1 h
  cases res with
  | none =>
    cases h
    rfl
  | some r =>
    have hfinish := finishShortCode_sameTimer h
    unfold callShortCode at hcall
    obtain ⟨sip, -, hcall⟩ := Except.bind_eq_ok.1 hcall
    obtain ⟨uri, -, hcall⟩ := Except.bind_eq_ok.1 hcall
    obtain ⟨number, -, hcall⟩ := Except.bind_eq_ok.1 hcall
    split at hcall
    · cases hcall
    · obtain ⟨bods, -, hcall⟩ := Except.bind_eq_ok.1 hcall
      obtain ⟨imsi, -, hcall⟩ := Except.bind_eq_ok.1 hcall
      obtain ⟨r', hrun, hcall⟩ := Except.bind_eq_ok.1 hcall
      cases hcall
      exact (runShortCode_sameTimer hrun).trans hfinish

/-! ## Responses -/

theorem restartLinked_sameTimer (h : q.restartLinked env sent = .ok q') : SameTimer q q' := by
  unfold restartLinked at h
  split at h
  · cases h
    rfl
  · split at h
    · exact setStateInPlace_sameTimer h
    · cases h
      rfl

theorem handleSuccess_sameTimer (h : q.handleSuccess lib env sent = .ok q') : SameTimer q q' := by
  obtain ⟨ok, sm, q2, -, h2, rfl⟩ := handleSuccess_steps h
  split at h2
  · have hlinked := restartLinked_sameTimer h2
    exact hlinked
  · cases h2
    rfl

theorem handleStatus_sameTimer {response : SipMessage}
    (h : q.handleStatus lib env response sent = .ok q') : SameTimer q q' := by
  unfold handleStatus at h
  dsimp only at h
  split at h
  case h_1 => exact setStateInPlaceAt_sameTimer h
  case h_2 => exact handleSuccess_sameTimer h
  case h_3 =>
    split at h
    · exact setStateInPlaceAt_sameTimer h
    · obtain ⟨⟨next, q1⟩, hb, h⟩ := Except.bind_eq_ok.1 h
      exact (bounceMessage_sameTimer hb).trans (setStateInPlace_sameTimer h)
  case h_4 => exact setStateInPlaceAt_sameTimer h
  case h_5 => exact setStateInPlace_sameTimer h
  case h_6 => exact setStateInPlace_sameTimer h
  case h_7 =>
    cases h
    rfl

theorem handleResponse_sameTimer (h : q.handleResponse lib env m = .ok q') : SameTimer q q' := by
  unfold handleResponse at h
  obtain ⟨tag, -, h⟩ := Except.bind_eq_ok.1 h
  split at h
  · cases h
    rfl
  · obtain ⟨response, -, h⟩ := Except.bind_eq_ok.1 h
    have hstatus := handleStatus_sameTimer h
    exact hstatus

/-! ## The timer and the deliveries of a pass -/

/-- The pass sends nothing and leaves the timer alone, or it sends one datagram, which the rate limiter
allows, and sets the timer. -/
inductive Spaced (env : Env) (q q' : SMq) : Prop
  | silent (ht : SameTimer q q') (hd : q'.delivered = q.delivered) : Spaced env q q'
  | sent {i : MsgId} (hs : q.tooSoon env = false)
      (hd : q'.delivered = ⟨i, q.spacingAt env, env.clock.sending⟩ :: q.delivered)
      (ht : q'.spacingTimer = q.spacingAt env) : Spaced env q q'

theorem processFromLookup_sameTimer (h : q.processFromLookup lib env m = .ok q') :
    SameTimer q q' := by
  obtain ⟨⟨next, sm⟩, -, h⟩ := Except.bind_eq_ok.1 h
  have hstate := setState_sameTimer h
  exact hstate

theorem processRegister_sameTimer (h : q.processRegister lib env m = .ok q') : SameTimer q q' := by
  obtain ⟨⟨next, q1⟩, hreg, h⟩ := Except.bind_eq_ok.1 h
  exact (registerHandset_sameTimer hreg).trans (setState_sameTimer h)

theorem processInitial_sameTimer (h : q.processInitial lib env m = .ok q') : SameTimer q q' := by
  unfold processInitial at h
  obtain ⟨sip, -, h⟩ := Except.bind_eq_ok.1 h
  split at h
  · obtain ⟨eq, -, h⟩ := Except.bind_eq_ok.1 h
    cases eq with
    | false => exact setState_sameTimer h
    | true =>
      obtain ⟨⟨next, q1⟩, hcode, h⟩ := Except.bind_eq_ok.1 h
      exact (handleShortCode_sameTimer hcode).trans (setState_sameTimer h)
  · exact handleResponse_sameTimer h

theorem processAwaitingRegister_sameTimer (h : q.processAwaitingRegister lib env m = .ok q') :
    SameTimer q q' := by
  unfold processAwaitingRegister at h
  obtain ⟨⟨ready, m'⟩, -, h⟩ := Except.bind_eq_ok.1 h
  cases ready with
  | false =>
    have hstate := setState_sameTimer h
    exact hstate
  | true =>
    obtain ⟨q1, hs, h⟩ := Except.bind_eq_ok.1 h
    obtain ⟨m1, -, h⟩ := Except.bind_eq_ok.1 h
    have hstate := setState_sameTimer hs
    exact SameTimer.trans hstate (processRegister_sameTimer h)

theorem setState_delivered (h : q.setState i s now = .ok q') : q'.delivered = q.delivered := by
  unfold setState setStateAt at h
  obtain ⟨x, -, h⟩ := Except.bind_eq_ok.1 h
  obtain ⟨y, -, h⟩ := Except.bind_eq_ok.1 h
  cases h
  rfl

/-- A change of state before makes no difference. -/
theorem Spaced.after_setState (hs : Spaced env q1 q') (h : q.setState i s now = .ok q1) :
    Spaced env q q' := by
  have htimer := setState_sameTimer h
  have hdel := setState_delivered h
  cases hs with
  | silent ht hd => exact .silent (htimer.trans ht) (hd.trans hdel)
  | sent hsoon hd ht =>
    have hspacing : q1.spacingAt env = q.spacingAt env := by
      unfold spacingAt
      rw [htimer]
    rw [hspacing] at hd ht
    refine .sent ?_ (hd.trans (congrArg _ hdel)) ht
    unfold tooSoon at hsoon ⊢
    rw [← htimer]
    exact hsoon

theorem processDelivery_spaced (h : q.processDelivery lib env m = .ok q') : Spaced env q q' := by
  unfold processDelivery at h
  obtain ⟨⟨ok, sm⟩, -, h⟩ := Except.bind_eq_ok.1 h
  cases ok with
  | false =>
    have htimer := setState_sameTimer h
    have hdel := setState_delivered h
    exact .silent htimer hdel
  | true =>
    change sendPacked lib env (q.store { m with toShortMsg := sm, retries := m.retries + 1 }) _ = _ at h
    unfold sendPacked at h
    split at h
    · have htimer := setState_sameTimer h
      have hdel := setState_delivered h
      exact .silent htimer hdel
    · split at h
      · cases h
        exact .silent rfl rfl
      · rename_i hsoon
        obtain ⟨sm', -, h⟩ := Except.bind_eq_ok.1 h
        have htimer := setState_sameTimer h
        have hdel := setState_delivered h
        exact .sent (Bool.eq_false_iff.2 hsoon) hdel htimer

theorem dispatch_sameTimer (hs : delivers m.state = false) (h : q.dispatch lib env m = .ok q') :
    SameTimer q q' := by
  cases dispatch_steps h with
  | initial _ h => exact processInitial_sameTimer h
  | finished _ h =>
    subst h
    rfl
  | lookedUpFrom _ h => exact processFromLookup_sameTimer h
  | foundImsi _ _ h =>
    have hstate := setState_sameTimer h
    exact hstate
  | notLocated _ _ hb h =>
    have hbounced := bounceMessage_sameTimer hb
    exact SameTimer.trans hbounced (setState_sameTimer h)
  | foundHostport _ _ h =>
    have hstate := setState_sameTimer h
    exact hstate
  | delivered hst => rw [hst] at hs; cases hs
  | redelivered hst => rw [hst] at hs; cases hs
  | unanswered _ h => exact setState_sameTimer h
  | awaitedRegister _ h => exact processAwaitingRegister_sameTimer h
  | registered _ h => exact processRegister_sameTimer h
  | unregistered _ h => exact setState_sameTimer h
  | reset _ hset _ h => exact (setState_sameTimer hset).trans (processFromLookup_sameTimer h)

/-- A pass sends at most one datagram, and none while the timer has not run for long enough. -/
theorem processTimeout_spaced (hd : q.Distinct) (h : q.processTimeout lib env = .ok q') :
    Spaced env q q' := by
  rcases processTimeout_outcome hd h with rfl | ⟨m, -, -, hrun, ho⟩
  · exact .silent rfl rfl
  · by_cases hdel : delivers m.state = true
    · rcases dispatch_delivers hdel hrun with hrun | ⟨q1, m1, h1, -, hrun⟩
      · exact processDelivery_spaced hrun
      · exact (processDelivery_spaced hrun).after_setState h1
    · have hsilent : q'.delivered = q.delivered := by
        cases ho with
        | quiet he => exact he.delivered
        | attempt ha _ hd =>
          cases ha with
          | sent hs _ _ _ => exact absurd hs hdel
          | _ => exact hd
      exact .silent (dispatch_sameTimer (Bool.eq_false_iff.2 hdel) hrun) hsilent

end SMq

namespace Daemon

variable {d d' : Daemon} {seconds : Int}

/-! ## Runs -/

/-- The datagrams are far enough apart, and the timer was set for the last one or later. -/
structure Limited (seconds : Int) (d : Daemon) : Prop extends Sound d, SentApart seconds d where
  before : ∀ x ∈ d.queue.delivered, x.spacing ≤ d.queue.spacingTimer

theorem Limited.of_same (hl : d.Limited seconds) (hsound : d'.Sound)
    (ht : d'.queue.spacingTimer = d.queue.spacingTimer)
    (hd : d'.queue.delivered = d.queue.delivered) : d'.Limited seconds := by
  refine { hsound with spacing := ?_, apart := ?_, before := ?_ }
  · rw [hd]
    exact hl.spacing
  · rw [hd]
    exact hl.apart
  · rw [hd, ht]
    exact hl.before

/-- The limit in milliseconds, if it fits into an `int`. -/
theorem msSMSRateLimit_eq {cfg : Config} (hr : cfg.rateLimit = seconds) (hpos : 0 < seconds)
    (hfits : seconds * 1000 < 2 ^ 31) : SMq.msSMSRateLimit cfg = seconds * 1000 := by
  unfold SMq.msSMSRateLimit
  rw [hr, Int.bmod_def]
  have hmod : seconds * 1000 % ((2 ^ 32 : Nat) : Int) = seconds * 1000 :=
    Int.emod_eq_of_lt (by omega) (by omega)
  rw [hmod, if_pos (by omega)]

/-- Only a pass sets the timer. -/
theorem next_spacingTimer {a : DaemonAct} (ha : ∀ env, a ≠ .pass env)
    (hn : d.next lib a = some d') : d'.queue.spacingTimer = d.queue.spacingTimer := by
  cases a with
  | arrive env buffer srcaddr =>
    obtain ⟨-, errcode, smp, -, rfl⟩ := arrive_validated hn
    rfl
  | splice now =>
    obtain ⟨smp, -, rfl⟩ := splice_ok hn
    rfl
  | dump =>
    obtain ⟨smp, q, -, hq, rfl⟩ := dump_debugDump hn
    exact SMq.debugDump_sameTimer hq
  | signal =>
    obtain ⟨-, smp, -, rfl⟩ := signal_ok hn
    rfl
  | queueRespondSipAck =>
    obtain ⟨-, errcode, smp, smpl, -, -, rfl⟩ := queueRespondSipAck_ok hn
    rfl
  | deleteList =>
    obtain rfl := deleteList_ok hn
    rfl
  | leave =>
    obtain ⟨-, rfl⟩ := leave_ok hn
    rfl
  | receive =>
    rcases receive_ok hn with ⟨-, rfl | ⟨rest, -, rfl⟩ | ⟨errcode, smp, rest, -, rfl⟩⟩ <;> rfl
  | pass env => exact absurd rfl (ha env)
  | sendNested =>
    obtain ⟨-, timedOut, posts, -, rfl⟩ := sendNested_ok hn
    rfl
  | unlock =>
    obtain ⟨w, -, rfl⟩ := unlock_ok hn
    rfl
  | respond =>
    obtain ⟨i, m, ok, sm, -, -, rfl⟩ := respond_parse hn
    rfl
  | tidy due =>
    obtain ⟨q, hq, rfl⟩ := tidy_debugDump hn
    rcases hq with rfl | ⟨-, settings, hq⟩
    · rfl
    · have htimer := SMq.debugDump_sameTimer hq
      exact htimer

/-- Only a pass sends a datagram. -/
theorem next_delivered {a : DaemonAct} (hs : d.Sound) (ha : ∀ env, a ≠ .pass env)
    (hn : d.next lib a = some d') : d'.queue.delivered = d.queue.delivered := by
  cases next_happened hs hn with
  | passed hpass _ _ => exact absurd hpass (ha _)
  | arrived _ _ hq _ => rw [hq]
  | spliced _ _ hq _ =>
    rw [hq]
    rfl
  | parsed he => exact he.delivered
  | dumped _ he => exact he.delivered

/-- A pass with the given limit keeps the datagrams apart. -/
theorem Limited.pass (hl : d.Limited seconds) (hpos : 0 < seconds) (hfits : seconds * 1000 < 2 ^ 31)
    (hr : env.config.rateLimit = seconds) (hn : d.next lib (.pass env) = some d') :
    d'.Limited seconds := by
  have hsound : d'.Sound := hl.toSound.next hn
  obtain ⟨timedOut, q, -, hq, rfl⟩ := pass_ok hn
  cases SMq.processTimeout_spaced hl.distinct hq with
  | silent ht hd => exact hl.of_same hsound ht hd
  | sent hsoon hd ht =>
    have hlimit := msSMSRateLimit_eq hr hpos hfits
    have hlimitPos : 0 < SMq.msSMSRateLimit env.config := by
      rw [hlimit]
      omega
    have hspacing : d.queue.spacingAt env = env.clock.spacing := if_pos hlimitPos
    rw [hspacing] at hd ht
    have helapsed : d.queue.spacingTimer + seconds * 1000 < env.clock.limiter := by
      unfold SMq.tooSoon at hsoon
      rw [decide_eq_true hlimitPos, Bool.true_and] at hsoon
      have hmore := not_le.1 (of_decide_eq_false hsoon)
      rw [hlimit] at hmore
      exact Int.add_lt_of_lt_sub_left hmore
    have hlater : ∀ x ∈ d.queue.delivered, x.spacing + seconds * 1000 < env.clock.spacing := by
      intro x hx
      have hbefore := Int.add_le_add_right (hl.before x hx) (seconds * 1000)
      exact (Int.lt_of_le_of_lt hbefore helapsed).trans_le env.clock.limiter_spacing
    refine { hsound with spacing := ?_, apart := ?_, before := ?_ }
    · intro x hx
      rw [hd] at hx
      rcases List.mem_cons.1 hx with rfl | hx
      · exact env.clock.spacing_sending
      · exact hl.spacing x hx
    · rw [hd]
      exact List.pairwise_cons.2
        ⟨fun x hx => (hlater x hx).trans_le env.clock.spacing_sending, hl.apart⟩
    · intro x hx
      rw [hd] at hx
      rw [ht]
      rcases List.mem_cons.1 hx with rfl | hx
      · exact Int.le_refl _
      · exact Int.le_of_lt (Int.lt_of_le_of_lt
          (Int.le_add_of_nonneg_right (by omega)) (hlater x hx))

theorem Limited.next {a : DaemonAct} (hl : d.Limited seconds) (hpos : 0 < seconds)
    (hfits : seconds * 1000 < 2 ^ 31) (ha : LimitsTo seconds a) (hn : d.next lib a = some d') :
    d'.Limited seconds := by
  by_cases hpass : ∃ env, a = .pass env
  · obtain ⟨env, rfl⟩ := hpass
    exact hl.pass hpos hfits ha hn
  · have hother : ∀ env, a ≠ .pass env := fun env h => hpass ⟨env, h⟩
    exact hl.of_same (hl.toSound.next hn) (next_spacingTimer hother hn)
      (next_delivered hl.toSound hother hn)

/-- In every run with a limit that fits into an `int`, any two datagrams are more than the given
number of seconds apart, counted from the setting of the timer in front of the earlier one. -/
theorem run_sentApart (hpos : 0 < seconds) (hfits : seconds * 1000 < 2 ^ 31)
    (hr : GuardedRun (fun d => d.Start ∧ d.queue.delivered = []) (Step lib)
      (fun _ a => LimitsTo seconds a) d) : d.SentApart seconds := by
  have hl : d.Limited seconds := by
    refine hr.invariant (Limited seconds) (fun d h0 => ?_) fun _ _ _ hl ha hn =>
      hl.next hpos hfits ha hn
    refine { Start.sound h0.1 with spacing := ?_, apart := ?_, before := ?_ } <;> rw [h0.2]
    · exact fun x hx => (by cases hx)
    · exact List.Pairwise.nil
    · exact fun x hx => (by cases hx)
  exact hl.toSentApart

/-! ## Two messages -/

/-- Two messages that are to be delivered at once. -/
def pairDaemon : Daemon :=
  { deliveryDaemon with
    queue := { deliveryDaemon.queue with
      timeSortedList := [queuedMsg 0 .requestMsgDelivery 0 sampleRequest,
        queuedMsg 1 .requestMsgDelivery 0 sampleRequest]
      nextId := 2 } }

/-- The first one was sent, and the next pass is about to be made. -/
def oneSentDaemon (first : Delivery) : Daemon :=
  { pairDaemon with
    queue := { pairDaemon.queue with
      timeSortedList := [queuedMsg 1 .requestMsgDelivery 0 sampleRequest,
        attemptedMsg .askedForMsgDelivery (first.time + 15000) false]
      delivered := [first]
      spacingTimer := first.spacing
      tableReads := [.entry .requestMsgDelivery .askedForMsgDelivery] }
    writer := .passing true }

theorem pairDaemon_start : pairDaemon.Start where
  distinct := by
    refine ⟨by decide, fun i hi => ?_⟩
    rcases List.mem_cons.1 hi with rfl | hi
    · exact Nat.zero_lt_two
    · obtain rfl := List.mem_singleton.1 hi
      exact Nat.one_lt_two
  reader := rfl
  writer := rfl
  events := fun _ he => (by cases he)
  fits := Nat.zero_le _

/-- A pass that starts at the time `now` and calls `deliver_msg_datagram` at the time `sending`. -/
def slowEnv (now sending : Time) (h : now ≤ sending) (seconds : Int) : Env :=
  { limitedEnv now seconds with
    clock := ⟨now, now, now, now, sending, sending, sending, Int.le_refl _, Int.le_refl _,
      Int.le_refl _, h, Int.le_refl _, Int.le_refl _⟩ }

/-- The steps of the writer up to the second pass. -/
theorem oneSentDaemon_run (first : Delivery) (env : Env) (seconds : Int)
    (henv : env.config.rateLimit = seconds) (hentry : 0 ≤ env.clock.entry)
    (hpass : (({ pairDaemon with writer := .passing true } : Daemon).next
      (sampleLibs [sampleRequest] []) (.pass env)) =
        some { oneSentDaemon first with writer := .sending true 0 }) :
    GuardedRun (fun x => x.daemon.Start ∧ x.daemon.queue.delivered = [])
      (DaemonAt.Step (sampleLibs [sampleRequest] [])) (fun _ a => LimitsTo seconds a)
      ⟨oneSentDaemon first, env.clock.final⟩ := by
  have h0 : GuardedRun (fun x => x.daemon.Start ∧ x.daemon.queue.delivered = [])
      (DaemonAt.Step (sampleLibs [sampleRequest] [])) (fun _ a => LimitsTo seconds a)
      ⟨pairDaemon, 0⟩ := .start ⟨pairDaemon_start, rfl⟩
  refine run_quiet idleSteps not_pass_of_idle (fun _ a ha => ?_)
    (GuardedRun.next (a := DaemonAct.pass env) ?_ henv (step_pass hentry hpass)) rfl
  · rcases mem_idleSteps ha with rfl | rfl | rfl <;> exact trivial
  · exact h0.next (a := DaemonAct.receive) trivial ⟨rfl, rfl⟩

set_option maxRecDepth 4000 in
/-- With a limit of one second the second message is sent in the second after the timer was set, and
500 milliseconds after the first one was sent. -/
theorem run_sentApart_two : ∃ d, (oneSentDaemon ⟨0, 2000, 2500⟩).next (sampleLibs [sampleRequest] [])
    (.pass (limitedEnv 3001 1)) = some d ∧
      d.queue.delivered = [⟨1, 3001, 3001⟩, ⟨0, 2000, 2500⟩] ∧ d.SentApart 1 := by
  have hrun := oneSentDaemon_run ⟨0, 2000, 2500⟩ (slowEnv 2000 2500 (by decide) 1) 1 rfl
    (by decide) rfl
  have hview : GuardedRun (fun d => d.Start ∧ d.queue.delivered = [])
      (Step (sampleLibs [sampleRequest] [])) (fun _ a => LimitsTo 1 a)
      (oneSentDaemon ⟨0, 2000, 2500⟩) := by
    refine GuardedRun.map (s := ⟨oneSentDaemon ⟨0, 2000, 2500⟩, 2500⟩) DaemonAt.daemon
      (fun _ h0 => h0) (fun _ _ _ hg hs => ?_) hrun
    exact ⟨hg, hs.1⟩
  exact ⟨_, rfl, rfl, run_sentApart Int.one_pos (by decide)
    (hview.next (a := DaemonAct.pass (limitedEnv 3001 1)) rfl rfl)⟩

set_option maxRecDepth 4000 in
/-- A limit that does not fit into an `int` in milliseconds may be none at all; and with any other limit
two calls are too close if time passes between the setting of the timer and the first one. -/
theorem not_run_sentApart :
    (¬ ∀ (lib : Libs) (seconds : Int) (x : DaemonAt), 2 ^ 31 ≤ seconds * 1000 →
      GuardedRun (fun x => x.daemon.Start ∧ x.daemon.queue.delivered = []) (DaemonAt.Step lib)
        (fun _ a => LimitsTo seconds a) x → x.daemon.CallsApart seconds) ∧
    ¬ ∀ (lib : Libs) (seconds : Int) (x : DaemonAt), 0 < seconds → seconds * 1000 < 2 ^ 31 →
      GuardedRun (fun x => x.daemon.Start ∧ x.daemon.queue.delivered = []) (DaemonAt.Step lib)
        (fun _ a => LimitsTo seconds a) x → x.daemon.CallsApart seconds := by
  refine ⟨fun hall => ?_, fun hall => ?_⟩
  · have hrun := oneSentDaemon_run ⟨0, 0, 2000⟩ (limitedEnv 2000 2147484) 2147484 rfl (by decide) rfl
    have hapart := hall _ 2147484 ⟨_, 2000⟩ (by decide)
      (hrun.next (a := DaemonAct.pass (limitedEnv 2000 2147484)) rfl (step_pass le_rfl rfl))
    exact absurd ((List.pairwise_cons.1 hapart).1 ⟨0, 0, 2000⟩ List.mem_cons_self) (by decide)
  · have hrun := oneSentDaemon_run ⟨0, 2000, 2500⟩ (slowEnv 2000 2500 (by decide) 1) 1 rfl
      (by decide) rfl
    have hapart := hall _ 1 ⟨_, 3001⟩ Int.one_pos (by decide)
      (hrun.next (a := DaemonAct.pass (limitedEnv 3001 1)) rfl (step_pass (by decide) rfl))
    exact absurd ((List.pairwise_cons.1 hapart).1 ⟨0, 2000, 2500⟩ List.mem_cons_self) (by decide)

end Daemon

end Smqueue

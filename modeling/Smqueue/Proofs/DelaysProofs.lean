import Smqueue.Delays
import Smqueue.SampleLibs
import Smqueue.Proofs.AttemptsProofs
import Smqueue.Proofs.TransitionsProofs

/-!
# Proofs: what holds a message back

A message waits for a time if it is in a state from which it is not sent, or if the time for its next
action, with the time that it waits in any case, is not earlier. Every step of a pass keeps that.
-/

namespace Smqueue

open Runs (GuardedRun)

variable {lib : Libs} {env env' : Env} {q q' : SMq} {h sent : ShortMsgPending} {i : MsgId}
  {response : SipMessage} {e e' : Place} {T t u : Time} {seconds : Int}

/-! ## The response that postpones a message -/

namespace SMq

theorem Answers.ne (ha : q.Answers h response i) : i ≠ h.id := by
  obtain ⟨-, -, -, sent, hsel, rfl⟩ := ha
  unfold selected at hsel
  obtain ⟨tag, -, hfind⟩ := Option.bind_eq_some_iff.1 hsel
  have hmem := (findQueuedMsgByTag_some hfind).1
  exact of_decide_eq_true (List.mem_filter.1 hmem).2

theorem handleStatus_postpones (hc : postpones response.statusCode) :
    q.handleStatus lib env response sent = q.increaseAckedMsgTimeout env sent := by
  unfold handleStatus
  rcases hc with hc | hc | ⟨hc, hretry⟩
  · simp only [hc]
  · simp only [hc]
  · simp only [hc, if_pos hretry]

/-- The message gets another time, and keeps its state. -/
theorem handleResponse_postpones (ha : q.Answers h response i)
    (hc : postpones response.statusCode) (hq : q.handleResponse lib env h = .ok q') :
    ∀ e ∈ q'.agenda, e.id = i → e.due = ackedDue env ∧
      ∃ e0 ∈ q.agenda, e0.id = i ∧ e0.state = e.state := by
  obtain ⟨-, -, hparsed, sent, hsel, rfl⟩ := ha
  unfold selected at hsel
  obtain ⟨tag, htag, hfind⟩ := Option.bind_eq_some_iff.1 hsel
  unfold handleResponse at hq
  rw [htag, hparsed, deref_some, deref_some, Except.ok_bind] at hq
  rw [hfind] at hq
  dsimp only at hq
  rw [Except.ok_bind, handleStatus_postpones hc] at hq
  obtain ⟨hag, -⟩ := setStateInPlaceAt_ok hq
  have hmem := (findQueuedMsgByTag_some hfind).1
  intro e he hid
  rw [hag] at he
  obtain ⟨x, hx, rfl⟩ := List.mem_map.1 he
  by_cases hxid : x.id = sent.id
  · rw [if_pos hxid]
    exact ⟨rfl, sent.entry, mem_agenda (List.mem_of_mem_filter hmem), rfl, rfl⟩
  · rw [if_neg hxid] at hid
    exact absurd hid hxid

theorem processTimeout_postpones (hh : q.timeSortedList.head? = some h)
    (hdue : h.nextActionTime ≤ env.clock.entry) (ha : q.Answers h response i)
    (hc : postpones response.statusCode) (hq : q.processTimeout lib env = .ok q') :
    ∀ e ∈ q'.agenda, e.id = i → e.due = ackedDue env ∧
      ∃ e0 ∈ q.agenda, e0.id = i ∧ e0.state = e.state := by
  obtain ⟨rest, hl⟩ : ∃ rest, q.timeSortedList = h :: rest := by
    cases hl : q.timeSortedList with
    | nil =>
      rw [hl] at hh
      cases hh
    | cons x rest =>
      rw [hl] at hh
      cases hh
      exact ⟨rest, rfl⟩
  have hresp : response.isRequest = false := by
    unfold SipMessage.isRequest
    rw [ha.2.1]
    rfl
  unfold processTimeout at hq
  rw [hl] at hq
  dsimp only at hq
  rw [if_neg (not_lt.2 hdue)] at hq
  unfold dispatch at hq
  rw [ha.1] at hq
  dsimp only at hq
  unfold processInitial at hq
  rw [ha.2.2.1] at hq
  change (if response.isRequest then _ else q.handleResponse lib env h) = _ at hq
  rw [hresp, if_neg Bool.false_ne_true] at hq
  exact handleResponse_postpones ha hc hq

end SMq

/-! ## Places that wait -/

/-- The message is not sent before the time `T` as long as only timeouts change its state. -/
def Place.Waits (T : Time) (e : Place) : Prop := e.state.isHeld = true ∨ T ≤ e.due + e.state.rest

theorem SmState.rest_of_delivers {s : SmState} (hs : SMq.delivers s = true) :
    s.rest = 0 ∧ s.isHeld = false := by
  cases s <;> first | exact ⟨rfl, rfl⟩ | cases hs

/-- The states that a message is put into from one that it is not sent from are of the same kind. -/
theorem SmState.isHeld_of_calls {s : SmState} (hs : s.isHeld = true) :
    ∀ c ∈ s.calls, c.2.isHeld = true := by
  cases s <;> first | cases hs; done | decide

/-- A message in any other state with a case is sent as soon as it is due, unless it waits for an
answer. -/
theorem SmState.rest_of_hasCase {s : SmState} (hs : s.hasCase = true)
    (ha : s ≠ .askedForMsgDelivery) : s.rest = 0 := by
  unfold rest
  rw [if_neg ha, if_pos hs]

namespace SMq

theorem first_le_sending (env : Env) : env.clock.first ≤ env.clock.sending :=
  env.clock.first_limiter.trans (env.clock.limiter_spacing.trans env.clock.spacing_sending)

theorem first_le_final (env : Env) : env.clock.first ≤ env.clock.final :=
  (first_le_sending env).trans (env.clock.sending_insert.trans env.clock.insert_final)

theorem entry_le_final (env : Env) : env.clock.entry ≤ env.clock.final :=
  env.clock.entry_first.trans (first_le_final env)

/-- A message that is due now waits no longer. -/
theorem not_late {due entry final T : Int} (hT : final < T) (hdue : due ≤ entry)
    (hfinal : entry ≤ final) : ¬ T ≤ due + 0 := by
  omega

/-- A message that is due now and waits longer is due later. -/
theorem late_after {due entry now rest T : Int} (hlate : T ≤ due + rest) (hdue : due ≤ entry)
    (hnow : entry ≤ now) : T ≤ now + rest + 0 := by
  omega

/-- A head that is due before `T`, and waits for `T`, is in a state that it is not sent from, waits for
an answer, or is in a state without a case. -/
theorem waits_head (hT : env.clock.final < T) (hdue : h.nextActionTime ≤ env.clock.entry)
    (hw : Place.Waits T h.entry) :
    h.state.isHeld = true ∨ T ≤ h.nextActionTime + h.state.rest ∧
      (h.state = .askedForMsgDelivery ∨ h.state.hasCase = false) := by
  rcases hw with hw | hw
  · exact .inl hw
  · refine .inr ⟨hw, ?_⟩
    by_contra hne
    rw [not_or, Bool.not_eq_false] at hne
    have hrest : h.state.rest = 0 := SmState.rest_of_hasCase hne.2 hne.1
    have hlate : T ≤ h.nextActionTime + h.state.rest := hw
    rw [hrest] at hlate
    exact not_late hT hdue (entry_le_final env) hlate

/-- The response that a pass handles, as far as the waiting message `i` is concerned. -/
structure KeepsWaiting (lib : Libs) (env : Env) (q : SMq) (h : ShortMsgPending) (i : MsgId) (T : Time) :
    Prop where
  redirects : ∀ response, q.Answers h response i → ¬ redirects response.statusCode
  restarts : ¬ q.Restarts lib h i
  postpones : ∀ response, q.Answers h response i → postpones response.statusCode →
    ∀ e ∈ q.agenda, e.id = i → Place.Waits T ⟨i, e.state, ackedDue env⟩

/-- The message `i` waits for `T`, and is in the state it was in if a response postpones it. -/
def StillWaits (q : SMq) (h : ShortMsgPending) (i : MsgId) (T : Time) (e : Place) : Prop :=
  e.id = i → Place.Waits T e ∧ ∀ response, q.Answers h response i → postpones response.statusCode →
    ∃ e0 ∈ q.agenda, e0.id = i ∧ e0.state = e.state

theorem Answers.unique {response' : SipMessage} (ha : q.Answers h response i)
    (ha' : q.Answers h response' i) : response = response' :=
  Option.some.inj (ha.2.2.1.symm.trans ha'.2.2.1)

/-- A step of the pass keeps the message waiting. -/
theorem Turn.stillWaits (hT : env.clock.final < T) (hdue : h.nextActionTime ≤ env.clock.entry)
    (hhead : h.id = i → Place.Waits T h.entry) (hu : KeepsWaiting lib env q h i T)
    (hw : q.StillWaits h i T e) (ht : q.Turn lib env h e e') : q.StillWaits h i T e' := by
  have hself : ∀ {P : Prop}, h.id = i → ∀ response, q.Answers h response i → P :=
    fun hid _ ha => absurd hid.symm ha.ne
  cases ht with
  | call hid hcall hnow =>
    intro hei
    refine ⟨?_, fun r ha _ => hself (hid.symm.trans hei) r ha⟩
    rcases waits_head hT hdue (hhead (hid.symm.trans hei)) with hheld | ⟨hlate, hask | hcase⟩
    · exact .inl (SmState.isHeld_of_calls hheld _ hcall)
    · rw [hask] at hcall hlate
      obtain ⟨hes, rfl⟩ := Prod.mk.inj (List.mem_singleton.1 hcall)
      refine .inr ?_
      have hget : q.settings.timeouts.get e.state .awaitingTryMsgDelivery = 60 * 1000 := by
        rw [hes]
        rfl
      rw [hget]
      rcases hnow with rfl | rfl
      · exact late_after hlate hdue env.clock.entry_first
      · exact late_after hlate hdue (entry_le_final env)
    · cases hst : h.state <;> rw [hst] at hcase hcall <;> first | cases hcase; done | cases hcall
  | reset hid hcase hs =>
    intro hei
    refine ⟨?_, fun r ha _ => hself (hid.symm.trans hei) r ha⟩
    rcases hs with rfl | rfl
    · exact .inl rfl
    · rcases hhead (hid.symm.trans hei) with hheld | hlate
      · cases hst : h.state <;> rw [ShortMsgPending.entry, hst] at hheld <;> rw [hst] at hcase <;>
          first | cases hcase; done | cases hheld
      · refine .inr ?_
        have hrest : h.state.rest = NT := by
          unfold SmState.rest
          rw [if_neg (by rintro ha; rw [ha] at hcase; cases hcase), if_neg (by rw [hcase]; decide)]
        have hlate' : T ≤ h.nextActionTime + h.state.rest := hlate
        rw [hrest] at hlate'
        exact late_after hlate' hdue (entry_le_final env)
  | delayed hid hdel hs =>
    intro hei
    exfalso
    obtain ⟨hrest, hheld⟩ := SmState.rest_of_delivers hdel
    rcases hhead (hid.symm.trans hei) with hh | hlate
    · exact Bool.false_ne_true (hheld.symm.trans hh)
    · have hlate' : T ≤ h.nextActionTime + h.state.rest := hlate
      rw [hrest] at hlate'
      exact not_late hT hdue (entry_le_final env) hlate'
  | postponed ha hc =>
    intro hei
    obtain ⟨-, hsame⟩ := hw hei
    refine ⟨?_, fun r ha' hc' => hsame r ha' hc'⟩
    obtain ⟨e0, he0, hid0, hst0⟩ := hsame _ (hei ▸ ha) hc
    have := hu.postpones _ (hei ▸ ha) hc e0 he0 hid0
    rw [hst0] at this
    exact this
  | rejected ha hc hs =>
    intro hei
    refine ⟨.inl (by rcases hs with rfl | rfl <;> rfl), fun r ha' hc' => ?_⟩
    exfalso
    rw [← Answers.unique (hei ▸ ha) ha'] at hc'
    obtain ⟨h4, hn⟩ := hc
    rcases hc' with h1 | h5 | ⟨-, hr⟩
    · omega
    · omega
    · exact hn hr
  | redirected ha hc => exact fun hei => absurd hc (hu.redirects _ (hei ▸ ha))
  | restarted hr _ => exact fun hei => absurd (hei ▸ hr) hu.restarts

end SMq

namespace Daemon

variable {d d' : Daemon}

/-! ## A waiting message in the daemon -/

/-- The places of the messages are as they were. -/
theorem OnlyEdited.agenda {r : ShortMsg → ShortMsg → Prop} (he : OnlyEdited r d d') :
    ∀ e ∈ d'.queue.agenda, e ∈ d.queue.agenda := by
  intro e hmem
  obtain ⟨x', hx', rfl⟩ := List.mem_map.1 hmem
  obtain ⟨x, hx, hxx⟩ := he.queue x' hx'
  have hentry : x'.entry = x.entry := by
    rcases hxx with rfl | ⟨sm, -, rfl⟩ <;> rfl
  rw [hentry]
  exact SMq.mem_agenda hx

theorem OnlyEdited.held {r : ShortMsg → ShortMsg → Prop} (he : OnlyEdited r d d') {j : MsgId}
    (hj : j ∈ d'.held) : j ∈ d.held := by
  obtain ⟨x', hx', rfl⟩ := Option.mem_map.1 hj
  obtain ⟨x, hx, hxx⟩ := he.smpl x' hx'
  rw [hxx.id]
  exact Option.mem_map_of_mem ShortMsgPending.id hx

/-- The message `i` was there before, and is in the queue if it is anywhere. -/
structure Old (i : MsgId) (d : Daemon) : Prop extends Sound d where
  known : i < d.queue.nextId
  not_held : i ∉ d.held

theorem Sound.old (hs : d.Sound) (hi : i ∈ Agenda.ids d.queue.agenda) : d.Old i :=
  { hs with
    known := hs.distinct.lt_nextId i hi
    not_held := fun hheld => (hs.held_fresh i hheld).2 hi }

theorem Old.edited {r : ShortMsg → ShortMsg → Prop} (ho : d.Old i) (he : OnlyEdited r d d')
    (hsound : d'.Sound) : d'.Old i :=
  { hsound with
    known := he.nextId ▸ ho.known
    not_held := fun hheld => ho.not_held (he.held hheld) }

theorem Old.next {a : DaemonAct} (ho : d.Old i) (hn : d.next lib a = some d') : d'.Old i := by
  have hsound : d'.Sound := ho.toSound.next hn
  cases next_happened ho.toSound hn with
  | passed ha hq hr =>
    refine { hsound with known := ?_, not_held := ?_ }
    · exact Nat.lt_of_lt_of_le ho.known (passed ho.distinct hq).nextId
    · unfold held
      rw [hr]
      exact ho.not_held
  | arrived ha hv hq hr =>
    refine { hsound with known := ?_, not_held := fun hheld => ?_ }
    · rw [hq]
      exact Nat.lt_succ_of_lt ho.known
    · obtain ⟨x, hx, hid⟩ := Option.mem_map.1 hheld
      rw [(arrived_new hv hr hx).1] at hid
      exact absurd hid.symm (Nat.ne_of_lt ho.known)
  | spliced ha hr hq hr' =>
    refine { hsound with known := ?_, not_held := fun hheld => ?_ }
    · rw [hq]
      exact ho.known
    · unfold held at hheld
      rw [hr'] at hheld
      cases hheld
  | parsed he => exact ho.edited he hsound
  | dumped _ he => exact ho.edited he hsound

/-- Only a pass changes the place of a message. -/
theorem Old.places {a : DaemonAct} (ho : d.Old i) (ha : ∀ env, a ≠ .pass env)
    (hn : d.next lib a = some d') : ∀ e ∈ d'.queue.agenda, e.id = i → e ∈ d.queue.agenda := by
  intro e he hid
  cases next_happened ho.toSound hn with
  | passed hpass _ _ => exact absurd hpass (ha _)
  | arrived _ _ hq _ =>
    rw [hq] at he
    exact he
  | spliced _ hr hq _ =>
    rw [hq] at he
    rcases List.mem_cons.1 he with rfl | he
    · refine absurd ?_ ho.not_held
      unfold held
      rw [hr]
      exact congrArg some hid
    · exact he
  | parsed he' => exact he'.agenda e he
  | dumped _ he' => exact he'.agenda e he

/-- The message `i` was postponed at the time `t`, and waits for the given seconds from then. -/
structure Waiting (seconds : Int) (i : MsgId) (t : Time) (x : DaemonAt) : Prop where
  since : t ≤ x.now
  old : x.daemon.Old i
  waits : x.now < t + seconds * 1000 →
    ∀ e ∈ x.daemon.queue.agenda, e.id = i → Place.Waits (t + seconds * 1000) e

/-- A message that is postponed from now on waits for as many seconds from an earlier time. -/
theorem waits_ackedDue {s : SmState} (hc : ResendsAfter seconds (.pass env))
    (hs : s.PostponesEnough seconds) (ht : t ≤ env.clock.first) :
    Place.Waits (t + seconds * 1000) ⟨i, s, SMq.ackedDue env⟩ := by
  rcases hs with hs | hs
  · exact .inl hs
  · refine .inr ?_
    have hdue : SMq.ackedDue env = env.clock.first + seconds := by
      unfold SMq.ackedDue
      rw [show env.config.ackedMessageResend = some seconds from hc]
      rfl
    change t + seconds * 1000 ≤ SMq.ackedDue env + s.rest
    rw [hdue, Int.add_assoc]
    exact Int.add_le_add ht hs

/-- After the response the message waits. -/
theorem Waiting.postponed {x x' : DaemonAt} (hs : x.daemon.Sound)
    (hp : x.daemon.Postpones env i) (ht : env.clock.first = t)
    (hc : ResendsAfter seconds (.pass env)) (hg : x.daemon.PostponesEnough seconds (.pass env))
    (hn : DaemonAt.Step lib x (.pass env) x') : Waiting seconds i t x' := by
  obtain ⟨hnext, -, hnow⟩ := hn
  obtain ⟨timedOut, q, -, hq, hd'⟩ := pass_ok hnext
  have hp' := hp
  obtain ⟨h, hh, hdue, response, ha, hcode⟩ := hp
  have hi : i ∈ Agenda.ids x.daemon.queue.agenda := by
    obtain ⟨-, -, -, sent, hsel, rfl⟩ := ha
    exact Agenda.mem_ids.2 ⟨_, SMq.mem_agenda (SMq.selected_mem hsel), rfl⟩
  refine ⟨?_, (hs.old hi).next hnext, fun _ e he hid => ?_⟩
  · rw [hnow, ← ht]
    exact SMq.first_le_final env
  · have hqueue : x'.daemon.queue = q := by rw [hd']
    rw [hqueue] at he
    obtain ⟨hdue', e0, he0, hid0, hst⟩ :=
      SMq.processTimeout_postpones hh hdue ha hcode hq e he hid
    obtain ⟨m, hm, rfl⟩ := List.mem_map.1 he0
    have henough : e.state.PostponesEnough seconds := by
      have hmid : m.id = i := hid0
      have hms : m.state = e.state := hst
      rw [← hms]
      exact hg m hm (hmid ▸ hp')
    have hw : Place.Waits (t + seconds * 1000) ⟨e.id, e.state, SMq.ackedDue env⟩ :=
      waits_ackedDue hc henough (Int.le_of_eq ht.symm)
    rw [← hdue'] at hw
    exact hw

/-- A pass that does not disturb the message keeps it waiting. -/
theorem Waiting.pass {x x' : DaemonAt} (hw : Waiting seconds i t x)
    (hc : ResendsAfter seconds (.pass env)) (hg : x.daemon.PostponesEnough seconds (.pass env))
    (hl : x.daemon.LeavesWaiting lib i (.pass env)) (hn : DaemonAt.Step lib x (.pass env) x') :
    Waiting seconds i t x' := by
  obtain ⟨hnext, hentry, hnow⟩ := hn
  obtain ⟨timedOut, q, -, hq, hd'⟩ := pass_ok hnext
  have hqueue : x'.daemon.queue = q := by rw [hd']
  have hsince : t ≤ env.clock.entry := hw.since.trans hentry
  refine ⟨?_, hw.old.next hnext, fun hT e he hid => ?_⟩
  · rw [hnow]
    exact hsince.trans (SMq.entry_le_final env)
  · rw [hnow] at hT
    rw [hqueue] at he
    have hbefore : x.now < t + seconds * 1000 :=
      Int.lt_of_le_of_lt (hentry.trans (SMq.entry_le_final env)) hT
    have hplaces := hw.waits hbefore
    rcases SMq.processTimeout_turned hw.old.distinct hq with rfl | ⟨h, hhead, hdue, hturned⟩
    · exact hplaces e he hid
    · have hh := SMq.head_mem hhead
      obtain ⟨hredirects, hrestarts⟩ := hl h hhead hdue
      have hu : SMq.KeepsWaiting lib env x.daemon.queue h i (t + seconds * 1000) := by
        refine ⟨hredirects, hrestarts, fun response ha hcode e0 he0 hid0 => ?_⟩
        obtain ⟨m, hm, rfl⟩ := List.mem_map.1 he0
        have hmid : m.id = i := hid0
        exact waits_ackedDue hc (hg m hm ⟨h, hhead, hdue, response, hmid ▸ ha, hcode⟩)
          (hsince.trans env.clock.entry_first)
      have hold : ∀ e0 ∈ x.daemon.queue.agenda,
          x.daemon.queue.StillWaits h i (t + seconds * 1000) e0 := fun e0 he0 hid0 =>
        ⟨hplaces e0 he0 hid0, fun _ _ _ => ⟨e0, he0, hid0, rfl⟩⟩
      have hnew : ∀ e0, x.daemon.queue.Inserted env e0 →
          x.daemon.queue.StillWaits h i (t + seconds * 1000) e0 := by
        rintro e0 ⟨-⟩ hid0
        exact absurd hid0.symm (Nat.ne_of_lt hw.old.known)
      have hall := (Population.Evolves.along hold hnew (fun e1 e2 h1 hturn =>
        hturn.stillWaits hT hdue (fun hhid => hplaces _ (SMq.mem_agenda hh) hhid) hu h1) hturned).2
      exact (hall e he hid).1

theorem Waiting.next {x x' : DaemonAt} {a : DaemonAct} (hw : Waiting seconds i t x)
    (hc : ResendsAfter seconds a) (hg : x.daemon.PostponesEnough seconds a)
    (hl : x.daemon.LeavesWaiting lib i a) (hn : DaemonAt.Step lib x a x') :
    Waiting seconds i t x' := by
  by_cases ha : ∃ env, a = .pass env
  · obtain ⟨env, rfl⟩ := ha
    exact hw.pass hc hg hl hn
  · have hother : ∀ env, a ≠ .pass env := fun env hpass => ha ⟨env, hpass⟩
    obtain ⟨hnext, hnow⟩ := hn
    have hnow' : x'.now = x.now := by
      cases a with
      | pass env => exact absurd rfl (hother env)
      | _ => exact hnow
    refine ⟨hnow' ▸ hw.since, hw.old.next hnext, fun hT e he hid => ?_⟩
    exact hw.waits (hnow' ▸ hT) e (hw.old.places hother hnext e he hid) hid

/-- A pass sends no message but its head, after the rate limiter has let it pass. -/
theorem sent_head {x x' : DaemonAt} {spacing : Time} (hs : x.daemon.Sound)
    (hn : DaemonAt.Step lib x (.pass env) x')
    (hsent : x'.daemon.queue.delivered = ⟨i, spacing, u⟩ :: x.daemon.queue.delivered) :
    u = env.clock.sending ∧ ∃ h ∈ x.daemon.queue.timeSortedList, h.id = i ∧
      SMq.delivers h.state = true ∧ h.nextActionTime ≤ env.clock.entry := by
  obtain ⟨timedOut, q, -, hq, hd'⟩ := pass_ok hn.1
  have hqueue : x'.daemon.queue = q := by rw [hd']
  rw [hqueue] at hsent
  have hne : q.delivered ≠ x.daemon.queue.delivered := by
    rw [hsent]
    exact List.cons_ne_self _ _
  rcases SMq.processTimeout_outcome hs.distinct hq with rfl | ⟨h, hhead, hdue, -, ho⟩
  · exact absurd rfl hne
  · cases ho with
    | quiet he => exact absurd he.delivered hne
    | attempt ha _ hd =>
      cases ha with
      | sent hdel _ _ _ =>
        rw [hsent] at hd
        obtain ⟨hdi, -⟩ := List.cons.inj hd
        obtain ⟨rfl, -, rfl⟩ := Delivery.mk.inj hdi
        exact ⟨rfl, h, SMq.head_mem hhead, rfl, hdel, hdue⟩
      | _ => exact absurd hd hne

/-- A postponed message is not sent before the configured seconds are over, as long as milliseconds
are enough in the states in which messages are postponed. -/
theorem resent_after (h : Resent lib seconds (PostponesEnough seconds) i t u) :
    t + seconds * 1000 ≤ u := by
  obtain ⟨before, hp, ht, hc, hg, response, after, last, spacing, sent⟩ := h
  rename_i x1 x2 x3 x4 env env'
  have hsound : x1.daemon.Sound := before.invariant (fun x => x.daemon.Sound)
    (fun _ h0 => Start.sound h0) fun _ _ _ hs _ hn => hs.next hn.1
  have hw : Waiting seconds i t x3 := after.invariant (Waiting seconds i t)
    (fun x (heq : x = x2) => heq ▸ Waiting.postponed hsound hp ht hc hg response)
    fun _ _ _ hw hg hn => hw.next hg.1 hg.2.1 hg.2.2 hn
  obtain ⟨rfl, h, hh, rfl, hdel, hdue⟩ := sent_head hw.old.toSound last sent
  have hsending : env'.clock.entry ≤ env'.clock.sending :=
    env'.clock.entry_first.trans (SMq.first_le_sending env')
  by_contra hearly
  have hT := Int.not_le.1 hearly
  have hnow : x3.now < t + seconds * 1000 :=
    Int.lt_of_le_of_lt (last.2.1.trans hsending) hT
  obtain ⟨hrest, hheld⟩ := SmState.rest_of_delivers hdel
  rcases hw.waits hnow h.entry (SMq.mem_agenda hh) rfl with hw' | hlate
  · exact Bool.false_ne_true (hheld.symm.trans hw')
  · have hlate' : t + seconds * 1000 ≤ h.nextActionTime + h.state.rest := hlate
    rw [hrest] at hlate'
    exact SMq.not_late hT hdue hsending hlate'

/-! ## Runs with a response -/

/-- Steps that are no passes take no time. -/
theorem run_quiet {init : DaemonAt → Prop} {guard : DaemonAt → DaemonAct → Prop} {now : Time}
    (acts : List DaemonAct) (ha : ∀ a ∈ acts, ∀ env, a ≠ .pass env)
    (hg : ∀ x, ∀ a ∈ acts, guard x a)
    (hr : GuardedRun init (DaemonAt.Step lib) guard ⟨d, now⟩) (hrun : d.run lib acts = some d') :
    GuardedRun init (DaemonAt.Step lib) guard ⟨d', now⟩ := by
  induction acts generalizing d with
  | nil =>
    cases hrun
    exact hr
  | cons a acts ih =>
    obtain ⟨d1, h1, hrun⟩ := Option.bind_eq_some_iff.1 hrun
    refine ih (fun b hb => ha b (List.mem_cons_of_mem _ hb))
      (fun x b hb => hg x b (List.mem_cons_of_mem _ hb)) ?_ hrun
    refine hr.next (hg _ a List.mem_cons_self) ⟨h1, ?_⟩
    cases a with
    | pass env => exact absurd rfl (ha _ List.mem_cons_self env)
    | _ => rfl

theorem step_pass {now : Time} (hnow : now ≤ env.clock.entry)
    (h : d.next lib (.pass env) = some d') :
    DaemonAt.Step lib ⟨d, now⟩ (.pass env) ⟨d', env.clock.final⟩ :=
  ⟨h, hnow, rfl⟩

/-- A pass whose head is not a new message handles no response. -/
theorem not_answers (hs : ∀ h ∈ d.queue.timeSortedList.head?, h.state ≠ .initialState)
    (hh : h ∈ d.queue.timeSortedList.head?) : ¬ d.queue.Answers h response i :=
  fun ha => hs h hh ha.1

theorem postponesEnough_of_head
    (hs : ∀ h ∈ d.queue.timeSortedList.head?, h.state ≠ .initialState) :
    d.PostponesEnough seconds (.pass env) := by
  rintro m - ⟨h, hh, -, response, ha, -⟩
  exact absurd ha (not_answers hs hh)

theorem leavesWaiting_of_head
    (hs : ∀ h ∈ d.queue.timeSortedList.head?, h.state ≠ .initialState) :
    d.LeavesWaiting lib i (.pass env) := by
  refine fun h hh _ => ⟨fun response ha => absurd ha (not_answers hs hh), ?_⟩
  rintro ⟨-, ha, -, -, -⟩
  exact not_answers hs hh ha

/-- A provisional response to the sample message. -/
def sampleTrying : SipMessage := sampleResponse 100 (str "Trying")

/-- The libraries that know the sample message and that response. -/
def tryingLibs : Libs := sampleLibs [sampleRequest, sampleTrying] sampleVias

/-- An environment with the given number for `SIP.Timeout.ACKedMessageResend`. -/
def resendEnv (now : Time) (seconds : Int) : Env :=
  { sampleEnv now with config := { ackedMessageResend := some seconds } }

/-- The sample message is queued in the given state. -/
def sentDaemon (s : SmState) : Daemon where
  queue := { settings := {}, timeSortedList := [queuedMsg 0 s 50000 sampleRequest], nextId := 1 }
  events := []
  reader := .waiting
  writer := .waiting

/-- The response is in the queue, and the writer is about to make a pass. -/
def responseDaemon (s : SmState) : Daemon where
  queue :=
    { settings := {}
      timeSortedList := [queuedMsg 1 .initialState 0 sampleTrying, queuedMsg 0 s 50000 sampleRequest]
      nextId := 2
      tableReads := [.entry .noState .initialState] }
  events := []
  reader := .spliced 1
  writer := .passing true

/-- The response was handled, and the message waits until it is due; the table was read since. -/
def postponedDaemon (s : SmState) (due : Time) (w : Writer) (reads : List TableRead) : Daemon where
  queue :=
    { settings := {}
      timeSortedList := [queuedMsg 0 s due sampleRequest]
      nextId := 2
      tableReads := reads ++ [.entry .noState .initialState] }
  events := []
  reader := .spliced 1
  writer := w

theorem sentDaemon_start (s : SmState) : (sentDaemon s).Start where
  distinct := by
    refine ⟨List.nodup_singleton 0, fun i hi => ?_⟩
    obtain rfl := List.mem_singleton.1 hi
    exact Nat.zero_lt_one
  reader := rfl
  writer := rfl
  events := fun _ he => (by cases he)
  fits := Nat.zero_le _

/-- The steps of the reader until the response is in the queue. -/
def responseSteps : List DaemonAct :=
  [.receive, .arrive (sampleEnv 0) (SampleLibs.messageText sampleTrying) [], .splice 0]

/-- The steps of the writer from one pass to the next. -/
def idleSteps : List DaemonAct := [.unlock, .tidy none, .receive]

theorem mem_idleSteps {a : DaemonAct} (ha : a ∈ idleSteps) :
    a = .unlock ∨ a = .tidy none ∨ a = .receive := by
  simpa [idleSteps] using ha

theorem mem_responseSteps {a : DaemonAct} (ha : a ∈ responseSteps) :
    a = .receive ∨ a = .arrive (sampleEnv 0) (SampleLibs.messageText sampleTrying) [] ∨
      a = .splice 0 := by
  simpa [responseSteps] using ha

theorem not_pass_of_idle : ∀ a ∈ idleSteps, ∀ env, a ≠ .pass env := by
  intro a ha env hpass
  rcases mem_idleSteps ha with rfl | rfl | rfl <;> cases hpass

set_option maxRecDepth 4000 in
theorem responseDaemon_run {guard : DaemonAt → DaemonAct → Prop} (s : SmState)
    (hg : ∀ x, ∀ a ∈ responseSteps, guard x a) :
    GuardedRun DaemonAt.Start (DaemonAt.Step tryingLibs) guard ⟨responseDaemon s, 0⟩ := by
  have h0 : GuardedRun DaemonAt.Start (DaemonAt.Step tryingLibs) guard ⟨sentDaemon s, 0⟩ :=
    .start (sentDaemon_start s)
  refine run_quiet responseSteps ?_ hg h0 rfl
  intro a ha env hpass
  rcases mem_responseSteps ha with rfl | rfl | rfl <;> cases hpass

theorem responseDaemon_postpones {s : SmState} {now : Time} (hnow : 0 ≤ now) :
    (responseDaemon s).Postpones (resendEnv now seconds) 0 := by
  refine ⟨_, rfl, hnow, sampleTrying, ⟨rfl, rfl, rfl, queuedMsg 0 s 50000 sampleRequest, ?_, rfl⟩,
    .inl rfl⟩
  rfl

/-- The response comes in while the message waits for the next attempt, which is made at once. -/
theorem not_resent_after : ¬ ∀ (lib : Libs) (seconds : Int) (i : MsgId) (t u : Time),
    Resent lib seconds (fun _ _ => True) i t u → t + seconds * 1000 ≤ u := by
  intro hall
  have hresponse : DaemonAt.Step tryingLibs ⟨responseDaemon .awaitingTryMsgDelivery, 0⟩
      (.pass (resendEnv 1000 60))
      ⟨postponedDaemon .awaitingTryMsgDelivery 1060 (.sending true 0) [], 1000⟩ :=
    step_pass (by decide) rfl
  have hsent : DaemonAt.Step tryingLibs
      ⟨postponedDaemon .awaitingTryMsgDelivery 1060 (.passing true) [], 1000⟩
      (.pass (resendEnv 1060 60)) ⟨_, 1060⟩ := step_pass (by decide) rfl
  have hresent : Resent tryingLibs 60 (fun _ _ => True) 0 1000 1060 := by
    refine .mk (responseDaemon_run .awaitingTryMsgDelivery fun _ a ha => ?_)
      (responseDaemon_postpones (by decide)) rfl rfl trivial hresponse
      (run_quiet idleSteps not_pass_of_idle (fun _ a ha => ?_) (.start rfl) rfl) hsent ⟨_, rfl⟩
    · rcases mem_responseSteps ha with rfl | rfl | rfl <;> exact ⟨trivial, trivial⟩
    · rcases mem_idleSteps ha with rfl | rfl | rfl <;> exact ⟨trivial, trivial, trivial⟩
  exact absurd (hall _ _ _ _ _ hresent) (by decide)

/-- The response comes in while the message waits for an answer: milliseconds are enough then. -/
theorem resent_after_sample :
    Resent tryingLibs 50 (PostponesEnough 50) 0 1000 61050 ∧ (1000 + 50 * 1000 : Time) ≤ 61050 := by
  have hresponse : DaemonAt.Step tryingLibs ⟨responseDaemon .askedForMsgDelivery, 0⟩
      (.pass (resendEnv 1000 50))
      ⟨postponedDaemon .askedForMsgDelivery 1050 (.sending true 0) [], 1000⟩ :=
    step_pass (by decide) rfl
  have htimeout : DaemonAt.Step tryingLibs
      ⟨postponedDaemon .askedForMsgDelivery 1050 (.passing true) [], 1000⟩ (.pass (resendEnv 1050 50))
      ⟨postponedDaemon .awaitingTryMsgDelivery 61050 (.sending true 0)
        [.entry .askedForMsgDelivery .awaitingTryMsgDelivery], 1050⟩ :=
    step_pass (by decide) rfl
  have hsent : DaemonAt.Step tryingLibs
      ⟨postponedDaemon .awaitingTryMsgDelivery 61050 (.passing true)
        [.entry .askedForMsgDelivery .awaitingTryMsgDelivery], 1050⟩
      (.pass (resendEnv 61050 50)) ⟨_, 61050⟩ := step_pass (by decide) rfl
  have hidle : ∀ x : DaemonAt, ∀ a ∈ idleSteps, ResendsAfter 50 a ∧ PostponesEnough 50 x.daemon a ∧
      x.daemon.LeavesWaiting tryingLibs 0 a := by
    intro x a ha
    rcases mem_idleSteps ha with rfl | rfl | rfl <;> exact ⟨trivial, trivial, trivial⟩
  have hguard : (responseDaemon .askedForMsgDelivery).PostponesEnough 50
      (.pass (resendEnv 1000 50)) := by
    intro m hm hp
    rcases List.mem_cons.1 hm with rfl | hm
    · obtain ⟨h, hh, -, response, ha, -⟩ := hp
      cases hh
      exact absurd rfl ha.ne
    · obtain rfl := List.mem_singleton.1 hm
      exact .inr (by decide)
  have hafter : GuardedRun
      (· = ⟨postponedDaemon .askedForMsgDelivery 1050 (.sending true 0) [], 1000⟩)
      (DaemonAt.Step tryingLibs) (fun x a => ResendsAfter 50 a ∧ PostponesEnough 50 x.daemon a ∧
        x.daemon.LeavesWaiting tryingLibs 0 a)
      ⟨postponedDaemon .askedForMsgDelivery 1050 (.passing true) [], 1000⟩ :=
    run_quiet idleSteps not_pass_of_idle hidle (.start rfl) rfl
  have hresent : Resent tryingLibs 50 (PostponesEnough 50) 0 1000 61050 := by
    refine .mk (responseDaemon_run .askedForMsgDelivery fun _ a ha => ?_)
      (responseDaemon_postpones (by decide)) rfl rfl hguard hresponse
      (run_quiet idleSteps not_pass_of_idle hidle (hafter.next ?_ htimeout) rfl) hsent
      ⟨_, rfl⟩
    · rcases mem_responseSteps ha with rfl | rfl | rfl <;> exact ⟨trivial, trivial⟩
    · refine ⟨rfl, postponesEnough_of_head fun h hh => ?_, leavesWaiting_of_head fun h hh => ?_⟩ <;>
        cases hh <;> decide
  exact ⟨hresent, resent_after hresent⟩

end Daemon

end Smqueue

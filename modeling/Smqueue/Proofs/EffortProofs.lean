import Smqueue.Effort
import Smqueue.Proofs.LifecycleProofs

/-!
# Proofs: the effort for a message

Every pass that takes up a message beyond its commands uses up some of its effort, and nothing but a
response that sends the message back gives it more.
-/

namespace Smqueue

open Agenda (ids)
open Relation (ReflTransGen)

variable {lib : Libs} {env : Env} {q q1 q' : SMq} {h m m1 x : ShortMsgPending} {e e' : Place}
  {s : SmState} {i : MsgId} {limit : Int} {d d' : Daemon}

theorem SmState.passesLeft_pos (s : SmState) : 1 ≤ s.passesLeft := by
  cases s with
  | outOfRange n => exact Nat.succ_pos 4
  | _ => decide

theorem SmState.passesLeft_of_isTerminal (hs : s.isTerminal = true) : s.passesLeft = 1 := by
  cases s <;> first | rfl | cases hs

theorem SmState.passesLeft_of_not_hasCase (hs : s.hasCase = false) : s.passesLeft = 5 := by
  cases s <;> first | rfl | cases hs

/-- A message in a state that leaves fewer passes, with no fewer attempts behind it. -/
theorem ShortMsgPending.effort_lt (hr : m.retries ≤ x.retries)
    (hs : x.state.passesLeft < m.state.passesLeft) : x.effort limit < m.effort limit := by
  unfold effort
  omega

namespace SMq

/-! ## The head -/

theorem eq_of_mem_store (hx : x ∈ (q.store m).timeSortedList) (hid : x.id = m.id) : x = m := by
  obtain ⟨y, -, rfl⟩ := List.mem_map.1 hx
  by_cases hy : y.id = m.id
  · exact if_pos hy
  · rw [if_neg hy] at hid
    exact absurd hid hy

theorem setState_retries {now : Time} (hq : q.setState i s now = .ok q')
    (hx : x ∈ q'.timeSortedList) : ∃ y ∈ q.timeSortedList, y.id = x.id ∧ y.retries = x.retries := by
  unfold setState setStateAt at hq
  obtain ⟨y, hy, hq⟩ := Except.bind_eq_ok.1 hq
  obtain ⟨z, hz, hq⟩ := Except.bind_eq_ok.1 hq
  obtain rfl := Except.pure_eq_ok.1 hq
  rcases (List.mem_orderedInsert _).1 hx with rfl | hx
  · exact ⟨z, (find_some (msg_ok hz)).1, rfl, rfl⟩
  · exact ⟨x, (List.mem_filter.1 hx).1, rfl, rfl⟩

/-- The message at the head has no fewer attempts behind it after a pass. -/
theorem dispatch_retries (hd : q.Distinct) (hm : m ∈ q.timeSortedList)
    (hq : q.dispatch lib env m = .ok q') (hx : x ∈ q'.timeSortedList) (hid : x.id = m.id) :
    m.retries ≤ x.retries := by
  have hlt : m.id < q.nextId := hd.lt_nextId _ (Agenda.mem_ids.2 ⟨_, mem_agenda hm, rfl⟩)
  have hold : ¬ (x.id = q.nextId ∧ x.retries = 0) := fun hn =>
    Nat.ne_of_lt hlt (hid.symm.trans hn.1)
  cases dispatch_outcome hd hm hq with
  | quiet he =>
    rcases stems_or_new hd hm he.messages hx with ⟨y, hy, hs⟩ | hn
    · obtain rfl := eq_of_id hd hy hm (hs.id.symm.trans hid)
      exact Nat.le_of_eq hs.retries.symm
    · exact absurd hn hold
  | attempt ha hl hdel =>
    rcases stems_or_new hd hm hl hx with ⟨y, hy, hs⟩ | hn
    · rcases mem_attempted hy with rfl | ⟨hy, hne⟩
      · have hretries : x.retries = m.retries + 1 := hs.retries
        omega
      · exact absurd (hs.id.symm.trans hid) hne
    · exact absurd hn hold

/-- A delivery ends the message, or leaves it with one attempt less. -/
theorem processDelivery_effort (hs : m.state = .requestMsgDelivery)
    (hlimit : env.config.maxRetries ≠ 0) (hq : q.processDelivery lib env m = .ok q')
    (hx : x ∈ q'.timeSortedList) (hid : x.id = m.id) :
    x.effort env.config.maxRetries < 2 * (env.config.maxRetries - m.retries).toNat + 2 := by
  obtain ⟨⟨ok, sm⟩, -, hq⟩ := Except.bind_eq_ok.1 hq
  have hterminal : x.state.isTerminal = true → m.retries ≤ x.retries →
      x.effort env.config.maxRetries < 2 * (env.config.maxRetries - m.retries).toNat + 2 := by
    intro ht hr
    unfold ShortMsgPending.effort
    rw [SmState.passesLeft_of_isTerminal ht]
    omega
  let m1 : ShortMsgPending := { m with toShortMsg := sm, retries := m.retries + 1 }
  have hstored : ∀ y ∈ (q.store m1).timeSortedList, y.id = m.id → y = m1 :=
    fun y hy hid => eq_of_mem_store hy hid
  -- the message after a call of `set_state` has the counter that it was stored with
  have hset : ∀ {now : Time} {s : SmState}, (q.store m1).setState m.id s now = .ok q' →
      x.state = s ∧ x.retries = m.retries + 1 := by
    intro now s hq
    obtain ⟨y, hy, hyid, hyr⟩ := setState_retries hq hx
    rw [hstored y hy (hyid.trans hid)] at hyr
    exact ⟨setState_self hq x hx hid, hyr.symm⟩
  cases ok with
  | false =>
    obtain ⟨hst, hr⟩ := hset hq
    exact hterminal (by rw [hst]; rfl) (by omega)
  | true =>
    have hq : (q.store m1).sendPacked lib env m1 = .ok q' := hq
    unfold sendPacked at hq
    by_cases hmax : env.config.maxRetries ≠ 0 ∧ env.config.maxRetries < m1.retries
    · rw [if_pos hmax] at hq
      obtain ⟨hst, hr⟩ := hset hq
      exact hterminal (by rw [hst]; rfl) (by omega)
    · rw [if_neg hmax] at hq
      have hleft : (m.retries : Int) + 1 ≤ env.config.maxRetries := by
        have hle : ¬ env.config.maxRetries < ((m.retries + 1 : Nat) : Int) := fun hlt =>
          hmax ⟨hlimit, hlt⟩
        omega
      have hone : x.retries = m.retries + 1 → x.state.passesLeft ≤ 3 →
          x.effort env.config.maxRetries < 2 * (env.config.maxRetries - m.retries).toNat + 2 := by
        intro hr hp
        unfold ShortMsgPending.effort
        rw [hr]
        omega
      by_cases hsoon : (q.store m1).tooSoon env = true
      · rw [if_pos hsoon] at hq
        obtain rfl := Except.pure_eq_ok.1 hq
        obtain rfl := eq_of_mem_store hx hid
        refine hone rfl ?_
        change m.state.passesLeft ≤ 3
        rw [hs]
        decide
      · rw [if_neg hsoon] at hq
        obtain ⟨sm', -, hq⟩ := Except.bind_eq_ok.1 hq
        obtain ⟨y, hy, hyid, hyr⟩ := setState_retries hq hx
        obtain rfl := eq_of_mem_store hy (hyid.trans hid)
        refine hone hyr.symm ?_
        rw [setState_self hq x hx hid]
        decide

/-- A pass that takes up a message beyond its commands uses up some of its effort. -/
theorem dispatch_effort (hd : q.Distinct) (hm : m ∈ q.timeSortedList) (hp : 1 ≤ m.state.progress)
    (hlimit : env.config.maxRetries ≠ 0) (hq : q.dispatch lib env m = .ok q')
    (hx : x ∈ q'.timeSortedList) (hid : x.id = m.id) :
    x.effort env.config.maxRetries < m.effort env.config.maxRetries := by
  have hr := dispatch_retries hd hm hq hx hid
  have hdelivers : m.state.passesLeft = 2 → m.effort env.config.maxRetries =
      2 * (env.config.maxRetries - m.retries).toNat + 2 := by
    intro hs
    unfold ShortMsgPending.effort
    rw [hs]
  have commands : m.state.progress = 0 → x.effort env.config.maxRetries <
      m.effort env.config.maxRetries := by
    intro hzero
    rw [hzero] at hp
    cases hp
  have hstate : ∀ s : SmState, x.state = s → s.passesLeft < m.state.passesLeft →
      x.effort env.config.maxRetries < m.effort env.config.maxRetries := by
    rintro s rfl hlt
    exact ShortMsgPending.effort_lt hr hlt
  cases dispatch_steps hq with
  | initial hs hq => exact commands (by rw [hs]; rfl)
  | finished hs hq =>
    subst hq
    obtain ⟨-, hne⟩ := List.mem_filter.1 hx
    exact absurd hid (of_decide_eq_true hne)
  | lookedUpFrom hs hq =>
    obtain ⟨⟨next, sm⟩, hl, hq⟩ := Except.bind_eq_ok.1 hq
    refine hstate next (setState_self hq x hx hid) ?_
    rw [hs]
    rcases lookupFromAddress_next hl with rfl | rfl <;> decide
  | @foundImsi next sm hs hl hq =>
    refine hstate next (setState_self hq x hx hid) ?_
    rw [hs]
    rcases lookupUriImsi_next hl with rfl | rfl <;> decide
  | @notLocated next sm q1 hs hl hb hq =>
    refine hstate next (setState_self hq x hx hid) ?_
    obtain ⟨-, hnext⟩ := bounceMessage_ok hb
    rw [hs, hnext]
    rcases bouncedState_or _ with hb | hb <;> rw [hb] <;> decide
  | @foundHostport next m' hs hl hq =>
    refine hstate next (setState_self hq x hx hid) ?_
    rw [hs]
    rcases lookupUriHostport_next hl with rfl | rfl <;> decide
  | delivered hs hq =>
    rw [hdelivers (by rw [hs]; rfl)]
    exact processDelivery_effort hs hlimit hq hx hid
  | @redelivered q1 m1 hs hset hm1 hq =>
    have hm1' := setState_msg hd hm hset hm1
    have hid1 : m1.id = m.id := by rw [hm1']
    have hr1 : m1.retries = m.retries := by rw [hm1']
    rw [hdelivers (by rw [hs]; rfl), ← hr1]
    exact processDelivery_effort (by rw [hm1']) hlimit hq hx (hid.trans hid1.symm)
  | unanswered hs hq =>
    refine hstate _ (setState_self hq x hx hid) ?_
    rw [hs]
    decide
  | awaitedRegister hs hq => exact commands (by rw [hs]; rfl)
  | registered hs hq => exact commands (by rw [hs]; rfl)
  | unregistered hs hq => exact commands (by rw [hs]; rfl)
  | @reset q1 m1 hs hset hm1 hq =>
    obtain ⟨⟨next, sm⟩, hl, hq⟩ := Except.bind_eq_ok.1 hq
    have hid1 : m1.id = m.id := (find_some (msg_ok hm1)).2
    refine hstate next (setState_self hq x hx (hid.trans hid1.symm)) ?_
    rw [SmState.passesLeft_of_not_hasCase hs]
    rcases lookupFromAddress_next hl with rfl | rfl <;> decide

/-! ## The other messages -/

theorem sendsBack_of_answers {response : SipMessage} (hhead : q.timeSortedList.head? = some h)
    (hdue : h.nextActionTime ≤ env.clock.entry) (ha : q.Answers h response i)
    (hc : redirects response.statusCode) : q.sendsBack env i = true := by
  obtain ⟨hs, hresp, hparsed, sent, hsent, hid⟩ := ha
  have hselected : (q.selected h).any (fun sent => sent.id = i) = true :=
    (Option.any_eq_true _ _).2 ⟨sent, hsent, decide_eq_true hid⟩
  unfold sendsBack
  rw [hhead, Option.any_some, hparsed, Option.any_some, hresp, hselected, decide_eq_true hdue,
    decide_eq_true hs]
  rcases hc with hc | hc <;> simp [hc]

/-- A pass with another head gives a message more effort only if it sends the message back. -/
theorem Turn.passesLeft (hhead : q.timeSortedList.head? = some h)
    (hdue : h.nextActionTime ≤ env.clock.entry) (hne : e.id ≠ h.id) (hp : 1 ≤ e.state.progress)
    (ht : q.Turn lib env h e e') {n : Nat}
    (hn : e.state.passesLeft ≤ n + 3 * (q.sendsBack env e.id).toNat) (hpos : 1 ≤ n) :
    e'.state.passesLeft ≤ n + 3 * (q.sendsBack env e.id).toNat := by
  cases ht with
  | call hid _ _ => exact absurd hid hne
  | reset hid _ _ => exact absurd hid hne
  | delayed hid _ _ => exact absurd hid hne
  | postponed _ _ => exact hn
  | @rejected s response _ _ hs =>
    have hone : s.passesLeft = 1 := by rcases hs with rfl | rfl <;> rfl
    change s.passesLeft ≤ _
    omega
  | redirected ha hc =>
    rw [sendsBack_of_answers hhead hdue ha hc]
    change 4 ≤ n + 3 * 1
    omega
  | restarted _ hu =>
    rw [SmState.progress_underRegistration hu] at hp
    cases hp

theorem passesLeft_of_turns (hhead : q.timeSortedList.head? = some h)
    (hdue : h.nextActionTime ≤ env.clock.entry) (hne : e.id ≠ h.id) (hp : 1 ≤ e.state.progress)
    (ht : ReflTransGen (q.Turn lib env h) e e') :
    e'.id = e.id ∧ 1 ≤ e'.state.progress ∧
      e'.state.passesLeft ≤ e.state.passesLeft + 3 * (q.sendsBack env e.id).toNat := by
  induction ht with
  | refl => exact ⟨rfl, hp, Nat.le_add_right _ _⟩
  | tail _ ht ih =>
    obtain ⟨hid, hp1, hle⟩ := ih
    obtain ⟨hid', hnext⟩ := ht.follows
    refine ⟨hid'.trans hid, ?_, ?_⟩
    · rcases hnext with hst | hf
      · rw [hst]
        exact hp1
      · exact Nat.le_trans hp1 hf.progress
    · rw [← hid] at hne hle ⊢
      exact ht.passesLeft hhead hdue hne hp1 hle e.state.passesLeft_pos

/-- The message `m` of the queue is the one with the identity of `x` behind a pass. -/
theorem dispatch_others (hd : q.Distinct) (hhead : q.timeSortedList.head? = some h)
    (hdue : h.nextActionTime ≤ env.clock.entry) (hm : m ∈ q.timeSortedList) (hne : m.id ≠ h.id)
    (hp : 1 ≤ m.state.progress) (hq : q.dispatch lib env h = .ok q')
    (hx : x ∈ q'.timeSortedList) (hid : x.id = m.id) :
    x.effort limit ≤ m.effort limit + 3 * (q.sendsBack env m.id).toNat := by
  have hh : h ∈ q.timeSortedList := head_mem hhead
  have hlt : m.id < q.nextId := hd.lt_nextId _ (Agenda.mem_ids.2 ⟨_, mem_agenda hm, rfl⟩)
  have hretries : x.retries = m.retries := by
    have hold : ¬ (x.id = q.nextId ∧ x.retries = 0) := fun hn =>
      Nat.ne_of_lt hlt (hid.symm.trans hn.1)
    have hstems : ∃ y ∈ q.timeSortedList, q.StemsFrom h y x := by
      cases dispatch_outcome hd hh hq with
      | quiet he => exact (stems_or_new hd hh he.messages hx).resolve_right hold
      | attempt ha hl hdel =>
        obtain ⟨y, hy, hs⟩ := (stems_or_new hd hh hl hx).resolve_right hold
        rcases mem_attempted hy with rfl | ⟨hy, -⟩
        · exact absurd (hid.symm.trans hs.id) hne
        · exact ⟨y, hy, hs⟩
    obtain ⟨y, hy, hs⟩ := hstems
    obtain rfl := eq_of_id hd hy hm (hs.id.symm.trans hid)
    exact hs.retries
  obtain ⟨e, he, hway⟩ := dispatch_turned hd hh hq x.entry (mem_agenda hx)
  obtain ⟨hxe, -⟩ := Daemon.lives_place hway
  rcases he with he | he
  · obtain ⟨y, hy, rfl⟩ := List.mem_map.1 he
    obtain rfl : y = m := eq_of_id hd hy hm (hxe.symm.trans hid)
    obtain ⟨-, -, hle⟩ := passesLeft_of_turns hhead hdue hne hp hway
    unfold ShortMsgPending.effort
    rw [hretries, Nat.add_assoc]
    exact Nat.add_le_add_left hle _
  · cases he with
    | mk hst => exact absurd (hid.symm.trans hxe) (Nat.ne_of_lt hlt)

/-- What a pass costs a message beyond its commands: it may leave with the pass, or lose effort if it
is taken up, or gain some if it is sent back. -/
theorem processTimeout_effort (hd : q.Distinct) (hm : m ∈ q.timeSortedList)
    (hp : 1 ≤ m.state.progress) (hlimit : env.config.maxRetries ≠ 0)
    (hq : q.processTimeout lib env = .ok q') :
    (q.takesUp env m.id).toNat ≤ m.effort env.config.maxRetries ∧
      ∀ x ∈ q'.timeSortedList, x.id = m.id →
        (q.takesUp env m.id).toNat + x.effort env.config.maxRetries ≤
          m.effort env.config.maxRetries + 3 * (q.sendsBack env m.id).toNat := by
  have hone : 1 ≤ m.effort env.config.maxRetries :=
    Nat.le_trans m.state.passesLeft_pos (Nat.le_add_left _ _)
  refine ⟨Nat.le_trans (Bool.toNat_le _) hone, fun x hx hid => ?_⟩
  rcases processTimeout_cases hq with ⟨rfl, hidle⟩ | ⟨h, hhead, hdue, hq⟩
  · obtain rfl := eq_of_id hd hx hm hid
    have hnot : q'.takesUp env x.id = false := by
      refine (Option.any_eq_false _ _).2 fun h hhead => ?_
      simpa using fun _ => hidle h hhead
    rw [hnot]
    simp
  · by_cases hne : m.id = h.id
    · obtain rfl := eq_of_id hd hm (head_mem hhead) hne
      have hlt := dispatch_effort hd hm hp hlimit hq hx hid
      have hle := Bool.toNat_le (q.takesUp env m.id)
      omega
    · have hnot : q.takesUp env m.id = false := by
        unfold takesUp
        rw [hhead, Option.any_some, decide_eq_false fun hid => hne hid.symm]
        rfl
      rw [hnot]
      have hle : x.effort env.config.maxRetries ≤
          m.effort env.config.maxRetries + 3 * (q.sendsBack env m.id).toNat :=
        dispatch_others hd hhead hdue hm hne hp hq hx hid
      simpa using hle

end SMq

/-! ## Runs -/

namespace Daemon

/-- The message is past its commands, or gone. -/
def PastCommands (i : MsgId) (d : Daemon) : Prop := d.Sound ∧ 3 ≤ (d.stage i).age

theorem PastCommands.next {a : DaemonAct} (h : d.PastCommands i) (hn : d.next lib a = some d') :
    d'.PastCommands i :=
  ⟨h.1.next hn, Nat.le_trans h.2 (h.1.next_lives hn i).age⟩

theorem PastCommands.progress (h : d.PastCommands i) (hm : m ∈ d.queue.timeSortedList)
    (hid : m.id = i) : 1 ≤ m.state.progress := by
  obtain ⟨hs, hage⟩ := h
  rw [← hid, stage_queued hs hm] at hage
  change 3 ≤ 2 + m.state.progress at hage
  omega

/-- A message past its commands that is queued after a step was queued before it. -/
theorem PastCommands.queued {a : DaemonAct} (h : d.PastCommands i) (hn : d.next lib a = some d')
    (hx : x ∈ d'.queue.timeSortedList) (hid : x.id = i) : ∃ m ∈ d.queue.timeSortedList, m.id = i := by
  obtain ⟨hs, hage⟩ := h
  by_cases hi : i ∈ ids d.queue.agenda
  · obtain ⟨e, he, hei⟩ := Agenda.mem_ids.1 hi
    obtain ⟨m, hm, rfl⟩ := List.mem_map.1 he
    exact ⟨m, hm, hei⟩
  · have hlives := hs.next_lives hn i
    rw [← hid, stage_queued (hs.next hn) hx, hid] at hlives
    rw [stage_of_not_mem hi] at hage hlives
    by_cases hheld : d.held = some i
    · rw [if_pos hheld] at hage
      exact absurd hage (by decide)
    · rw [if_neg hheld] at hage hlives
      by_cases hlt : i < d.queue.nextId
      · rw [if_pos hlt] at hlives
        cases Stage.lives_of_gone hlives
      · rw [if_neg hlt] at hage
        exact absurd hage (by decide)

theorem effort_eq (hd : d.queue.Distinct) (hm : m ∈ d.queue.timeSortedList) :
    d.effort limit m.id = m.effort limit := by
  unfold effort
  rw [SMq.find_mem hd.nodup hm]
  rfl

/-- The effort after a step, of a message that may have left with it. -/
theorem add_effort_le {n b : Nat} (hgone : n ≤ b)
    (hx : ∀ x ∈ d'.queue.timeSortedList, x.id = i → n + x.effort limit ≤ b) :
    n + d'.effort limit i ≤ b := by
  unfold effort
  cases hf : d'.queue.find i with
  | none => exact hgone
  | some x => exact hx x (SMq.find_some hf).1 (SMq.find_some hf).2

/-- A step other than a pass gives no queued message more effort. -/
theorem PastCommands.effort_le {a : DaemonAct} (h : d.PastCommands i)
    (hn : d.next lib a = some d') (ha : ∀ env, a ≠ .pass env) :
    d'.effort limit i ≤ d.effort limit i := by
  have hd := h.1.distinct
  have hsame : ∀ x ∈ d'.queue.timeSortedList, x.id = i → ∃ m ∈ d.queue.timeSortedList,
      x.id = m.id ∧ x.state = m.state ∧ x.retries = m.retries := by
    intro x hx hid
    cases next_happened h.1 hn with
    | passed hp _ _ => exact absurd hp (ha _)
    | arrived _ _ hq _ =>
      rw [hq] at hx
      exact ⟨x, hx, rfl, rfl, rfl⟩
    | @spliced now smp _ hr hq _ =>
      rw [hq] at hx
      rcases List.mem_cons.1 hx with rfl | hx
      · -- the message in the temporary list is not past its commands
        have hheld : d.held = some i := by
          unfold held
          rw [hr]
          exact congrArg some hid
        have hage := h.2
        rw [stage_arriving h.1 hheld] at hage
        exact absurd hage (by decide)
      · exact ⟨x, hx, rfl, rfl, rfl⟩
    | parsed he =>
      obtain ⟨m, hm, hedit⟩ := he.queue x hx
      exact ⟨m, hm, hedit.id, hedit.state, hedit.retries⟩
    | dumped _ he =>
      obtain ⟨m, hm, hedit⟩ := he.queue x hx
      exact ⟨m, hm, hedit.id, hedit.state, hedit.retries⟩
  have hle : 0 + d'.effort limit i ≤ d.effort limit i := by
    refine add_effort_le (Nat.zero_le _) fun x hx hid => ?_
    obtain ⟨m, hm, hxid, hstate, hretries⟩ := hsame x hx hid
    rw [← hid, hxid, effort_eq hd hm, Nat.zero_add]
    unfold ShortMsgPending.effort
    rw [hstate, hretries]
  rw [Nat.zero_add] at hle
  exact hle

/-- What a step costs a message past its commands. -/
theorem PastCommands.next_effort {a : DaemonAct} (h : d.PastCommands i) (hlimit : limit ≠ 0)
    (hg : d.MaxRetries limit a) (hn : d.next lib a = some d') :
    d.takesUp i a + d'.effort limit i ≤ d.effort limit i + 3 * d.sendsBack i a := by
  have hother : (∀ env, a ≠ .pass env) → d.takesUp i a = 0 →
      d.takesUp i a + d'.effort limit i ≤ d.effort limit i + 3 * d.sendsBack i a := by
    intro ha hzero
    have hle : d'.effort limit i ≤ d.effort limit i := h.effort_le hn ha
    omega
  cases a with
  | pass env =>
    obtain ⟨timedOut, q, -, hq, hd'⟩ := pass_ok hn
    obtain rfl : env.config.maxRetries = limit := hg
    have hqueue : d'.queue = q := by rw [hd']
    by_cases hi : ∃ m ∈ d.queue.timeSortedList, m.id = i
    · obtain ⟨m, hm, rfl⟩ := hi
      obtain ⟨hgone, hleft⟩ :=
        SMq.processTimeout_effort h.1.distinct hm (h.progress hm rfl) hlimit hq
      rw [effort_eq h.1.distinct hm]
      refine add_effort_le (Nat.le_trans hgone (Nat.le_add_right _ _)) ?_
      rw [hqueue]
      exact hleft
    · have hnot : d.queue.takesUp env i = false := by
        refine (Option.any_eq_false _ _).2 fun x hx => ?_
        have hne : x.id ≠ i := fun hid => hi ⟨x, SMq.head_mem hx, hid⟩
        simp [hne]
      have hzero : d.takesUp i (.pass env) = 0 := congrArg Bool.toNat hnot
      rw [hzero]
      exact add_effort_le (Nat.zero_le _) fun x hx hid => absurd (h.queued hn hx hid) hi
  | _ => exact hother (fun env ha => nomatch ha) rfl

/-- As long as `SMS.MaxRetries` is set and does not change, a message past its commands is taken up by
a bounded number of passes: its effort, and three more for each response that sends it back. -/
theorem run_effort (lib : Libs) (limit : Int) (hlimit : limit ≠ 0) (d d' : Daemon)
    (acts : List DaemonAct) (m : ShortMsgPending) (hr : Runs.Reachable Start (Step lib) d)
    (hm : m ∈ d.queue.timeSortedList) (hp : 1 ≤ m.state.progress) (h : d.run lib acts = some d')
    (hg : Runs.EachStep (fun d a => d.next lib a) (MaxRetries limit) d acts) :
    Runs.total (fun d a => d.next lib a) (takesUp m.id) d acts + d'.effort limit m.id ≤
      m.effort limit + 3 * Runs.total (fun d a => d.next lib a) (sendsBack m.id) d acts := by
  have hs : d.Sound := Reachable.sound hr
  have hpast : d.PastCommands m.id := by
    refine ⟨hs, ?_⟩
    rw [stage_queued hs hm]
    change 3 ≤ 2 + m.state.progress
    omega
  rw [run_eq] at h
  rw [← effort_eq hs.distinct hm, ← Runs.total_mul]
  exact Runs.total_add_le (fun _ _ _ h hn => h.next hn)
    (fun _ _ _ h hg hn => h.next_effort hlimit hg hn) h hpast hg

/-- The threads start with the sample message, which waits for an answer. -/
def waitingDaemon : Daemon where
  queue :=
    { settings := {}, timeSortedList := [queuedMsg 0 .askedForMsgDelivery 0 sampleRequest], nextId := 1 }
  events := []
  reader := .waiting
  writer := .waiting

/-- The environment of a pass with two attempts for each message. -/
def twoAttempts : Env := { sampleEnv 0 with config := { maxRetries := 2 } }

/-- The waiting is over. -/
def waitingSteps : List DaemonAct := [.receive, .pass twoAttempts]

theorem waitingDaemon_start : waitingDaemon.Start where
  distinct := ⟨by decide, by decide⟩
  reader := rfl
  writer := rfl
  events := fun _ he => absurd he List.not_mem_nil
  fits := Nat.zero_le _

theorem run_effort_waiting : ∃ d', waitingDaemon.run (sampleLibs [] []) waitingSteps = some d' ∧
    1 + d'.effort 2 0 ≤ 7 := by
  have hrun : (waitingDaemon.run (sampleLibs [] []) waitingSteps).isSome = true := by
    decide +kernel
  obtain ⟨d', hd'⟩ := Option.isSome_iff_exists.1 hrun
  have hcost : Runs.total (fun d a => d.next (sampleLibs [] []) a) (takesUp 0) waitingDaemon
      waitingSteps = 1 := by decide +kernel
  have hgain : Runs.total (fun d a => d.next (sampleLibs [] []) a) (sendsBack 0) waitingDaemon
      waitingSteps = 0 := by decide +kernel
  have heffort : (queuedMsg 0 .askedForMsgDelivery 0 sampleRequest).effort 2 = 7 := by decide
  have hle : Runs.total (fun d a => d.next (sampleLibs [] []) a) (takesUp 0) waitingDaemon
        waitingSteps + d'.effort 2 0 ≤
      (queuedMsg 0 .askedForMsgDelivery 0 sampleRequest).effort 2 +
        3 * Runs.total (fun d a => d.next (sampleLibs [] []) a) (sendsBack 0) waitingDaemon
          waitingSteps :=
    run_effort (sampleLibs [] []) 2 (by decide) waitingDaemon d' waitingSteps
      (queuedMsg 0 .askedForMsgDelivery 0 sampleRequest) (.start waitingDaemon_start)
      (List.mem_singleton_self _) (by decide) hd'
      (fun _ _ => ⟨trivial, fun _ _ => ⟨rfl, trivial⟩⟩)
  rw [hcost, hgain, heffort] at hle
  exact ⟨d', hd', hle⟩

end Daemon

end Smqueue

import Smqueue.Attempts
import Smqueue.Proofs.DaemonChangesProofs
import Smqueue.SampleLibs

/-!
# Proofs: delivery attempts

The deliveries of a message never exceed its counter, and the counter is compared with the limit
before each of them. The other way round, the counter never exceeds the deliveries as long as no pass
uses up an attempt without a delivery.
-/

namespace Smqueue

variable {lib : Libs} {env : Env} {d d' : Daemon} {q q' : SMq} {h m m' : ShortMsgPending}
  {i : MsgId} {limit : Int}

/-! ## One pass -/

namespace SMq

/-- The message `m'` after a pass with the head `h` stems from `m`. -/
structure StemsFrom (q : SMq) (h m m' : ShortMsgPending) : Prop where
  id : m'.id = m.id
  retries : m'.retries = m.retries
  /-- A finished message stays finished, unless a response sends it back through the lookups. -/
  terminal : m.id ≠ h.id → m.state.isTerminal = true → m'.state.isTerminal = true ∨
    ∃ response, q.Answers h response m.id ∧
      (response.statusCode.tdiv 100 = 3 ∨ response.statusCode.tdiv 100 = 6)

theorem not_terminal_of_underRegistration {s : SmState} (h : underRegistration s = true) :
    s.isTerminal = false := by
  cases s with
  | awaitingRegisterHandset => rfl
  | registerHandset => rfl
  | askedToRegisterHandset => rfl
  | _ => cases h

theorem not_terminal_of_delivers {s : SmState} (h : delivers s = true) : ¬ s.isTerminal = true := by
  cases s with
  | requestMsgDelivery => decide
  | awaitingTryMsgDelivery => decide
  | _ => cases h

theorem Change.stemsFrom (hc : q.Change lib env h m m') : q.StemsFrom h m m' := by
  obtain ⟨hid, hretries⟩ := hc.same
  refine ⟨hid, hretries, fun hne hterm => ?_⟩
  cases hc with
  | refresh _ => exact .inl hterm
  | edit _ _ => exact .inl hterm
  | tag heq _ => exact absurd heq hne
  | move hm =>
    cases hm with
    | head heq => exact absurd heq hne
    | retimed _ _ => exact .inl hterm
    | bounced _ _ hs => exact .inl hs
    | redirected ha hc => exact .inr ⟨_, ha, hc⟩
    | restarted hu =>
      rw [not_terminal_of_underRegistration hu] at hterm
      cases hterm

theorem StemsFrom.refl (m : ShortMsgPending) : q.StemsFrom h m m :=
  ⟨rfl, rfl, fun _ hterm => .inl hterm⟩

theorem StemsFrom.trans {m1 m2 : ShortMsgPending} (h1 : q.StemsFrom h m m1)
    (h2 : q.StemsFrom h m1 m2) : q.StemsFrom h m m2 := by
  refine ⟨h2.id.trans h1.id, h2.retries.trans h1.retries, fun hne hterm => ?_⟩
  rcases h1.terminal hne hterm with hterm1 | hr
  · rw [← h1.id] at hne ⊢
    exact h2.terminal hne hterm1
  · exact .inr hr

/-- Every message after a pass is a new one or stems from one before. -/
theorem stems_or_new {l l' : List ShortMsgPending} (hd : q.Distinct) (hh : h ∈ q.timeSortedList)
    (he : Population.Evolves (q.Change lib env h) (q.Incoming lib env h) l l') (hm : m' ∈ l') :
    (∃ m ∈ l, q.StemsFrom h m m') ∨ m'.id = q.nextId ∧ m'.retries = 0 := by
  obtain ⟨m, hfrom, hs⟩ := he.related (r := q.StemsFrom h) StemsFrom.refl
    (fun _ _ _ => StemsFrom.trans) (fun _ _ => Change.stemsFrom) hm
  rcases hfrom with hl | hin
  · exact .inl ⟨m, hl, hs⟩
  · obtain ⟨hid, hretries⟩ := hin.isNew hd hh
    exact .inr ⟨hs.id.trans hid, hs.retries.trans hretries⟩

theorem mem_attempted (hm : m ∈ (q.attempted h).timeSortedList) :
    m = { h with retries := h.retries + 1 } ∨ m ∈ q.timeSortedList ∧ m.id ≠ h.id := by
  obtain ⟨x, hx, rfl⟩ := List.mem_map.1 hm
  by_cases hid : x.id = h.id
  · rw [if_pos hid]
    exact .inl rfl
  · rw [if_neg hid]
    exact .inr ⟨hx, hid⟩

theorem deliveries_congr (hd : q'.delivered = q.delivered) : q'.deliveries i = q.deliveries i :=
  congrArg (List.countP _) hd

theorem deliveries_append {sent : List Delivery} (hd : q'.delivered = sent ++ q.delivered) :
    q'.deliveries i = sent.countP (·.id = i) + q.deliveries i := by
  unfold deliveries
  rw [hd, List.countP_append]

/-- An attempt makes one delivery at most, and that is one of the head. -/
theorem Attempt.count {sent : List Delivery} (ha : q.Attempt lib env h sent) :
    sent.countP (·.id = h.id) ≤ 1 ∧ ∀ i, i ≠ h.id → sent.countP (·.id = i) = 0 := by
  have none_ : ([] : List Delivery).countP (·.id = h.id) ≤ 1 ∧
      ∀ i, i ≠ h.id → ([] : List Delivery).countP (·.id = i) = 0 := ⟨Nat.zero_le _, fun _ _ => rfl⟩
  cases ha with
  | retryAfterDelay => exact none_
  | unpacked => exact none_
  | exceeded => exact none_
  | delayed => exact none_
  | sent =>
    refine ⟨List.countP_le_length, fun i hi => List.countP_eq_zero.2 fun x hx hid => ?_⟩
    obtain rfl := List.mem_singleton.1 hx
    exact hi (of_decide_eq_true hid).symm

/-- The messages other than the head are not delivered. -/
theorem Outcome.deliveries_other (ho : Outcome lib env q h q') (hne : i ≠ h.id) :
    q'.deliveries i = q.deliveries i := by
  cases ho with
  | quiet he => exact deliveries_congr he.delivered
  | attempt ha hm hdel => rw [deliveries_append hdel, ha.count.2 i hne, Nat.zero_add]

/-- The deliveries of a message do not exceed its counter. -/
def Counted (q : SMq) (m : ShortMsgPending) : Prop := q.deliveries m.id ≤ m.retries

theorem StemsFrom.counted (hs : q.StemsFrom h m m') (hc : q.Counted m) : q.Counted m' := by
  unfold Counted
  rw [hs.id, hs.retries]
  exact hc

theorem ne_of_nextId_le (hd : q.Distinct) (hm : m ∈ q.timeSortedList) (hi : q.nextId ≤ i) :
    i ≠ m.id :=
  Nat.ne_of_gt (Nat.lt_of_lt_of_le (hd.lt_nextId _ (Agenda.mem_ids.2 ⟨_, mem_agenda hm, rfl⟩)) hi)

theorem Outcome.counted (ho : Outcome lib env q h q') (hd : q.Distinct) (hh : h ∈ q.timeSortedList)
    (hunborn : q.deliveries q.nextId = 0) (hc : ∀ m ∈ q.timeSortedList, q.Counted m) :
    ∀ m' ∈ q'.timeSortedList, q'.Counted m' := by
  intro m' hm'
  have ho' := ho
  cases ho with
  | quiet he =>
    show q'.deliveries m'.id ≤ m'.retries
    rw [deliveries_congr he.delivered]
    rcases stems_or_new hd hh he.messages hm' with ⟨m, hm, hs⟩ | ⟨hid, -⟩
    · exact hs.counted (hc m hm)
    · rw [hid, hunborn]
      exact Nat.zero_le _
  | attempt ha hl hdel =>
    show q'.deliveries m'.id ≤ m'.retries
    rcases stems_or_new hd hh hl hm' with ⟨m, hm, hs⟩ | ⟨hid, -⟩
    · rw [hs.id, hs.retries]
      rcases mem_attempted hm with rfl | ⟨hm, hne⟩
      · have hhead := hc h hh
        rw [deliveries_append hdel, Nat.add_comm h.retries]
        exact Nat.add_le_add ha.count.1 hhead
      · rw [ho'.deliveries_other hne]
        exact hc m hm
    · rw [hid, ho'.deliveries_other (ne_of_nextId_le hd hh (Nat.le_refl _)), hunborn]
      exact Nat.zero_le _

/-- The limit is compared with the counter before every delivery. -/
theorem Outcome.limited (ho : Outcome lib env q h q') (hlimit : 0 < limit)
    (henv : env.config.maxRetries = limit) (hc : q.Counted h)
    (hl : ∀ i, (q.deliveries i : Int) ≤ limit) : ∀ i, (q'.deliveries i : Int) ≤ limit := by
  intro i
  by_cases hid : i = h.id
  · subst hid
    cases ho with
    | quiet he =>
      rw [deliveries_congr he.delivered]
      exact hl h.id
    | attempt ha hm hdel =>
      have hone := ha.count.1
      rw [deliveries_append hdel]
      cases ha with
      | sent hs hp hx ht =>
        have hle : ((h.retries + 1 : Nat) : Int) ≤ limit := by
          rw [← henv]
          refine not_lt.1 fun hlt => hx ⟨?_, hlt⟩
          rw [henv]
          exact hlimit.ne'
        unfold Counted at hc
        omega
      | _ =>
        rw [List.countP_nil, Nat.zero_add]
        exact hl h.id
  · rw [ho.deliveries_other hid]
    exact hl i

/-- Messages to come have not been delivered. -/
theorem Outcome.unborn (ho : Outcome lib env q h q') (hd : q.Distinct) (hh : h ∈ q.timeSortedList)
    (hunborn : ∀ i, q.nextId ≤ i → q.deliveries i = 0) :
    ∀ i, q.nextId ≤ i → q'.deliveries i = 0 := by
  intro i hi
  rw [ho.deliveries_other (ne_of_nextId_le hd hh hi)]
  exact hunborn i hi

/-! ## Attempts that are paid for -/

/-- An attempt that was counted was a delivery, unless the message is finished or has had its
deliveries. -/
def Paid (limit : Int) (q : SMq) (m : ShortMsgPending) : Prop :=
  m.state.isTerminal = true ∨ m.retries ≤ q.deliveries m.id ∨ limit ≤ q.deliveries m.id

theorem eq_of_id (hd : q.Distinct) (hm : m ∈ q.timeSortedList) (hm' : m' ∈ q.timeSortedList)
    (hid : m.id = m'.id) : m = m' := by
  have hfind := find_mem hd.nodup hm
  rw [hid, find_mem hd.nodup hm'] at hfind
  exact (Option.some.inj hfind).symm

theorem selected_mem {sent : ShortMsgPending} (hs : sent ∈ q.selected h) :
    sent ∈ q.timeSortedList := by
  obtain ⟨tag, -, hfind⟩ := Option.bind_eq_some_iff.1 hs
  exact List.mem_of_mem_filter (findQueuedMsgByTag_some hfind).1

/-- The counts of a message other than the head do not change, and the pass does not send a finished
message back that has not been paid for. -/
theorem StemsFrom.paid (hs : q.StemsFrom h m m') (hd : q.Distinct) (hm : m ∈ q.timeSortedList)
    (hne : m.id ≠ h.id) (henv : env.config.maxRetries = limit) (hw : ¬ q.WastesAttempt lib env h)
    (hdel : q'.deliveries m.id = q.deliveries m.id) (hp : q.Paid limit m) : q'.Paid limit m' := by
  unfold Paid at hp ⊢
  rw [hs.id, hs.retries, hdel]
  rcases hp with hterm | hp
  · rcases hs.terminal hne hterm with hterm' | ⟨response, ha, hc⟩
    · exact .inl hterm'
    · have ha' := ha
      obtain ⟨-, -, -, sent, hsel, hid⟩ := ha'
      obtain rfl : sent = m := eq_of_id hd (selected_mem hsel) hm hid
      by_cases hr : q.deliveries sent.id < sent.retries
      · refine .inr (.inr (not_lt.1 fun hl => hw ?_))
        rw [← henv] at hl
        exact .revived hsel ha hc hterm hr hl
      · exact .inr (.inl (not_lt.1 hr))
  · exact .inr hp

theorem setState_self {s : SmState} {now : Time} (hq : q.setState i s now = .ok q') :
    ∀ x ∈ q'.timeSortedList, x.id = i → x.state = s := by
  intro x hx hid
  unfold setState setStateAt at hq
  obtain ⟨y, -, hq⟩ := Except.bind_eq_ok.1 hq
  obtain ⟨z, hz, hq⟩ := Except.bind_eq_ok.1 hq
  obtain rfl := Except.pure_eq_ok.1 hq
  rcases (List.mem_orderedInsert _).1 hx with rfl | hx
  · rfl
  · exact absurd hid (of_decide_eq_true (List.mem_filter.1 hx).2)

/-- A finished head is taken out. -/
theorem dispatch_terminal (hs : m.state.isTerminal = true) (hq : q.dispatch lib env m = .ok q') :
    q' = q.remove m.id := by
  have hterminal : m.state = .noState ∨ m.state = .deleteMeState := by
    simpa [SmState.isTerminal] using hs
  unfold dispatch at hq
  rcases hterminal with hst | hst <;> rw [hst] at hq
  · obtain ⟨sm, -, hq⟩ := Except.bind_eq_ok.1 hq
    exact (Except.pure_eq_ok.1 hq).symm
  · exact (Except.pure_eq_ok.1 hq).symm

theorem processDelivery_unpacked {sm : ShortMsg}
    (hp : m.toShortMsg.packSmsForDelivery lib env = .ok (false, sm))
    (hq : q.processDelivery lib env m = .ok q') :
    ∀ x ∈ q'.timeSortedList, x.id = m.id → x.state = .noState := by
  obtain ⟨⟨ok, sm'⟩, hpack, hq⟩ := Except.bind_eq_ok.1 hq
  rw [hp] at hpack
  cases hpack
  exact setState_self hq

/-- A message that is due for delivery is delivered, at once or after a change of its state. -/
theorem dispatch_delivers (hs : delivers m.state = true) (hq : q.dispatch lib env m = .ok q') :
    q.processDelivery lib env m = .ok q' ∨
      ∃ q1 m1, q.setState m.id .requestMsgDelivery env.clock.first = .ok q1 ∧
        q1.msg m.id = .ok m1 ∧ q1.processDelivery lib env m1 = .ok q' := by
  have hdelivers : m.state = .requestMsgDelivery ∨ m.state = .awaitingTryMsgDelivery := by
    simpa [delivers] using hs
  unfold dispatch at hq
  rcases hdelivers with hst | hst <;> rw [hst] at hq
  · exact .inl hq
  · obtain ⟨q1, hset, hq⟩ := Except.bind_eq_ok.1 hq
    obtain ⟨m1, hm1, hq⟩ := Except.bind_eq_ok.1 hq
    exact .inr ⟨q1, m1, hset, hm1, hq⟩

/-- A head that cannot be packed is finished. -/
theorem dispatch_unpacked {sm : ShortMsg} (hd : q.Distinct) (hm : m ∈ q.timeSortedList)
    (hs : delivers m.state = true) (hp : m.toShortMsg.packSmsForDelivery lib env = .ok (false, sm))
    (hq : q.dispatch lib env m = .ok q') :
    ∀ x ∈ q'.timeSortedList, x.id = m.id → x.state = .noState := by
  rcases dispatch_delivers hs hq with hq | ⟨q1, m1, hset, hm1, hq⟩
  · exact processDelivery_unpacked hp hq
  · have hm1' := setState_msg hd hm hset hm1
    have hid : m1.id = m.id := by rw [hm1']
    have hsm : m1.toShortMsg = m.toShortMsg := by rw [hm1']
    rw [← hsm] at hp
    rw [← hid]
    exact processDelivery_unpacked hp hq

theorem Outcome.paid (ho : Outcome lib env q h q') (hd : q.Distinct) (hh : h ∈ q.timeSortedList)
    (hq : q.dispatch lib env h = .ok q') (henv : env.config.maxRetries = limit)
    (hw : ¬ q.WastesAttempt lib env h) (hp : ∀ m ∈ q.timeSortedList, q.Paid limit m) :
    ∀ m' ∈ q'.timeSortedList, q'.Paid limit m' := by
  intro m' hm'
  have hnew : m'.id = q.nextId ∧ m'.retries = 0 → q'.Paid limit m' := by
    rintro ⟨-, hzero⟩
    refine .inr (.inl ?_)
    rw [hzero]
    exact Nat.zero_le _
  have hother : ∀ m ∈ q.timeSortedList, m.id ≠ h.id → q.StemsFrom h m m' → q'.Paid limit m' :=
    fun m hm hne hs => hs.paid hd hm hne henv hw (ho.deliveries_other hne) (hp m hm)
  cases ho with
  | quiet he =>
    rcases stems_or_new hd hh he.messages hm' with ⟨m, hm, hs⟩ | hn
    · by_cases hid : m.id = h.id
      · obtain rfl := eq_of_id hd hm hh hid
        have hdel : q'.deliveries m.id = q.deliveries m.id := deliveries_congr he.delivered
        rcases hp m hm with hterm | hpaid
        · rw [dispatch_terminal hterm hq] at hm'
          exact absurd hs.id (of_decide_eq_true (List.mem_filter.1 hm').2)
        · refine .inr ?_
          rw [hs.id, hs.retries, hdel]
          exact hpaid
      · exact hother m hm hid hs
    · exact hnew hn
  | attempt ha hl hdel =>
    rcases stems_or_new hd hh hl hm' with ⟨m, hm, hs⟩ | hn
    · rcases mem_attempted hm with rfl | ⟨hm, hne⟩
      · have hid : m'.id = h.id := hs.id
        have hretries : m'.retries = h.retries + 1 := hs.retries
        have hpaid := hp h hh
        unfold Paid at hpaid ⊢
        rw [hid, hretries]
        cases ha with
        | retryAfterDelay hst hmsg hc ha => exact absurd (.retryAfterDelay hst hmsg hc ha) hw
        | delayed hst hpack hx ht => exact absurd (.delayed hst hpack hx ht) hw
        | unpacked hst hpack =>
          refine .inl ?_
          rw [dispatch_unpacked hd hh hst hpack hq m' hm' hid]
          rfl
        | exceeded hst hpack hx =>
          rw [deliveries_congr hdel]
          have hlt := hx.2
          rw [henv] at hlt
          rcases hpaid with hterm | hpaid | hpaid
          · exact absurd hterm (not_terminal_of_delivers hst)
          · right
            right
            omega
          · exact .inr (.inr hpaid)
        | sent hst hpack hx ht =>
          have hcount : q'.deliveries h.id = 1 + q.deliveries h.id := by
            rw [deliveries_append hdel, List.countP_singleton]
            simp
          rw [hcount]
          rcases hpaid with hterm | hpaid | hpaid
          · exact absurd hterm (not_terminal_of_delivers hst)
          · right
            left
            omega
          · right
            right
            omega
      · exact hother m hm hne hs
    · exact hnew hn

end SMq

/-! ## Runs -/

namespace Daemon

/-- The counters of the messages are right, and the limit is kept. -/
structure Attempted (limit : Int) (d : Daemon) : Prop extends Sound d where
  unborn : ∀ i, d.queue.nextId ≤ i → d.queue.deliveries i = 0
  counted : ∀ m, m ∈ d.queue.timeSortedList ∨ m ∈ d.reader.smpl → d.queue.Counted m
  limited : ∀ i, (d.queue.deliveries i : Int) ≤ limit

theorem Attempted.edited (h : d.Attempted limit) (he : OnlyEdited (ShortMsg.Refresh lib) d d')
    (hsound : d'.Sound) : d'.Attempted limit := by
  have hdel : ∀ i, d'.queue.deliveries i = d.queue.deliveries i :=
    fun _ => SMq.deliveries_congr he.delivered
  refine { hsound with unborn := fun i hi => ?_, counted := fun x hx => ?_, limited := ?_ }
  · rw [hdel]
    rw [he.nextId] at hi
    exact h.unborn i hi
  · show d'.queue.deliveries x.id ≤ x.retries
    rw [hdel]
    rcases hx with hx | hx
    · obtain ⟨y, hy, hxy⟩ := he.queue x hx
      rw [hxy.id, hxy.retries]
      exact h.counted y (.inl hy)
    · obtain ⟨y, hy, hxy⟩ := he.smpl x hx
      rw [hxy.id, hxy.retries]
      exact h.counted y (.inr hy)
  · intro i
    rw [hdel]
    exact h.limited i

theorem Attempted.next {a : DaemonAct} (h : d.Attempted limit) (hlimit : 0 < limit)
    (hg : d.MaxRetries limit a) (hn : d.next lib a = some d') : d'.Attempted limit := by
  have hsound : d'.Sound := h.toSound.next hn
  cases next_happened h.toSound hn with
  | passed ha hq hr =>
    subst ha
    have hpass := passed h.distinct hq
    rcases SMq.processTimeout_outcome h.distinct hq with heq | ⟨m, hhead, hdue, -, ho⟩
    · refine { hsound with unborn := ?_, counted := ?_, limited := ?_ }
      · rw [heq]
        exact h.unborn
      · rw [heq, hr]
        exact h.counted
      · rw [heq]
        exact h.limited
    · have hm := SMq.head_mem hhead
      refine { hsound with unborn := fun i hi => ?_, counted := fun x hx => ?_, limited := ?_ }
      · exact ho.unborn h.distinct hm h.unborn i (Nat.le_trans hpass.nextId hi)
      · rcases hx with hx | hx
        · exact ho.counted h.distinct hm (h.unborn _ (Nat.le_refl _))
            (fun y hy => h.counted y (.inl hy)) x hx
        · rw [hr] at hx
          show d'.queue.deliveries x.id ≤ x.retries
          rw [ho.deliveries_other (held_ne h.toSound hx hm)]
          exact h.counted x (.inr hx)
      · exact ho.limited hlimit hg (h.counted m (.inl hm)) h.limited
  | arrived _ hv hq hr =>
    have hdel : ∀ i, d'.queue.deliveries i = d.queue.deliveries i := by
      intro i
      rw [hq]
      rfl
    refine { hsound with unborn := fun i hi => ?_, counted := fun x hx => ?_, limited := ?_ }
    · rw [hdel]
      rw [hq] at hi
      exact h.unborn i (Nat.le_of_succ_le hi)
    · show d'.queue.deliveries x.id ≤ x.retries
      rw [hdel]
      rcases hx with hx | hx
      · rw [hq] at hx
        exact h.counted x (.inl hx)
      · obtain ⟨hid, -⟩ := arrived_new hv hr hx
        rw [hid, h.unborn _ (Nat.le_refl _)]
        exact Nat.zero_le _
    · intro i
      rw [hdel]
      exact h.limited i
  | @spliced now smp ha hr hq hr' =>
    have hdel : ∀ i, d'.queue.deliveries i = d.queue.deliveries i := by
      intro i
      rw [hq]
      rfl
    have hheld : smp ∈ d.reader.smpl := by
      rw [hr]
      rfl
    refine { hsound with unborn := fun i hi => ?_, counted := fun x hx => ?_, limited := ?_ }
    · rw [hdel]
      rw [hq] at hi
      exact h.unborn i hi
    · show d'.queue.deliveries x.id ≤ x.retries
      rw [hdel]
      rcases hx with hx | hx
      · rw [hq] at hx
        rcases List.mem_cons.1 hx with rfl | hx
        · exact h.counted smp (.inr hheld)
        · exact h.counted x (.inl hx)
      · rw [hr'] at hx
        cases hx
    · intro i
      rw [hdel]
      exact h.limited i
  | parsed he => exact h.edited he.refresh_of_parses hsound
  | dumped _ he => exact h.edited he.refresh_of_prints hsound

theorem Start.attempted (h : d.Start) (hdel : d.queue.delivered = []) (hlimit : 0 < limit) :
    d.Attempted limit := by
  have hzero : ∀ i, d.queue.deliveries i = 0 := by
    intro i
    unfold SMq.deliveries
    rw [hdel]
    rfl
  refine { h.sound with unborn := fun i _ => hzero i, counted := fun x _ => ?_, limited := ?_ }
  · show d.queue.deliveries x.id ≤ x.retries
    rw [hzero]
    exact Nat.zero_le _
  · intro i
    rw [hzero]
    exact hlimit.le

/-- No message is delivered more often than the limit allows. -/
theorem deliveries_le_maxRetries (lib : Libs) (limit : Int) (hlimit : 0 < limit) {d : Daemon}
    (h : Runs.GuardedRun (fun d => d.Start ∧ d.queue.delivered = []) (Step lib) (MaxRetries limit)
      d) (i : MsgId) : (d.queue.deliveries i : Int) ≤ limit :=
  (h.invariant (Attempted limit) (fun _ ⟨h0, hdel⟩ => h0.attempted hdel hlimit)
    fun _ _ _ hi hg hn => hi.next hlimit hg hn).limited i

/-- A queue with a message that is to be delivered at once. -/
def deliveryDaemon : Daemon where
  queue := { settings := {}, timeSortedList := [queuedMsg 0 .requestMsgDelivery 0 sampleRequest]
             nextId := 1 }
  events := []
  reader := .waiting
  writer := .waiting

theorem deliveryDaemon_launch : deliveryDaemon.Launch where
  distinct := by
    refine ⟨List.nodup_singleton 0, fun i hi => ?_⟩
    obtain rfl := List.mem_singleton.1 hi
    exact Nat.zero_lt_one
  reader := rfl
  writer := rfl
  events := fun _ he => (by cases he)
  fits := Nat.zero_le _
  delivered := rfl
  retries := fun m hm => by
    obtain rfl := List.mem_singleton.1 hm
    rfl

/-- One delivery at most is allowed, and the rate is limited as given. -/
def limitedEnv (now : Time) (rateLimit : Int) : Env :=
  { sampleEnv now with config := { maxRetries := 1, rateLimit := rateLimit } }

theorem deliveries_le_maxRetries_one : ∃ d,
    deliveryDaemon.run (sampleLibs [sampleRequest] []) [.receive, .pass (limitedEnv 0 0)] = some d ∧
      d.queue.deliveries 0 = 1 ∧ (d.queue.deliveries 0 : Int) ≤ 1 := by
  have h0 : Runs.GuardedRun (fun d => d.Start ∧ d.queue.delivered = [])
      (Step (sampleLibs [sampleRequest] [])) (MaxRetries 1) deliveryDaemon :=
    .start ⟨deliveryDaemon_launch.toStart, rfl⟩
  have h1 := h0.next (a := DaemonAct.receive) trivial rfl
  exact ⟨_, rfl, rfl, deliveries_le_maxRetries (sampleLibs [sampleRequest] []) 1 Int.one_pos
    (h1.next (a := DaemonAct.pass (limitedEnv 0 0)) rfl rfl) 0⟩

/-! ## Every counted attempt is a delivery -/

/-- The attempts that the messages count were deliveries. -/
structure PaidFor (limit : Int) (d : Daemon) : Prop extends Sound d where
  paid : ∀ m ∈ d.queue.timeSortedList, d.queue.Paid limit m
  fresh : ∀ m ∈ d.reader.smpl, m.retries = 0

theorem PaidFor.edited (h : d.PaidFor limit) (he : OnlyEdited (ShortMsg.Refresh lib) d d')
    (hsound : d'.Sound) : d'.PaidFor limit := by
  refine { hsound with paid := fun x hx => ?_, fresh := fun x hx => ?_ }
  · obtain ⟨y, hy, hxy⟩ := he.queue x hx
    have hpaid := h.paid y hy
    unfold SMq.Paid at hpaid ⊢
    rw [hxy.id, hxy.retries, hxy.state, SMq.deliveries_congr he.delivered]
    exact hpaid
  · obtain ⟨y, hy, hxy⟩ := he.smpl x hx
    rw [hxy.retries]
    exact h.fresh y hy

theorem PaidFor.next {a : DaemonAct} (h : d.PaidFor limit) (hg : d.SavesAttempts lib limit a)
    (hn : d.next lib a = some d') : d'.PaidFor limit := by
  have hsound : d'.Sound := h.toSound.next hn
  cases next_happened h.toSound hn with
  | passed ha hq hr =>
    subst ha
    obtain ⟨henv, hsaves⟩ := hg
    refine { hsound with paid := ?_, fresh := ?_ }
    · rcases SMq.processTimeout_outcome h.distinct hq with heq | ⟨m, hhead, hdue, hrun, ho⟩
      · rw [heq]
        exact h.paid
      · exact ho.paid h.distinct (SMq.head_mem hhead) hrun henv (hsaves m hhead hdue) h.paid
    · rw [hr]
      exact h.fresh
  | arrived _ hv hq hr =>
    refine { hsound with paid := ?_, fresh := fun x hx => (arrived_new hv hr hx).2 }
    rw [hq]
    exact h.paid
  | @spliced now smp ha hr hq hr' =>
    refine { hsound with paid := fun x hx => ?_, fresh := fun x hx => ?_ }
    · rw [hq] at hx ⊢
      rcases List.mem_cons.1 hx with rfl | hx
      · have hzero : smp.retries = 0 := h.fresh smp (by rw [hr]; rfl)
        refine .inr (.inl ?_)
        show smp.retries ≤ _
        rw [hzero]
        exact Nat.zero_le _
      · exact h.paid x hx
    · rw [hr'] at hx
      cases hx
  | parsed he => exact h.edited he.refresh_of_parses hsound
  | dumped _ he => exact h.edited he.refresh_of_prints hsound

theorem Launch.paidFor (h : d.Launch) : d.PaidFor limit := by
  refine { h.sound with paid := fun x hx => ?_, fresh := fun x hx => ?_ }
  · refine .inr (.inl ?_)
    rw [h.retries x hx]
    exact Nat.zero_le _
  · rw [h.reader] at hx
    cases hx

/-- A message that is dropped for its retries has had its deliveries. -/
theorem delivered_of_dropsExceeded (lib : Libs) (limit : Int) {d : Daemon}
    (h : Runs.GuardedRun Launch (Step lib) (SavesAttempts lib limit) d) (env : Env)
    (henv : env.config.maxRetries = limit) (m : ShortMsgPending)
    (hx : d.queue.DropsExceeded lib env m) : limit ≤ d.queue.deliveries m.id := by
  have hinv := h.invariant (PaidFor limit) (fun _ h0 => h0.paidFor)
    fun _ _ _ hi hg hn => hi.next hg hn
  have hlt := hx.exceeds.2
  rw [henv] at hlt
  rcases hinv.paid m (SMq.head_mem hx.head) with hterm | hpaid | hpaid
  · exact absurd hterm (SMq.not_terminal_of_delivers hx.delivers)
  · omega
  · exact hpaid

/-- The message after an attempt to deliver it. -/
def attemptedMsg (state : SmState) (due : Time) (parsedIsBetter : Bool) : ShortMsgPending :=
  { queuedMsg 0 state due sampleRequest with
    toShortMsg := { parsedMsg sampleRequest with
      parsedIsBetter := parsedIsBetter, needRepack := false, msToSc := false }
    retries := 1 }

/-- The threads between two attempts, with the deliveries made so far and what was read of the
table. -/
def attemptedDaemon (m : ShortMsgPending) (delivered : List Delivery) (reads : List TableRead) :
    Daemon :=
  { deliveryDaemon with
    queue := { deliveryDaemon.queue with
      timeSortedList := [m], delivered := delivered, tableReads := reads } }

/-- What the first attempt and the wait for the second one read. -/
def awaitingReads : List TableRead :=
  [.entry .askedForMsgDelivery .awaitingTryMsgDelivery,
    .entry .requestMsgDelivery .askedForMsgDelivery]

/-- Without the rate limiter, only commands and responses waste attempts. -/
theorem savesAttempts_unlimited {now : Time}
    (hs : ∀ h ∈ d.queue.timeSortedList.head?, h.state ≠ .initialState) :
    d.SavesAttempts lib 1 (.pass (limitedEnv now 0)) := by
  refine ⟨rfl, fun h hh _ hw => ?_⟩
  cases hw with
  | retryAfterDelay hst _ _ _ => exact hs h hh hst
  | delayed _ _ _ ht => cases ht
  | revived _ ha _ _ _ _ => exact hs h hh ha.1

set_option maxRecDepth 4000 in
theorem delivered_of_dropsExceeded_one : ∃ d m, deliveryDaemon.run (sampleLibs [sampleRequest] [])
    [.receive, .pass (limitedEnv 0 0), .unlock, .tidy none, .receive, .pass (limitedEnv 300000 0),
      .unlock, .tidy none] = some d ∧
    d.queue.DropsExceeded (sampleLibs [sampleRequest] []) (limitedEnv 600000 0) m ∧
    1 ≤ (d.queue.deliveries m.id : Int) := by
  have h0 : Runs.GuardedRun Launch (Step (sampleLibs [sampleRequest] []))
      (SavesAttempts (sampleLibs [sampleRequest] []) 1) deliveryDaemon :=
    .start deliveryDaemon_launch
  have h1 := h0.next (a := DaemonAct.receive) trivial rfl
  have h2 := h1.next (a := DaemonAct.pass (limitedEnv 0 0))
    (savesAttempts_unlimited fun h hh => by cases hh; decide) rfl
  have h3 := h2.next (a := DaemonAct.unlock) trivial rfl
  have h4 : Runs.GuardedRun Launch (Step (sampleLibs [sampleRequest] []))
      (SavesAttempts (sampleLibs [sampleRequest] []) 1)
      (attemptedDaemon (attemptedMsg .askedForMsgDelivery 15000 false) [⟨0, 0, 0⟩]
        [.entry .requestMsgDelivery .askedForMsgDelivery]) :=
    h3.next (a := DaemonAct.tidy none) trivial rfl
  have h5 := h4.next (a := DaemonAct.receive) trivial rfl
  have h6 := h5.next (a := DaemonAct.pass (limitedEnv 300000 0))
    (savesAttempts_unlimited fun h hh => by cases hh; decide) rfl
  have h7 := h6.next (a := DaemonAct.unlock) trivial rfl
  have h8 : Runs.GuardedRun Launch (Step (sampleLibs [sampleRequest] []))
      (SavesAttempts (sampleLibs [sampleRequest] []) 1)
      (attemptedDaemon (attemptedMsg .awaitingTryMsgDelivery 360000 false) [⟨0, 0, 0⟩]
        awaitingReads) :=
    h7.next (a := DaemonAct.tidy none) trivial rfl
  have hx : (attemptedDaemon (attemptedMsg .awaitingTryMsgDelivery 360000 false)
      [⟨0, 0, 0⟩] awaitingReads).queue.DropsExceeded (sampleLibs [sampleRequest] []) (limitedEnv 600000 0)
      (attemptedMsg .awaitingTryMsgDelivery 360000 false) :=
    ⟨rfl, by decide, rfl, ⟨_, rfl⟩, by decide, by decide⟩
  exact ⟨_, _, rfl, hx, delivered_of_dropsExceeded (sampleLibs [sampleRequest] []) 1 h8
    (limitedEnv 600000 0) rfl _ hx⟩

/-- A message that the rate limiter delays is dropped without having been delivered. -/
theorem not_delivered_of_dropsExceeded : ¬ ∀ (lib : Libs) (limit : Int) (d : Daemon), 0 < limit →
    Runs.GuardedRun Launch (Step lib) (MaxRetries limit) d → ∀ (env : Env),
    env.config.maxRetries = limit → ∀ m, d.queue.DropsExceeded lib env m →
    limit ≤ d.queue.deliveries m.id := by
  intro hall
  have h0 : Runs.GuardedRun Launch (Step (sampleLibs [sampleRequest] [])) (MaxRetries 1)
      deliveryDaemon := .start deliveryDaemon_launch
  have h1 := h0.next (a := DaemonAct.receive) trivial rfl
  have h2 := h1.next (a := DaemonAct.pass (limitedEnv 0 1)) rfl rfl
  have h3 := h2.next (a := DaemonAct.unlock) trivial rfl
  have h4 : Runs.GuardedRun Launch (Step (sampleLibs [sampleRequest] [])) (MaxRetries 1)
      (attemptedDaemon (attemptedMsg .requestMsgDelivery 1000 true) [] []) :=
    h3.next (a := DaemonAct.tidy none) trivial rfl
  have hle := hall _ 1 _ Int.one_pos h4 (limitedEnv 2000 1) rfl
    (attemptedMsg .requestMsgDelivery 1000 true)
    ⟨rfl, by decide, rfl, ⟨_, rfl⟩, by decide, by decide⟩
  exact absurd hle (by decide)

end Daemon

end Smqueue

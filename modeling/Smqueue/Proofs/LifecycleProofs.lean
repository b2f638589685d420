import Smqueue.Lifecycle
import Smqueue.Proofs.AttemptsProofs
import Smqueue.Proofs.DaemonChangesProofs
import Smqueue.Proofs.RoomProofs
import Smqueue.Proofs.TransitionsProofs

/-!
# Proofs: the life of a message

Every step of the two threads is a sequence of steps in the life of each message, and so is every
run. A message that is gone has gone for good, and a message whose sender was looked up is never
run as a command again.
-/

namespace Smqueue

open Agenda (ids)
open Relation (ReflTransGen)

variable {lib : Libs} {env : Env} {d d' : Daemon} {i : MsgId} {q q' : SMq}
  {h m m' : ShortMsgPending} {e e' : Place} {s s' : SmState}

/-! ## The graph of the states -/

theorem SMq.Turn.follows (ht : q.Turn lib env h e e') :
    e'.id = e.id ∧ (e'.state = e.state ∨ e.state.Follows e'.state) := by
  cases ht with
  | call _ hs _ => exact ⟨rfl, .inr (.call hs)⟩
  | reset _ _ hs =>
    refine ⟨rfl, .inr ?_⟩
    rcases hs with rfl | rfl
    · exact .rejected (.inl rfl)
    · exact .redirected
  | delayed _ _ _ => exact ⟨rfl, .inl rfl⟩
  | postponed _ _ => exact ⟨rfl, .inl rfl⟩
  | rejected _ _ hs => exact ⟨rfl, .inr (.rejected hs)⟩
  | redirected _ _ => exact ⟨rfl, .inr .redirected⟩
  | restarted _ hu => exact ⟨rfl, .inr (.restarted hu)⟩

theorem SmState.progress_le (t : SmState) : t.progress ≤ 2 := by
  cases t with
  | outOfRange n => exact Nat.le_succ 1
  | _ => decide

theorem SmState.calls_progress (t : SmState) : ∀ c ∈ t.calls, c.1.progress ≤ c.2.progress := by
  cases t with
  | outOfRange n =>
    intro c hc
    cases hc
  | _ => decide

theorem SmState.progress_underRegistration (hu : SMq.underRegistration s = true) :
    s.progress = 0 := by
  cases s <;> first | rfl | cases hu

/-- No step leads back to a state of less progress. -/
theorem SmState.Follows.progress (h : s.Follows s') : s.progress ≤ s'.progress := by
  cases h with
  | call h => exact calls_progress _ _ h
  | rejected hs => rcases hs with rfl | rfl <;> exact progress_le s
  | redirected => exact progress_le s
  | restarted hu => exact Nat.le_of_eq (progress_underRegistration hu)

namespace Stage

variable {x y : Stage}

theorem Next.age (h : x.Next y) : x.age ≤ y.age := by
  cases h with
  | received => decide
  | accepted => decide
  | refused => decide
  | originated hs => exact Nat.zero_le _
  | dropped => decide
  | moved h => exact Nat.add_le_add_left h.progress 2
  | @removed s => exact Nat.le_trans (Nat.add_le_add_left s.progress_le 2) (by decide)

/-- A message does not grow younger. -/
theorem Lives.age (h : x.Lives y) : x.age ≤ y.age := by
  induction h with
  | refl => exact Nat.le_refl _
  | tail _ h ih => exact Nat.le_trans ih h.age

theorem lives_of_gone (h : Lives gone y) : y = gone := by
  induction h with
  | refl => rfl
  | tail _ h ih =>
    subst ih
    cases h

end Stage

namespace Daemon

/-! ## The stage of a message -/

theorem stage_congr (ha : d'.queue.agenda = d.queue.agenda) (hheld : d'.held = d.held)
    (hnext : d'.queue.nextId = d.queue.nextId) (i : MsgId) : d'.stage i = d.stage i := by
  unfold stage
  rw [ha, hheld, hnext]

theorem stage_place (hs : d.Sound) (he : e ∈ d.queue.agenda) :
    d.stage e.id = .queued e.state := by
  unfold stage
  cases hf : d.queue.agenda.find? (·.id = e.id) with
  | none => exact absurd (decide_eq_true rfl) (List.find?_eq_none.1 hf e he)
  | some e1 =>
    have hid : e1.id = e.id := by simpa using List.find?_some hf
    rw [List.inj_on_of_nodup_map hs.distinct.nodup (List.mem_of_find?_eq_some hf) he hid]

theorem stage_queued (hs : d.Sound) (hm : m ∈ d.queue.timeSortedList) :
    d.stage m.id = .queued m.state :=
  stage_place hs (SMq.mem_agenda hm)

/-- The stage of a message that is not in the queue. -/
theorem stage_of_not_mem (hi : i ∉ ids d.queue.agenda) : d.stage i =
    if d.held = some i then .arriving else if i < d.queue.nextId then .gone else .unborn := by
  unfold stage
  cases hf : d.queue.agenda.find? (·.id = i) with
  | none => rfl
  | some e =>
    have hid : e.id = i := by simpa using List.find?_some hf
    exact absurd (Agenda.mem_ids.2 ⟨e, List.mem_of_find?_eq_some hf, hid⟩) hi

theorem stage_gone (ha : ¬ d.Alive i) (hi : i < d.queue.nextId) : d.stage i = .gone := by
  rw [stage_of_not_mem fun hmem => ha (.inl hmem), if_neg fun hheld : d.held = some i => ha (.inr hheld), if_pos hi]

theorem stage_unborn (hs : d.Sound) (hi : d.queue.nextId ≤ i) : d.stage i = .unborn := by
  have hmem : i ∉ ids d.queue.agenda := fun hmem =>
    Nat.not_le_of_lt (hs.distinct.lt_nextId i hmem) hi
  have hheld : d.held ≠ some i := fun hheld => Nat.not_le_of_lt (hs.held_fresh i hheld).1 hi
  rw [stage_of_not_mem hmem, if_neg hheld, if_neg (Nat.not_lt_of_le hi)]

theorem stage_arriving (hs : d.Sound) (hheld : d.held = some i) : d.stage i = .arriving := by
  rw [stage_of_not_mem (hs.held_fresh i hheld).2, if_pos hheld]

/-- The message is gone exactly if its identity was given away and it is nowhere. -/
theorem stage_eq_gone_iff (hs : d.Sound) : d.stage i = .gone ↔ ¬ d.Alive i ∧ i < d.queue.nextId := by
  refine ⟨fun h => ?_, fun h => stage_gone h.1 h.2⟩
  have hmem : i ∉ ids d.queue.agenda := by
    intro hmem
    obtain ⟨e, he, rfl⟩ := Agenda.mem_ids.1 hmem
    rw [stage_place hs he] at h
    cases h
  rw [stage_of_not_mem hmem] at h
  by_cases hheld : d.held = some i
  · rw [if_pos hheld] at h
    cases h
  · rw [if_neg hheld] at h
    by_cases hlt : i < d.queue.nextId
    · exact ⟨fun ha => ha.elim hmem hheld, hlt⟩
    · rw [if_neg hlt] at h
      cases h

/-- The message at an address keeps its place when it is edited. -/
theorem agenda_update {sm : ShortMsg} (hs : d.Sound) (hm : d.lookup i = some m) :
    (d.update { m with toShortMsg := sm }).queue.agenda = d.queue.agenda := by
  change (d.queue.store { m with toShortMsg := sm }).agenda = d.queue.agenda
  rw [SMq.agenda_store]
  refine (List.map_congr_left fun e he => ?_).trans (List.map_id _)
  by_cases hid : e.id = m.id
  · obtain ⟨x, hx, rfl⟩ := List.mem_map.1 he
    obtain rfl : x = m := lookup_unique hs hm (.inl hx) hid
    exact if_pos rfl
  · exact if_neg hid

/-! ## The steps of the threads -/

/-- The places after a step of the state machine stem from those before it. -/
theorem lives_place (ht : ReflTransGen (q.Turn lib env h) e e') :
    e'.id = e.id ∧ (Stage.queued e.state).Lives (.queued e'.state) := by
  induction ht with
  | refl => exact ⟨rfl, .refl⟩
  | tail _ ht ih =>
    obtain ⟨hid, hnext⟩ := ht.follows
    refine ⟨hid.trans ih.1, ?_⟩
    rcases hnext with hst | hf
    · rw [hst]
      exact ih.2
    · exact ih.2.tail (.moved hf)

/-- A message that leaves, or that a pass builds and drops, ends its life. -/
theorem lives_gone (hs : d.Sound) (hheld : d.held ≠ some i) : (d.stage i).Lives .gone := by
  by_cases hmem : i ∈ ids d.queue.agenda
  · obtain ⟨e, he, rfl⟩ := Agenda.mem_ids.1 hmem
    rw [stage_place hs he]
    exact .single .removed
  · rw [stage_of_not_mem hmem, if_neg hheld]
    by_cases hlt : i < d.queue.nextId
    · rw [if_pos hlt]
      exact .refl
    · rw [if_neg hlt]
      exact .single .dropped

theorem Sound.pass_lives (hs : d.Sound) (hp : d.pass lib env = some d') (i : MsgId) :
    (d.stage i).Lives (d'.stage i) := by
  have hs' : d'.Sound := hs.pass hp
  obtain ⟨timedOut, q, -, hq, rfl⟩ := pass_ok hp
  have hpassed := passed hs.distinct hq
  have hheld : ∀ w, Daemon.held { d with queue := q, writer := w } = d.held := fun w => rfl
  by_cases hmem : i ∈ ids q.agenda
  · obtain ⟨e', he', rfl⟩ := Agenda.mem_ids.1 hmem
    rw [stage_place hs' he']
    rcases SMq.processTimeout_turned hs.distinct hq with rfl | ⟨h, -, -, ht⟩
    · rw [stage_place hs he']
      exact .refl
    · obtain ⟨e, he, hway⟩ := ht e' he'
      obtain ⟨hid, hlives⟩ := lives_place hway
      rw [hid]
      rcases he with he | he
      · rw [stage_place hs he]
        exact hlives
      · cases he with
        | mk hst =>
          rw [stage_unborn hs (Nat.le_refl _)]
          exact .head (.originated hst) hlives
  · by_cases hh : d.held = some i
    · rw [stage_arriving hs hh, stage_arriving hs' ((hheld _).trans hh)]
      exact .refl
    · rw [stage_of_not_mem (d := { d with queue := q, writer := _ }) hmem, hheld, if_neg hh]
      by_cases hlt : i < q.nextId
      · rw [if_pos hlt]
        exact lives_gone hs hh
      · rw [if_neg hlt, stage_unborn hs (Nat.le_trans hpassed.nextId (Nat.le_of_not_lt hlt))]
        exact .refl

theorem Sound.arrive_lives {buffer srcaddr : List UInt8} (hs : d.Sound)
    (ha : d.arrive lib env buffer srcaddr = some d') (i : MsgId) :
    (d.stage i).Lives (d'.stage i) := by
  have hs' : d'.Sound := hs.arrive ha
  obtain ⟨hw, smp, r, hid, hr, rfl⟩ := arrive_ok ha
  have hheld : d.held = none := by
    unfold held
    rw [hw]
    rfl
  have hheld' : Daemon.held
      { d with queue := { d.queue with nextId := d.queue.nextId + 1 }, reader := r } =
      some d.queue.nextId := by
    rw [← hid]
    rcases hr with rfl | ⟨errcode, rfl⟩ <;> rfl
  by_cases hi : i = d.queue.nextId
  · rw [hi, stage_unborn hs (Nat.le_refl _), stage_arriving hs' hheld']
    exact .single .received
  · have hne : d.queue.nextId ≠ i := fun h => hi h.symm
    have hlt : i < d.queue.nextId + 1 ↔ i < d.queue.nextId :=
      ⟨fun h => Nat.lt_of_le_of_ne (Nat.le_of_lt_succ h) hi, Nat.lt_succ_of_lt⟩
    have hsame : Daemon.stage
        { d with queue := { d.queue with nextId := d.queue.nextId + 1 }, reader := r } i =
        d.stage i := by
      unfold stage
      rw [hheld, hheld']
      simp only [Option.some.injEq, hne, hlt, if_false, reduceCtorEq]
      rfl
    rw [hsame]
    exact .refl

theorem Sound.splice_lives {now : Time} (hs : d.Sound) (hsp : d.splice now = some d')
    (i : MsgId) : (d.stage i).Lives (d'.stage i) := by
  have hs' : d'.Sound := hs.splice hsp
  obtain ⟨smp, hr, rfl⟩ := splice_ok hsp
  have hheld : d.held = some smp.id := by
    unfold held
    rw [hr]
    rfl
  by_cases hi : i = smp.id
  · have hin : Daemon.stage
        { d with queue := d.queue.spliceNewMessage smp now, reader := .spliced smp.id } smp.id =
        .queued .initialState :=
      stage_queued hs' (m := { smp with state := .initialState, nextActionTime := _ })
        List.mem_cons_self
    rw [hi, stage_arriving hs hheld, hin]
    exact .single .accepted
  · have hne : smp.id ≠ i := fun h => hi h.symm
    have hsame : Daemon.stage
        { d with queue := d.queue.spliceNewMessage smp now, reader := .spliced smp.id } i =
        d.stage i := by
      unfold stage
      have hfind : (d.queue.spliceNewMessage smp now).agenda.find? (·.id = i) =
          d.queue.agenda.find? (·.id = i) := 
        List.find?_cons_of_neg fun h => hne (of_decide_eq_true h)
      rw [hfind, hheld, if_neg fun h => hne (Option.some.inj h)]
      rfl
    rw [hsame]
    exact .refl

theorem Sound.deleteList_lives (hs : d.Sound) (hdel : d.deleteList = some d') (i : MsgId) :
    (d.stage i).Lives (d'.stage i) := by
  obtain rfl := deleteList_ok hdel
  by_cases hh : d.held = some i
  · obtain ⟨hlt, hmem⟩ := hs.held_fresh i hh
    have hgone : Daemon.stage { d with reader := d.loopHead } i = .gone := by
      refine stage_gone (fun ha => ha.elim hmem fun h => ?_) hlt
      rw [held_loopHead] at h
      cases h
    rw [stage_arriving hs hh, hgone]
    exact .single .refused
  · have hsame : Daemon.stage { d with reader := d.loopHead } i = d.stage i := by
      unfold stage
      rw [if_neg hh, held_loopHead]
      rfl
    rw [hsame]
    exact .refl

/-- Every step of a thread is a sequence of steps in the life of each message. -/
theorem Sound.next_lives {a : DaemonAct} (hs : d.Sound) (h : d.next lib a = some d')
    (i : MsgId) : (d.stage i).Lives (d'.stage i) := by
  have same : d'.queue.agenda = d.queue.agenda → d'.held = d.held →
      d'.queue.nextId = d.queue.nextId → (d.stage i).Lives (d'.stage i) := by
    intro ha hheld hnext
    rw [stage_congr ha hheld hnext]
    exact .refl
  cases a with
  | arrive env buffer srcaddr => exact hs.arrive_lives h i
  | splice now => exact hs.splice_lives h i
  | dump =>
    obtain ⟨smp, q, hr, ha, hf, rfl⟩ := dump_ok h
    refine same ha ?_ hf.nextId
    unfold held
    rw [hr]
    rfl
  | signal =>
    obtain ⟨-, smp, hr, rfl⟩ := signal_ok h
    refine same rfl ?_ rfl
    unfold held
    rw [hr]
    rfl
  | queueRespondSipAck =>
    obtain ⟨-, errcode, smp, smpl, -, hsmpl, rfl⟩ := queueRespondSipAck_ok h
    refine same rfl ?_ rfl
    unfold held
    rw [hsmpl]
    rfl
  | deleteList => exact hs.deleteList_lives h i
  | leave =>
    obtain ⟨hr, rfl⟩ := leave_ok h
    refine same rfl ?_ rfl
    unfold held
    rw [hr]
    rfl
  | receive =>
    rcases receive_ok h with ⟨-, rfl | ⟨rest, -, rfl⟩ | ⟨errcode, smp, rest, -, rfl⟩⟩
    · exact same rfl rfl rfl
    · exact same rfl rfl rfl
    · exact same rfl rfl rfl
  | pass env => exact hs.pass_lives h i
  | sendNested =>
    obtain ⟨-, timedOut, posts, -, rfl⟩ := sendNested_ok h
    exact same rfl rfl rfl
  | unlock =>
    obtain ⟨w, -, rfl⟩ := unlock_ok h
    exact same rfl rfl rfl
  | respond =>
    obtain ⟨j, m, ok, sm, hm, -, rfl⟩ := respond_parse h
    exact same (agenda_update hs hm) (update_held _) rfl
  | tidy due =>
    obtain ⟨q, ha, hnext, rfl⟩ := tidy_ok h
    exact same ha rfl hnext

/-! ## Runs -/

theorem run_eq (acts : List DaemonAct) :
    d.run lib acts = Runs.run (fun d a => d.next lib a) d acts := by
  induction acts generalizing d with
  | nil => rfl
  | cons a acts ih => exact congrArg (Option.bind (d.next lib a)) (funext fun d => ih)

theorem Reachable.sound {guard : Daemon → DaemonAct → Prop}
    (h : Runs.GuardedRun Start (Step lib) guard d) : d.Sound :=
  h.invariant Sound (fun _ h0 => h0.sound) fun _ _ _ hs _ hstep => hs.next hstep

theorem Sound.of_run {acts : List DaemonAct} (hs : d.Sound) (h : d.run lib acts = some d') :
    d'.Sound := by
  rw [run_eq] at h
  exact Runs.run_invariant (fun _ _ _ => Sound.next) h hs

theorem Sound.lives_of_run {acts : List DaemonAct} (hs : d.Sound)
    (h : d.run lib acts = some d') (i : MsgId) : (d.stage i).Lives (d'.stage i) := by
  have hview : ∀ d a d', Sound d → d.next lib a = some d' →
      ReflTransGen Stage.Next (d.stage i) (d'.stage i) := fun _ _ _ hs h => hs.next_lives h i
  rw [run_eq] at h
  exact Runs.run_view (stage · i) (fun _ _ _ => Sound.next) hview h hs

/-- Whatever the threads do, in whatever order, they make steps in the life of each message. -/
theorem run_lives (lib : Libs) (d d' : Daemon) (acts : List DaemonAct) (i : MsgId)
    (hr : Runs.Reachable Start (Step lib) d) (h : d.run lib acts = some d') :
    (d.stage i).Lives (d'.stage i) :=
  (Reachable.sound hr).lives_of_run h i

/-- A command arrives and is inserted. -/
theorem run_lives_command : ((idle commandSettings).stage 0).Lives
    ((commandDaemon 1 [.sipAck 202 0]).stage 0) ∧
    (idle commandSettings).stage 0 = .unborn ∧
    (commandDaemon 1 [.sipAck 202 0]).stage 0 = .queued .initialState :=
  ⟨run_lives commandLibs _ _ _ 0 (.start (idle_start _)) run_command, by decide, by decide⟩

/-! ## A message that is gone -/

/-- A message that is not in the queue is not delivered. -/
theorem deliveries_of_not_mem {a : DaemonAct} (hs : d.Sound) (h : d.next lib a = some d')
    (hi : i ∉ ids d.queue.agenda) : d'.queue.deliveries i = d.queue.deliveries i := by
  cases next_happened hs h with
  | passed ha hq hr =>
    rcases SMq.processTimeout_outcome hs.distinct hq with hq' | ⟨m, hm, -, -, ho⟩
    · rw [hq']
    · refine ho.deliveries_other fun hid => hi ?_
      exact Agenda.mem_ids.2 ⟨m.entry, SMq.mem_agenda (List.mem_of_mem_head? hm), hid.symm⟩
  | arrived ha hv hq hr =>
    rw [hq]
    rfl
  | spliced ha hr hq hr' =>
    rw [hq]
    rfl
  | parsed he => exact SMq.deliveries_congr he.delivered
  | dumped ha he => exact SMq.deliveries_congr he.delivered

/-- A message that was deleted does not come back, and its identity is not given to another: from
then on it is nowhere, and it is not delivered again. -/
theorem run_gone (lib : Libs) (d d' : Daemon) (acts : List DaemonAct) (i : MsgId)
    (hr : Runs.Reachable Start (Step lib) d) (h : d.run lib acts = some d')
    (hi : i < d.queue.nextId) (ha : ¬ d.Alive i) :
    ¬ d'.Alive i ∧ d'.queue.deliveries i = d.queue.deliveries i := by
  have hstart : d.Sound ∧ d.stage i = .gone ∧ d.queue.deliveries i = d.queue.deliveries i :=
    ⟨Reachable.sound hr, stage_gone ha hi, rfl⟩
  have hstep : ∀ (d1 : Daemon) (a : DaemonAct) (d2 : Daemon), (d1.Sound ∧ d1.stage i = .gone ∧
        d1.queue.deliveries i = d.queue.deliveries i) → d1.next lib a = some d2 →
      d2.Sound ∧ d2.stage i = .gone ∧ d2.queue.deliveries i = d.queue.deliveries i := by
    rintro d1 a d2 ⟨hs, hgone, hdel⟩ hn
    have hnot : ¬ d1.Alive i := ((stage_eq_gone_iff hs).1 hgone).1
    refine ⟨hs.next hn, ?_, ?_⟩
    · have hlives := hs.next_lives hn i
      rw [hgone] at hlives
      exact Stage.lives_of_gone hlives
    · rw [deliveries_of_not_mem hs hn fun hmem => hnot (.inl hmem)]
      exact hdel
  rw [run_eq] at h
  obtain ⟨hs, hgone, hdel⟩ := Runs.run_invariant hstep h hstart
  exact ⟨((stage_eq_gone_iff hs).1 hgone).1, hdel⟩

/-- The threads after a datagram that is no SIP message, and that was rejected and deleted. -/
def refusedDaemon : Daemon where
  queue := { settings := commandSettings, nextId := 1 }
  events := [.sipAck 400 0]
  reader := .waiting
  writer := .waiting

theorem run_refused : (idle commandSettings).run commandLibs
    [.arrive (sampleEnv 0) noise [], .queueRespondSipAck, .deleteList] = some refusedDaemon := by
  have hnoise : commandLibs.messageParse noise = none :=
    parse_noise [sampleCommand, sampleReply] sampleVias (by decide +kernel)
  have harrive : (idle commandSettings).arrive commandLibs (sampleEnv 0) noise [] = some _ :=
    arrive_noise hnoise rfl
  exact Option.bind_eq_some_iff.2 ⟨_, harrive, rfl⟩

/-- The writer is about to answer the datagram, whose message is gone. -/
theorem run_gone_rejected :
    ¬ Alive { refusedDaemon with events := [], writer := .acking 400 0 } 0 ∧
      SMq.deliveries refusedDaemon.queue 0 = SMq.deliveries refusedDaemon.queue 0 :=
  run_gone commandLibs refusedDaemon { refusedDaemon with events := [], writer := .acking 400 0 }
    [.receive] 0 (reachable_run (.start (idle_start _)) run_refused) rfl (by decide)
    fun h => h.elim (fun h => nomatch h) fun h => nomatch h

/-! ## A message that is no command -/

/-- The message of a pass that was not in the queue before is far enough. -/
theorem Sound.pass_own (hs : d.Sound) (hp : d.pass lib env = some d')
    (hm : m ∈ d'.queue.timeSortedList) (hnew : m.id ∉ ids d.queue.agenda) :
    1 ≤ m.state.progress := by
  obtain ⟨timedOut, q, -, hq, rfl⟩ := pass_ok hp
  rcases SMq.processTimeout_turned hs.distinct hq with rfl | ⟨h, -, -, ht⟩
  · exact absurd (Agenda.mem_ids.2 ⟨_, SMq.mem_agenda hm, rfl⟩) hnew
  · obtain ⟨e, he, hway⟩ := ht _ (SMq.mem_agenda hm)
    obtain ⟨hid, hlives⟩ := lives_place hway
    rcases he with he | he
    · exact absurd (Agenda.mem_ids.2 ⟨e, he, hid.symm⟩) hnew
    · have hage : 2 + e.state.progress ≤ 2 + m.state.progress := hlives.age
      have hins : e.state.progress = 2 := by
        cases he with
        | mk hst => rcases hst with rfl | rfl | rfl <;> rfl
      omega

/-- A message whose sender is being looked up, or was, and a message that the program has built
itself, is never run as a command from then on: it never comes back to the states in which commands
are run. -/
theorem run_notCommand (lib : Libs) (d d' : Daemon) (acts : List DaemonAct)
    (m m' : ShortMsgPending) (hr : Runs.Reachable Start (Step lib) d)
    (h : d.run lib acts = some d') (hm : m ∈ d.queue.timeSortedList)
    (hpast : 1 ≤ m.state.progress ∨ ∃ d0 env, Runs.Reachable Start (Step lib) d0 ∧
      d0.pass lib env = some d ∧ m.id ∉ ids d0.queue.agenda)
    (hm' : m' ∈ d'.queue.timeSortedList) (hid : m'.id = m.id) :
    m'.state ≠ .initialState ∧ SMq.underRegistration m'.state = false := by
  have hs : d.Sound := Reachable.sound hr
  have hs' : d'.Sound := hs.of_run h
  have hone : 1 ≤ m.state.progress := by
    rcases hpast with hone | ⟨d0, env, hr0, hp, hnew⟩
    · exact hone
    · exact (Reachable.sound hr0).pass_own hp hm hnew
  have hlives := hs.lives_of_run h m.id
  rw [stage_queued hs hm, ← hid, stage_queued hs' hm'] at hlives
  have hage : 2 + m.state.progress ≤ 2 + m'.state.progress := hlives.age
  have hone' : 1 ≤ m'.state.progress := by omega
  constructor
  · intro hst
    rw [hst] at hone'
    exact absurd hone' (by decide)
  · cases hu : SMq.underRegistration m'.state with
    | false => rfl
    | true =>
      rw [SmState.progress_underRegistration hu] at hone'
      exact absurd hone' (by decide)

/-- The reply to a command, before and after the writer posts its event. -/
def commandSteps : List DaemonAct := [.sendNested, .unlock]

theorem run_commandSteps :
    ((commandDaemon 1 [.sipAck 202 0]).pass commandLibs (sampleEnv 0)).any (fun d =>
      (d.run commandLibs commandSteps).any fun d' =>
        d.queue.timeSortedList.any fun m => m.id = 1 && m.state = .requestDestinationSipurl &&
          d'.queue.timeSortedList.any fun m' => m'.id = 1) = true := by decide +kernel

/-- The reply to a command is not run as a command. -/
theorem run_notCommand_reply : ∃ m' : ShortMsgPending, m'.id = 1 ∧ m'.state ≠ .initialState ∧
    SMq.underRegistration m'.state = false := by
  have h0 : Runs.Reachable Start (Step commandLibs) (commandDaemon 1 [.sipAck 202 0]) :=
    reachable_run (.start (idle_start _)) run_command
  obtain ⟨d, hp, hd⟩ := Option.any_eq_true _ _ |>.1 run_commandSteps
  obtain ⟨d', hrun, hd'⟩ := Option.any_eq_true _ _ |>.1 hd
  obtain ⟨m, hm, hm'⟩ := List.any_eq_true.1 hd'
  simp only [Bool.and_eq_true, decide_eq_true_eq, List.any_eq_true] at hm'
  obtain ⟨⟨hid, hst⟩, m', hmem', hid'⟩ := hm'
  have hnew : m.id ∉ ids (commandDaemon 1 [.sipAck 202 0]).queue.agenda := by
    rw [hid]
    decide
  exact ⟨m', hid', run_notCommand commandLibs d d' commandSteps m m'
    (h0.next (a := DaemonAct.pass (sampleEnv 0)) trivial hp) hrun hm
    (.inr ⟨_, sampleEnv 0, h0, hp, hnew⟩) hmem' (hid'.trans hid.symm)⟩

end Daemon

end Smqueue

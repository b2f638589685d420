import Smqueue.Daemon
import Smqueue.Proofs.ConservationProofs
import Smqueue.Proofs.SampleLibsProofs

/-!
# Proofs: the steps of the two threads

What the steps of the threads do to the queue, the temporary list and the events, and that the
messages stay different objects.
-/

namespace Smqueue

open Agenda (ids)

variable {lib : Libs} {env : Env} {d d' : Daemon} {i : MsgId}

namespace Daemon

/-! ## What the steps do -/

theorem mqSend_ok {e : QueuedMsg} (h : d.mqSend e = some d') :
    d.events.length < maxNumOfMessages ∧ d' = { d with events := d.events ++ [e] } := by
  unfold mqSend at h
  split at h
  · exact ⟨‹_›, (Option.some.inj h).symm⟩
  · cases h

theorem arrive_fits {buffer srcaddr : List UInt8}
    (h : d.arrive lib env buffer srcaddr = some d') : buffer.length ≤ bufferSize := by
  unfold arrive at h
  split at h
  · split at h
    · cases h
    · rename_i hbuffer
      simp only [Bool.or_eq_true, decide_eq_true_eq, not_or, not_lt] at hbuffer
      exact hbuffer.2
  · cases h

theorem arrive_validated {buffer srcaddr : List UInt8}
    (h : d.arrive lib env buffer srcaddr = some d') :
    d.reader = .waiting ∧ ∃ errcode smp,
      ({ datagram buffer srcaddr with id := d.queue.nextId } : ShortMsgPending).validateShortMsg lib
        d.queue.settings env true = .ok (errcode, smp) ∧
      d' = { d with
        queue := { d.queue with nextId := d.queue.nextId + 1 }
        reader := if errcode = 0 then .accepted smp else .rejected errcode smp } := by
  unfold arrive at h
  split at h
  · rename_i hr
    split at h
    · cases h
    · dsimp only at h
      split at h
      · cases h
      · rename_i errcode smp hv
        exact ⟨hr, errcode, smp, hv, (Option.some.inj h).symm⟩
  · cases h

theorem arrive_ok {buffer srcaddr : List UInt8} (h : d.arrive lib env buffer srcaddr = some d') :
    d.reader = .waiting ∧ ∃ (smp : ShortMsgPending) (r : Reader), smp.id = d.queue.nextId ∧
      (r = .accepted smp ∨ ∃ errcode, r = .rejected errcode smp) ∧
      d' = { d with queue := { d.queue with nextId := d.queue.nextId + 1 }, reader := r } := by
  obtain ⟨hr, errcode, smp, hv, hd'⟩ := arrive_validated h
  have hid : smp.id = d.queue.nextId :=
    congrArg Agenda.Entry.id (ShortMsgPending.validateShortMsg_same hv).entry
  refine ⟨hr, smp, _, hid, ?_, hd'⟩
  split
  · exact .inl rfl
  · exact .inr ⟨errcode, rfl⟩

theorem splice_ok {now : Time} (h : d.splice now = some d') :
    ∃ smp, d.reader = .accepted smp ∧
      d' = { d with queue := d.queue.spliceNewMessage smp now, reader := .spliced smp.id } := by
  unfold splice at h
  split at h
  · rename_i smp hr
    split at h
    · cases h
    · exact ⟨smp, hr, (Option.some.inj h).symm⟩
  · cases h

theorem dump_debugDump (h : d.dump lib = some d') :
    ∃ smp q, d.reader = .spliced smp ∧ d.queue.debugDump lib = .ok q ∧
      d' = { d with queue := q, reader := .dumped smp } := by
  unfold dump at h
  split at h
  · rename_i smp hr
    split at h
    · cases h
    · split at h
      · cases h
      · rename_i q hq
        exact ⟨smp, q, hr, hq, (Option.some.inj h).symm⟩
  · cases h

theorem dump_ok (h : d.dump lib = some d') :
    ∃ smp q, d.reader = .spliced smp ∧ q.agenda = d.queue.agenda ∧ SMq.Frame d.queue q ∧
      d' = { d with queue := q, reader := .dumped smp } := by
  obtain ⟨smp, q, hr, hq, hd'⟩ := dump_debugDump h
  obtain ⟨ha, hf⟩ := SMq.debugDump_ok hq
  exact ⟨smp, q, hr, ha, hf, hd'⟩

theorem signal_ok (h : d.signal = some d') :
    d.events.length < maxNumOfMessages ∧ ∃ smp, d.reader = .dumped smp ∧
      d' = { d with queue := { d.queue with posted := d.queue.posted + 1 }
                    events := d.events ++ [.processIncomming], reader := .signalled smp } := by
  unfold signal at h
  split at h
  · rename_i smp hr
    obtain ⟨hlt, rfl⟩ := mqSend_ok h
    exact ⟨hlt, smp, hr, rfl⟩
  · cases h

theorem queueRespondSipAck_ok (h : d.queueRespondSipAck = some d') :
    d.events.length < maxNumOfMessages ∧ ∃ (errcode : Int) (smp : MsgId)
      (smpl : Option ShortMsgPending), (d.reader.inserted = some smp ∨ d.held = some smp) ∧
      d.reader.smpl = smpl ∧
      d' = { d with events := d.events ++ [.sipAck errcode smp], reader := .answered smpl } := by
  unfold queueRespondSipAck at h
  split at h
  · rename_i smp hr
    obtain ⟨hlt, rfl⟩ := mqSend_ok h
    refine ⟨hlt, 202, smp, none, .inl ?_, ?_, rfl⟩
    · rw [hr]
      rfl
    · rw [hr]
      rfl
  · rename_i errcode smp hr
    obtain ⟨hlt, rfl⟩ := mqSend_ok h
    refine ⟨hlt, errcode, smp.id, some smp, .inr ?_, ?_, rfl⟩
    · unfold held
      rw [hr]
      rfl
    · rw [hr]
      rfl
  · cases h

/-- In front of `main_loop` the reader holds no message. -/
@[simp] theorem loopHead_smpl (d : Daemon) : d.loopHead.smpl = none := by
  unfold loopHead
  split <;> rfl

theorem held_loopHead (d : Daemon) : held { d with reader := d.loopHead } = none := by
  unfold held
  rw [loopHead_smpl]
  rfl

@[simp] theorem loopHead_inserted (d : Daemon) : d.loopHead.inserted = none := by
  unfold loopHead
  split <;> rfl

theorem deleteList_answered (h : d.deleteList = some d') :
    ∃ smpl, d.reader = .answered smpl ∧ d' = { d with reader := d.loopHead } := by
  unfold deleteList at h
  split at h
  · rename_i smpl hr
    exact ⟨smpl, hr, (Option.some.inj h).symm⟩
  · cases h

/-- While the program runs on, the reader waits for the next datagram. -/
theorem deleteList_waiting {smpl : Option ShortMsgPending} (hr : d.reader = .answered smpl)
    (hstop : d.queue.stopMainLoop = false) :
    Step lib d .deleteList { d with reader := .waiting } := by
  change d.deleteList = _
  unfold deleteList loopHead
  rw [hr, hstop]
  rfl

theorem deleteList_ok (h : d.deleteList = some d') : d' = { d with reader := d.loopHead } := by
  obtain ⟨smpl, -, hd'⟩ := deleteList_answered h
  exact hd'

theorem leave_ok (h : d.leave = some d') :
    d.reader = .waiting ∧ d' = { d with reader := .ended } := by
  unfold leave at h
  split at h
  · rename_i hr
    split at h
    · exact ⟨hr, (Option.some.inj h).symm⟩
    · cases h
  · cases h

theorem receive_ok (h : d.receive = some d') : d.writer = .waiting ∧
    ((d' = { d with writer := .passing true }) ∨
      (∃ rest, d.events = .processIncomming :: rest ∧
        d' = { d with events := rest, writer := .passing false }) ∨
      ∃ errcode smp rest, d.events = .sipAck errcode smp :: rest ∧
        d' = { d with events := rest, writer := .acking errcode smp }) := by
  unfold receive at h
  split at h
  · rename_i hw
    refine ⟨hw, ?_⟩
    split at h
    · cases h
    · split at h
      · exact .inl (Option.some.inj h).symm
      · rename_i rest he
        exact .inr (.inl ⟨rest, he, (Option.some.inj h).symm⟩)
      · rename_i errcode smp rest he
        exact .inr (.inr ⟨errcode, smp, rest, he, (Option.some.inj h).symm⟩)
  · cases h

theorem pass_ok (h : d.pass lib env = some d') :
    ∃ timedOut q, d.writer = .passing timedOut ∧ d.queue.processTimeout lib env = .ok q ∧
      d' = { d with queue := q, writer := .sending timedOut (q.posted - d.queue.posted) } := by
  unfold pass at h
  split at h
  · rename_i timedOut hw
    split at h
    · cases h
    · rename_i q hq
      exact ⟨timedOut, q, hw, hq, (Option.some.inj h).symm⟩
  · cases h

theorem pass_eq_some {timedOut : Bool} {q : SMq} (hw : d.writer = .passing timedOut)
    (hq : d.queue.processTimeout lib env = .ok q) : d.pass lib env =
      some { d with queue := q, writer := .sending timedOut (q.posted - d.queue.posted) } := by
  unfold pass
  rw [hw]
  dsimp only
  rw [hq]

theorem sendNested_ok (h : d.sendNested = some d') :
    d.events.length < maxNumOfMessages ∧ ∃ timedOut posts,
      d.writer = .sending timedOut (posts + 1) ∧
      d' = { d with events := d.events ++ [.processIncomming]
                    writer := .sending timedOut posts } := by
  unfold sendNested at h
  split at h
  · rename_i timedOut posts hw
    obtain ⟨hlt, rfl⟩ := mqSend_ok h
    exact ⟨hlt, timedOut, posts, hw, rfl⟩
  · cases h

theorem unlock_sending (h : d.unlock = some d') : ∃ timedOut, d.writer = .sending timedOut 0 ∧
    d' = { d with writer := if timedOut then .tidying else .waiting } := by
  unfold unlock at h
  split at h
  · rename_i timedOut hw
    exact ⟨timedOut, hw, (Option.some.inj h).symm⟩
  · cases h

theorem unlock_ok (h : d.unlock = some d') :
    ∃ w, (w = .waiting ∨ w = .tidying) ∧ d' = { d with writer := w } := by
  obtain ⟨timedOut, -, hd'⟩ := unlock_sending h
  refine ⟨_, ?_, hd'⟩
  cases timedOut with
  | true => exact .inr rfl
  | false => exact .inl rfl

/-- A message that changes where it is leaves all messages where they are. -/
theorem update_held (m : ShortMsgPending) : (d.update m).held = d.held := by
  unfold held update
  have hedit : ∀ x : ShortMsgPending, (if x.id = m.id then m else x).id = x.id := by
    intro x
    by_cases hx : x.id = m.id
    · rw [if_pos hx, hx]
    · rw [if_neg hx]
  cases d.reader with
  | answered smpl =>
    cases smpl with
    | none => rfl
    | some x => exact congrArg some (hedit x)
  | accepted x => exact congrArg some (hedit x)
  | rejected errcode x => exact congrArg some (hedit x)
  | _ => rfl

theorem update_inserted (m : ShortMsgPending) :
    (d.update m).reader.inserted = d.reader.inserted := by
  unfold update
  cases d.reader <;> rfl

/-- The message that is answered is parsed, where it is. -/
theorem respond_acking (h : d.respond lib = some d') :
    ∃ errcode i m ok sm, d.writer = .acking errcode i ∧ d.lookup i = some m ∧
      m.toShortMsg.parse lib = .ok (ok, sm) ∧
      d' = { d.update { m with toShortMsg := sm } with writer := .waiting } := by
  unfold respond at h
  split at h
  · rename_i hw
    split at h
    · cases h
    · rename_i i m hm
      split at h
      · cases h
      · rename_i sm sip hr
        unfold respondSipAck at hr
        obtain ⟨⟨ok, sm'⟩, hparse, hr⟩ := Except.bind_eq_ok.1 hr
        have hsm : sm' = sm := by
          cases ok with
          | false =>
            cases hr
            rfl
          | true =>
            obtain ⟨sip', -, hr⟩ := Except.bind_eq_ok.1 hr
            exact (Prod.mk.inj (Except.pure_eq_ok.1 hr)).1
        subst hsm
        exact ⟨_, _, m, ok, sm', hw, hm, hparse, (Option.some.inj h).symm⟩
  · cases h

theorem respond_parse (h : d.respond lib = some d') :
    ∃ i m ok sm, d.lookup i = some m ∧ m.toShortMsg.parse lib = .ok (ok, sm) ∧
      d' = { d.update { m with toShortMsg := sm } with writer := .waiting } := by
  obtain ⟨errcode, i, m, ok, sm, -, hm, hparse, hd'⟩ := respond_acking h
  exact ⟨i, m, ok, sm, hm, hparse, hd'⟩

theorem respond_ok (h : d.respond lib = some d') :
    ∃ m, d' = { d.update m with writer := .waiting } := by
  obtain ⟨i, m, ok, sm, -, -, hd'⟩ := respond_parse h
  exact ⟨_, hd'⟩

theorem tidy_tidying {due : Option Settings} (h : d.tidy lib due = some d') :
    d.writer = .tidying := by
  unfold tidy at h
  split at h
  · assumption
  · assumption
  · cases h

theorem tidy_debugDump {due : Option Settings} (h : d.tidy lib due = some d') :
    ∃ q : SMq, (q = d.queue ∨ (∃ s, due = some s) ∧ ∃ settings,
      { d.queue with settings := settings }.debugDump lib = .ok q) ∧
      d' = { d with queue := q, writer := .waiting } := by
  unfold tidy at h
  split at h
  · exact ⟨d.queue, .inl rfl, (Option.some.inj h).symm⟩
  · dsimp only at h
    split at h
    · cases h
    · rename_i q hq
      exact ⟨q, .inr ⟨⟨_, rfl⟩, _, hq⟩, (Option.some.inj h).symm⟩
  · cases h

theorem tidy_ok {due : Option Settings} (h : d.tidy lib due = some d') :
    ∃ q : SMq, q.agenda = d.queue.agenda ∧ q.nextId = d.queue.nextId ∧
      d' = { d with queue := q, writer := .waiting } := by
  obtain ⟨q, hq, hd'⟩ := tidy_debugDump h
  rcases hq with rfl | ⟨-, settings, hq⟩
  · exact ⟨d.queue, rfl, rfl, hd'⟩
  · obtain ⟨ha, hf⟩ := SMq.debugDump_ok hq
    exact ⟨q, ha, hf.nextId, hd'⟩

/-! ## Messages are different objects -/

/-- The messages in the queue and in the temporary list are different objects. -/
structure Sound (d : Daemon) : Prop where
  distinct : d.queue.Distinct
  held_fresh : ∀ i ∈ d.held, i < d.queue.nextId ∧ i ∉ ids d.queue.agenda

/-- A step that takes nothing into the queue or the temporary list. -/
theorem Sound.of_ids (h : d.Sound) (hids : ids d'.queue.agenda = ids d.queue.agenda)
    (hnext : d.queue.nextId ≤ d'.queue.nextId) (hheld : ∀ i ∈ d'.held, i ∈ d.held) : d'.Sound := by
  refine ⟨⟨?_, fun i hi => ?_⟩, fun i hi => ?_⟩
  · rw [hids]
    exact h.distinct.nodup
  · rw [hids] at hi
    exact Nat.lt_of_lt_of_le (h.distinct.lt_nextId i hi) hnext
  · obtain ⟨hlt, hnot⟩ := h.held_fresh i (hheld i hi)
    rw [hids]
    exact ⟨Nat.lt_of_lt_of_le hlt hnext, hnot⟩

/-- What a pass leaves in the queue: what it does not take out, and at most one fresh message. -/
structure Passed (lib : Libs) (env : Env) (d : Daemon) (q : SMq) : Prop where
  distinct : q.Distinct
  nextId : d.queue.nextId ≤ q.nextId
  fresh : ∀ i ∈ ids q.agenda, i ∈ ids d.queue.agenda ∨ i = d.queue.nextId
  kept : ∀ i ∈ ids d.queue.agenda, ¬ d.TakesOut env i → i ∈ ids q.agenda
  posted : q.posted = d.queue.posted + (d.queue.passOrigin lib env).toList.length

theorem passed {q : SMq} (hs : d.queue.Distinct) (h : d.queue.processTimeout lib env = .ok q) :
    Passed lib env d q := by
  rcases SMq.processTimeout_ok hs h with ⟨rfl, -, hnone⟩ | ⟨m, gone, hhead, hdue, he, hr⟩
  · refine ⟨hs, Nat.le_refl _, fun i hi => .inl hi, fun i hi _ => hi, ?_⟩
    rw [hnone]
    rfl
  · have hh : m.id ∈ ids d.queue.agenda :=
      Agenda.mem_ids.2 ⟨_, SMq.mem_agenda (SMq.head_mem hhead), rfl⟩
    have hperm := (he.conserved hs hh).perm
    refine ⟨he.distinct, Nat.le_trans (Nat.le_add_right _ _) he.nextId, fun i hi => ?_,
      fun i hi hnot => ?_, he.posted⟩
    · rcases List.mem_append.1 (hperm.mem_iff.1 hi) with hi | hi
      · refine .inr ?_
        cases horigin : d.queue.passOrigin lib env with
        | none =>
          rw [horigin] at hi
          cases hi
        | some s =>
          rw [horigin] at hi
          exact List.mem_singleton.1 hi
      · exact .inl (List.mem_of_mem_filter hi)
    · refine hperm.mem_iff.2 (List.mem_append_right _ (List.mem_filter.2 ⟨hi, ?_⟩))
      exact decide_eq_true fun hg => hnot ⟨m, hhead, hdue, gone, hr, hg⟩

theorem Sound.pass (h : d.Sound) (hp : d.pass lib env = some d') : d'.Sound := by
  obtain ⟨timedOut, q, -, hq, rfl⟩ := pass_ok hp
  have hpassed := passed h.distinct hq
  refine ⟨hpassed.distinct, fun i hi => ?_⟩
  obtain ⟨hlt, hnot⟩ := h.held_fresh i hi
  refine ⟨Nat.lt_of_lt_of_le hlt hpassed.nextId, fun hmem => ?_⟩
  rcases hpassed.fresh i hmem with hmem | rfl
  · exact hnot hmem
  · exact Nat.lt_irrefl _ hlt

theorem Sound.arrive {buffer srcaddr : List UInt8} (h : d.Sound)
    (ha : d.arrive lib env buffer srcaddr = some d') : d'.Sound := by
  obtain ⟨-, smp, r, hid, hr, rfl⟩ := arrive_ok ha
  refine ⟨⟨h.distinct.nodup, fun i hi => Nat.lt_succ_of_lt (h.distinct.lt_nextId i hi)⟩,
    fun i hi => ?_⟩
  have hi' : i = d.queue.nextId := by
    unfold held at hi
    rcases hr with rfl | ⟨errcode, rfl⟩
    · exact (Option.some.inj hi).symm.trans hid
    · exact (Option.some.inj hi).symm.trans hid
  rw [hi']
  exact ⟨Nat.lt_succ_self _, SMq.nextId_not_mem h.distinct⟩

theorem Sound.splice {now : Time} (h : d.Sound) (hs : d.splice now = some d') : d'.Sound := by
  obtain ⟨smp, hr, rfl⟩ := splice_ok hs
  have hheld : smp.id ∈ d.held := by
    unfold held
    rw [hr]
    rfl
  obtain ⟨hlt, hnot⟩ := h.held_fresh _ hheld
  refine ⟨⟨List.nodup_cons.2 ⟨hnot, h.distinct.nodup⟩, fun i hi => ?_⟩, fun i hi => ?_⟩
  · rcases List.mem_cons.1 hi with rfl | hi
    · exact hlt
    · exact h.distinct.lt_nextId i hi
  · cases hi

/-- Every step keeps the messages apart. -/
theorem Sound.next {a : DaemonAct} (h : d.Sound) (hs : d.next lib a = some d') : d'.Sound := by
  cases a with
  | arrive env buffer srcaddr => exact h.arrive hs
  | splice now => exact h.splice hs
  | dump =>
    obtain ⟨smp, q, -, ha, hf, rfl⟩ := dump_ok hs
    exact h.of_ids (congrArg ids ha) (Nat.le_of_eq hf.nextId.symm) fun i hi => by cases hi
  | signal =>
    obtain ⟨-, smp, -, rfl⟩ := signal_ok hs
    exact h.of_ids rfl (Nat.le_refl _) fun i hi => by cases hi
  | queueRespondSipAck =>
    obtain ⟨-, errcode, smp, smpl, -, hsmpl, rfl⟩ := queueRespondSipAck_ok hs
    refine h.of_ids rfl (Nat.le_refl _) fun i hi => ?_
    unfold held
    rw [hsmpl]
    exact hi
  | deleteList =>
    obtain rfl := deleteList_ok hs
    refine h.of_ids rfl (Nat.le_refl _) fun i hi => ?_
    rw [held_loopHead] at hi
    cases hi
  | leave =>
    obtain ⟨-, rfl⟩ := leave_ok hs
    exact h.of_ids rfl (Nat.le_refl _) fun i hi => by cases hi
  | receive =>
    rcases receive_ok hs with ⟨-, rfl | ⟨rest, -, rfl⟩ | ⟨errcode, smp, rest, -, rfl⟩⟩
    · exact h.of_ids rfl (Nat.le_refl _) fun i hi => hi
    · exact h.of_ids rfl (Nat.le_refl _) fun i hi => hi
    · exact h.of_ids rfl (Nat.le_refl _) fun i hi => hi
  | pass env => exact h.pass hs
  | sendNested =>
    obtain ⟨-, timedOut, posts, -, rfl⟩ := sendNested_ok hs
    exact h.of_ids rfl (Nat.le_refl _) fun i hi => hi
  | unlock =>
    obtain ⟨w, -, rfl⟩ := unlock_ok hs
    exact h.of_ids rfl (Nat.le_refl _) fun i hi => hi
  | respond =>
    obtain ⟨m, rfl⟩ := respond_ok hs
    refine h.of_ids ?_ (Nat.le_refl _) fun i hi => ?_
    · exact (congrArg ids (SMq.agenda_store d.queue m)).trans (Agenda.ids_retime _ _ _)
    · rw [← update_held m]
      exact hi
  | tidy due =>
    obtain ⟨q, ha, hnext, rfl⟩ := tidy_ok hs
    exact h.of_ids (congrArg ids ha) (Nat.le_of_eq hnext.symm) fun i hi => hi

theorem Start.held (h : d.Start) : d.held = none := by
  unfold Daemon.held
  rw [h.reader]
  rfl

theorem Start.sound (h : d.Start) : d.Sound := by
  refine ⟨h.distinct, fun i hi => ?_⟩
  rw [h.held] at hi
  cases hi

/-- Several steps that meet the condition in any state are part of a run. -/
theorem guardedRun_run {init : Daemon → Prop} {guard : Daemon → DaemonAct → Prop}
    {acts : List DaemonAct} (h : Runs.GuardedRun init (Step lib) guard d)
    (hg : ∀ a ∈ acts, ∀ d, guard d a) (hr : d.run lib acts = some d') :
    Runs.GuardedRun init (Step lib) guard d' := by
  induction acts generalizing d with
  | nil =>
    obtain rfl := Option.some.inj hr
    exact h
  | cons a acts ih =>
    obtain ⟨d1, h1, hr⟩ := Option.bind_eq_some_iff.1 hr
    exact ih (h.next (hg a List.mem_cons_self d) h1) (fun b hb => hg b (List.mem_cons_of_mem a hb)) hr

theorem run_append (as bs : List DaemonAct) :
    d.run lib (as ++ bs) = (d.run lib as).bind fun d' => d'.run lib bs := by
  induction as generalizing d with
  | nil => rfl
  | cons a as ih =>
    change ((d.next lib a).bind fun t => t.run lib (as ++ bs)) =
      ((d.next lib a).bind fun t => t.run lib as).bind _
    cases d.next lib a with
    | none => rfl
    | some t => exact ih

theorem reachable_run {init : Daemon → Prop} {acts : List DaemonAct}
    (h : Runs.Reachable init (Step lib) d) (hr : d.run lib acts = some d') :
    Runs.Reachable init (Step lib) d' :=
  guardedRun_run h (fun _ _ _ => trivial) hr

/-! ## A datagram that is rejected -/

/-- The threads at the start of a program with no queue file. -/
def idle (settings : Settings) : Daemon := ⟨{ settings := settings }, [], .waiting, .waiting⟩

theorem idle_start (settings : Settings) : (idle settings).Start :=
  { distinct := ⟨List.nodup_nil, fun _ hi => (by cases hi)⟩
    reader := rfl
    writer := rfl
    events := fun _ he => (by cases he)
    fits := Nat.zero_le _ }

/-- A datagram that is no SIP message. -/
def noise : List UInt8 := [120]

/-- The message that is made of it, with its identity. -/
def noiseMsg (i : MsgId) : ShortMsgPending := { datagram noise [] with id := i }

theorem validate_noise (hp : lib.messageParse noise = none) (s : Settings) :
    (noiseMsg i).validateShortMsg lib s env true = .ok (400, noiseMsg i) := by
  have hparse : (noiseMsg i).toShortMsg.parse lib = .ok (false, (noiseMsg i).toShortMsg) := by
    have hbuf : ShortMsg.buffer noise 1 = noise := rfl
    exact ShortMsg.parse_of_rejected rfl rfl (by rw [← hp, ← hbuf]; rfl)
  unfold ShortMsgPending.validateShortMsg
  rw [hparse]
  rfl

theorem arrive_noise (hp : lib.messageParse noise = none) (hr : d.reader = .waiting) :
    d.arrive lib env noise [] = some { d with
      queue := { d.queue with nextId := d.queue.nextId + 1 }
      reader := .rejected 400 (noiseMsg d.queue.nextId) } := by
  unfold arrive
  have hmsg : (d.queue.newMessage (datagram noise [])).2 = noiseMsg d.queue.nextId := rfl
  rw [hr]
  dsimp only
  rw [hmsg, validate_noise hp]
  rfl

theorem parse_noise (known : List SipMessage) (vias : List (CString × Via))
    (hk : ∀ m ∈ known, SampleLibs.messageText m ≠ noise) :
    (sampleLibs known vias).messageParse noise = none :=
  SampleLibs.parse_eq_none hk (by decide)

end Daemon

end Smqueue

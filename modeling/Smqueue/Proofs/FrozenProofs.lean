import Smqueue.Proofs.LifecycleProofs

/-!
# Proofs: the threads are blocked for good

When the writer waits for room in the message queue, the reader comes to a stop as well, after two
steps at most, and everything stays as it is. A writer that is in `process_timeout` never leaves it
exactly if it is blocked so.
-/

namespace Smqueue

variable {lib : Libs} {env : Env} {d d' : Daemon} {a : DaemonAct} {acts : List DaemonAct}

/-- How many steps the reader can still take without the queue and without posting an event. -/
def Reader.stepsLeft : Reader → Nat
  | answered _ => 2
  | waiting => 1
  | _ => 0

namespace Daemon

/-- Nothing but the reader has changed. -/
structure Frozen (d d' : Daemon) : Prop where
  timeSortedList : d'.queue.timeSortedList = d.queue.timeSortedList
  delivered : d'.queue.delivered = d.queue.delivered
  events : d'.events = d.events
  writer : d'.writer = d.writer

theorem Frozen.trans {d1 : Daemon} (h : Frozen d d1) (h' : Frozen d1 d') : Frozen d d' where
  timeSortedList := h'.timeSortedList.trans h.timeSortedList
  delivered := h'.delivered.trans h.delivered
  events := h'.events.trans h.events
  writer := h'.writer.trans h.writer

/-- A step while the writer is blocked is one of the reader that uses up one at least of those that it
has left. -/
theorem Blocked.frozen (h : d.Blocked) (hs : d.next lib a = some d') :
    Frozen d d' ∧ d'.reader.stepsLeft + 1 ≤ d.reader.stepsLeft := by
  obtain ⟨t, k, hw, hfull⟩ := h
  have hnolt : ¬ d.events.length < maxNumOfMessages := by
    rw [hfull]
    exact Nat.lt_irrefl _
  have hlocks : d.writer.locks = true := by
    rw [hw]
    rfl
  cases a with
  | arrive env buffer srcaddr =>
    obtain ⟨hr, smp, r, -, hr', rfl⟩ := arrive_ok hs
    refine ⟨⟨rfl, rfl, rfl, rfl⟩, ?_⟩
    rw [hr]
    rcases hr' with rfl | ⟨errcode, rfl⟩ <;> exact le_rfl
  | deleteList =>
    obtain ⟨smpl, hr, rfl⟩ := deleteList_answered hs
    refine ⟨⟨rfl, rfl, rfl, rfl⟩, ?_⟩
    rw [hr]
    unfold loopHead
    split
    · exact Nat.le_succ 1
    · exact le_rfl
  | leave =>
    obtain ⟨hr, rfl⟩ := leave_ok hs
    refine ⟨⟨rfl, rfl, rfl, rfl⟩, ?_⟩
    rw [hr]
    exact le_rfl
  | splice now =>
    obtain ⟨smp, hr, -⟩ := splice_ok hs
    have hsp : d.splice now = some d' := hs
    unfold splice at hsp
    rw [hr, hlocks] at hsp
    cases hsp
  | dump =>
    obtain ⟨smp, q, hr, -⟩ := dump_ok hs
    have hdump : d.dump lib = some d' := hs
    unfold dump at hdump
    rw [hr, hlocks] at hdump
    cases hdump
  | signal => exact absurd (signal_ok hs).1 hnolt
  | queueRespondSipAck => exact absurd (queueRespondSipAck_ok hs).1 hnolt
  | sendNested => exact absurd (sendNested_ok hs).1 hnolt
  | receive =>
    have hwait := (receive_ok hs).1
    rw [hw] at hwait
    cases hwait
  | pass env =>
    obtain ⟨timedOut, q, hpass, -, -⟩ := pass_ok hs
    rw [hw] at hpass
    cases hpass
  | unlock =>
    obtain ⟨timedOut, hsend, -⟩ := unlock_sending hs
    rw [hw] at hsend
    cases hsend
  | respond =>
    obtain ⟨errcode, i, m, ok, sm, hack, -⟩ := respond_acking hs
    rw [hw] at hack
    cases hack
  | tidy due =>
    have htidy : d.writer = .tidying := tidy_tidying hs
    rw [hw] at htidy
    cases htidy

theorem Blocked.run (hb : d.Blocked) (h : d.run lib acts = some d') :
    d'.Blocked ∧ Frozen d d' ∧ d'.reader.stepsLeft + acts.length ≤ d.reader.stepsLeft := by
  induction acts generalizing d with
  | nil =>
    obtain rfl := Option.some.inj h
    exact ⟨hb, ⟨rfl, rfl, rfl, rfl⟩, le_rfl⟩
  | cons a acts ih =>
    obtain ⟨d1, h1, h⟩ := Option.bind_eq_some_iff.1 h
    obtain ⟨hfrozen, hleft⟩ := hb.frozen h1
    obtain ⟨hb', hfrozen', hleft'⟩ := ih (hb.next h1) h
    refine ⟨hb', hfrozen.trans hfrozen', ?_⟩
    rw [List.length_cons]
    omega

/-- While the writer is blocked, no message moves, nothing is delivered, no event is received and no
answer is given: the reader takes two more steps at most, and then nothing happens any more. -/
theorem run_frozen (lib : Libs) (d d' : Daemon) (acts : List DaemonAct) (hb : d.Blocked)
    (h : d.run lib acts = some d') : d'.Blocked ∧ Frozen d d' ∧ acts.length ≤ 2 := by
  obtain ⟨hb', hfrozen, hleft⟩ := hb.run h
  refine ⟨hb', hfrozen, ?_⟩
  have htwo : d.reader.stepsLeft ≤ 2 := by
    cases d.reader with
    | answered smpl => exact Nat.le_refl 2
    | waiting => exact Nat.le_succ 1
    | _ => exact Nat.zero_le 2
  omega

/-- The writer has an event to post, and there is no room. -/
def fullDaemon : Daemon where
  queue := { settings := commandSettings }
  events := List.replicate maxNumOfMessages .processIncomming
  reader := .answered none
  writer := .sending false 1

/-- The reader deletes its temporary list and receives one more datagram. -/
theorem run_frozen_full : ∃ d', fullDaemon.run commandLibs
    [.deleteList, .arrive (sampleEnv 0) noise []] = some d' ∧ d'.Blocked ∧ Frozen fullDaemon d' := by
  have hnoise : commandLibs.messageParse noise = none :=
    parse_noise [sampleCommand, sampleReply] sampleVias (by decide +kernel)
  have harrive : arrive commandLibs (sampleEnv 0) noise [] { fullDaemon with reader := .waiting } =
      some _ := arrive_noise hnoise rfl
  have hrun : fullDaemon.run commandLibs [.deleteList, .arrive (sampleEnv 0) noise []] = some _ :=
    Option.bind_eq_some_iff.2 ⟨_, rfl, Option.bind_eq_some_iff.2 ⟨_, harrive, rfl⟩⟩
  obtain ⟨hb, hfrozen, -⟩ := run_frozen commandLibs fullDaemon _ _ ⟨false, 0, rfl, by decide⟩ hrun
  exact ⟨_, hrun, hb, hfrozen⟩

/-! ## When the writer leaves `process_timeout` -/

/-- A writer that is not blocked can post its event, if it has one, and unlock the queue. -/
theorem Calm.unlocks (lib : Libs) (hc : d.Calm) (hl : d.writer.locks = true) (hb : ¬ d.Blocked) :
    ∃ acts d', d.run lib acts = some d' ∧ d'.writer.locks = false := by
  cases hw : d.writer with
  | sending timedOut posts =>
    have hafter : ∀ t : Bool, (if t then Writer.tidying else .waiting).locks = false := by decide
    cases posts with
    | zero =>
      have hu : d.unlock = some { d with writer := if timedOut then .tidying else .waiting } := by
        unfold unlock
        rw [hw]
        rfl
      refine ⟨[.unlock], _, Option.bind_eq_some_iff.2 ⟨_, hu, rfl⟩, hafter timedOut⟩
    | succ k =>
      have hzero : k = 0 := Nat.le_zero.1 (Nat.le_of_succ_le_succ (hc.posts_le _ _ hw))
      subst hzero
      have hlt : d.events.length < maxNumOfMessages :=
        Nat.lt_of_le_of_ne hc.fits fun heq => hb ⟨timedOut, 0, hw, heq⟩
      have hsend : d.sendNested = some { d with
          events := d.events ++ [.processIncomming], writer := .sending timedOut 0 } := by
        unfold sendNested
        rw [hw]
        exact if_pos hlt
      exact ⟨[.sendNested, .unlock], _, Option.bind_eq_some_iff.2 ⟨_, hsend, rfl⟩, hafter timedOut⟩
  | _ =>
    rw [hw] at hl
    cases hl

/-- A writer in `process_timeout` that is blocked never gets out of it, whatever the threads do, and a
writer that is not blocked can get out of it. -/
theorem blocked_iff_locked (lib : Libs) (d : Daemon) (hr : Runs.Reachable Start (Step lib) d)
    (hl : d.writer.locks = true) :
    d.Blocked ↔ ∀ acts d', d.run lib acts = some d' → d'.writer.locks = true := by
  constructor
  · intro hb acts d' h
    rw [(hb.run h).2.1.writer]
    exact hl
  · intro hall
    by_contra hb
    have hc : d.Calm := hr.invariant Calm (fun _ h0 => h0.calm) fun _ _ _ hc _ hs => hc.next hs
    obtain ⟨acts, d', h, hlocks⟩ := hc.unlocks lib hl hb
    rw [hall acts d' h] at hlocks
    cases hlocks

/-- The writer has built the reply to a command, and there is room for its event. -/
theorem blocked_iff_locked_command : ∃ d : Daemon, d.writer.locks = true ∧
    (d.Blocked ↔ ∀ acts d', d.run commandLibs acts = some d' → d'.writer.locks = true) := by
  have h0 : Runs.Reachable Start (Step commandLibs) (commandDaemon 1 [.sipAck 202 0]) :=
    reachable_run (.start (idle_start _)) run_command
  have hpass : ((commandDaemon 1 [.sipAck 202 0]).pass commandLibs (sampleEnv 0)).any
      (fun d => d.writer.locks) = true := by decide +kernel
  obtain ⟨d, hp, hl⟩ := (Option.any_eq_true _ _).1 hpass
  have h1 := h0.next (a := DaemonAct.pass (sampleEnv 0)) trivial hp
  exact ⟨d, hl, blocked_iff_locked commandLibs d h1 hl⟩

end Daemon

end Smqueue

import Smqueue.Proofs.DaemonProofs

/-!
# Proofs: room for the events of the writer

The writer is the only one that empties the message queue, and it posts events of its own in a pass:
if there is no room for one, it waits for ever.
-/

namespace Smqueue

open Agenda (ids)

variable {lib : Libs} {env : Env} {d d' : Daemon} {i : MsgId}

namespace Daemon

/-! ## Room for the events of the writer -/

/-- The writer posts one event at most in a pass, and the message queue is no longer than it may
be. -/
structure Calm (d : Daemon) : Prop extends Sound d where
  posts_le : ∀ timedOut posts, d.writer = .sending timedOut posts → posts ≤ 1
  fits : d.events.length ≤ maxNumOfMessages

theorem Calm.next {a : DaemonAct} (h : d.Calm) (hs : d.next lib a = some d') : d'.Calm := by
  have hsound : d'.Sound := h.toSound.next hs
  have hadd : ∀ e : QueuedMsg, d.events.length < maxNumOfMessages →
      (d.events ++ [e]).length ≤ maxNumOfMessages := by
    intro e hlt
    rw [List.length_append, List.length_singleton]
    exact hlt
  cases a with
  | arrive env buffer srcaddr =>
    obtain ⟨-, smp, r, -, -, rfl⟩ := arrive_ok hs
    exact { hsound with posts_le := h.posts_le, fits := h.fits }
  | splice now =>
    obtain ⟨smp, -, rfl⟩ := splice_ok hs
    exact { hsound with posts_le := h.posts_le, fits := h.fits }
  | dump =>
    obtain ⟨smp, q, -, -, -, rfl⟩ := dump_ok hs
    exact { hsound with posts_le := h.posts_le, fits := h.fits }
  | signal =>
    obtain ⟨hlt, smp, -, rfl⟩ := signal_ok hs
    exact { hsound with posts_le := h.posts_le, fits := hadd _ hlt }
  | queueRespondSipAck =>
    obtain ⟨hlt, errcode, smp, smpl, -, -, rfl⟩ := queueRespondSipAck_ok hs
    exact { hsound with posts_le := h.posts_le, fits := hadd _ hlt }
  | deleteList =>
    obtain rfl := deleteList_ok hs
    exact { hsound with posts_le := h.posts_le, fits := h.fits }
  | leave =>
    obtain ⟨-, rfl⟩ := leave_ok hs
    exact { hsound with posts_le := h.posts_le, fits := h.fits }
  | receive =>
    rcases receive_ok hs with ⟨-, rfl | ⟨rest, he, rfl⟩ | ⟨errcode, smp, rest, he, rfl⟩⟩
    · exact { hsound with posts_le := fun _ _ hw => (by cases hw), fits := h.fits }
    · have hfits := h.fits
      rw [he, List.length_cons] at hfits
      exact { hsound with posts_le := fun _ _ hw => (by cases hw), fits := Nat.le_of_succ_le hfits }
    · have hfits := h.fits
      rw [he, List.length_cons] at hfits
      exact { hsound with posts_le := fun _ _ hw => (by cases hw), fits := Nat.le_of_succ_le hfits }
  | pass env =>
    obtain ⟨timedOut, q, -, hq, rfl⟩ := pass_ok hs
    have hposted := (passed h.distinct hq).posted
    refine { hsound with posts_le := fun t k hw => ?_, fits := h.fits }
    obtain ⟨-, rfl⟩ := Writer.sending.inj hw
    rw [hposted, Nat.add_sub_cancel_left]
    exact Option.length_toList_le
  | sendNested =>
    obtain ⟨hlt, timedOut, posts, hw, rfl⟩ := sendNested_ok hs
    refine { hsound with posts_le := fun t k hk => ?_, fits := hadd _ hlt }
    obtain ⟨-, rfl⟩ := Writer.sending.inj hk
    exact Nat.le_of_succ_le (h.posts_le _ _ hw)
  | unlock =>
    obtain ⟨w, hw, rfl⟩ := unlock_ok hs
    refine { hsound with posts_le := fun t k hk => ?_, fits := h.fits }
    rcases hw with rfl | rfl <;> cases hk
  | respond =>
    obtain ⟨m, rfl⟩ := respond_ok hs
    exact { hsound with posts_le := fun _ _ hw => (by cases hw), fits := h.fits }
  | tidy due =>
    obtain ⟨q, -, -, rfl⟩ := tidy_ok hs
    exact { hsound with posts_le := fun _ _ hw => (by cases hw), fits := h.fits }

theorem Start.calm (h : d.Start) : d.Calm := by
  refine { h.sound with posts_le := fun t k hw => ?_, fits := h.fits }
  rw [h.writer] at hw
  cases hw

theorem Start.not_blocked (h : d.Start) : ¬ d.Blocked := by
  rintro ⟨t, k, hw, -⟩
  rw [h.writer] at hw
  cases hw

theorem not_blocked_of_writer (h : ∀ t k, d.writer ≠ .sending t (k + 1)) : ¬ d.Blocked :=
  fun ⟨t, k, hw, _⟩ => h t k hw

/-- An event that the reader posts blocks the writer exactly if it takes the last room. -/
theorem blocked_post_iff {e : QueuedMsg} (hlt : d.events.length < maxNumOfMessages)
    (hw : d'.writer = d.writer) (he : d'.events = d.events ++ [e]) :
    ¬ d'.Blocked ↔ (d.Sends → d.events.length + 1 < maxNumOfMessages) := by
  have hlen : d'.events.length = d.events.length + 1 := by
    rw [he, List.length_append, List.length_singleton]
  constructor
  · rintro hb ⟨t, k, hs⟩
    refine Nat.lt_of_le_of_ne hlt fun heq => hb ⟨t, k, ?_, ?_⟩
    · rw [hw, hs]
    · rw [hlen, ← heq]
  · rintro hroom ⟨t, k, hs, hfull⟩
    rw [hw] at hs
    rw [hlen] at hfull
    exact Nat.ne_of_lt (hroom ⟨t, k, hs⟩) hfull

/-- A pass blocks the writer exactly if it inserts a message and finds no room for its event. -/
theorem blocked_pass_iff (h : d.Calm) (hp : d.pass lib env = some d') :
    ¬ d'.Blocked ↔ (d.queue.passOrigin lib env ≠ none → d.events.length < maxNumOfMessages) := by
  obtain ⟨timedOut, q, -, hq, rfl⟩ := pass_ok hp
  have hposted := (passed h.distinct hq).posted
  have hposts : q.posted - d.queue.posted = (d.queue.passOrigin lib env).toList.length := by
    rw [hposted, Nat.add_sub_cancel_left]
  constructor
  · intro hb hne
    refine Nat.lt_of_le_of_ne h.fits fun heq => hb ⟨timedOut, 0, ?_, heq⟩
    refine congrArg (Writer.sending timedOut) ?_
    rw [hposts]
    cases horigin : d.queue.passOrigin lib env with
    | none => exact absurd horigin hne
    | some s => rfl
  · rintro hroom ⟨t, k, hw, hfull⟩
    obtain ⟨-, hk⟩ := Writer.sending.inj hw
    rw [hposts] at hk
    refine Nat.ne_of_lt (hroom fun hnone => ?_) hfull
    rw [hnone] at hk
    cases hk

/-- The condition is exact for one step. -/
theorem step_not_blocked_iff {a : DaemonAct} (h : d.Calm) (hb : ¬ d.Blocked)
    (hs : d.next lib a = some d') : ¬ d'.Blocked ↔ d.LeavesRoom lib a := by
  have hkeep : d'.writer = d.writer → d'.events = d.events → ¬ d'.Blocked := by
    rintro hw he ⟨t, k, hsend, hfull⟩
    refine hb ⟨t, k, ?_, ?_⟩
    · rw [← hw, hsend]
    · rw [← he, hfull]
  cases a with
  | arrive env buffer srcaddr =>
    obtain ⟨-, smp, r, -, -, rfl⟩ := arrive_ok hs
    exact iff_of_true (hkeep rfl rfl) trivial
  | splice now =>
    obtain ⟨smp, -, rfl⟩ := splice_ok hs
    exact iff_of_true (hkeep rfl rfl) trivial
  | dump =>
    obtain ⟨smp, q, -, -, -, rfl⟩ := dump_ok hs
    exact iff_of_true (hkeep rfl rfl) trivial
  | signal =>
    obtain ⟨hlt, smp, -, rfl⟩ := signal_ok hs
    exact blocked_post_iff hlt rfl rfl
  | queueRespondSipAck =>
    obtain ⟨hlt, errcode, smp, smpl, -, -, rfl⟩ := queueRespondSipAck_ok hs
    exact blocked_post_iff hlt rfl rfl
  | deleteList =>
    obtain rfl := deleteList_ok hs
    exact iff_of_true (hkeep rfl rfl) trivial
  | leave =>
    obtain ⟨-, rfl⟩ := leave_ok hs
    exact iff_of_true (hkeep rfl rfl) trivial
  | receive =>
    refine iff_of_true (not_blocked_of_writer fun t k hw => ?_) trivial
    rcases receive_ok hs with ⟨-, rfl | ⟨rest, -, rfl⟩ | ⟨errcode, smp, rest, -, rfl⟩⟩ <;> cases hw
  | pass env => exact blocked_pass_iff h hs
  | sendNested =>
    obtain ⟨-, timedOut, posts, hw, rfl⟩ := sendNested_ok hs
    have hzero : posts = 0 := Nat.le_zero.1 (Nat.le_of_succ_le_succ (h.posts_le _ _ hw))
    refine iff_of_true (not_blocked_of_writer fun t k hk => ?_) trivial
    obtain ⟨-, hk⟩ := Writer.sending.inj hk
    rw [hzero] at hk
    cases hk
  | unlock =>
    obtain ⟨w, hw, rfl⟩ := unlock_ok hs
    refine iff_of_true (not_blocked_of_writer fun t k hk => ?_) trivial
    rcases hw with rfl | rfl <;> cases hk
  | respond =>
    obtain ⟨m, rfl⟩ := respond_ok hs
    exact iff_of_true (not_blocked_of_writer fun t k hk => by cases hk) trivial
  | tidy due =>
    obtain ⟨q, -, -, rfl⟩ := tidy_ok hs
    exact iff_of_true (not_blocked_of_writer fun t k hk => by cases hk) trivial

/-- In a run that leaves room for the events of the writer, the writer is never blocked. -/
theorem not_blocked_of_leavesRoom (lib : Libs) (d : Daemon)
    (h : Runs.GuardedRun Start (Step lib) (LeavesRoom lib) d) : ¬ d.Blocked := by
  have hinv : d.Calm ∧ ¬ d.Blocked :=
    h.invariant (fun d => d.Calm ∧ ¬ d.Blocked) (fun _ h0 => ⟨h0.calm, h0.not_blocked⟩)
      fun _ _ _ ⟨hc, hb⟩ hroom hs => ⟨hc.next hs, (step_not_blocked_iff hc hb hs).2 hroom⟩
  exact hinv.2

/-- A writer that is blocked stays blocked: no step of the reader makes room. -/
theorem Blocked.next {a : DaemonAct} (h : d.Blocked) (hs : d.next lib a = some d') :
    d'.Blocked := by
  obtain ⟨t, k, hw, hfull⟩ := h
  have hnolt : ¬ d.events.length < maxNumOfMessages := by
    rw [hfull]
    exact Nat.lt_irrefl _
  cases a with
  | arrive env buffer srcaddr =>
    obtain ⟨-, smp, r, -, -, rfl⟩ := arrive_ok hs
    exact ⟨t, k, hw, hfull⟩
  | splice now =>
    obtain ⟨smp, -, rfl⟩ := splice_ok hs
    exact ⟨t, k, hw, hfull⟩
  | dump =>
    obtain ⟨smp, q, -, -, -, rfl⟩ := dump_ok hs
    exact ⟨t, k, hw, hfull⟩
  | signal => exact absurd (signal_ok hs).1 hnolt
  | queueRespondSipAck => exact absurd (queueRespondSipAck_ok hs).1 hnolt
  | deleteList =>
    obtain rfl := deleteList_ok hs
    exact ⟨t, k, hw, hfull⟩
  | leave =>
    obtain ⟨-, rfl⟩ := leave_ok hs
    exact ⟨t, k, hw, hfull⟩
  | sendNested => exact absurd (sendNested_ok hs).1 hnolt
  | receive =>
    have hwait := (receive_ok hs).1
    rw [hw] at hwait
    cases hwait
  | pass env =>
    obtain ⟨timedOut, q, hpass, -, -⟩ := pass_ok hs
    rw [hw] at hpass
    cases hpass
  | unlock =>
    obtain ⟨timedOut, hsend, -⟩ := unlock_sending hs
    rw [hw] at hsend
    cases hsend
  | respond =>
    obtain ⟨errcode, i, m, ok, sm, hack, -⟩ := respond_acking hs
    rw [hw] at hack
    cases hack
  | tidy due =>
    have htidy : d.writer = .tidying := tidy_tidying hs
    rw [hw] at htidy
    cases htidy

/-- The reader can fill the message queue with the answers to datagrams that it rejects, whatever the
writer is at. -/
theorem reachable_filled (hp : lib.messageParse noise = none) (n : Nat)
    (h : Runs.Reachable Start (Step lib) d) (hr : d.reader = .waiting)
    (hstop : d.queue.stopMainLoop = false) (hn : d.events.length + n ≤ maxNumOfMessages) :
    ∃ events, events.length = d.events.length + n ∧ Runs.Reachable Start (Step lib)
      { d with queue := { d.queue with nextId := d.queue.nextId + n }, events := events } := by
  induction n generalizing d with
  | zero => exact ⟨d.events, rfl, h⟩
  | succ n ih =>
    have h1 := h.next (a := DaemonAct.arrive (sampleEnv 0) noise []) trivial (arrive_noise hp hr)
    have hlt : d.events.length < maxNumOfMessages := by omega
    have h2 := h1.next (a := DaemonAct.queueRespondSipAck) trivial (if_pos hlt)
    have h3 : Runs.Reachable Start (Step lib) { d with
        queue := { d.queue with nextId := d.queue.nextId + 1 }
        events := d.events ++ [.sipAck 400 d.queue.nextId]
        reader := .waiting } :=
      h2.next trivial (deleteList_waiting rfl hstop)
    have hone : (d.events ++ [QueuedMsg.sipAck 400 d.queue.nextId]).length = d.events.length + 1 := by
      rw [List.length_append, List.length_singleton]
    have hroom : (d.events ++ [QueuedMsg.sipAck 400 d.queue.nextId]).length + n ≤ maxNumOfMessages := by
      omega
    obtain ⟨events, hlen, h4⟩ := ih h3 rfl hstop hroom
    change events.length = (d.events ++ [QueuedMsg.sipAck 400 d.queue.nextId]).length + n at hlen
    refine ⟨events, ?_, ?_⟩
    · rw [hlen, hone, Nat.add_right_comm, Nat.add_assoc]
    · have hnext : d.queue.nextId + 1 + n = d.queue.nextId + (n + 1) := by
        rw [Nat.add_assoc, Nat.add_comm 1]
      simp only [hnext] at h4
      rwa [← hr] at h4

/-- The settings with a command. -/
def commandSettings : Settings := { shortCodeMap := [(str "2336", .quickChk)] }

/-- The writer has received the event for a command, and the reader has posted the answer to it. -/
def commandDaemon (n : Nat) (events : List QueuedMsg) : Daemon where
  queue :=
    { settings := commandSettings
      timeSortedList := [queuedMsg 0 .initialState 0 sampleCommand]
      nextId := n
      posted := 1
      tableReads := [.entry .noState .initialState] }
  events := events
  reader := .waiting
  writer := .passing false

set_option maxRecDepth 100000 in
theorem run_command : (idle commandSettings).run commandLibs
    [.arrive (sampleEnv 0) (SampleLibs.messageText sampleCommand) [], .splice 0, .dump, .signal,
      .queueRespondSipAck, .deleteList, .receive] = some (commandDaemon 1 [.sipAck 202 0]) := rfl

theorem run_command_pass : ((commandDaemon 100 []).pass commandLibs (sampleEnv 0)).map writer =
    some (.sending false 1) := by decide +kernel

/-- The pass for the command inserts the reply to it, whatever events there are. -/
theorem pass_command (events : List QueuedMsg) :
    ∃ d', (commandDaemon 100 events).pass commandLibs (sampleEnv 0) = some d' ∧
      d'.writer = .sending false 1 ∧ d'.events = events := by
  obtain ⟨d0, h0, hw0⟩ := Option.map_eq_some_iff.1 run_command_pass
  obtain ⟨timedOut, q, hw, hq, rfl⟩ := pass_ok h0
  have hrun : (commandDaemon 100 events).queue.processTimeout commandLibs (sampleEnv 0) = .ok q := hq
  refine ⟨_, pass_eq_some rfl hrun, ?_, rfl⟩
  obtain ⟨-, hposts⟩ := Writer.sending.inj hw0
  exact congrArg (Writer.sending false) hposts

/-- The threads start with a command from the queue file, and the writer runs it. -/
theorem not_blocked_of_leavesRoom_command : ∃ d : Daemon, d.Sends ∧ ¬ d.Blocked := by
  have h0 : Runs.GuardedRun Start (Step commandLibs) (LeavesRoom commandLibs)
      { commandDaemon 100 [.processIncomming] with writer := .waiting } :=
    .start
      { distinct := ⟨by decide, by decide⟩
        reader := rfl
        writer := rfl
        events := by decide
        fits := by decide }
  have h1 : Runs.GuardedRun Start (Step commandLibs) (LeavesRoom commandLibs)
      (commandDaemon 100 []) := h0.next (a := DaemonAct.receive) trivial rfl
  obtain ⟨d', hp, hw, -⟩ := pass_command []
  have h2 := h1.next (a := DaemonAct.pass (sampleEnv 0)) (fun _ => by decide) hp
  exact ⟨d', ⟨false, 0, hw⟩, not_blocked_of_leavesRoom commandLibs d' h2⟩

/-- A command arrives, and the reader fills the message queue with the answers to other datagrams
before the writer runs the command: the event for the reply finds no room. -/
theorem not_never_blocked :
    ¬ ∀ (lib : Libs) (d : Daemon), Runs.Reachable Start (Step lib) d → ¬ d.Blocked := by
  intro hall
  have h0 : Runs.Reachable Start (Step commandLibs) (idle commandSettings) :=
    .start (idle_start commandSettings)
  have h1 := reachable_run h0 run_command
  have hnoise : commandLibs.messageParse noise = none :=
    parse_noise [sampleCommand, sampleReply] sampleVias (by decide +kernel)
  obtain ⟨events, hlen, h2⟩ := reachable_filled hnoise 99 h1 rfl rfl (by decide)
  obtain ⟨d', hp, hw, he⟩ := pass_command events
  have h3 := h2.next (a := DaemonAct.pass (sampleEnv 0)) trivial hp
  refine hall commandLibs d' h3 ⟨false, 0, hw, ?_⟩
  rw [he, hlen]
  rfl

end Daemon

end Smqueue

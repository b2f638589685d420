import Smqueue.Shutdown
import Smqueue.Proofs.LifecycleProofs

/-!
# Proofs: the end of the program

The writer sees the end of the program at the head of its loop only, and it is a pass that brings it
about. So the writer is behind the pass then, and it posts an event at most, unlocks the queue and
tidies up before it stops.
-/

namespace Smqueue

variable {lib : Libs} {env : Env} {d d1 d2 d' : Daemon}

theorem SMq.debugDump_delivered {q q' : SMq} (h : q.debugDump lib = .ok q') :
    q'.stopMainLoop = q.stopMainLoop ∧ q'.delivered = q.delivered := by
  obtain ⟨l, -, h⟩ := Except.bind_eq_ok.1 h
  obtain rfl := Except.pure_eq_ok.1 h
  exact ⟨rfl, rfl⟩

namespace Daemon

/-! ## The steps of the writer -/

theorem receive_running (h : d.receive = some d') : d.queue.stopMainLoop = false := by
  unfold receive at h
  rw [(receive_ok h).1] at h
  cases hstop : d.queue.stopMainLoop with
  | false => rfl
  | true =>
    rw [hstop] at h
    cases h

theorem tidy_stopped {due : Option Settings} (h : d.tidy lib due = some d') :
    ∃ q : SMq, q.agenda = d.queue.agenda ∧ q.stopMainLoop = d.queue.stopMainLoop ∧
      q.delivered = d.queue.delivered ∧ d' = { d with queue := q, writer := .waiting } := by
  obtain ⟨q, hq, hd'⟩ := tidy_debugDump h
  rcases hq with rfl | ⟨-, settings, hq⟩
  · exact ⟨d.queue, rfl, rfl, rfl, hd'⟩
  · obtain ⟨hstop, hdelivered⟩ := SMq.debugDump_delivered hq
    exact ⟨q, (SMq.debugDump_ok hq).1, hstop, hdelivered, hd'⟩

/-! ## The writer at the end -/

/-- When the program ends the writer is behind the pass that brought this about. -/
structure Ending (d : Daemon) : Prop extends Calm d where
  writer : d.queue.stopMainLoop = true → d.writer.engaged = false

theorem Start.ending (h : d.Start) : d.Ending := by
  refine { h.calm with writer := fun _ => ?_ }
  rw [h.writer]
  rfl

theorem Ending.next {a : DaemonAct} (h : d.Ending) (hs : d.next lib a = some d') : d'.Ending := by
  have hcalm : d'.Calm := h.toCalm.next hs
  cases a with
  | arrive env buffer srcaddr =>
    obtain ⟨-, smp, r, -, -, rfl⟩ := arrive_ok hs
    exact { hcalm with writer := h.writer }
  | splice now =>
    obtain ⟨smp, -, rfl⟩ := splice_ok hs
    exact { hcalm with writer := h.writer }
  | dump =>
    obtain ⟨smp, q, -, hq, rfl⟩ := dump_debugDump hs
    have hstop : q.stopMainLoop = d.queue.stopMainLoop := (SMq.debugDump_delivered hq).1
    exact { hcalm with writer := fun hend => h.writer (hstop.symm.trans hend) }
  | signal =>
    obtain ⟨-, smp, -, rfl⟩ := signal_ok hs
    exact { hcalm with writer := h.writer }
  | queueRespondSipAck =>
    obtain ⟨-, errcode, smp, smpl, -, -, rfl⟩ := queueRespondSipAck_ok hs
    exact { hcalm with writer := h.writer }
  | deleteList =>
    obtain rfl := deleteList_ok hs
    exact { hcalm with writer := h.writer }
  | leave =>
    obtain ⟨-, rfl⟩ := leave_ok hs
    exact { hcalm with writer := h.writer }
  | receive =>
    have hrunning : d.queue.stopMainLoop = false := receive_running hs
    have hqueue : d'.queue = d.queue := by
      rcases receive_ok hs with ⟨-, rfl | ⟨rest, -, rfl⟩ | ⟨errcode, smp, rest, -, rfl⟩⟩ <;> rfl
    refine { hcalm with writer := fun hend => ?_ }
    rw [hqueue, hrunning] at hend
    cases hend
  | pass env =>
    obtain ⟨timedOut, q, -, -, rfl⟩ := pass_ok hs
    exact { hcalm with writer := fun _ => rfl }
  | sendNested =>
    obtain ⟨-, timedOut, posts, -, rfl⟩ := sendNested_ok hs
    exact { hcalm with writer := fun _ => rfl }
  | unlock =>
    obtain ⟨w, hw, rfl⟩ := unlock_ok hs
    refine { hcalm with writer := fun _ => ?_ }
    rcases hw with rfl | rfl <;> rfl
  | respond =>
    obtain ⟨m, rfl⟩ := respond_ok hs
    exact { hcalm with writer := fun _ => rfl }
  | tidy due =>
    obtain ⟨q, -, -, rfl⟩ := tidy_ok hs
    exact { hcalm with writer := fun _ => rfl }

theorem Reachable.ending (h : Runs.Reachable Start (Step lib) d) : d.Ending :=
  h.invariant Ending (fun _ h0 => h0.ending) fun _ _ _ he _ hs => he.next hs

/-- The writer stops after three steps at most. -/
theorem Ending.stepsLeft_le (h : d.Ending) (hstop : d.queue.stopMainLoop = true) :
    d.writer.stepsLeft ≤ 3 := by
  have hengaged : d.writer.engaged = false := h.writer hstop
  cases hw : d.writer with
  | waiting => exact Nat.zero_le 3
  | passing timedOut =>
    rw [hw] at hengaged
    cases hengaged
  | acking errcode i =>
    rw [hw] at hengaged
    cases hengaged
  | tidying => decide
  | sending timedOut posts =>
    have hposts : posts ≤ 1 := h.posts_le timedOut posts hw
    have htime : timedOut.toNat ≤ 1 := Bool.toNat_le timedOut
    change posts + 1 + timedOut.toNat ≤ 3
    omega

/-! ## Steps after the end -/

theorem Suspends.refl (d : Daemon) : Suspends d d :=
  ⟨rfl, List.Subset.refl _, List.prefix_refl _⟩

theorem Suspends.trans (h : Suspends d d1) (h' : Suspends d1 d2) : Suspends d d2 :=
  ⟨h'.delivered.trans h.delivered, List.Subset.trans h.queued h'.queued, h.events.trans h'.events⟩

/-- What a step leaves as it is once the program ends, and what it costs the writer. -/
theorem Ending.next_suspends {a : DaemonAct} (h : d.Ending) (hstop : d.queue.stopMainLoop = true)
    (hs : d.next lib a = some d') : d'.queue.stopMainLoop = true ∧ Suspends d d' ∧
      a.byWriter + d'.writer.stepsLeft ≤ d.writer.stepsLeft := by
  have hengaged : d.writer.engaged = false := h.writer hstop
  have hsame : ∀ q : SMq, q.agenda = d.queue.agenda → d.queue.agenda ⊆ q.agenda := by
    intro q hq
    rw [hq]
    exact List.Subset.refl _
  cases a with
  | arrive env buffer srcaddr =>
    obtain ⟨-, smp, r, -, -, rfl⟩ := arrive_ok hs
    exact ⟨hstop, ⟨rfl, List.Subset.refl _, List.prefix_refl _⟩, Nat.le_of_eq (Nat.zero_add _)⟩
  | splice now =>
    obtain ⟨smp, -, rfl⟩ := splice_ok hs
    exact ⟨hstop, ⟨rfl, List.subset_cons_self _ _, List.prefix_refl _⟩,
      Nat.le_of_eq (Nat.zero_add _)⟩
  | dump =>
    obtain ⟨smp, q, -, hq, rfl⟩ := dump_debugDump hs
    obtain ⟨hstop', hdelivered⟩ := SMq.debugDump_delivered hq
    exact ⟨hstop'.trans hstop, ⟨hdelivered, hsame q (SMq.debugDump_ok hq).1, List.prefix_refl _⟩,
      Nat.le_of_eq (Nat.zero_add _)⟩
  | signal =>
    obtain ⟨-, smp, -, rfl⟩ := signal_ok hs
    exact ⟨hstop, ⟨rfl, List.Subset.refl _, List.prefix_append _ _⟩, Nat.le_of_eq (Nat.zero_add _)⟩
  | queueRespondSipAck =>
    obtain ⟨-, errcode, smp, smpl, -, -, rfl⟩ := queueRespondSipAck_ok hs
    exact ⟨hstop, ⟨rfl, List.Subset.refl _, List.prefix_append _ _⟩, Nat.le_of_eq (Nat.zero_add _)⟩
  | deleteList =>
    obtain rfl := deleteList_ok hs
    exact ⟨hstop, ⟨rfl, List.Subset.refl _, List.prefix_refl _⟩, Nat.le_of_eq (Nat.zero_add _)⟩
  | leave =>
    obtain ⟨-, rfl⟩ := leave_ok hs
    exact ⟨hstop, ⟨rfl, List.Subset.refl _, List.prefix_refl _⟩, Nat.le_of_eq (Nat.zero_add _)⟩
  | receive =>
    rw [receive_running hs] at hstop
    cases hstop
  | pass env =>
    obtain ⟨timedOut, q, hw, -, -⟩ := pass_ok hs
    rw [hw] at hengaged
    cases hengaged
  | sendNested =>
    obtain ⟨-, timedOut, posts, hw, rfl⟩ := sendNested_ok hs
    refine ⟨hstop, ⟨rfl, List.Subset.refl _, List.prefix_append _ _⟩, ?_⟩
    rw [hw]
    change 1 + (posts + 1 + timedOut.toNat) ≤ posts + 1 + 1 + timedOut.toNat
    omega
  | unlock =>
    obtain ⟨timedOut, hw, rfl⟩ := unlock_sending hs
    refine ⟨hstop, ⟨rfl, List.Subset.refl _, List.prefix_refl _⟩, ?_⟩
    rw [hw]
    cases timedOut <;> exact le_refl _
  | respond =>
    obtain ⟨errcode, i, m, ok, sm, hw, -, -, -⟩ := respond_acking hs
    rw [hw] at hengaged
    cases hengaged
  | tidy due =>
    have hw : d.writer = .tidying := tidy_tidying hs
    obtain ⟨q, ha, hstop', hdelivered, rfl⟩ := tidy_stopped hs
    refine ⟨hstop'.trans hstop, ⟨hdelivered, hsame q ha, List.prefix_refl _⟩, ?_⟩
    rw [hw]
    exact le_refl 1

/-- Once the program ends, the writer takes three steps at most in every run: no message is delivered
any more, no queued message is changed or deleted, and no posted event is taken, so that the answers
which wait are not given. -/
theorem run_suspends (lib : Libs) (d d' : Daemon) (acts : List DaemonAct)
    (hr : Runs.Reachable Start (Step lib) d) (hstop : d.queue.stopMainLoop = true)
    (h : d.run lib acts = some d') : d'.queue.stopMainLoop = true ∧ Suspends d d' ∧
      Runs.total (fun d a => d.next lib a) (fun _ a => a.byWriter) d acts ≤ 3 := by
  have hend : d.Ending := Reachable.ending hr
  rw [run_eq] at h
  have hinv : ∀ (d1 : Daemon) (a : DaemonAct) (d2 : Daemon),
      (d1.Ending ∧ d1.queue.stopMainLoop = true ∧ Suspends d d1) → d1.next lib a = some d2 →
        d2.Ending ∧ d2.queue.stopMainLoop = true ∧ Suspends d d2 := by
    rintro d1 a d2 ⟨he, hs, hd⟩ hn
    obtain ⟨hs', hd', -⟩ := he.next_suspends hs hn
    exact ⟨he.next hn, hs', hd.trans hd'⟩
  have hpaid : ∀ (d1 : Daemon) (a : DaemonAct) (d2 : Daemon),
      (d1.Ending ∧ d1.queue.stopMainLoop = true ∧ Suspends d d1) → d1.next lib a = some d2 →
        a.byWriter + d2.writer.stepsLeft ≤ d1.writer.stepsLeft :=
    fun _ _ _ ⟨he, hs, _⟩ hn => (he.next_suspends hs hn).2.2
  have hstart : d.Ending ∧ d.queue.stopMainLoop = true ∧ Suspends d d :=
    ⟨hend, hstop, Suspends.refl d⟩
  obtain ⟨-, hstop', hsuspends⟩ := Runs.run_invariant hinv h hstart
  have htotal := Runs.total_le hinv hpaid h hstart
  have hthree : d.writer.stepsLeft ≤ 3 := hend.stepsLeft_le hstop
  exact ⟨hstop', hsuspends, Nat.le_trans (Nat.le_of_add_right_le htotal) hthree⟩

/-- The message that ends the program. -/
def sampleQuit : SipMessage :=
  { sampleCommand with contentLength := some (some (str "12")), bodies := [str "Snidely quit"] }

/-- The threads start with that message and with one that is to be delivered later. -/
def quittingDaemon : Daemon where
  queue :=
    { settings := { shortCodeMap := [(str "2336", .whiplashQuit)] }
      timeSortedList := [queuedMsg 0 .initialState 0 sampleQuit,
        queuedMsg 1 .requestMsgDelivery 5 sampleRequest]
      nextId := 2 }
  events := []
  reader := .waiting
  writer := .waiting

theorem quittingDaemon_start : quittingDaemon.Start where
  distinct := ⟨by decide, by decide⟩
  reader := rfl
  writer := rfl
  events := fun _ he => absurd he List.not_mem_nil
  fits := Nat.zero_le _

/-- The pass for the message that ends the program, and what the writer does after it. -/
theorem run_suspends_quit : ∃ d d',
    quittingDaemon.run (sampleLibs [] []) [.receive, .pass (sampleEnv 0)] = some d ∧
      d.run (sampleLibs [] []) [.unlock, .tidy none] = some d' ∧ Suspends d d' := by
  have hquit : ((quittingDaemon.run (sampleLibs [] []) [.receive, .pass (sampleEnv 0)]).map fun d =>
      (d.queue.stopMainLoop, (d.run (sampleLibs [] []) [.unlock, .tidy none]).isSome)) =
        some (true, true) := by decide +kernel
  obtain ⟨d, hd, hboth⟩ := Option.map_eq_some_iff.1 hquit
  obtain ⟨hstop, hlater⟩ := Prod.mk.inj hboth
  obtain ⟨d', hd'⟩ := Option.isSome_iff_exists.1 hlater
  have hr : Runs.Reachable Start (Step (sampleLibs [] [])) d :=
    reachable_run (.start quittingDaemon_start) hd
  obtain ⟨-, hsuspends, -⟩ :=
    run_suspends (sampleLibs [] []) d d' [.unlock, .tidy none] hr hstop hd'
  exact ⟨d, d', hd, hd', hsuspends⟩

end Daemon

end Smqueue

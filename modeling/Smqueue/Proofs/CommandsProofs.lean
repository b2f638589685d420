import Smqueue.Commands
import Smqueue.Proofs.DeparturesProofs
import Smqueue.Proofs.LifecycleProofs

/-!
# Proofs: how often a command is run

A pass that runs a command to its end leaves the message in a state behind the commands, and no step
takes it back. So over a run this happens once at most.
-/

namespace Smqueue

open Agenda (ids)

variable {lib : Libs} {env : Env} {q q' : SMq} {m : ShortMsgPending} {d d' : Daemon} {i : MsgId}

namespace SMq

/-- Behind the end of a command the message is in a state behind the commands. -/
theorem finishShortCode_progress {r : ShortCodeResult} {next : Option SmState}
    (hr : r.action.runsAgain = false) (h : finishShortCode lib env i r = .ok (next, q')) :
    1 ≤ (next.getD .requestFromAddressLookup).progress := by
  unfold finishShortCode at h
  cases ha : r.action with
  | reply =>
    rw [ha] at h
    obtain ⟨x, -, h⟩ := Except.bind_eq_ok.1 h
    obtain ⟨⟨shortcode, imsi⟩, -, h⟩ := Except.bind_eq_ok.1 h
    obtain ⟨⟨ok, q1⟩, -, h⟩ := Except.bind_eq_ok.1 h
    cases h
    cases ok <;> decide
  | retryAfterDelay =>
    rw [ha] at h
    obtain ⟨x, -, h⟩ := Except.bind_eq_ok.1 h
    cases h
    decide
  | awaitRegister =>
    rw [ha] at hr
    cases hr
  | register =>
    rw [ha] at hr
    cases hr
  | restartProcessing =>
    rw [ha] at hr
    cases hr
  | _ =>
    rw [ha] at h
    cases h
    decide

/-- What is known of a pass that runs a command to its end. -/
theorem concludes_ok (h : q.concludes lib env i = true) (hq : q.processTimeout lib env = .ok q') :
    ∃ m ∈ q.timeSortedList, m.id = i ∧ m.state = .initialState ∧
      ∀ x ∈ q'.timeSortedList, x.id = i → 1 ≤ x.state.progress := by
  obtain ⟨m, hm, h⟩ := (Option.any_eq_true _ _).1 h
  simp only [Bool.and_eq_true, decide_eq_true_eq, Bool.not_eq_true'] at h
  obtain ⟨⟨⟨⟨⟨rfl, hdue⟩, hst⟩, hreq⟩, hmethod⟩, hcall⟩ := h
  rcases processTimeout_cases hq with ⟨-, hnot⟩ | ⟨m1, hm1, -, hdispatch⟩
  · exact absurd hdue (hnot m hm)
  · obtain rfl : m1 = m := Option.some.inj (hm1.symm.trans hm)
    rw [dispatch_initial hst] at hdispatch
    obtain ⟨next, q2, hcode, hset⟩ :=
      processInitial_command (by rw [hreq]; decide) hmethod hdispatch
    obtain ⟨res, hres, hcode⟩ := Except.bind_eq_ok.1 hcode
    rw [hres] at hcall
    cases res with
    | none => cases hcall
    | some r =>
      have hagain : r.action.runsAgain = false := by simpa using hcall
      refine ⟨m1, head_mem hm, rfl, hst, fun x hx hid => ?_⟩
      rw [setState_self hset x hx hid]
      exact finishShortCode_progress hagain hcode

end SMq

namespace Daemon

/-- A message that has come so far is past its commands if it is in no state in which they are run. -/
theorem three_le_age (hs : d.Sound) (hage : 2 ≤ (d.stage i).age)
    (hst : ∀ x ∈ d.queue.timeSortedList, x.id = i → 1 ≤ x.state.progress) :
    3 ≤ (d.stage i).age := by
  by_cases hi : i ∈ ids d.queue.agenda
  · obtain ⟨e, he, rfl⟩ := Agenda.mem_ids.1 hi
    obtain ⟨x, hx, rfl⟩ := List.mem_map.1 he
    have hone := hst x hx rfl
    change 3 ≤ (d.stage x.id).age
    rw [stage_queued hs hx]
    change 3 ≤ 2 + x.state.progress
    omega
  · rw [stage_of_not_mem hi] at hage ⊢
    by_cases hheld : d.held = some i
    · rw [if_pos hheld] at hage
      exact absurd hage (by decide)
    · rw [if_neg hheld] at hage ⊢
      by_cases hlt : i < d.queue.nextId
      · rw [if_pos hlt]
        decide
      · rw [if_neg hlt] at hage
        exact absurd hage (by decide)

/-- A step that runs the command of the message to its end uses up the one chance for it. -/
theorem Sound.next_concludes {a : DaemonAct} (hs : d.Sound) (hn : d.next lib a = some d') :
    d.concludes lib i a + d'.mayConclude i ≤ d.mayConclude i := by
  have hage := (hs.next_lives hn i).age
  have hnone : d'.mayConclude i ≤ d.mayConclude i := by
    unfold mayConclude
    by_cases hd' : (d'.stage i).age ≤ 2
    · rw [if_pos hd', if_pos (Nat.le_trans hage hd')]
    · rw [if_neg hd']
      exact Nat.zero_le _
  cases a with
  | pass env =>
    obtain ⟨timedOut, q, -, hq, hd'⟩ := pass_ok hn
    cases hc : d.queue.concludes lib env i with
    | false =>
      have hzero : d.concludes lib i (.pass env) = 0 := congrArg Bool.toNat hc
      rw [hzero, Nat.zero_add]
      exact hnone
    | true =>
      obtain ⟨m, hm, rfl, hst, hafter⟩ := SMq.concludes_ok hc hq
      have hstage : (d.stage m.id).age = 2 := by
        rw [stage_queued hs hm, hst]
        rfl
      have hpast : 3 ≤ (d'.stage m.id).age := by
        refine three_le_age (hs.next hn) (hstage ▸ hage) fun x hx => hafter x ?_
        rw [hd'] at hx
        exact hx
      have hone : d.concludes lib m.id (.pass env) = 1 := congrArg Bool.toNat hc
      unfold mayConclude
      rw [hone, hstage, if_neg (by omega), if_pos (le_refl 2)]
  | _ => exact (Nat.zero_add _).trans_le hnone

/-- In every run the command of a message is run to its end once at most, whatever registrations it
waits for and however often its recipient is replaced; then the message is never again in a state in
which commands are run. -/
theorem run_concludes (lib : Libs) (d d' : Daemon) (acts : List DaemonAct) (i : MsgId)
    (hr : Runs.Reachable Start (Step lib) d) (h : d.run lib acts = some d') :
    Runs.total (fun d a => d.next lib a) (concludes lib i) d acts ≤ 1 ∧
      (Runs.total (fun d a => d.next lib a) (concludes lib i) d acts = 1 →
        ∀ m ∈ d'.queue.timeSortedList, m.id = i → 1 ≤ m.state.progress) := by
  have hs : d.Sound := Reachable.sound hr
  have hs' : d'.Sound := hs.of_run h
  rw [run_eq] at h
  have hpaid : ∀ (d1 : Daemon) (a : DaemonAct) (d2 : Daemon), d1.Sound → d1.next lib a = some d2 →
      d1.concludes lib i a + d2.mayConclude i ≤ d1.mayConclude i :=
    fun _ _ _ hs hn => hs.next_concludes hn
  have htotal := Runs.total_le (fun _ _ _ => Sound.next) hpaid h hs
  have hone : d.mayConclude i ≤ 1 := by
    unfold mayConclude
    by_cases hd : (d.stage i).age ≤ 2
    · rw [if_pos hd]
    · rw [if_neg hd]
      exact Nat.zero_le 1
  refine ⟨by omega, fun heq m hm hid => ?_⟩
  have hzero : d'.mayConclude i = 0 := by omega
  by_contra hlow
  have hyoung : (d'.stage i).age ≤ 2 := by
    rw [← hid, stage_queued hs' hm]
    change 2 + m.state.progress ≤ 2
    omega
  unfold mayConclude at hzero
  rw [if_pos hyoung] at hzero
  cases hzero

/-- The pass for a command that asks how many messages are queued. -/
theorem run_concludes_command : ∃ d',
    (commandDaemon 1 [.sipAck 202 0]).run commandLibs [.pass (sampleEnv 0)] = some d' ∧
      Runs.total (fun d a => d.next commandLibs a) (concludes commandLibs 0)
        (commandDaemon 1 [.sipAck 202 0]) [.pass (sampleEnv 0)] = 1 ∧
      ∀ m ∈ d'.queue.timeSortedList, m.id = 0 → 1 ≤ m.state.progress := by
  have hrun : ((commandDaemon 1 [.sipAck 202 0]).run commandLibs [.pass (sampleEnv 0)]).isSome = true ∧
      Runs.total (fun d a => d.next commandLibs a) (concludes commandLibs 0)
        (commandDaemon 1 [.sipAck 202 0]) [.pass (sampleEnv 0)] = 1 := by decide +kernel
  obtain ⟨hsome, htotal⟩ := hrun
  obtain ⟨d', hd'⟩ := Option.isSome_iff_exists.1 hsome
  obtain ⟨-, hpast⟩ := run_concludes commandLibs (commandDaemon 1 [.sipAck 202 0]) d'
    [.pass (sampleEnv 0)] 0 (reachable_run (.start (idle_start _)) run_command) hd'
  exact ⟨d', hd', htotal, hpast htotal⟩

end Daemon

end Smqueue

import Smqueue.Proofs.DaemonProofs

/-!
# Proofs: the message of an answer is there

When the writer answers a message, the message still exists, if no step has destroyed a message
with a pending answer.
-/

namespace Smqueue

open Agenda (ids)

variable {lib : Libs} {env : Env} {d d' : Daemon} {i : MsgId}

namespace Daemon

/-! ## The message of a pending answer -/

/-- The messages that answers are pending for, or that the reader is going to post an answer for, are
there. -/
structure Safe (d : Daemon) : Prop extends Sound d where
  pending : ∀ i, d.AckPending i → d.Alive i
  inserted : ∀ i ∈ d.reader.inserted, i ∈ ids d.queue.agenda

/-- A step that keeps all messages and adds no answer. -/
theorem Safe.of_ids (h : d.Safe) (hs : d'.Sound) (hids : ids d'.queue.agenda = ids d.queue.agenda)
    (hheld : d'.held = d.held) (hp : ∀ i, d'.AckPending i → d.AckPending i)
    (hins : ∀ i ∈ d'.reader.inserted, i ∈ d.reader.inserted) : d'.Safe := by
  refine { hs with pending := fun i hi => ?_, inserted := fun i hi => ?_ }
  · unfold Alive
    rw [hids, hheld]
    exact h.pending i (hp i hi)
  · rw [hids]
    exact h.inserted i (hins i hi)

/-- An event that is no answer makes no answer pending. -/
theorem ackPending_signal {events : List QueuedMsg} {errcode : Int}
    (h : .sipAck errcode i ∈ events ++ [.processIncomming]) : .sipAck errcode i ∈ events := by
  rcases List.mem_append.1 h with h | h
  · exact h
  · cases List.mem_singleton.1 h

theorem Safe.arrive {buffer srcaddr : List UInt8} (h : d.Safe)
    (ha : d.arrive lib env buffer srcaddr = some d') : d'.Safe := by
  have hs : d'.Sound := h.toSound.arrive ha
  obtain ⟨hw, smp, r, -, hr, rfl⟩ := arrive_ok ha
  refine { hs with pending := fun i hi => ?_, inserted := fun i hi => ?_ }
  · rcases h.pending i hi with hmem | hmem
    · exact .inl hmem
    · -- the temporary list was empty
      unfold held at hmem
      rw [hw] at hmem
      cases hmem
  · rcases hr with rfl | ⟨errcode, rfl⟩ <;> cases hi

theorem Safe.splice {now : Time} (h : d.Safe) (hsp : d.splice now = some d') : d'.Safe := by
  have hs : d'.Sound := h.toSound.splice hsp
  obtain ⟨smp, hr, rfl⟩ := splice_ok hsp
  refine { hs with pending := fun i hi => ?_, inserted := fun i hi => ?_ }
  · rcases h.pending i hi with hmem | hmem
    · exact .inl (List.mem_cons_of_mem _ hmem)
    · unfold held at hmem
      rw [hr] at hmem
      obtain rfl := Option.some.inj hmem
      exact .inl List.mem_cons_self
  · obtain rfl := Option.some.inj hi
    exact List.mem_cons_self

theorem Safe.queueRespondSipAck (h : d.Safe) (hs : d'.Sound)
    (hq : d.queueRespondSipAck = some d') : d'.Safe := by
  obtain ⟨-, errcode, smp, smpl, hsmp, hsmpl, rfl⟩ := queueRespondSipAck_ok hq
  have hheld : { d with events := d.events ++ [.sipAck errcode smp],
                        reader := .answered smpl : Daemon }.held = d.held := by
    unfold held
    rw [hsmpl]
    rfl
  have halive : ∀ i, d.Alive i → Alive { d with events := d.events ++ [.sipAck errcode smp],
                                                reader := .answered smpl } i := by
    intro i hi
    unfold Alive
    rw [hheld]
    exact hi
  refine { hs with pending := fun i hi => halive i ?_, inserted := fun i hi => by cases hi }
  obtain ⟨code, hi | hi⟩ := hi
  · rcases List.mem_append.1 hi with hi | hi
    · exact h.pending i ⟨code, .inl hi⟩
    · obtain ⟨-, rfl⟩ := QueuedMsg.sipAck.inj (List.mem_singleton.1 hi)
      rcases hsmp with hsmp | hsmp
      · exact .inl (h.inserted i hsmp)
      · exact .inr hsmp
  · exact h.pending i ⟨code, .inr hi⟩

theorem Safe.receive (h : d.Safe) (hs : d'.Sound) (hr : d.receive = some d') : d'.Safe := by
  rcases receive_ok hr with ⟨-, rfl | ⟨rest, he, rfl⟩ | ⟨errcode, smp, rest, he, rfl⟩⟩
  · refine h.of_ids hs rfl rfl (fun i hi => ?_) fun i hi => hi
    obtain ⟨code, hi | hi⟩ := hi
    · exact ⟨code, .inl hi⟩
    · cases hi
  · refine h.of_ids hs rfl rfl (fun i hi => ?_) fun i hi => hi
    obtain ⟨code, hi | hi⟩ := hi
    · refine ⟨code, .inl ?_⟩
      rw [he]
      exact List.mem_cons_of_mem _ hi
    · cases hi
  · refine h.of_ids hs rfl rfl (fun i hi => ?_) fun i hi => hi
    obtain ⟨code, hi | hi⟩ := hi
    · refine ⟨code, .inl ?_⟩
      rw [he]
      exact List.mem_cons_of_mem _ hi
    · obtain ⟨rfl, rfl⟩ := Writer.acking.inj hi
      refine ⟨errcode, .inl ?_⟩
      rw [he]
      exact List.mem_cons_self

theorem Safe.pass (h : d.Safe) (hk : d.KeepsPending (.pass env))
    (hp : d.pass lib env = some d') : d'.Safe := by
  have hs : d'.Sound := h.toSound.pass hp
  obtain ⟨timedOut, q, hw, hq, rfl⟩ := pass_ok hp
  have hpassed := passed h.distinct hq
  refine { hs with pending := fun i hi => ?_, inserted := fun i hi => ?_ }
  · have hi' : d.AckPending i := by
      obtain ⟨code, hi | hi⟩ := hi
      · exact ⟨code, .inl hi⟩
      · cases hi
    rcases h.pending i hi' with hmem | hmem
    · exact .inl (hpassed.kept i hmem fun ht => (hk i ht).1 hi')
    · exact .inr hmem
  · exact hpassed.kept i (h.inserted i hi) fun ht => (hk i ht).2 hi

/-- A step that destroys no message with a pending answer keeps the messages of all answers. -/
theorem Safe.next {a : DaemonAct} (h : d.Safe) (hk : d.KeepsPending a)
    (hs : d.next lib a = some d') : d'.Safe := by
  have hsound : d'.Sound := h.toSound.next hs
  cases a with
  | arrive env buffer srcaddr => exact h.arrive hs
  | splice now => exact h.splice hs
  | dump =>
    obtain ⟨smp, q, hr, ha, -, rfl⟩ := dump_ok hs
    refine h.of_ids hsound (congrArg ids ha) ?_ (fun i hi => hi) fun i hi => ?_
    · unfold held
      rw [hr]
      rfl
    · rw [hr]
      exact hi
  | signal =>
    obtain ⟨-, smp, hr, rfl⟩ := signal_ok hs
    refine h.of_ids hsound rfl ?_ (fun i hi => ?_) fun i hi => ?_
    · unfold held
      rw [hr]
      rfl
    · obtain ⟨code, hi | hi⟩ := hi
      · exact ⟨code, .inl (ackPending_signal hi)⟩
      · exact ⟨code, .inr hi⟩
    · rw [hr]
      exact hi
  | queueRespondSipAck => exact h.queueRespondSipAck hsound hs
  | deleteList =>
    obtain rfl := deleteList_ok hs
    refine { hsound with pending := fun i hi => ?_, inserted := fun i hi => ?_ }
    · rcases h.pending i hi with hmem | hmem
      · exact .inl hmem
      · exact absurd hi (hk i hmem)
    · rw [loopHead_inserted] at hi
      cases hi
  | leave =>
    obtain ⟨hr, rfl⟩ := leave_ok hs
    refine h.of_ids hsound rfl ?_ (fun i hi => hi) fun i hi => by cases hi
    unfold held
    rw [hr]
    rfl
  | receive => exact h.receive hsound hs
  | pass env => exact h.pass hk hs
  | sendNested =>
    obtain ⟨-, timedOut, posts, -, rfl⟩ := sendNested_ok hs
    refine h.of_ids hsound rfl rfl (fun i hi => ?_) fun i hi => hi
    obtain ⟨code, hi | hi⟩ := hi
    · exact ⟨code, .inl (ackPending_signal hi)⟩
    · cases hi
  | unlock =>
    obtain ⟨w, hw, rfl⟩ := unlock_ok hs
    refine h.of_ids hsound rfl rfl (fun i hi => ?_) fun i hi => hi
    obtain ⟨code, hi | hi⟩ := hi
    · exact ⟨code, .inl hi⟩
    · rcases hw with rfl | rfl <;> cases hi
  | respond =>
    obtain ⟨m, rfl⟩ := respond_ok hs
    refine h.of_ids hsound ?_ (update_held m) (fun i hi => ?_) fun i hi => ?_
    · exact (congrArg ids (SMq.agenda_store d.queue m)).trans (Agenda.ids_retime _ _ _)
    · obtain ⟨code, hi | hi⟩ := hi
      · exact ⟨code, .inl hi⟩
      · cases hi
    · rw [← update_inserted m]
      exact hi
  | tidy due =>
    obtain ⟨q, ha, -, rfl⟩ := tidy_ok hs
    refine h.of_ids hsound (congrArg ids ha) rfl (fun i hi => ?_) fun i hi => hi
    obtain ⟨code, hi | hi⟩ := hi
    · exact ⟨code, .inl hi⟩
    · cases hi

theorem Start.safe (h : d.Start) : d.Safe := by
  refine { h.sound with pending := fun i hi => ?_, inserted := fun i hi => ?_ }
  · obtain ⟨code, hi | hi⟩ := hi
    · cases h.events _ hi
    · rw [h.writer] at hi
      cases hi
  · rw [h.reader] at hi
    cases hi

/-- In a run that destroys no message with a pending answer, the message that the writer answers is
in the queue or in the temporary list of the reader. -/
theorem acked_alive (lib : Libs) (d : Daemon)
    (h : Runs.GuardedRun Start (Step lib) KeepsPending d) (errcode : Int) (smp : MsgId)
    (hw : d.writer = .acking errcode smp) : d.Alive smp := by
  have hsafe : d.Safe :=
    h.invariant Safe (fun _ h0 => h0.safe) fun _ _ _ hd hk hs => hd.next hk hs
  exact hsafe.pending smp ⟨errcode, .inr hw⟩

/-- The reader has rejected a datagram and posted the answer to it. -/
def rejectedDaemon : Daemon where
  queue := { settings := {}, nextId := 1 }
  events := [.sipAck 400 0]
  reader := .answered (some (noiseMsg 0))
  writer := .waiting

theorem run_rejected : Runs.GuardedRun Start (Step (sampleLibs [] [])) KeepsPending
    rejectedDaemon := by
  have h0 : Runs.GuardedRun Start (Step (sampleLibs [] [])) KeepsPending (idle {}) :=
    .start (idle_start {})
  have ha : (idle {}).arrive (sampleLibs [] []) (sampleEnv 0) noise [] = some _ :=
    arrive_noise (parse_noise [] [] (by simp)) rfl
  have h1 := h0.next (a := DaemonAct.arrive (sampleEnv 0) noise []) trivial ha
  exact h1.next (a := DaemonAct.queueRespondSipAck) trivial rfl

/-- The writer answers the datagram before the reader deletes it. -/
theorem acked_alive_rejected :
    Alive { rejectedDaemon with events := [], writer := .acking 400 0 } 0 :=
  acked_alive (sampleLibs [] []) _ (run_rejected.next (a := DaemonAct.receive) trivial rfl) 400 0 rfl

/-- The reader deletes the datagram before the writer answers it. -/
theorem not_acked_alive_rejected :
    ¬ ∀ (lib : Libs) (d : Daemon), Runs.Reachable Start (Step lib) d →
      ∀ errcode smp, d.writer = .acking errcode smp → d.Alive smp := by
  intro hall
  have h1 := run_rejected.reachable.next (a := DaemonAct.deleteList) trivial rfl
  have h2 := h1.next (a := DaemonAct.receive) trivial rfl
  rcases hall _ _ h2 400 0 rfl with hi | hi <;> cases hi

end Daemon

end Smqueue

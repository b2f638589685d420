import Smqueue.WellFormed
import Smqueue.Proofs.AttemptsProofs
import Smqueue.Proofs.ProgramProofs
import Smqueue.Proofs.RestartProofs

/-!
# Proofs: what lasts for a queued message

A property that lasts holds of every queued message in every run of the program, from whatever the
queue file holds. That a message is well formed is such a property.
-/

namespace Smqueue

open Runs (Reachable)

variable {lib : Libs} {env : Env} {q q' : SMq} {h m m' : ShortMsgPending} {p p' : Program}
  {P : ShortMsgPending → Prop} {d d' : Daemon}

/-! ## One pass -/

namespace SMq

theorem Originated.lasting (hP : Lasting lib P) (ho : q.Originated lib env h m) : P m := by
  obtain ⟨s, x, -, -, hf⟩ := ho.finished
  unfold finishMsg at hf
  obtain ⟨sm, -, hf⟩ := Except.bind_eq_ok.1 hf
  obtain ⟨sm', -, hf⟩ := Except.bind_eq_ok.1 hf
  exact hP.validated _ _ _ _ _ hf

theorem Change.lasting (hP : Lasting lib P) (hc : q.Change lib env h m m') (hm : P m) : P m' := by
  cases hc with
  | refresh hr => exact hP.refreshed _ _ hm hr
  | edit _ hsm he => exact hP.edited _ _ _ _ _ hm hsm he
  | tag _ ht => exact hP.tagged _ _ _ hm ht
  | move _ => exact hP.placed _ _ _ _ hm

theorem Incoming.lasting (hP : Lasting lib P) (hi : q.Incoming lib env h m) : P m := by
  cases hi with
  | inserted ho => exact hP.placed _ _ _ _ (ho.lasting hP)

theorem processTimeout_lasting (hP : Lasting lib P) (hd : q.Distinct)
    (hall : ∀ m ∈ q.timeSortedList, P m) (hq : q.processTimeout lib env = .ok q') :
    ∀ m ∈ q'.timeSortedList, P m := by
  rcases processTimeout_outcome hd hq with rfl | ⟨h, hhead, -, -, ho⟩
  · exact hall
  · have of_evolves : ∀ {l : List ShortMsgPending}, (∀ x ∈ l, P x) →
        Population.Evolves (q.Change lib env h) (q.Incoming lib env h) l q'.timeSortedList →
        ∀ m ∈ q'.timeSortedList, P m := fun hl he =>
      (he.along hl (fun _ hi => hi.lasting hP) fun _ _ hx hc => hc.lasting hP hx).2
    cases ho with
    | quiet he => exact of_evolves hall he.messages
    | attempt _ he _ =>
      refine of_evolves (fun x hx => ?_) he
      rcases mem_attempted hx with rfl | ⟨hx, -⟩
      · exact hP.placed _ _ _ _ (hall h (head_mem hhead))
      · exact hall x hx

end SMq

/-! ## Runs -/

theorem Edited.lasting (hP : Lasting lib P) (he : Edited (ShortMsg.Refresh lib) m m') (hm : P m) :
    P m' := by
  rcases he with rfl | ⟨sm, hr, rfl⟩
  · exact hm
  · exact hP.refreshed _ _ hm hr

namespace Program

/-- The property holds of every queued message, and of one that is about to be inserted. -/
structure Holding (P : ShortMsgPending → Prop) (d : Daemon) : Prop extends Daemon.Sound d where
  queue : ∀ m ∈ d.queue.timeSortedList, P m
  accepted : ∀ smp, d.reader = .accepted smp → P smp

theorem Holding.edited (hP : Lasting lib P) (h : Holding P d) (hs : d'.Sound)
    (he : Daemon.OnlyEdited (ShortMsg.Refresh lib) d d') : Holding P d' := by
  refine { hs with queue := fun m' hm' => ?_, accepted := fun x' hx' => ?_ }
  · obtain ⟨m, hm, hmm⟩ := he.queue m' hm'
    exact hmm.lasting hP (h.queue m hm)
  · obtain ⟨x, hx, hxx⟩ := he.accepted x' hx'
    exact hxx.lasting hP (h.accepted x hx)

/-- Every step of a thread keeps a property that lasts. -/
theorem Holding.thread {a : DaemonAct} (hP : Lasting lib P) (h : Holding P d)
    (hn : d.next lib a = some d') : Holding P d' := by
  have hs : d'.Sound := h.toSound.next hn
  cases Daemon.next_happened h.toSound hn with
  | passed ha hq hr =>
    refine { hs with queue := SMq.processTimeout_lasting hP h.distinct h.queue hq
                     accepted := fun smp hsmp => ?_ }
    rw [hr] at hsmp
    exact h.accepted smp hsmp
  | @arrived env buffer srcaddr errcode smp ha hv hq hr =>
    refine { hs with queue := fun m hm => ?_, accepted := fun x hx => ?_ }
    · rw [hq] at hm
      exact h.queue m hm
    · rw [hr] at hx
      by_cases hc : errcode = 0
      · rw [if_pos hc] at hx
        obtain rfl := Reader.accepted.inj hx
        subst hc
        exact hP.validated _ _ _ _ _ hv
      · rw [if_neg hc] at hx
        cases hx
  | @spliced now smp ha hr hq hr' =>
    refine { hs with queue := fun m hm => ?_, accepted := fun x hx => ?_ }
    · rw [hq] at hm
      rcases List.mem_cons.1 hm with rfl | hm
      · exact hP.placed _ _ _ _ (h.accepted smp hr)
      · exact h.queue m hm
    · rw [hr'] at hx
      cases hx
  | parsed he => exact h.edited hP hs he.refresh_of_parses
  | dumped _ he => exact h.edited hP hs he.refresh_of_prints

/-- What a record of the queue file becomes was validated. -/
theorem load_lasting {l : ReadLoop} {msgtext : CString} {addr : Option (List UInt8)}
    (hP : Lasting lib P) (hall : ∀ m ∈ q.timeSortedList, P m)
    (hq : l.load lib env q msgtext addr = .ok q') : ∀ m ∈ q'.timeSortedList, P m := by
  unfold ReadLoop.load at hq
  cases addr with
  | none =>
    cases hq
    exact hall
  | some srcaddr =>
    dsimp only at hq
    obtain ⟨⟨errcode, x⟩, hv, hq⟩ := Except.bind_eq_ok.1 hq
    dsimp only at hq
    split at hq
    · rename_i hcode
      subst hcode
      obtain ⟨sip, -, hq⟩ := Except.bind_eq_ok.1 hq
      split at hq
      · unfold SMq.insertNewMessageAt at hq
        obtain ⟨q1, hdump, hq⟩ := Except.bind_eq_ok.1 hq
        cases hq
        intro m hm
        obtain ⟨y, hy, hym⟩ := (SMq.debugDump_edited hdump).1 m hm
        refine (hym.mono fun _ _ => .inl).lasting hP ?_
        rcases List.mem_cons.1 hy with rfl | hy
        · exact hP.placed _ _ _ _ (hP.validated _ _ _ _ _ hv)
        · exact hall y hy
      · cases hq
        exact hall
    · cases hq
      exact hall

theorem Holding.load {parseAddr : CString → Option (List UInt8)} (hP : Lasting lib P)
    (h : Holding P p.daemon) (hs : p'.daemon.Sound) (hl : p.load lib env parseAddr = some p') :
    Holding P p'.daemon := by
  rcases load_ok hl with hd | ⟨l, l', msgtext, -, -, hload, hr⟩
  · rw [hd]
    exact h
  · refine { hs with queue := load_lasting hP h.queue hload, accepted := fun smp hsmp => ?_ }
    rw [hr] at hsmp
    exact h.accepted smp hsmp

theorem next_cases {a : ProgramAct} (hn : p.next lib a = some p') :
    (∃ env parseAddr, p.load lib env parseAddr = some p') ∨
      ∃ b d, p.daemon.next lib b = some d ∧ p' = { p with daemon := d } := by
  cases a with
  | load env parseAddr => exact .inl ⟨env, parseAddr, hn⟩
  | thread a =>
    change (if p.loop.isSome && a.isReaders then none
      else (p.daemon.next lib a).map fun d => { p with daemon := d }) = some p' at hn
    split at hn
    · cases hn
    · obtain ⟨d, hd, rfl⟩ := Option.map_eq_some_iff.1 hn
      exact .inr ⟨a, d, hd, rfl⟩

/-- A property that lasts holds of the messages of every run of the program. -/
theorem holding_of_lasting (hP : Lasting lib P) (h : Reachable Start (Step lib) p) :
    Holding P p.daemon := by
  refine h.invariant (fun p => Holding P p.daemon) (fun p h0 => ?_) fun p a p' hi _ hn => ?_
  · refine { h0.threads.sound with queue := fun m hm => ?_, accepted := fun smp hsmp => ?_ }
    · rw [h0.empty] at hm
      cases hm
    · rw [h0.threads.reader] at hsmp
      cases hsmp
  · rcases next_cases hn with ⟨env, parseAddr, hl⟩ | ⟨b, d, hd, rfl⟩
    · exact hi.load hP (load_sound hi.toSound hl) hl
    · exact hi.thread hP hd

end Program

/-! ## Well-formed messages -/

namespace ShortMsgPending

theorem Validated.wellFormed {sm : ShortMsg} (h : Validated lib m sm m') : m'.WellFormed := by
  obtain ⟨p, hp, hchecks, htag, hhash, hnumber, hfrom⟩ := h.tree
  obtain ⟨relay, tag, hash, rfl⟩ := h.same
  exact ⟨(ShortMsg.parse_valid h.parse :), p, hp, htag, hhash, fun _ => ⟨hchecks, hnumber, hfrom⟩⟩

/-- The SIP message is replaced by one with an edited tree. -/
theorem WellFormed.content {sm : ShortMsg} (hm : m.WellFormed)
    (hs : m.parsedIsValid = true →
      ShortMsg.TreeEdited (SipMessage.Edit lib) m.toShortMsg sm) :
    WellFormed { m with toShortMsg := sm } := by
  obtain ⟨p, hp, htag, hhash, hchecks⟩ := hm.tree
  have hedited := hs hm.valid
  obtain ⟨p', hp', hedits⟩ := hedited.tree p hp
  have hsame := sameTag_of_edits hedits
  refine ⟨hedited.valid.trans hm.valid, p', hp', ?_, ?_, fun hr => ?_⟩
  · rw [hsame.tag]
    exact htag
  · rw [hsame.tag]
    exact hhash
  · have hreq : p.isRequest = true := hsame.isRequest.symm.trans hr
    have hc := checked_of_edits hedits (checked_iff.2 ⟨hreq, hchecks hreq⟩)
    exact (checked_iff.1 hc).2

theorem wellFormed_lasting : Lasting lib WellFormed where
  validated := fun _ _ _ _ _ hv => by
    obtain ⟨sm, hvalid⟩ := validated_of_ok hv
    exact hvalid.wellFormed
  placed := fun _ _ _ _ hm => ⟨hm.valid, hm.tree⟩
  refreshed := fun m sm hm hr => by
    obtain ⟨p, hp, hrest⟩ := hm.tree
    obtain ⟨hv, htree⟩ := hr.tree hm.valid
    exact ⟨hv, p, htree.trans hp, hrest⟩
  edited := fun env q h m sm hm hsm he => by
    have hedited : m.parsedIsValid = true →
        ShortMsg.TreeEdited (SipMessage.Edit lib) m.toShortMsg sm := by
      rw [hsm]
      exact he.treeEdited
    exact hm.content hedited
  tagged := fun m m' code hm ht => by
    obtain ⟨⟨tag, hash, hm'⟩, hfail, hok⟩ := setQtag_ok hm.valid ht
    by_cases hc : code = 0
    · obtain ⟨p, hp, htag, hhash, -⟩ := hok hc
      obtain ⟨p0, hp0, -, -, hchecks⟩ := hm.tree
      obtain rfl : p0 = p := Option.some.inj (hp0.symm.trans hp)
      have hsm : m'.toShortMsg = m.toShortMsg := by rw [hm']
      refine ⟨?_, p0, ?_, htag, hhash, hchecks⟩
      · rw [hsm]
        exact hm.valid
      · rw [hsm]
        exact hp0
    · rw [hfail hc]
      exact hm

end ShortMsgPending

namespace Program

/-- Whatever the queue file holds and whatever the threads do, every queued message has a tree and the
tag that belongs to it, and every queued request passes the checks again. -/
theorem run_wellFormed (lib : Libs) (p : Program) (h : Reachable Start (Step lib) p) :
    ∀ m ∈ p.daemon.queue.timeSortedList, m.WellFormed :=
  (holding_of_lasting ShortMsgPending.wellFormed_lasting h).queue

/-- The message of a record is well formed once it is read. -/
theorem run_wellFormed_record : recordStates 12 = some [.askedForMsgDelivery] ∧
    ∃ p, (recordStart 12).next (sampleLibs [sampleRequest] sampleVias)
      (.load (sampleEnv 0) fun _ => some []) = some p ∧
      ∀ m ∈ p.daemon.queue.timeSortedList, m.WellFormed := by
  have hstates : recordStates 12 = some [.askedForMsgDelivery] := by decide +kernel
  obtain ⟨p, hp, -⟩ := Option.map_eq_some_iff.1 hstates
  exact ⟨hstates, p, hp, run_wellFormed _ p
    ((Runs.GuardedRun.start (recordStart_start 12)).next trivial hp)⟩

end Program

end Smqueue

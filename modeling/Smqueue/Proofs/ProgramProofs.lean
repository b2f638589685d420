import Smqueue.Program
import Smqueue.SampleLibs
import Smqueue.Proofs.DaemonChangesProofs
import Smqueue.Proofs.TableReadsProofs

/-!
# Proofs: the states of the messages from the start of the program

The steps of a pass lead from states with a case of `process_timeout` to states with one. The queue
file may hold any number for a state.
-/

namespace Smqueue

open Runs (GuardedRun Reachable)

variable {lib : Libs} {env : Env} {q q' : SMq} {p p' : Program} {h : ShortMsgPending} {s : SmState}
  {e e' : Place}

namespace SMq

theorem Turn.hasCase (hh : h.state.hasCase = true) (he : e.state.hasCase = true)
    (ht : q.Turn lib env h e e') : e'.state.hasCase = true := by
  cases ht with
  | call _ hcall _ => exact SmState.calls_hasCase hh _ hcall
  | reset _ _ hs => rcases hs with rfl | rfl <;> rfl
  | delayed _ _ _ => exact he
  | postponed _ _ => exact he
  | rejected _ _ hs => rcases hs with rfl | rfl <;> rfl
  | redirected _ _ => rfl
  | restarted _ _ => rfl

theorem Inserted.hasCase (hi : q.Inserted env e) : e.state.hasCase = true := by
  cases hi with
  | mk hs => rcases hs with rfl | rfl | rfl <;> rfl

theorem HasCases.processTimeout (hc : q.HasCases) (hd : q.Distinct)
    (hq : q.processTimeout lib env = .ok q') : Program.Handles lib env q q' ∧ q'.HasCases := by
  rcases processTimeout_turned hd hq with rfl | ⟨h, hhead, -, ht⟩
  · exact ⟨.idle rfl, hc⟩
  · have hcase : h.state.hasCase = true := hc h.entry (mem_agenda (List.mem_of_mem_head? hhead))
    obtain ⟨hway, hend⟩ := Population.Evolves.along hc (fun _ hi => hi.hasCase)
      (fun _ _ he ht => ht.hasCase hcase he) ht
    refine ⟨.head hhead hcase (hway.mono ?_ ?_), hend⟩
    · rintro x y ⟨hxy, hx, hy⟩
      exact ⟨hxy, SmState.inTable_of_hasCase hx, SmState.inTable_of_hasCase hy⟩
    · rintro x ⟨hi, hx⟩
      exact ⟨hi, by decide, SmState.inTable_of_hasCase hx⟩

end SMq

/-! ## The queue file -/

theorem ReadLoop.load_ok {l : ReadLoop} {msgtext : CString} {addr : Option (List UInt8)}
    (hq : l.load lib env q msgtext addr = .ok q') :
    q'.agenda = q.agenda ∧ q.nextId ≤ q'.nextId ∨
      l.Queues lib env q msgtext addr ∧ q'.nextId = q.nextId + 1 ∧
        q'.agenda = ⟨q.nextId, .ofNat l.astate, l.atime⟩ :: q.agenda := by
  unfold ReadLoop.load at hq
  cases addr with
  | none =>
    cases hq
    exact .inl ⟨rfl, Nat.le_refl _⟩
  | some srcaddr =>
    dsimp only at hq
    obtain ⟨⟨errcode, m⟩, hv, hq⟩ := Except.bind_eq_ok.1 hq
    have hid : m.id = q.nextId := congrArg Agenda.Entry.id
      (ShortMsgPending.validateShortMsg_same hv).entry
    dsimp only at hq
    split at hq
    · rename_i hcode
      subst hcode
      obtain ⟨sip, hsip, hq⟩ := Except.bind_eq_ok.1 hq
      split at hq
      · rename_i hreq
        obtain ⟨ha, -, hnext, -⟩ := SMq.insertNewMessageAt_ok hq
        rw [hid] at ha
        refine .inr ⟨⟨srcaddr, m, rfl, hv, ?_⟩, hnext, ha⟩
        rw [deref_eq_ok hsip]
        simpa using hreq
      · cases hq
        exact .inl ⟨rfl, Nat.le_succ _⟩
    · cases hq
      exact .inl ⟨rfl, Nat.le_succ _⟩

/-- The message of a record goes into its state with a time, so that no timeout is looked up. -/
theorem ReadLoop.load_reads {l : ReadLoop} {msgtext : CString} {addr : Option (List UInt8)}
    (hq : l.load lib env q msgtext addr = .ok q') : q'.tableReads = q.tableReads := by
  unfold ReadLoop.load at hq
  cases addr with
  | none =>
    cases hq
    rfl
  | some srcaddr =>
    dsimp only at hq
    obtain ⟨⟨errcode, m⟩, -, hq⟩ := Except.bind_eq_ok.1 hq
    dsimp only at hq
    split at hq
    · obtain ⟨sip, -, hq⟩ := Except.bind_eq_ok.1 hq
      split at hq
      · exact (SMq.insertNewMessageAt_reads hq).trans rfl
      · cases hq
        rfl
    · cases hq
      rfl

namespace Program

/-- A turn of the loop over the records, or its end. -/
theorem load_ok {parseAddr : CString → Option (List UInt8)}
    (h : p.load lib env parseAddr = some p') :
    p'.daemon = p.daemon ∨ ∃ l l' msgtext, p.loop = some l ∧ l.turn = some (l', msgtext) ∧
      l'.load lib env p.daemon.queue msgtext (parseAddr l'.netaddrstr) = .ok p'.daemon.queue ∧
      p'.daemon.reader = p.daemon.reader := by
  unfold load at h
  split at h
  · cases h
  · rename_i l hl
    split at h
    · cases h
    · split at h
      · cases h
      · cases h
        exact .inl rfl
      · rename_i l' q hturn
        dsimp only at h
        split at h
        · cases h
          unfold ReadLoop.turnWith at hturn
          split at hturn
          · cases hturn
          · rename_i l1 msgtext ht
            obtain ⟨q1, hload, hturn⟩ := Except.bind_eq_ok.1 hturn
            cases hturn
            exact .inr ⟨l, l', msgtext, hl, ht, hload, rfl⟩
        · cases h

/-- The messages are different objects in states with a case, a message that is about to be inserted is
in no state yet, and the table was read inside it. -/
structure Sorted (p : Program) : Prop where
  sound : p.daemon.Sound
  cases : p.daemon.queue.HasCases
  fresh : ∀ smp, p.daemon.reader = .accepted smp → smp.state = .noState
  reads : ∀ r ∈ p.daemon.queue.tableReads, r.Inside

theorem Unread.sorted (h : p.Unread) : p.Sorted := by
  obtain ⟨hstart, hreads⟩ := h
  refine ⟨hstart.threads.sound, fun e he => ?_, fun smp hs => ?_, fun r hr => ?_⟩
  · unfold SMq.agenda at he
    rw [hstart.empty] at he
    cases he
  · rw [hstart.threads.reader] at hs
    cases hs
  · rw [hreads] at hr
    cases hr

/-- A turn of the loop keeps the messages apart. -/
theorem load_sound {parseAddr : CString → Option (List UInt8)} (hs : p.daemon.Sound)
    (h : p.load lib env parseAddr = some p') : p'.daemon.Sound := by
  rcases load_ok h with hd | ⟨l, l', msgtext, -, -, hload, hr⟩
  · exact hd ▸ hs
  · have hheld : p'.daemon.held = p.daemon.held := by
      unfold Daemon.held
      rw [hr]
    rcases ReadLoop.load_ok hload with ⟨ha, hnext⟩ | ⟨-, hnext, ha⟩
    · exact hs.of_ids (by rw [ha]) hnext fun i hi => hheld ▸ hi
    · refine ⟨⟨?_, fun i hi => ?_⟩, fun i hi => ?_⟩
      · rw [ha]
        exact List.nodup_cons.2 ⟨SMq.nextId_not_mem hs.distinct, hs.distinct.nodup⟩
      · rw [ha] at hi
        rw [hnext]
        rcases List.mem_cons.1 hi with rfl | hi
        · exact Nat.lt_succ_self _
        · exact Nat.lt_succ_of_lt (hs.distinct.lt_nextId i hi)
      · obtain ⟨hlt, hnot⟩ := hs.held_fresh i (hheld ▸ hi)
        rw [ha, hnext]
        refine ⟨Nat.lt_succ_of_lt hlt, fun hmem => ?_⟩
        rcases List.mem_cons.1 hmem with rfl | hmem
        · exact Nat.lt_irrefl _ hlt
        · exact hnot hmem

theorem Sorted.load {parseAddr : CString → Option (List UInt8)} (hs : p.Sorted)
    (hg : p.LoadsHandled lib (.load env parseAddr)) (h : p.load lib env parseAddr = some p') :
    p'.Sorted := by
  have hsound : p'.daemon.Sound := load_sound hs.sound h
  rcases load_ok h with hd | ⟨l, l', msgtext, hl, hturn, hload, hr⟩
  · exact ⟨hsound, hd ▸ hs.cases, hd ▸ hs.fresh, hd ▸ hs.reads⟩
  · have hreads : ∀ r ∈ p'.daemon.queue.tableReads, r.Inside := by
      rw [ReadLoop.load_reads hload]
      exact hs.reads
    rcases ReadLoop.load_ok hload with ⟨ha, -⟩ | ⟨hqueues, -, ha⟩
    · refine ⟨hsound, ?_, hr ▸ hs.fresh, hreads⟩
      unfold SMq.HasCases
      rw [ha]
      exact hs.cases
    · refine ⟨hsound, fun e he => ?_, hr ▸ hs.fresh, hreads⟩
      rw [ha] at he
      rcases List.mem_cons.1 he with rfl | he
      · exact hg l hl l' msgtext hturn hqueues
      · exact hs.cases e he

theorem Sorted.thread {a : DaemonAct} {d : Daemon} (hs : p.Sorted)
    (hg : p.LogsInside lib (.thread a)) (h : p.daemon.next lib a = some d) :
    ({ p with daemon := d } : Program).Sorted := by
  have hlooks : ∀ {q' : SMq}, SMq.LooksInside p.daemon.queue q' →
      ∀ r ∈ q'.tableReads, r.Inside := by
    intro q' hl r hr
    rcases hl r hr with hr | hr
    · exact hs.reads r hr
    · exact hr
  have hsound : d.Sound := hs.sound.next h
  have hkept : ∀ {r : ShortMsg → ShortMsg → Prop}, Daemon.OnlyEdited r p.daemon d →
      ({ p with daemon := d } : Program).Sorted := by
    intro r he
    refine ⟨hsound, fun e hmem => ?_, fun smp hr => ?_, hlooks (.of_reads he.reads)⟩
    · obtain ⟨x', hx', rfl⟩ := List.mem_map.1 hmem
      obtain ⟨x, hx, hxx⟩ := he.queue x' hx'
      exact (congrArg SmState.hasCase hxx.state).trans (hs.cases x.entry (SMq.mem_agenda hx))
    · obtain ⟨x, hx, hxx⟩ := he.accepted smp hr
      exact hxx.state.trans (hs.fresh x hx)
  cases Daemon.next_happened hs.sound h with
  | passed ha hq hr =>
    subst ha
    exact ⟨hsound, (hs.cases.processTimeout hs.sound.distinct hq).2, hr ▸ hs.fresh,
      hlooks (SMq.PassLogsInside.looks hs.sound.distinct hs.cases hg hq)⟩
  | arrived _ hv hq hr =>
    refine ⟨hsound, ?_, fun smp hsmp => ?_, hlooks (.of_reads (by rw [hq]))⟩
    · intro e he
      rw [show d.queue.agenda = p.daemon.queue.agenda by rw [hq]; rfl] at he
      exact hs.cases e he
    · rw [hr] at hsmp
      split at hsmp
      · cases hsmp
        exact congrArg Agenda.Entry.state (ShortMsgPending.validateShortMsg_same hv).entry
      · cases hsmp
  | @spliced now smp ha hacc hq hr =>
    subst ha
    have hreads : d.queue.tableReads =
        (p.daemon.queue.readTable smp.state .initialState).tableReads := by
      rw [hq]
      rfl
    have hlooksin : SMq.LooksInside p.daemon.queue d.queue :=
      .readTable (by rw [hs.fresh smp hacc]; decide) (by decide)
        (fun hdebug => Bool.noConfusion (hdebug.symm.trans hg)) hreads
    refine ⟨hsound, fun e he => ?_, fun smp hsmp => ?_, hlooks hlooksin⟩
    · rw [hq] at he
      rcases List.mem_cons.1 he with rfl | he
      · rfl
      · exact hs.cases e he
    · rw [hr] at hsmp
      cases hsmp
  | parsed he => exact hkept he
  | dumped _ he => exact hkept he

theorem Sorted.next {a : ProgramAct} (hs : p.Sorted)
    (hg : p.LoadsHandled lib a ∧ p.LogsInside lib a) (h : p.next lib a = some p') : p'.Sorted := by
  cases a with
  | load env parseAddr => exact hs.load hg.1 h
  | thread a =>
    change (if p.loop.isSome && a.isReaders then none
      else (p.daemon.next lib a).map fun d => { p with daemon := d }) = some p' at h
    split at h
    · cases h
    · obtain ⟨d, hd, rfl⟩ := Option.map_eq_some_iff.1 h
      exact hs.thread hg.2 hd

/-! ## Runs -/

/-- As long as the queue file queues no message in a state without a case, and debug messages are
written for calls of `set_state` for `NO_STATE` at most, every message is in a state with a case, and
the table of timeouts is read inside it. -/
theorem run_handled
    (h : GuardedRun Unread (Step lib) (fun p a => p.LoadsHandled lib a ∧ p.LogsInside lib a) p) :
    p.Handled lib := by
  have hs : p.Sorted := h.invariant Sorted (fun _ => Unread.sorted) fun _ _ _ hi hg hn =>
    hi.next hg hn
  refine ⟨fun m hm => hs.cases m.entry (SMq.mem_agenda hm), fun env q' hq => ?_, fun smp hr => ?_,
    hs.reads⟩
  · exact (hs.cases.processTimeout hs.sound.distinct hq).1
  · rw [hs.fresh smp hr]
    decide

/-! ## A state from the queue file -/

/-- A record of a queue file with the message `sip` in the state of the given number. -/
def recordOf (sip : SipMessage) (state : Nat) : List UInt8 :=
  str "=== " ++ decimal state ++ str " 0 127.0.0.1:5062 " ++
    decimal (SampleLibs.messageText sip).length ++ str " 1 0\n" ++
    SampleLibs.messageText sip ++ str "\n\n"

def sampleRecord (state : Nat) : List UInt8 := recordOf sampleRequest state

/-- The program before it reads a file with that record. -/
def recordStart (state : Nat) : Program where
  loop := some (.start (sampleRecord state) 0 0 0 0 0)
  daemon := { queue := { settings := {} }, events := [], reader := .waiting, writer := .waiting }

theorem recordStart_start (state : Nat) : (recordStart state).Start := by
  refine ⟨⟨⟨List.nodup_nil, ?_⟩, rfl, rfl, ?_, Nat.zero_le _⟩, rfl,
    ⟨sampleRecord state, 0, 0, 0, 0, 0, rfl⟩⟩
  · rintro i ⟨⟩
  · rintro e ⟨⟩

/-- The states of the queued messages after that record is read. -/
def recordStates (state : Nat) : Option (List SmState) :=
  ((recordStart state).next (sampleLibs [sampleRequest] sampleVias)
    (.load (sampleEnv 0) fun _ => some [])).map fun p =>
      p.daemon.queue.timeSortedList.map (·.state)

/-- A message from a name that is no phone number and no IMSI. -/
def namedRequest : SipMessage :=
  { sampleRequest with
    fromHeader := some ⟨none, some (sampleUri (str "smith") none), [(str "tag", some (str "7"))]⟩ }

def namedLibs : Libs := sampleLibs [namedRequest] sampleVias

/-- The program before it reads a file with that message, whose sender is to be looked up. Debug
messages are written. -/
def namedStart : Program where
  loop := some (.start (recordOf namedRequest 2) 0 0 0 0 0)
  daemon := {
    queue := { settings := { logsDebug := true } }
    events := []
    reader := .waiting
    writer := .waiting }

theorem namedStart_unread : namedStart.Unread := by
  refine ⟨⟨⟨⟨List.nodup_nil, ?_⟩, rfl, rfl, ?_, Nat.zero_le _⟩, rfl,
    ⟨recordOf namedRequest 2, 0, 0, 0, 0, 0, rfl⟩⟩, rfl⟩
  · rintro i ⟨⟩
  · rintro e ⟨⟩

/-- The sender of the queued messages is to be looked up, but cannot be. -/
def namedLookups (p : Program) : Bool :=
  p.daemon.queue.timeSortedList.all fun m => m.state = .requestFromAddressLookup &&
    (m.toShortMsg.lookupFromAddress namedLibs (sampleEnv 0) p.daemon.queue.settings).toOption.all
      (·.1 = .noState)

def namedLoad : ProgramAct := .load (sampleEnv 0) fun _ => some []

def namedLoaded : Option Program := namedStart.next namedLibs namedLoad

def namedReceived : Option Program := namedLoaded.bind fun p => p.next namedLibs (.thread .receive)

def namedPassed : Option Program :=
  namedReceived.bind fun p => p.next namedLibs (.thread (.pass (sampleEnv 0)))

theorem run_handled_sample : ∃ p, namedPassed = some p ∧ p.Handled namedLibs ∧
    p.daemon.queue.timeSortedList.map (·.state) = [.noState] ∧
    p.daemon.queue.tableReads = [.behind .requestFromAddressLookup .noState,
      .entry .requestFromAddressLookup .noState] := by
  have hlookups : namedReceived.any namedLookups = true := by decide +kernel
  have hpassed : namedPassed.map (fun p =>
      (p.daemon.queue.timeSortedList.map (·.state), p.daemon.queue.tableReads)) =
      some ([.noState], [.behind .requestFromAddressLookup .noState,
        .entry .requestFromAddressLookup .noState]) := by decide +kernel
  obtain ⟨p, hp, hshown⟩ := Option.map_eq_some_iff.1 hpassed
  obtain ⟨hstates, hreads⟩ := Prod.mk.inj hshown
  obtain ⟨p2, hp2, hpass⟩ := Option.bind_eq_some_iff.1 hp
  obtain ⟨p1, hp1, hreceive⟩ := Option.bind_eq_some_iff.1 hp2
  rw [hp2, Option.any_some] at hlookups
  refine ⟨p, hp, run_handled ?_, hstates, hreads⟩
  have h0 : GuardedRun Unread (Step namedLibs)
      (fun p a => p.LoadsHandled namedLibs a ∧ p.LogsInside namedLibs a) namedStart :=
    .start namedStart_unread
  have hload : namedStart.LoadsHandled namedLibs namedLoad := by
    rintro l ⟨⟩ l' msgtext hturn -
    have hastate : (ReadLoop.turn (.start (recordOf namedRequest 2) 0 0 0 0 0)).map (·.1.astate) =
        some 2 := by decide +kernel
    rw [hturn] at hastate
    have hl' : l'.astate = 2 := Option.some.inj hastate
    rw [hl']
    rfl
  have hlogs : p2.LogsInside namedLibs (.thread (.pass (sampleEnv 0))) := by
    rintro - m hm -
    have hall := List.all_eq_true.1 hlookups m (List.mem_of_mem_head? hm)
    obtain ⟨hstate, hlook⟩ := Bool.and_eq_true_iff.1 hall
    unfold SMq.DispatchLogsInside
    rw [of_decide_eq_true hstate]
    intro next sm hl
    rw [hl] at hlook
    exact of_decide_eq_true hlook
  have h1 := GuardedRun.next (a := namedLoad) h0 ⟨hload, trivial⟩ hp1
  have h2 := GuardedRun.next (a := ProgramAct.thread .receive) h1 ⟨trivial, trivial⟩ hreceive
  exact GuardedRun.next (a := ProgramAct.thread (.pass (sampleEnv 0))) h2 ⟨trivial, hlogs⟩ hpass

/-- The queue file can bring a message into a state without a case. -/
theorem not_handled : ¬ ∀ (lib : Libs) (p : Program), Reachable Unread (Step lib) p → p.Handled lib := by
  intro hall
  have hrecord : recordStates 99 = some [.outOfRange 99] := by decide +kernel
  obtain ⟨p, hp, hstates⟩ := Option.map_eq_some_iff.1 hrecord
  have hh := hall _ p ((GuardedRun.start ⟨recordStart_start 99, rfl⟩).next trivial hp)
  have hmem : SmState.outOfRange 99 ∈ p.daemon.queue.timeSortedList.map (·.state) := by
    rw [hstates]
    exact List.mem_singleton_self _
  obtain ⟨m, hm, hstate⟩ := List.mem_map.1 hmem
  have hcase := hh.queued m hm
  rw [hstate] at hcase
  cases hcase

end Program

end Smqueue

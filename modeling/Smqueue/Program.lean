import Smqueue.Daemon
import Smqueue.QueueFile
import Smqueue.TableReads

/-!
# The program from its start

The reader thread first reads the queue file, record by record, while the writer thread may run
already. Then it takes datagrams from the network.
-/

namespace Smqueue

/-- The step is one of the reader thread in `main_loop`. -/
def DaemonAct.isReaders : DaemonAct → Bool
  | arrive _ _ _ | splice _ | dump | signal | queueRespondSipAck | deleteList | leave => true
  | receive | pass _ | sendNested | unlock | respond | tidy _ => false

namespace ReadLoop

/-- The message that a record becomes in the queue `q`, before it is parsed. -/
def pending (l : ReadLoop) (q : SMq) (msgtext srcaddr : List UInt8) : ShortMsgPending :=
  { l.message msgtext srcaddr with id := q.nextId }

/-- The message of a record passes the checks and is queued. -/
def Queues (lib : Libs) (env : Env) (q : SMq) (l : ReadLoop) (msgtext : CString)
    (addr : Option (List UInt8)) : Prop :=
  ∃ srcaddr m, addr = some srcaddr ∧
    (l.pending q msgtext srcaddr).validateShortMsg lib q.settings env false = .ok (0, m) ∧
    m.parsed.any SipMessage.isRequest = true

end ReadLoop

structure Program where
  /-- The loop over the records of the queue file, while the reader is in it. -/
  loop : Option ReadLoop
  daemon : Daemon

inductive ProgramAct
  /-- One turn of `read_queue_from_file`. -/
  | load (env : Env) (parseAddr : CString → Option (List UInt8))
  | thread (a : DaemonAct)

namespace Program

/-- One turn of `read_queue_from_file`. A message goes into the queue while the writer does not hold
its lock, and there must be room for its event. -/
def load (lib : Libs) (env : Env) (parseAddr : CString → Option (List UInt8)) (p : Program) :
    Option Program :=
  match p.loop with
  | none => none
  | some l =>
    if p.daemon.writer.locks then none
    else
      match l.turnWith lib env parseAddr p.daemon.queue with
      | .error _ => none
      | .ok none => some { p with loop := none }
      | .ok (some (l, q)) =>
        let events := p.daemon.events ++
          List.replicate (q.posted - p.daemon.queue.posted) .processIncomming
        if events.length ≤ maxNumOfMessages then
          some { loop := some l, daemon := { p.daemon with queue := q, events := events } }
        else none

/-- What a step does, if it can be taken. -/
def next (lib : Libs) (p : Program) : ProgramAct → Option Program
  | .load env parseAddr => p.load lib env parseAddr
  | .thread a =>
    if p.loop.isSome && a.isReaders then none
    else (p.daemon.next lib a).map fun d => { p with daemon := d }

/-- A thread takes the step `a`. -/
def Step (lib : Libs) (p : Program) (a : ProgramAct) (p' : Program) : Prop :=
  p.next lib a = some p'

/-- The queue is empty, and the queue file is about to be read, whatever it holds. -/
structure Start (p : Program) : Prop where
  threads : p.daemon.Start
  empty : p.daemon.queue.timeSortedList = []
  loop : ∃ content astate atime alength msToSc needRepack,
    p.loop = some (.start content astate atime alength msToSc needRepack)

/-! ## States and lookups in the table -/

/-- A record whose message is queued has a state that `process_timeout` has a case for. -/
def LoadsHandled (lib : Libs) (p : Program) : ProgramAct → Prop
  | .load env parseAddr => ∀ l ∈ p.loop, ∀ l' msgtext, l.turn = some (l', msgtext) →
      l'.Queues lib env p.daemon.queue msgtext (parseAddr l'.netaddrstr) →
      (SmState.ofNat l'.astate).hasCase = true
  | .thread _ => True

/-- A step of a thread that writes debug messages calls `set_state` without a time for `NO_STATE` at
most, so that no new message is inserted. -/
def LogsInside (lib : Libs) (p : Program) : ProgramAct → Prop
  | .thread (.pass env) => p.daemon.queue.PassLogsInside lib env
  | .thread (.splice _) => p.daemon.queue.settings.logsDebug = false
  | _ => True

/-- The program starts, and nothing was read of the table of timeouts yet. -/
def Unread (p : Program) : Prop := p.Start ∧ p.daemon.queue.tableReads = []

/-- A pass takes the queue from `q` to `q'` by a case for the state of its head, and looks up no
timeout outside the table. -/
inductive Handles (lib : Libs) (env : Env) (q q' : SMq) : Prop
  | idle (hq : q' = q)
  | head {h : ShortMsgPending} (hh : q.timeSortedList.head? = some h)
      (hc : h.state.hasCase = true)
      (ht : Population.Evolves
        (fun e e' => q.Turn lib env h e e' ∧ e.state.InTable ∧ e'.state.InTable)
        (fun e => q.Inserted env e ∧ SmState.noState.InTable ∧ e.state.InTable)
        q.agenda q'.agenda)

/-- All messages are in states that `process_timeout` has a case for, and all lookups in the table of
timeouts are inside it. -/
structure Handled (lib : Libs) (p : Program) : Prop where
  queued : ∀ m ∈ p.daemon.queue.timeSortedList, m.state.hasCase = true
  passes : ∀ env q', p.daemon.queue.processTimeout lib env = .ok q' →
    Handles lib env p.daemon.queue q'
  /-- The lookup when the reader inserts a new message. -/
  accepted : ∀ smp, p.daemon.reader = .accepted smp →
    smp.state.InTable ∧ SmState.initialState.InTable
  /-- What was read so far, also for the log. -/
  reads : ∀ r ∈ p.daemon.queue.tableReads, r.Inside

end Program

end Smqueue

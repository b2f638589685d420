import Smqueue.Conservation
import Smqueue.QueueRun

/-!
# The two threads

The reader thread takes datagrams from the network and puts them in the queue; the writer thread
runs the state machine and answers the datagrams. The reader tells the writer what to do through a
message queue of the operating system, which holds a bounded number of events. An answer names the
message that it is for by its address.
-/

namespace Smqueue

/-! ## Answers -/

/-- The reason phrase of `respond_sip_ack` for a status code. -/
def ackPhrase (errcode : Int) : CString :=
  if errcode = 100 then str "Trying..."
  else if errcode = 200 then str "Okay!"
  else if errcode = 202 then str "Queued"
  else if errcode = 400 then str "Bad Request"
  else if errcode = 401 then str "Unauthorized"
  else if errcode = 403 then
    str "Forbidden - first register, by texting your 10-digit phone number to 101."
  else if errcode = 404 then str "Phone Number Not Registered"
  else if errcode = 405 then str "Method Not Allowed"
  else if errcode = 413 then str "Message Body Size Error"
  else if errcode = 415 then str "Unsupported Content Type"
  else if errcode = 416 then str "Unsupported URI scheme (not SIP)"
  else if errcode = 480 then str "Recipient Temporarily Unavailable"
  else if errcode = 484 then str "Address Incomplete"
  else str "Error Message Table Needs Updating"

/-- The headers that `respond_sip_ack` adds for a status code. -/
def ackHeaders (errcode : Int) : List (CString × CString) :=
  if errcode = 405 then [(str "Allow", str "MESSAGE")]
  else if errcode = 415 then [(str "Accept", str "text/plain, application/vnd.3gpp.sms")]
  else []

/-- The response that `respond_sip_ack` builds for a request. -/
def ackSip (errcode : Int) (sip : SipMessage) : SipMessage where
  toHeader := sip.toHeader
  fromHeader := sip.fromHeader
  cseq := sip.cseq
  callId := sip.callId
  vias := sip.vias
  headers := ackHeaders errcode
  statusCode := errcode
  reasonPhrase := some (ackPhrase errcode)

/-- `respond_sip_ack`: the message, which is parsed, and the response that is sent, if one is. -/
def respondSipAck (lib : Libs) (errcode : Int) (m : ShortMsg) :
    Except Fault (ShortMsg × Option SipMessage) := do
  let (ok, m) ← m.parse lib
  if !ok then return (m, none)
  let sip ← deref m.parsed
  -- a response is not answered, or two programs would go on for ever
  return (m, if sip.isResponse then none else some (ackSip errcode sip))

/-! ## The threads -/

/-- `QueuedMsgHdrs`: what the writer is asked to do. -/
inductive QueuedMsg
  | processIncomming
  | sipAck (errcode : Int) (smp : MsgId)
deriving DecidableEq, Repr

/-- `MQ_MAX_NUM_OF_MESSAGES` -/
def maxNumOfMessages : Nat := 100

/-- Where the reader is in `main_loop`. -/
inductive Reader
  /-- It waits for a datagram. -/
  | waiting
  /-- The message is in the temporary list and passed the checks. -/
  | accepted (smp : ShortMsgPending)
  /-- The message was spliced into the queue. -/
  | spliced (smp : MsgId)
  /-- The queue was dumped. -/
  | dumped (smp : MsgId)
  /-- The writer was told to process the message. -/
  | signalled (smp : MsgId)
  /-- The message is in the temporary list and failed the checks. -/
  | rejected (errcode : Int) (smp : ShortMsgPending)
  /-- The answer is on its way, and the temporary list is yet to be deleted. -/
  | answered (smpl : Option ShortMsgPending)
  /-- The loop of the thread has ended. -/
  | ended

/-- Where the writer is in its loop. -/
inductive Writer
  /-- It waits for an event. -/
  | waiting
  /-- It is about to call `process_timeout`, after an event or after a timeout. -/
  | passing (timedOut : Bool)
  /-- It is in `process_timeout`, with the queue locked and so many events left to post. -/
  | sending (timedOut : Bool) (posts : Nat)
  /-- It is about to call `respond_sip_ack`. -/
  | acking (errcode : Int) (smp : MsgId)
  /-- It is behind `process_timeout` after a timeout. -/
  | tidying
deriving DecidableEq, Repr

structure Daemon where
  queue : SMq
  /-- The events that were posted and not received yet. -/
  events : List QueuedMsg
  reader : Reader
  writer : Writer

/-- The writer holds the lock of the queue. -/
def Writer.locks : Writer → Bool
  | sending _ _ => true
  | _ => false

/-- The message in the temporary list of the reader. -/
def Reader.smpl : Reader → Option ShortMsgPending
  | accepted smp | rejected _ smp => some smp
  | answered smpl => smpl
  | _ => none

/-- The message that the reader has inserted and is still to post the answer of. -/
def Reader.inserted : Reader → Option MsgId
  | spliced smp | dumped smp | signalled smp => some smp
  | _ => none

namespace SMq

/-- The part of `insert_new_message` that runs under the lock. -/
def spliceNewMessage (q : SMq) (m : ShortMsgPending) (now : Time) : SMq :=
  { q.readTable m.state .initialState with timeSortedList :=
      { m with state := .initialState
               nextActionTime := now + q.settings.timeouts.get m.state .initialState } ::
        q.timeSortedList }

end SMq

namespace Daemon

/-- `mq_send`, which blocks while the message queue is full. -/
def mqSend (d : Daemon) (e : QueuedMsg) : Option Daemon :=
  if d.events.length < maxNumOfMessages then some { d with events := d.events ++ [e] } else none

/-! ## The steps of the reader -/

/-- The size of the buffer for a datagram. -/
def bufferSize : Nat := 5000

/-- A datagram as a message. -/
def datagram (buffer srcaddr : List UInt8) : ShortMsgPending where
  toShortMsg := { ShortMsg.initializeCopy {} buffer with msToSc := true }
  id := 0
  srcaddr := srcaddr

/-- A datagram arrives and is checked. The reader takes it also if the main loop was stopped while it
waited. -/
def arrive (lib : Libs) (env : Env) (buffer srcaddr : List UInt8) (d : Daemon) : Option Daemon :=
  match d.reader with
  | .waiting =>
    if buffer.isEmpty || bufferSize < buffer.length then none
    else
      let (q, smp) := d.queue.newMessage (datagram buffer srcaddr)
      match smp.validateShortMsg lib q.settings env true with
      | .error _ => none
      | .ok (errcode, smp) =>
        some { d with
          queue := q, reader := if errcode = 0 then .accepted smp else .rejected errcode smp }
  | _ => none

/-- `insert_new_message` up to its unlocking. -/
def splice (now : Time) (d : Daemon) : Option Daemon :=
  match d.reader with
  | .accepted smp =>
    if d.writer.locks then none
    else some { d with queue := d.queue.spliceNewMessage smp now, reader := .spliced smp.id }
  | _ => none

/-- The `debug_dump` of `insert_new_message`. -/
def dump (lib : Libs) (d : Daemon) : Option Daemon :=
  match d.reader with
  | .spliced smp =>
    if d.writer.locks then none
    else
      match d.queue.debugDump lib with
      | .error _ => none
      | .ok q => some { d with queue := q, reader := .dumped smp }
  | _ => none

/-- The `ProcessReceivedMsg` of `insert_new_message`. -/
def signal (d : Daemon) : Option Daemon :=
  match d.reader with
  | .dumped smp =>
    { d with queue := { d.queue with posted := d.queue.posted + 1 }
             reader := .signalled smp }.mqSend .processIncomming
  | _ => none

/-- `queue_respond_sip_ack` -/
def queueRespondSipAck (d : Daemon) : Option Daemon :=
  match d.reader with
  | .signalled smp => { d with reader := .answered none }.mqSend (.sipAck 202 smp)
  | .rejected errcode smp =>
    { d with reader := .answered (some smp) }.mqSend (.sipAck errcode smp.id)
  | _ => none

/-- The test in front of `main_loop`. -/
def loopHead (d : Daemon) : Reader := if d.queue.stopMainLoop then .ended else .waiting

/-- `delete smpl` and the return from `main_loop` -/
def deleteList (d : Daemon) : Option Daemon :=
  match d.reader with
  | .answered _ => some { d with reader := d.loopHead }
  | _ => none

/-- `main_loop` returns without a datagram after the program was told to end. -/
def leave (d : Daemon) : Option Daemon :=
  match d.reader with
  | .waiting => if d.queue.stopMainLoop then some { d with reader := .ended } else none
  | _ => none

/-! ## The steps of the writer -/

/-- The writer takes the next event, or finds that there is none. -/
def receive (d : Daemon) : Option Daemon :=
  match d.writer with
  | .waiting =>
    if d.queue.stopMainLoop then none
    else
      match d.events with
      | [] => some { d with writer := .passing true }
      | .processIncomming :: rest => some { d with events := rest, writer := .passing false }
      | .sipAck errcode smp :: rest =>
        some { d with events := rest, writer := .acking errcode smp }
  | _ => none

/-- `process_timeout`, up to the events that it posts. The reader does not see the queue before it is
unlocked. -/
def pass (lib : Libs) (env : Env) (d : Daemon) : Option Daemon :=
  match d.writer with
  | .passing timedOut =>
    match d.queue.processTimeout lib env with
    | .error _ => none
    | .ok q => some { d with queue := q, writer := .sending timedOut (q.posted - d.queue.posted) }
  | _ => none

/-- The `ProcessReceivedMsg` of an `insert_new_message` in `process_timeout`. -/
def sendNested (d : Daemon) : Option Daemon :=
  match d.writer with
  | .sending timedOut (posts + 1) =>
    { d with writer := .sending timedOut posts }.mqSend .processIncomming
  | _ => none

/-- The end of `process_timeout`. -/
def unlock (d : Daemon) : Option Daemon :=
  match d.writer with
  | .sending timedOut 0 => some { d with writer := if timedOut then .tidying else .waiting }
  | _ => none

/-- The message at an address: it is in the queue or in the temporary list of the reader. -/
def lookup (d : Daemon) (i : MsgId) : Option ShortMsgPending :=
  (d.queue.find i).or (d.reader.smpl.filter fun m => m.id = i)

/-- Put a changed message back where it is. -/
def update (d : Daemon) (m : ShortMsgPending) : Daemon :=
  let edit (x : ShortMsgPending) := if x.id = m.id then m else x
  { d with
    queue := d.queue.store m
    reader :=
      match d.reader with
      | .accepted smp => .accepted (edit smp)
      | .rejected errcode smp => .rejected errcode (edit smp)
      | .answered smpl => .answered (smpl.map edit)
      | r => r }

/-- `respond_sip_ack` -/
def respond (lib : Libs) (d : Daemon) : Option Daemon :=
  match d.writer with
  | .acking errcode i =>
    match d.lookup i with
    -- the message is no longer there
    | none => none
    | some m =>
      match respondSipAck lib errcode m.toShortMsg with
      | .error _ => none
      | .ok (sm, _) => some { d.update { m with toShortMsg := sm } with writer := .waiting }
  | _ => none

/-- The work that is done once a minute: the configuration is read again and the queue is saved,
which makes the texts of all messages valid. -/
def tidy (lib : Libs) (due : Option Settings) (d : Daemon) : Option Daemon :=
  match d.writer, due with
  | .tidying, none => some { d with writer := .waiting }
  | .tidying, some s =>
    let settings := { s with
      shortCodeMap := d.queue.settings.shortCodeMap, timeouts := d.queue.settings.timeouts }
    match { d.queue with settings := settings }.debugDump lib with
    | .error _ => none
    | .ok q => some { d with queue := q, writer := .waiting }
  | _, _ => none

end Daemon

/-! ## Runs -/

/-- One step of one of the threads. -/
inductive DaemonAct
  | arrive (env : Env) (buffer srcaddr : List UInt8)
  | splice (now : Time)
  | dump
  | signal
  | queueRespondSipAck
  | deleteList
  | leave
  | receive
  | pass (env : Env)
  | sendNested
  | unlock
  | respond
  | tidy (due : Option Settings)

namespace Daemon

/-- What a step does, if it can be taken. -/
def next (lib : Libs) (d : Daemon) : DaemonAct → Option Daemon
  | .arrive env buffer srcaddr => d.arrive lib env buffer srcaddr
  | .splice now => d.splice now
  | .dump => d.dump lib
  | .signal => d.signal
  | .queueRespondSipAck => d.queueRespondSipAck
  | .deleteList => d.deleteList
  | .leave => d.leave
  | .receive => d.receive
  | .pass env => d.pass lib env
  | .sendNested => d.sendNested
  | .unlock => d.unlock
  | .respond => d.respond lib
  | .tidy due => d.tidy lib due

/-- The threads start with the messages that were read from the queue file. -/
structure Start (d : Daemon) : Prop where
  distinct : d.queue.Distinct
  reader : d.reader = .waiting
  writer : d.writer = .waiting
  events : ∀ e ∈ d.events, e = .processIncomming
  fits : d.events.length ≤ maxNumOfMessages

/-- Several steps, one after the other. -/
def run (lib : Libs) (d : Daemon) : List DaemonAct → Option Daemon
  | [] => some d
  | a :: as => (d.next lib a).bind fun d => run lib d as

/-- A thread takes the step `a`. -/
def Step (lib : Libs) (d : Daemon) (a : DaemonAct) (d' : Daemon) : Prop := d.next lib a = some d'

/-! ## Answers and the messages they are for -/

/-- The identity of the message in the temporary list of the reader. -/
def held (d : Daemon) : Option MsgId := d.reader.smpl.map ShortMsgPending.id

/-- The message is in the queue or in the temporary list of the reader. -/
def Alive (d : Daemon) (i : MsgId) : Prop := i ∈ Agenda.ids d.queue.agenda ∨ i ∈ d.held

/-- An answer for the message was posted and the writer has not given it yet. -/
def AckPending (d : Daemon) (i : MsgId) : Prop :=
  ∃ errcode, .sipAck errcode i ∈ d.events ∨ d.writer = .acking errcode i

/-- A pass would take out the message: the head is due and is finished or a response, and the message
is the head or acknowledged by it; or the head is a command to delete the message. -/
def TakesOut (env : Env) (d : Daemon) (i : MsgId) : Prop :=
  ∃ m ∈ d.queue.timeSortedList.head?, m.nextActionTime ≤ env.clock.entry ∧
    ∃ gone, SMq.Removal env d.queue m gone ∧ i ∈ gone

/-- The step destroys no message that an answer is pending for: the reader does not delete a message
that it rejected, and a pass does not take out a message, before the writer has answered it. -/
def KeepsPending (d : Daemon) : DaemonAct → Prop
  | .deleteList => ∀ i ∈ d.held, ¬ d.AckPending i
  | .pass env => ∀ i, d.TakesOut env i → ¬ d.AckPending i ∧ i ∉ d.reader.inserted
  | _ => True

/-! ## Room for events -/

/-- The writer waits for room in the message queue that only it empties. -/
def Blocked (d : Daemon) : Prop :=
  ∃ timedOut posts, d.writer = .sending timedOut (posts + 1) ∧ d.events.length = maxNumOfMessages

/-- The writer has an event to post in `process_timeout`. -/
def Sends (d : Daemon) : Prop := ∃ timedOut posts, d.writer = .sending timedOut (posts + 1)

/-- The step leaves room for the events of the writer: a pass that inserts a message finds room for
its event, and while the writer is about to post one the reader does not take the last room. -/
def LeavesRoom (lib : Libs) (d : Daemon) : DaemonAct → Prop
  | .pass env => d.queue.passOrigin lib env ≠ none → d.events.length < maxNumOfMessages
  | .signal | .queueRespondSipAck => d.Sends → d.events.length + 1 < maxNumOfMessages
  | _ => True

end Daemon

end Smqueue

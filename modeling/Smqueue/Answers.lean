import Smqueue.Daemon

/-!
# The answers to the datagrams

A datagram is to be answered with the verdict of the reader on it, unless it is a response or no SIP
message. The reader posts the answer as an event, the writer takes it up, and in between the two
threads work on other messages. A history of the threads lists the answers that became due, those
that were taken up and those that were sent.
-/

namespace Smqueue

/-- An answer: the status code, the message it is for, and the address it is sent to. -/
structure Ack where
  errcode : Int
  smp : MsgId
  netaddr : List UInt8
deriving DecidableEq, Repr

/-- What an answer is for, without the address. -/
def Ack.sipAck (a : Ack) : Int × MsgId := (a.errcode, a.smp)

/-- The answer that an event asks for. -/
def QueuedMsg.ack : QueuedMsg → Option (Int × MsgId)
  | processIncomming => none
  | sipAck errcode smp => some (errcode, smp)

/-- The answer that the writer is about to give. -/
def Writer.acks : Writer → List (Int × MsgId)
  | acking errcode smp => [(errcode, smp)]
  | _ => []

/-- The answer that the reader is going to post. -/
def Reader.acks : Reader → List (Int × MsgId)
  | accepted smp => [(202, smp.id)]
  | spliced smp | dumped smp | signalled smp => [(202, smp)]
  | rejected errcode smp => [(errcode, smp.id)]
  | _ => []

namespace Daemon

/-- The answers that are on their way, in the order in which they are going to be given. -/
def underway (d : Daemon) : List (Int × MsgId) :=
  d.writer.acks ++ d.events.filterMap QueuedMsg.ack ++ d.reader.acks

/-- The answer that becomes due with a step: a datagram is received, and is answered with the code of
the checks, or with 202 if they are passed. -/
def becomesDue (lib : Libs) (d : Daemon) : DaemonAct → List Ack
  | .arrive env buffer srcaddr =>
    match (d.queue.newMessage (datagram buffer srcaddr)).2.validateShortMsg lib d.queue.settings env
        true with
    | .error _ => []
    | .ok (errcode, smp) => [⟨if errcode = 0 then 202 else errcode, smp.id, srcaddr⟩]
  | _ => []

/-- The answer that the writer takes up with a step. -/
def ackTaken (d : Daemon) : DaemonAct → List Ack
  | .respond =>
    match d.writer with
    | .acking errcode i => ((d.lookup i).map fun m => ⟨errcode, i, m.srcaddr⟩).toList
    | _ => []
  | _ => []

/-- `respond_sip_ack` sends an answer for the message: it can be parsed, and it is no response. -/
def sendsAck (lib : Libs) (errcode : Int) (m : ShortMsg) : Bool :=
  match respondSipAck lib errcode m with
  | .ok (_, some _) => true
  | _ => false

/-- The answer that is sent with a step, to the address of the message. -/
def gives (lib : Libs) (d : Daemon) (a : DaemonAct) : List Ack :=
  (d.ackTaken a).filter fun x => (d.lookup x.smp).any fun m => sendsAck lib x.errcode m.toShortMsg

/-- A run of the threads, with the answers that became due, those that the writer took up, and those
that were sent. -/
inductive History (lib : Libs) : Daemon → List Ack → List Ack → List Ack → Prop
  | start {d : Daemon} (h : d.Start) : History lib d [] [] []
  | next {d d' : Daemon} {due taken given : List Ack} {a : DaemonAct}
      (h : History lib d due taken given) (hs : d.Step lib a d') :
      History lib d' (due ++ d.becomesDue lib a) (taken ++ d.ackTaken a) (given ++ d.gives lib a)

/-- The messages in the queue and in the temporary list of the reader. -/
def messages (d : Daemon) : List ShortMsgPending :=
  d.queue.timeSortedList ++ d.reader.smpl.toList

end Daemon

end Smqueue

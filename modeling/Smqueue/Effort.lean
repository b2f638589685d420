import Smqueue.Attempts
import Smqueue.Lifecycle

/-!
# The effort for a message

A pass takes up the message at the head of the queue. Once a message is past its commands, the state
that it is in and the delivery attempts that it has left say how often it can be taken up before it
leaves, unless a response sends it back.
-/

namespace Smqueue

/-- How often a message in the state is taken up, if it is not delivered again. -/
def SmState.passesLeft : SmState → Nat
  | noState | deleteMeState => 1
  | requestMsgDelivery | awaitingTryMsgDelivery => 2
  | askedForMsgDelivery | requestDestinationSipurl => 3
  | requestDestinationImsi => 4
  | _ => 5

/-- How often the message is taken up, if `SMS.MaxRetries` has the given value: an attempt takes one
pass for the delivery and one for the end of the waiting. -/
def ShortMsgPending.effort (limit : Int) (m : ShortMsgPending) : Nat :=
  2 * (limit - m.retries).toNat + m.state.passesLeft

namespace SMq

/-- The message is at the head of the queue, and due. -/
def takesUp (env : Env) (q : SMq) (i : MsgId) : Bool :=
  q.timeSortedList.head?.any fun h => h.id = i && h.nextActionTime ≤ env.clock.entry

/-- The due head of the queue is a response that redirects the message or is a global failure of its
delivery. -/
def sendsBack (env : Env) (q : SMq) (i : MsgId) : Bool :=
  q.timeSortedList.head?.any fun h =>
    h.nextActionTime ≤ env.clock.entry && h.state = .initialState &&
      (h.parsed.any fun response => response.isResponse &&
        (response.statusCode.tdiv 100 = 3 || response.statusCode.tdiv 100 = 6)) &&
      (q.selected h).any fun sent => sent.id = i

end SMq

namespace Daemon

/-- The effort for the message, if it is queued. -/
def effort (limit : Int) (i : MsgId) (d : Daemon) : Nat :=
  (d.queue.find i).elim 0 (ShortMsgPending.effort limit)

/-- Whether the step takes up the message. -/
def takesUp (i : MsgId) (d : Daemon) : DaemonAct → Nat
  | .pass env => (d.queue.takesUp env i).toNat
  | _ => 0

/-- Whether the step sends the message back. -/
def sendsBack (i : MsgId) (d : Daemon) : DaemonAct → Nat
  | .pass env => (d.queue.sendsBack env i).toNat
  | _ => 0

end Daemon

end Smqueue

import Smqueue.Changes
import Smqueue.Daemon

/-!
# Finished messages

A message in `NO_STATE` or `DELETE_ME_STATE` stays in the queue until a pass takes it out. Its tag is
still found, so that a response can reach it before that.
-/

namespace Smqueue

/-- The message is as it was, up to the forms of its SIP message. -/
def ShortMsgPending.Unaltered (lib : Libs) (m m' : ShortMsgPending) : Prop :=
  ∃ sm, Relation.ReflTransGen (ShortMsg.Refresh lib) m.toShortMsg sm ∧ m' = { m with toShortMsg := sm }

namespace SMq

/-- The pass with the head `h` bounces the message `i` to its sender. -/
inductive Bounces (lib : Libs) (env : Env) (q : SMq) (h : ShortMsgPending) : MsgId → Prop
  /-- It cannot be located. -/
  | notLocated {sm : ShortMsg} (hs : h.state = .requestDestinationImsi)
      (hl : h.toShortMsg.lookupUriImsi lib env q.settings = .ok (none, sm)) : Bounces lib env q h h.id
  /-- It was answered with an error. -/
  | answered {i : MsgId} {response : SipMessage} (ha : q.Answers h response i)
      (hc : response.statusCode.tdiv 100 = 4) (hb : response.statusCode ≠ 480)
      (hu : response.statusCode ≠ 486) : Bounces lib env q h i

/-- The head `h` is a response to a finished message, of a class that does not take it out. -/
structure Disturbs (q : SMq) (h : ShortMsgPending) (response : SipMessage)
    (sent : ShortMsgPending) : Prop where
  answers : q.Answers h response sent.id
  mem : sent ∈ q.timeSortedList
  terminal : sent.state.isTerminal = true
  responseClass : response.statusCode.tdiv 100 ∈ [1, 3, 4, 5, 6]

end SMq

namespace Daemon

/-- The step is not a pass with a response to a finished message that does not take it out. -/
def LeavesFinished (d : Daemon) : DaemonAct → Prop
  | .pass env => ∀ h ∈ d.queue.timeSortedList.head?, h.nextActionTime ≤ env.clock.entry →
      ∀ response sent, ¬ d.queue.Disturbs h response sent
  | _ => True

end Daemon

end Smqueue

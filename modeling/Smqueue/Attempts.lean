import Smqueue.Changes
import Smqueue.Daemon

/-!
# Delivery attempts

A message counts the attempts to deliver it, and is dropped once there are more than
`SMS.MaxRetries`. What a run did is the list of the calls of `deliver_msg_datagram`.
-/

namespace Smqueue

namespace SMq

/-- How often `deliver_msg_datagram` was called for the message. -/
def deliveries (q : SMq) (i : MsgId) : Nat := q.delivered.countP (·.id = i)

/-- A pass drops the message, since its retries are exceeded. -/
structure DropsExceeded (lib : Libs) (env : Env) (q : SMq) (m : ShortMsgPending) : Prop where
  head : m ∈ q.timeSortedList.head?
  due : m.nextActionTime ≤ env.clock.entry
  delivers : delivers m.state = true
  packed : ∃ sm, m.toShortMsg.packSmsForDelivery lib env = .ok (true, sm)
  exceeds : exceeds env m

/-- The pass with the head `h` uses up a delivery attempt of a message without a delivery. -/
inductive WastesAttempt (lib : Libs) (env : Env) (q : SMq) (h : ShortMsgPending) : Prop
  /-- A command asks for another attempt later. -/
  | retryAfterDelay {r : ShortCodeResult} (hs : h.state = .initialState)
      (hm : isTextMessage h.toShortMsg = true) (hc : q.callShortCode lib env h = .ok (some r))
      (ha : r.action = .retryAfterDelay)
  /-- The rate limiter delays the message. -/
  | delayed {sm : ShortMsg} (hs : SMq.delivers h.state = true)
      (hp : h.toShortMsg.packSmsForDelivery lib env = .ok (true, sm))
      (hx : ¬ SMq.exceeds env h) (ht : q.tooSoon env = true)
  /-- A finished message that could not be packed at an attempt is sent back through the
  lookups. -/
  | revived {sent : ShortMsgPending} {response : SipMessage} (hs : sent ∈ q.selected h)
      (ha : q.Answers h response sent.id)
      (hc : response.statusCode.tdiv 100 = 3 ∨ response.statusCode.tdiv 100 = 6)
      (ht : sent.state.isTerminal = true) (hr : q.deliveries sent.id < sent.retries)
      (hl : (q.deliveries sent.id : Int) < env.config.maxRetries)

end SMq

namespace Daemon

/-- The threads start with the messages that were read from the queue file, which does not hold
their counters. -/
structure Launch (d : Daemon) : Prop extends Start d where
  delivered : d.queue.delivered = []
  retries : ∀ m ∈ d.queue.timeSortedList, m.retries = 0

/-- `SMS.MaxRetries` has the given value in the step. -/
def MaxRetries (limit : Int) (_ : Daemon) : DaemonAct → Prop
  | .pass env => env.config.maxRetries = limit
  | _ => True

/-- So it has, and the step uses up no delivery attempt without a delivery. -/
def SavesAttempts (lib : Libs) (limit : Int) (d : Daemon) : DaemonAct → Prop
  | .pass env => env.config.maxRetries = limit ∧
      ∀ h ∈ d.queue.timeSortedList.head?, h.nextActionTime ≤ env.clock.entry →
        ¬ d.queue.WastesAttempt lib env h
  | _ => True

end Daemon

end Smqueue

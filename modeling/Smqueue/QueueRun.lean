import Smqueue.QueueOrder
import Smqueue.Lib.Runs

/-!
# Runs of the queue operations

The queue starts empty and is changed by the operations below in any order. The clock does not go
backwards from one operation to the next.
-/

namespace Smqueue

namespace SMq

/-- `new short_msg_pending`: a message gets an identity of its own. -/
def newMessage (q : SMq) (m : ShortMsgPending) : SMq × ShortMsgPending :=
  ({ q with nextId := q.nextId + 1 }, { m with id := q.nextId })

end SMq

/-- The operations on the queue. -/
inductive QueueOp
  | insertNewMessage (m : ShortMsgPending) (now : Time)
  | insertNewMessageIn (m : ShortMsgPending) (s : SmState) (now : Time)
  | insertNewMessageAt (m : ShortMsgPending) (s : SmState) (t now : Time)
  | processTimeout (env : Env)
  | handleResponse (i : MsgId) (env : Env)
  | setState (i : MsgId) (s : SmState) (now : Time)
  | setStateAt (i : MsgId) (s : SmState) (t now : Time)

namespace QueueOp

/-- The reading of the clock when the operation starts. -/
def starts : QueueOp → Time
  | insertNewMessage _ now | insertNewMessageIn _ _ now | insertNewMessageAt _ _ _ now => now
  | processTimeout env | handleResponse _ env => env.clock.entry
  | setState _ _ now | setStateAt _ _ _ now => now

/-- The reading of the clock when the operation ends. -/
def ends : QueueOp → Time
  | insertNewMessage _ now | insertNewMessageIn _ _ now | insertNewMessageAt _ _ _ now => now
  | processTimeout env | handleResponse _ env => env.clock.final
  | setState _ _ now | setStateAt _ _ _ now => now

/-- What the operation does to the queue. -/
def run (lib : Libs) (q : SMq) : QueueOp → Except Fault SMq
  | insertNewMessage m now =>
    let (q, m) := q.newMessage m
    q.insertNewMessage lib m now
  | insertNewMessageIn m s now =>
    let (q, m) := q.newMessage m
    q.insertNewMessageIn lib m s now
  | insertNewMessageAt m s t _ =>
    let (q, m) := q.newMessage m
    q.insertNewMessageAt lib m s t
  | processTimeout env => q.processTimeout lib env
  | handleResponse i env => do q.handleResponse lib env (← q.msg i)
  | setState i s now => q.setState i s now
  | setStateAt i s t _ => q.setStateAt i s t

/-- The operation keeps the order of the queue: a new message is due no later than any other, and
the passes and responses keep the order. -/
def KeepsOrder (lib : Libs) (q : SMq) : QueueOp → Prop
  | insertNewMessage m now => Agenda.NotAfter (q.dueIn m .initialState now) q.agenda
  | insertNewMessageIn m s now => Agenda.NotAfter (q.dueIn m s now) q.agenda
  | insertNewMessageAt _ _ t _ => Agenda.NotAfter t q.agenda
  | processTimeout env => q.PassKeepsOrder lib env
  | handleResponse i env => ∀ m ∈ q.find i, q.ResponseKeepsOrder lib env m
  | setState _ _ _ => True
  | setStateAt _ _ _ _ => True

end QueueOp

/-- A queue at a time. -/
structure QueueAt where
  queue : SMq
  now : Time

namespace QueueAt

/-- The queue is empty. -/
def Start (s : QueueAt) : Prop := s.queue.timeSortedList = []

/-- The operation takes the queue from `s` to `s'`. -/
def Step (lib : Libs) (s : QueueAt) (op : QueueOp) (s' : QueueAt) : Prop :=
  s.now ≤ op.starts ∧ op.run lib s.queue = .ok s'.queue ∧ s'.now = op.ends

/-- The operation keeps the order of the queue in `s`. -/
def OrderKept (lib : Libs) (s : QueueAt) (op : QueueOp) : Prop := op.KeepsOrder lib s.queue

end QueueAt

end Smqueue

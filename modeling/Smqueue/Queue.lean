import Smqueue.Pending
import Smqueue.Lib.Agenda

/-!
# The message queue

The part of the `SMq` object that changes as it runs, and the operations on `time_sorted_list`. An
iterator is modelled by the identity of the message it points to.
-/

namespace Smqueue

/-- A call of `deliver_msg_datagram`. -/
structure Delivery where
  id : MsgId
  /-- When `spacingTimer` was last set. -/
  spacing : Time
  time : Time
deriving DecidableEq, Repr

structure SMq where
  settings : Settings
  /-- All messages we know about, sorted by time of next action. -/
  timeSortedList : List ShortMsgPending := []
  /-- An identity that no message has had yet. -/
  nextId : MsgId := 0
  registerCallId : CString := []
  registerCallSeq : Nat := 0
  haveRegisterCallId : Bool := false
  stopMainLoop : Bool := false
  reexecSmqueue : Bool := false
  /-- When `spacingTimer` was last set. -/
  spacingTimer : Time := 0
  /-- How often `ProcessReceivedMsg` was called. -/
  posted : Nat := 0
  /-- The calls of `deliver_msg_datagram`, the latest first. -/
  delivered : List Delivery := []
  /-- What `set_state` read of the table of timeouts, the latest first. -/
  tableReads : List TableRead := []

/-- The identity, the state and the time of a message. -/
def ShortMsgPending.entry (m : ShortMsgPending) : Agenda.Entry MsgId SmState Time :=
  ⟨m.id, m.state, m.nextActionTime⟩

namespace SMq

/-- The queue as far as its order is concerned. -/
def agenda (q : SMq) : List (Agenda.Entry MsgId SmState Time) :=
  q.timeSortedList.map ShortMsgPending.entry

/-- The message that an iterator points to, if it is still in the queue. -/
def find (q : SMq) (i : MsgId) : Option ShortMsgPending := q.timeSortedList.find? (·.id = i)

/-- Use of the message that an iterator points to. -/
def msg (q : SMq) (i : MsgId) : Except Fault ShortMsgPending :=
  (q.find i).elim (.error .freedMessage) .ok

/-- Put a changed message back in its place. -/
def store (q : SMq) (m : ShortMsgPending) : SMq :=
  { q with timeSortedList := q.timeSortedList.map fun x => if x.id = m.id then m else x }

/-- Splice a message out of the queue. -/
def remove (q : SMq) (i : MsgId) : SMq :=
  { q with timeSortedList := q.timeSortedList.filter (·.id ≠ i) }

/-- The part of `debug_dump` that changes the queue. -/
def debugDump (lib : Libs) (q : SMq) : Except Fault SMq := do
  let l ← q.timeSortedList.mapM fun m => do
    return { m with toShortMsg := ← m.toShortMsg.makeTextValid lib }
  return { q with timeSortedList := l }

/-- The reads of `set_state` without a time: the timeout, and with debug messages the line for the
log. -/
def readTable (q : SMq) (state newstate : SmState) : SMq :=
  { q with tableReads :=
      (if q.settings.logsDebug then [.behind state newstate] else []) ++
        .entry state newstate :: q.tableReads }

/-! ## Insertion -/

/-- `insert_new_message` with the state and the time of the message. -/
def insertNewMessageAt (lib : Libs) (q : SMq) (m : ShortMsgPending) (s : SmState) (t : Time) :
    Except Fault SMq := do
  let m := { m with state := s, nextActionTime := t }
  let q ← { q with timeSortedList := m :: q.timeSortedList }.debugDump lib
  return { q with posted := q.posted + 1 }

/-- `insert_new_message` with the state of the message. -/
def insertNewMessageIn (lib : Libs) (q : SMq) (m : ShortMsgPending) (s : SmState) (now : Time) :
    Except Fault SMq :=
  (q.readTable m.state s).insertNewMessageAt lib m s (now + q.settings.timeouts.get m.state s)

def insertNewMessage (lib : Libs) (q : SMq) (m : ShortMsgPending) (now : Time) :
    Except Fault SMq :=
  q.insertNewMessageIn lib m .initialState now

/-! ## Changes of state -/

/-- `SMq::set_state` with the time of the message: it is taken out and put back before the first
message that is not due earlier. -/
def setStateAt (q : SMq) (i : MsgId) (newstate : SmState) (timestamp : Time) : Except Fault SMq := do
  let sm := { (← q.msg i) with state := newstate, nextActionTime := timestamp }
  let temp := q.timeSortedList.filter (·.id ≠ i)
  return { q with timeSortedList :=
    temp.orderedInsert (fun a b => a.nextActionTime ≤ b.nextActionTime) sm }

def setState (q : SMq) (i : MsgId) (newstate : SmState) (now : Time) : Except Fault SMq := do
  let sm ← q.msg i
  (q.readTable sm.state newstate).setStateAt i newstate
    (now + q.settings.timeouts.get sm.state newstate)

/-- `short_msg_pending::set_state` with the time, for a message that stays where it is. -/
def setStateInPlaceAt (q : SMq) (i : MsgId) (newstate : SmState) (timestamp : Time) :
    Except Fault SMq := do
  return q.store { (← q.msg i) with state := newstate, nextActionTime := timestamp }

/-- `short_msg_pending::set_state` for a message that stays where it is. -/
def setStateInPlace (q : SMq) (i : MsgId) (newstate : SmState) (now : Time) : Except Fault SMq := do
  let sm ← q.msg i
  (q.readTable sm.state newstate).setStateInPlaceAt i newstate
    (now + q.settings.timeouts.get sm.state newstate)

/-! ## Searching -/

/-- The message has the given tag. The hash of a tag is its first byte, so that no tag has the hash
zero of a message without a tag. -/
def hasTag (tag : CString) (m : ShortMsgPending) : Bool :=
  m.qtaghash = ShortMsgPending.taghashOf tag && m.qtag = some tag

def findQueuedMsgByTag (q : SMq) (tag : CString) : Option ShortMsgPending :=
  q.timeSortedList.find? (hasTag tag)

def getLink (q : SMq) (m : ShortMsgPending) : Option ShortMsgPending :=
  m.linktag.bind q.findQueuedMsgByTag

end SMq

end Smqueue

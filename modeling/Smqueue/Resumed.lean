import Smqueue.Addresses
import Smqueue.QueueRecords
import Smqueue.Restart
import Smqueue.WellFormed

/-!
# The program goes on after a restart

At its end the program saves its queue, and it starts again with what it reads from the file: the
saving, the reading and the addresses of the messages are put together here. The times of the messages
are written as numbers of any size, and read as numbers of 32 bits.
-/

namespace Smqueue

/-- The text that is saved for the message. -/
def ShortMsg.savedText (lib : Libs) (m : ShortMsg) : CString :=
  ((m.makeTextValid lib).toOption.bind ShortMsg.text).getD []

namespace ShortMsgPending

/-- The queue file can hold the message, its time apart: it is a request in a named state, its time is
not negative, and its text does not begin with a line break. -/
structure Storable (lib : Libs) (m : ShortMsgPending) : Prop where
  request : isRequestMsg m.toShortMsg = true
  state : m.state ∈ SmState.named
  time : 0 ≤ m.nextActionTime
  text : m.toShortMsg.savedText lib ≠ [] ∧ (m.toShortMsg.savedText lib).head? ≠ some 10

/-- The time of the message can be read back, since it fits into an `unsigned`. -/
def TimeFits (m : ShortMsgPending) : Prop := m.nextActionTime < 2 ^ 32

/-- The message `m'` goes on where the message `m` stopped. -/
structure Resumes (lib : Libs) (m m' : ShortMsgPending) : Prop where
  state : m'.state = m.state
  nextActionTime : m'.nextActionTime = m.nextActionTime
  srcaddr : m'.srcaddr = m.srcaddr
  msToSc : m'.msToSc = m.msToSc
  needRepack : m'.needRepack = m.needRepack
  text : m'.text = some (m.toShortMsg.savedText lib)
  /-- A tree that was edited is saved with its edits. -/
  tree : m.parsedIsBetter = true → m'.parsed = m.parsed
  /-- An answer to the message is matched with it as before. -/
  qtag : m'.qtag = m.qtag

end ShortMsgPending

namespace Daemon

/-- The threads start with a queue that was read from the file, while the events of its messages wait
or were received already. -/
def startWith (q : SMq) (events : List QueuedMsg) : Daemon :=
  { queue := q, events := events, reader := .waiting, writer := .waiting }

/-- The threads start with accepted messages that have their tags and addresses that the queue file can
hold. -/
structure StartStorable (lib : Libs) (d : Daemon) : Prop extends StartAccepted lib d where
  wellFormed : ∀ m ∈ d.queue.timeSortedList, m.WellFormed
  storable : ∀ m ∈ d.queue.timeSortedList, NameService.Storable m.srcaddr

/-- The step keeps the texts of the queue acceptable, and a datagram comes from an address that the
queue file can hold. -/
def KeepsStorable (lib : Libs) (d : Daemon) (a : DaemonAct) : Prop :=
  d.KeepsTexts lib a ∧ ∀ env buffer srcaddr, a = .arrive env buffer srcaddr →
    NameService.Storable srcaddr

/-- The queue that is made of the file goes on where the queue of `d` stopped, in its order, and the
threads can start with it. -/
def ResumedBy (lib : Libs) (d : Daemon) (q : SMq) : Prop :=
  List.Forall₂ (ShortMsgPending.Resumes lib) d.queue.timeSortedList q.timeSortedList ∧
    ∀ events : List QueuedMsg, (∀ e ∈ events, e = .processIncomming) →
      events.length ≤ maxNumOfMessages → (startWith q events).StartStorable lib

end Daemon

end Smqueue

import Smqueue.Changes
import Smqueue.Daemon
import Smqueue.Validation

/-!
# The tags of queued requests

The tag of a message is made of the number in its CSeq header and the tag in its From header, which
the sender of the message chooses. Nothing looks for the tag of a new message in the queue.
-/

namespace Smqueue

/-- The message has a tree, and the tag of its tree. -/
structure ShortMsgPending.Tagged (m : ShortMsgPending) : Prop where
  valid : m.parsedIsValid = true
  tag : ∃ p, m.parsed = some p ∧ m.qtag = some (tagOf p)

namespace SMq

/-- No two queued requests have the same tag. -/
def TagsUnique (q : SMq) : Prop :=
  ∀ x ∈ q.timeSortedList, ∀ y ∈ q.timeSortedList, isRequestMsg x.toShortMsg = true →
    isRequestMsg y.toShortMsg = true → x.qtag = y.qtag → x.id = y.id

/-- The pass with the head `h` inserts the request `m`, while another request with its tag is queued,
which a command at the head does not take out. -/
structure Doubles (lib : Libs) (env : Env) (q : SMq) (h m x : ShortMsgPending) : Prop where
  originated : q.Originated lib env h m
  isRequest : isRequestMsg m.toShortMsg = true
  mem : x ∈ q.timeSortedList
  isRequest_mem : isRequestMsg x.toShortMsg = true
  same : x.qtag = m.qtag
  stays : ∀ r, h.state = .initialState → isTextMessage h.toShortMsg = true →
    q.callShortCode lib env h = .ok (some r) → x.id ∈ Agenda.ids r.queue.agenda

end SMq

namespace Daemon

/-- The threads start with accepted messages, the requests among which have different tags. -/
structure StartTagged (d : Daemon) : Prop extends Start d where
  tagged : ∀ m ∈ d.queue.timeSortedList, m.Tagged
  unique : d.queue.TagsUnique

/-- The step puts no request into the queue while another one with its tag is queued. -/
def KeepsTags (lib : Libs) (d : Daemon) : DaemonAct → Prop
  | .splice _ => ∀ smp, d.reader = .accepted smp → isRequestMsg smp.toShortMsg = true →
      ∀ x ∈ d.queue.timeSortedList, isRequestMsg x.toShortMsg = true → x.qtag ≠ smp.qtag
  | .pass env => ∀ h ∈ d.queue.timeSortedList.head?, h.nextActionTime ≤ env.clock.entry →
      ∀ m x, ¬ d.queue.Doubles lib env h m x
  | _ => True

end Daemon

end Smqueue

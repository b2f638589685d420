import Smqueue.QueueOrder

/-!
# Which message a response is matched with

A response carries the tag of the request that it answers, and so do all other responses to that
request. They are all in the queue until they are handled, and the search takes the first message
with the tag.
-/

namespace Smqueue

/-- The message is a request. -/
def isRequestMsg (m : ShortMsg) : Bool := m.parsed.any SipMessage.isRequest

namespace SMq

/-- The message that `handle_response` selects for the response `m`. -/
def selected (q : SMq) (m : ShortMsgPending) : Option ShortMsgPending :=
  m.qtag.bind (q.remove m.id).findQueuedMsgByTag

/-- A queued request with the given tag. -/
def taggedRequest (tag : CString) (x : ShortMsgPending) : Bool :=
  hasTag tag x && isRequestMsg x.toShortMsg

/-- The messages that stand before the first request with the given tag. -/
def ahead (tag : CString) (l : List ShortMsgPending) : List ShortMsgPending :=
  l.takeWhile fun x => !taggedRequest tag x

/-- No response with the tag of `m`, other than `m`, stands before the first request with that
tag. -/
def NoResponseAhead (q : SMq) (m : ShortMsgPending) : Prop :=
  ∀ tag ∈ m.qtag, ∀ x ∈ ahead tag (q.remove m.id).timeSortedList, ¬ hasTag tag x

/-- The response `m` is a success response. -/
def isSuccess (m : ShortMsg) : Bool := m.parsed.any fun p => p.statusCode.tdiv 100 = 2

/-- `handle_response` selects a request for the response `m`, and takes it out of the queue if `m` is
a success response. -/
def SelectsRequest (lib : Libs) (env : Env) (q : SMq) (m : ShortMsgPending) : Prop :=
  ∃ sentMsg ∈ q.selected m, isRequestMsg sentMsg.toShortMsg ∧
    ∀ q', isSuccess m.toShortMsg → q.handleResponse lib env m = .ok q' →
      sentMsg.id ∉ Agenda.ids q'.agenda

/-- The tag of `m` is that of a queued request. -/
def HasRequest (q : SMq) (m : ShortMsgPending) : Prop :=
  ∃ tag ∈ m.qtag, ∃ x ∈ (q.remove m.id).timeSortedList, taggedRequest tag x

end SMq

end Smqueue

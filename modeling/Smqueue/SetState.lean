import Smqueue.QueueOrder

/-!
# Putting a message back into the queue

`SMq::set_state` splices a message out of the list and walks over the others to the place where it goes in
again. What is to be shown of it is stated on the list.
-/

namespace Smqueue

namespace SMq

/-- The loop of `set_state` for the message `sm`, which is in no list: the iterator has passed the first
messages and points to the head of the others, or to the end. -/
def spliceBack (sm : ShortMsgPending) :
    List ShortMsgPending → List ShortMsgPending → List ShortMsgPending
  | passed, [] => passed ++ [sm]
  | passed, x :: rest =>
    if x.nextActionTime ≥ sm.nextActionTime then passed ++ sm :: x :: rest
    else spliceBack sm (passed ++ [x]) rest

/-- The messages are sorted by their times. -/
def SortedByTime (l : List ShortMsgPending) : Prop :=
  l.Pairwise fun x y => x.nextActionTime ≤ y.nextActionTime

/-- The queue has the message `sm` among the messages `others`, which are in their order: those in front
of it are due earlier, and the first one behind it is not. Nothing else was changed in `q`. -/
structure PutBack (q : SMq) (others : List ShortMsgPending) (sm : ShortMsgPending) (q' : SMq) :
    Prop where
  place : ∃ earlier later, others = earlier ++ later ∧
    q'.timeSortedList = earlier ++ sm :: later ∧
    (∀ x ∈ earlier, x.nextActionTime < sm.nextActionTime) ∧
    ∀ x ∈ later.head?, sm.nextActionTime ≤ x.nextActionTime
  perm : q'.timeSortedList.Perm (sm :: others)
  sorted : SortedByTime q'.timeSortedList
  frame : q' = { q with timeSortedList := q'.timeSortedList }

end SMq

end Smqueue

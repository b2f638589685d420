import Smqueue.Daemon
import Smqueue.TagSearch
import Smqueue.TreeEdits

/-!
# Requests and answers between two programs

A request goes to another program of this kind, which parses it, works on it and answers it. The
answer comes back as a datagram, is accepted, and is matched with the request by the tag, which the
sender of the request chose.
-/

namespace Smqueue

namespace SipMessage

/-- The tree of an answer as it is read back from its text, in which osip may state the length of the
empty body. -/
def ReadBack (answer back : SipMessage) : Prop :=
  ∃ length, (length = none ∨ length = some (some (str "0"))) ∧
    back = { answer with contentLength := length }

/-- Another program holds the request with the tree `sent`, which it may have edited on its way, and
gives an answer to it with the code. -/
inductive AnsweredBy (lib : Libs) (errcode : Int) (sent answer : SipMessage) : Prop
  | mk {held : SipMessage} {m m' : ShortMsg}
      (he : Relation.ReflTransGen (SipMessage.Edit lib) sent held)
      (hv : m.parsedIsValid = true) (hp : m.parsed = some held)
      (ha : respondSipAck lib errcode m = .ok (m', some answer)) :
      AnsweredBy lib errcode sent answer

end SipMessage

namespace Daemon

/-- The datagram arrives at the waiting reader, is accepted, and once its message is inserted its tag
is that of a queued request. -/
def FindsRequest (lib : Libs) (env : Env) (now : Time) (buffer srcaddr : List UInt8)
    (d : Daemon) : Prop :=
  ∃ d' smp, d.arrive lib env buffer srcaddr = some d' ∧ d'.reader = .accepted smp ∧
    (d'.queue.spliceNewMessage smp now).HasRequest smp

end Daemon

end Smqueue

import Smqueue.Changes
import Smqueue.Daemon

/-!
# Registrations

A message that waits for the registration of its sender has asked for it with a REGISTER message,
which links to it by its tag. Both live in the queue by themselves.
-/

namespace Smqueue

namespace SMq

/-- The queued registrations for the messages with a tag. Only `register_handset` links a message. -/
def registrations (q : SMq) (tag : CString) : List ShortMsgPending :=
  q.timeSortedList.filter fun m => m.linktag = some tag

/-- At most one registration is queued for a message that waits for one. -/
def RegistersEach (q : SMq) : Prop :=
  ∀ m ∈ q.timeSortedList, underRegistration m.state = true → ∀ tag ∈ m.qtag,
    (q.registrations tag).length ≤ 1

/-- The pass with the head `h`, which has the given tag, registers its sender: the registration that
it builds is valid. -/
inductive Registers (lib : Libs) (env : Env) (q : SMq) (h : ShortMsgPending) (tag : CString) : Prop
  /-- The head is a command that asks for it. -/
  | command {m x : ShortMsgPending} {r : ShortCodeResult} {q1 : SMq} (hs : h.state = .initialState)
      (hc : q.callShortCode lib env h = .ok (some r)) (ha : r.action = .register)
      (hx : r.queue.msg h.id = .ok x) (ht : x.qtag = some tag)
      (ho : registerMsg lib env r.queue x = .ok (q1, 0, m)) : Registers lib env q h tag
  | register {m : ShortMsgPending} {q1 : SMq} (hs : h.state = .registerHandset)
      (ht : h.qtag = some tag) (ho : registerMsg lib env q h = .ok (q1, 0, m)) :
      Registers lib env q h tag
  /-- The number of the sender came up in the registry. -/
  | awaited {m x y : ShortMsgPending} {q1 q2 : SMq} (hs : h.state = .awaitingRegisterHandset)
      (hr : readyToRegister lib env h = .ok (true, x))
      (hq : (q.store x).setState x.id .registerHandset env.clock.first = .ok q1)
      (hy : q1.msg x.id = .ok y) (ht : y.qtag = some tag)
      (ho : registerMsg lib env q1 y = .ok (q2, 0, m)) : Registers lib env q h tag

end SMq

namespace Daemon

/-- The messages in the queue file have no links. -/
structure Unlinked (d : Daemon) : Prop extends Start d where
  linktag : ∀ m ∈ d.queue.timeSortedList, m.linktag = none

/-- No sender is registered for a message while a registration for it is queued. -/
def RegistersOnce (lib : Libs) (d : Daemon) : DaemonAct → Prop
  | .pass env => ∀ h ∈ d.queue.timeSortedList.head?, h.nextActionTime ≤ env.clock.entry →
      ∀ tag, d.queue.Registers lib env h tag → d.queue.registrations tag = []
  | _ => True

end Daemon

end Smqueue

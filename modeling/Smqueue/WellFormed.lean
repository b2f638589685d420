import Smqueue.Program
import Smqueue.Validation

/-!
# What lasts for a queued message

A message comes into the queue by three ways, with a datagram, from the queue file, or because the
program builds it, and `validate_short_msg` stands on each of them. From then on the state machine
edits the message. A property of messages lasts if the checks establish it and no edit takes it away.
-/

namespace Smqueue

/-- Every message that passes the checks has the property, and no change of a queued message takes it
away. -/
structure Lasting (lib : Libs) (P : ShortMsgPending → Prop) : Prop where
  validated : ∀ (m m' : ShortMsgPending) s env early,
    m.validateShortMsg lib s env early = .ok (0, m') → P m'
  /-- The state, the time and the count of the attempts do not matter. -/
  placed : ∀ (m : ShortMsgPending) s t n, P m → P { m with state := s, nextActionTime := t, retries := n }
  refreshed : ∀ (m : ShortMsgPending) sm, P m → ShortMsg.Refresh lib m.toShortMsg sm → P { m with toShortMsg := sm }
  edited : ∀ env q (h m : ShortMsgPending) sm, P m → m.toShortMsg = h.toShortMsg → SMq.HeadEdit lib env q h sm →
    P { m with toShortMsg := sm }
  tagged : ∀ (m m' : ShortMsgPending) code, P m → m.setQtag lib = .ok (code, m') → P m'

namespace ShortMsgPending

/-- The message has a tree and the tag and the hash that belong to it; if it is a request, the tree
passes the checks, and it can be tagged again. -/
structure WellFormed (m : ShortMsgPending) : Prop where
  valid : m.parsedIsValid = true
  tree : ∃ p, m.parsed = some p ∧ m.qtag = some (tagOf p) ∧ m.qtaghash = taghashOf (tagOf p) ∧
    (p.isRequest = true → checkParsed p = 0 ∧ (cseqNumberOf p).isSome = true ∧
      (fromTag p).isSome = true)

end ShortMsgPending

end Smqueue

import Smqueue.Addresses

/-!
# Messages from the relay

The settings name a relay, which sends what comes from other networks. The reader refuses a message
from it at once if there is no one here to deliver it to, and a message that was refused is never
queued.
-/

namespace Smqueue

/-- The relay of the settings is the address `x`, messages are known to be from the relay by the
address that they came from alone, and that is looked up with the name service. -/
structure RelayAt (ns : NameService) (x : InetAddr) (s : Settings) (env : Env) : Prop where
  globalRelay : s.globalRelay = x.host
  globalRelayPort : s.globalRelayPort = x.port
  relaxedVerify : env.config.relaxedVerify = false
  msgIsFromRelay : env.msgIsFromRelay = ns.msgIsFromRelay

/-- The user that the message is for is known here. -/
def SipMessage.Deliverable (s : Settings) (env : Env) (p : SipMessage) : Prop :=
  ((p.toHeader.bind NameAddr.url).bind SipUri.username).any
    (ShortMsgPending.toIsDeliverable s env.hlr) = true

end Smqueue

import Smqueue.Reprocessing
import Smqueue.SmNet
import Smqueue.WellFormed

/-!
# Where the messages go

Before a message is sent, `lookup_uri_hostport` writes the address of its recipient into its request
URI, and `deliver_msg_datagram` sends it to the address that it finds there. Between the two lie any
number of steps of the threads, and the registry may answer differently the next time.
-/

namespace Smqueue

/-- A message in this state is sent, or waits until it is sent or answered. -/
def SmState.isUnderDelivery : SmState → Bool
  | requestMsgDelivery | askedForMsgDelivery | awaitingTryMsgDelivery => true
  | _ => false

namespace ShortMsg

/-- The request URI of a message that was parsed. -/
def requestUri (m : ShortMsg) : Option SipUri := m.parsed.bind SipMessage.reqUri

/-- The number in the Call-ID of a message that was parsed. -/
def callNumber (m : ShortMsg) : Option CString :=
  (m.parsed.bind SipMessage.callId).bind CallId.number

/-- The message goes to the address that the registry and the settings give for its recipient. -/
def GoesTo (env : Env) (s : Settings) (m : ShortMsg) : Prop :=
  ∃ user, SMq.requestUser m = some user ∧
    SMnet.destination m = .ok (some (destination env s user).1, (destination env s user).2)

end ShortMsg

namespace Daemon

/-- A lookup of the address of a message, with what the address was looked up in. -/
abbrev Lookup := MsgId × Env × Settings

/-- The lookup that the step makes, if any. -/
def lookedUp (d : Daemon) : DaemonAct → List Lookup
  | .pass env => (d.queue.timeSortedList.head?.filter fun m =>
      m.nextActionTime ≤ env.clock.entry ∧ m.state = .requestDestinationSipurl).toList.map
        fun m => (m.id, env, d.queue.settings)
  | _ => []

/-- The lookups of addresses in several steps, the last one first. -/
def lookups (lib : Libs) (d : Daemon) : List DaemonAct → List Lookup
  | [] => []
  | a :: acts => ((d.next lib a).elim [] fun d1 => d1.lookups lib acts) ++ d.lookedUp a

/-- The lookup that was made for the message at last. -/
def lastLookup (i : MsgId) (l : List Lookup) : Option (Env × Settings) :=
  (l.find? (·.1 = i)).map Prod.snd

/-- The address of a message under delivery, some time after the queue was `q`. -/
inductive Addressed (q : SMq) (l : List Lookup) (m : ShortMsgPending) : Prop
  /-- The message goes to the address that the last lookup for it found, and has the number of a call
  that this lookup drew. -/
  | lookedUp {env : Env} {s : Settings} (hl : lastLookup m.id l = some (env, s))
      (hg : m.toShortMsg.GoesTo env s) (hc : m.callNumber = some env.callNumber) : Addressed q l m
  /-- The program has built a registration, for which it looks up no address. -/
  | registration (hl : lastLookup m.id l = none) (hnew : q.nextId ≤ m.id)
      (hlink : m.linktag.isSome = true) : Addressed q l m
  /-- The message was under delivery all the time. -/
  | before {m0 : ShortMsgPending} (hl : lastLookup m.id l = none) (hm0 : m0 ∈ q.timeSortedList)
      (hid : m0.id = m.id) (hs : m0.state.isUnderDelivery = true)
      (hu : m0.requestUri = m.requestUri) (hlink : m0.linktag = m.linktag)
      (hc : m0.callNumber = m.callNumber) : Addressed q l m

end Daemon

end Smqueue

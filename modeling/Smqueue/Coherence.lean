import Smqueue.Changes
import Smqueue.Daemon

/-!
# Text and tree

A message is held as text and as a tree. Whoever edits the tree has to say so, by
`parsed_was_changed`; the text is made from the tree when it is needed.
-/

namespace Smqueue

namespace ShortMsg

/-- If the flags say that the text and the tree agree, the text is parsed into the tree. -/
def Coherent (lib : Libs) (m : ShortMsg) : Prop :=
  m.parsedIsValid = true → m.parsedIsBetter = false →
    ∃ text sip, m.text = some text ∧ m.parsed = some sip ∧
      lib.messageParse (buffer text m.textLength) = some sip

/-- The text of the tree fits into the length of a text, an `unsigned short`. -/
def TextFits (lib : Libs) (m : ShortMsg) : Prop :=
  ∀ sip ∈ m.parsed, (lib.messageToStr sip).length < 2 ^ 16

/-- `lookup_from_address` adds a Via header to the tree and does not say so. -/
structure AddsViaUnflagged (lib : Libs) (env : Env) (s : Settings) (m : ShortMsg) (sip : SipMessage)
    (url : SipUri) (user : CString) : Prop where
  unflagged : m.parsedIsBetter = false
  tree : m.parsed = some sip
  from_url : sip.fromHeader.bind NameAddr.url = some url
  scheme : url.scheme = some (str "sip")
  username : url.username = some user
  host : url.host.isSome = true
  via : (lib.viaParse (SMq.viaLine s)).isSome = true
  returns : isPhoneNumber user = true ∨ imsiLength (stripImsi user) = false ∨
    phoneOf env.hlr user = none

/-- `lookup_uri_imsi` replaces the sender for the relay and does not say so. -/
structure MapsFromUnflagged (env : Env) (s : Settings) (m : ShortMsg) (sip : SipMessage)
    (uri : SipUri) (user sender newfrom : CString) : Prop where
  unflagged : m.parsedIsBetter = false
  tree : m.parsed = some sip
  req_uri : sip.reqUri = some uri
  scheme : uri.scheme = some (str "sip")
  username : uri.username = some user
  translated : needsTranslation user = true
  unknown : imsiOf env.hlr user = none
  relay : s.globalRelay.isEmpty = false
  from_username : sip.fromUsername = .ok (some sender)
  mapped : env.hlr.mapCLIDGlobal sender = some newfrom
  changed : newfrom ≠ sender

end ShortMsg

namespace SMq

/-- The texts of all trees in the queue fit. -/
def TextsFit (lib : Libs) (q : SMq) : Prop := ∀ m ∈ q.timeSortedList, m.toShortMsg.TextFits lib

/-- The pass with the head `h` makes this of a message. -/
def Makes (lib : Libs) (env : Env) (q : SMq) (h m' : ShortMsgPending) : Prop :=
  ∃ m, (m ∈ q.timeSortedList ∨ m ∈ (q.attempted h).timeSortedList ∨ q.Incoming lib env h m) ∧
    Relation.ReflTransGen (q.Change lib env h) m m'

/-- The lookup that the pass with the head `h` makes does not edit a tree without saying so, and the
texts of all trees that the pass makes fit. -/
structure FlagsEdits (lib : Libs) (env : Env) (q : SMq) (h : ShortMsgPending) : Prop where
  via : looksUpFrom h.state = true → ∀ sip url user,
    ¬ h.toShortMsg.AddsViaUnflagged lib env q.settings sip url user
  mapped : h.state = .requestDestinationImsi → ∀ sip uri user sender newfrom,
    ¬ h.toShortMsg.MapsFromUnflagged env q.settings sip uri user sender newfrom
  fits : ∀ m', q.Makes lib env h m' → m'.toShortMsg.TextFits lib

end SMq

namespace Daemon

/-- The threads start with messages that have trees. -/
structure StartCoherent (lib : Libs) (d : Daemon) : Prop extends Start d where
  valid : ∀ m ∈ d.queue.timeSortedList, m.parsedIsValid = true
  coherent : ∀ m ∈ d.queue.timeSortedList, m.toShortMsg.Coherent lib

/-- The step edits no tree without saying so, and makes no text that does not fit. -/
def FlagsEdits (lib : Libs) (d : Daemon) : DaemonAct → Prop
  | .pass env => ∀ h ∈ d.queue.timeSortedList.head?, h.nextActionTime ≤ env.clock.entry →
      d.queue.FlagsEdits lib env h
  | .dump | .tidy (some _) => d.queue.TextsFit lib
  | _ => True

end Daemon

end Smqueue

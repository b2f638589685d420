import Smqueue.Conservation
import Smqueue.TagSearch
import Smqueue.Lib.Population

/-!
# What a pass does to the messages

A pass works on the queued messages one by one: it edits their SIP messages, sets their tags, and
moves them in the state machine. These are all the changes it makes, apart from the count of the
delivery attempts of the message at its head, which is described by itself.
-/

namespace Smqueue

/-- A message in this state is only waiting to be taken out. -/
def SmState.isTerminal (s : SmState) : Bool := s = .noState || s = .deleteMeState

/-- The text of the SIP message is made valid. -/
def ShortMsg.Prints (lib : Libs) (m m' : ShortMsg) : Prop := m.makeTextValid lib = .ok m'

/-- The SIP message is parsed. -/
def ShortMsg.Parses (lib : Libs) (m m' : ShortMsg) : Prop := ∃ ok, m.parse lib = .ok (ok, m')

/-- An operation on the two forms of a SIP message. -/
def ShortMsg.Refresh (lib : Libs) (m m' : ShortMsg) : Prop := m.Prints lib m' ∨ m.Parses lib m'

namespace SMq

/-- The message is a request that may be a command. -/
def isTextMessage (m : ShortMsg) : Bool :=
  m.parsed.any fun p => p.isRequest && p.sipMethod = some (str "MESSAGE")

/-- The message at the head is a response, and the search with its tag finds the message `i`. -/
def Answers (q : SMq) (h : ShortMsgPending) (response : SipMessage) (i : MsgId) : Prop :=
  h.state = .initialState ∧ response.isResponse = true ∧ h.parsed = some response ∧
    ∃ sent ∈ q.selected h, sent.id = i

/-- The pass with the head `h` may put the message into a state. -/
inductive Moves (q : SMq) (h : ShortMsgPending) : ShortMsgPending → SmState → Prop
  | head {m : ShortMsgPending} {s : SmState} (hid : m.id = h.id) : Moves q h m s
  /-- A provisional response or a server error. -/
  | retimed {m : ShortMsgPending} {response : SipMessage} (ha : q.Answers h response m.id)
      (hc : response.statusCode.tdiv 100 = 1 ∨ response.statusCode.tdiv 100 = 4 ∨
        response.statusCode.tdiv 100 = 5) : Moves q h m m.state
  /-- Another client error. -/
  | bounced {m : ShortMsgPending} {s : SmState} {response : SipMessage}
      (ha : q.Answers h response m.id) (hc : response.statusCode.tdiv 100 = 4)
      (hs : s.isTerminal = true) : Moves q h m s
  /-- A redirection or a global failure. -/
  | redirected {m : ShortMsgPending} {response : SipMessage} (ha : q.Answers h response m.id)
      (hc : response.statusCode.tdiv 100 = 3 ∨ response.statusCode.tdiv 100 = 6) :
      Moves q h m .requestDestinationImsi
  /-- A success response to the registration that the message waits for. -/
  | restarted {m : ShortMsgPending} (hu : underRegistration m.state = true) :
      Moves q h m .initialState

/-- The sender of the message is looked up in this state, which may be one that no case of the state
machine names. -/
def looksUpFrom : SmState → Bool
  | .requestFromAddressLookup | .askedForFromAddressLookup | .awaitingTryDestinationImsi
  | .askedForDestinationImsi | .awaitingTryDestinationSipurl | .askedForDestinationSipurl
  | .outOfRange _ => true
  | _ => false

/-- The message is delivered in this state. -/
def delivers (s : SmState) : Bool := s = .requestMsgDelivery || s = .awaitingTryMsgDelivery

/-- The command that the message is for. -/
def commandOf (q : SMq) (m : ShortMsg) : Option ShortCode :=
  ((m.parsed.bind SipMessage.reqUri).bind SipUri.username).bind (shortCodeOf q.settings)

/-- The state machine makes this of the SIP message of the head `h`. -/
inductive HeadEdit (lib : Libs) (env : Env) (q : SMq) (h : ShortMsgPending) : ShortMsg → Prop
  | lookupFromAddress {sm : ShortMsg} {next : SmState} (hs : looksUpFrom h.state = true)
      (hl : h.toShortMsg.lookupFromAddress lib env q.settings = .ok (next, sm)) :
      HeadEdit lib env q h sm
  | lookupUriImsi {sm : ShortMsg} {next : Option SmState} (hs : h.state = .requestDestinationImsi)
      (hl : h.toShortMsg.lookupUriImsi lib env q.settings = .ok (next, sm)) :
      HeadEdit lib env q h sm
  | lookupUriHostport {sm : ShortMsg} {next : SmState} (hs : h.state = .requestDestinationSipurl)
      (hl : h.toShortMsg.lookupUriHostport lib env q.settings = .ok (next, sm)) :
      HeadEdit lib env q h sm
  | packSmsForDelivery {sm : ShortMsg} {ok : Bool} (hs : delivers h.state = true)
      (hp : h.toShortMsg.packSmsForDelivery lib env = .ok (ok, sm)) : HeadEdit lib env q h sm
  | sendSIPInit {sm : ShortMsg} {submit : TLSubmit} (hs : h.state = .initialState)
      (hc : q.commandOf h.toShortMsg = some .smsc) (ht : h.tlMessage = some (.submit submit))
      (hl : sendSIPInit submit h.toShortMsg = .ok sm) : HeadEdit lib env q h sm

/-- A change that the pass with the head `h` makes to a message. -/
inductive Change (lib : Libs) (env : Env) (q : SMq) (h : ShortMsgPending) :
    ShortMsgPending → ShortMsgPending → Prop
  | refresh {m : ShortMsgPending} {sm : ShortMsg} (hr : ShortMsg.Refresh lib m.toShortMsg sm) :
      Change lib env q h m { m with toShortMsg := sm }
  | edit {m : ShortMsgPending} {sm : ShortMsg} (hid : m.id = h.id)
      (hsm : m.toShortMsg = h.toShortMsg) (he : q.HeadEdit lib env h sm) :
      Change lib env q h m { m with toShortMsg := sm }
  | tag {m m' : ShortMsgPending} {code : Int} (hid : m.id = h.id)
      (ht : m.setQtag lib = .ok (code, m')) : Change lib env q h m m'
  | move {m : ShortMsgPending} {s : SmState} {t : Time} (hm : q.Moves h m s) :
      Change lib env q h m { m with state := s, nextActionTime := t }

/-- The pass with the head `h` builds the message, which passes validation. -/
inductive Originated (lib : Libs) (env : Env) (q : SMq) (h : ShortMsgPending) :
    ShortMsgPending → Prop
  /-- The reply of a command. -/
  | reply {m x : ShortMsgPending} {r : ShortCodeResult} {q1 : SMq} {shortcode imsi : CString}
      (hs : h.state = .initialState) (hm : isTextMessage h.toShortMsg = true)
      (hc : q.callShortCode lib env h = .ok (some r)) (ha : r.action = .reply)
      (hx : r.queue.msg h.id = .ok x)
      (hr : replyAddresses x.toShortMsg = .ok (shortcode, imsi))
      (ho : originateMsg lib env r.queue shortcode imsi r.reply = .ok (q1, 0, m)) :
      Originated lib env q h m
  /-- The bounce of a message that cannot be located. -/
  | notLocated {m : ShortMsgPending} {sm : ShortMsg} {q1 : SMq} {bounceto errmsg : CString}
      (hs : h.state = .requestDestinationImsi)
      (hl : h.toShortMsg.lookupUriImsi lib env q.settings = .ok (none, sm))
      (hb : bounceText env { h with toShortMsg := sm } env.config.notRegistered =
        .ok (some (bounceto, errmsg)))
      (ho : originateMsg lib env (q.store { h with toShortMsg := sm }) env.config.bounceCode bounceto
        errmsg = .ok (q1, 0, m)) : Originated lib env q h m
  /-- The bounce of a message that was answered with an error. -/
  | answered {m sent : ShortMsgPending} {response : SipMessage} {q1 : SMq}
      {bounceto errmsg : CString} (hs : sent ∈ q.selected h)
      (ha : q.Answers h response sent.id) (hc : response.statusCode.tdiv 100 = 4)
      (hb : bounceText env sent (errorText response) = .ok (some (bounceto, errmsg)))
      (ho : originateMsg lib env (q.remove h.id) env.config.bounceCode bounceto errmsg =
        .ok (q1, 0, m)) : Originated lib env q h m
  /-- The registration that a command asks for. -/
  | registered {m x : ShortMsgPending} {r : ShortCodeResult} {q1 : SMq}
      (hs : h.state = .initialState) (hm : isTextMessage h.toShortMsg = true)
      (hc : q.callShortCode lib env h = .ok (some r)) (ha : r.action = .register)
      (hx : r.queue.msg h.id = .ok x)
      (ho : registerMsg lib env r.queue x = .ok (q1, 0, m)) : Originated lib env q h m
  /-- The registration of the sender of a message. -/
  | register {m : ShortMsgPending} {q1 : SMq} (hs : h.state = .registerHandset)
      (ho : registerMsg lib env q h = .ok (q1, 0, m)) : Originated lib env q h m
  /-- The same after the number of the sender came up in the registry. -/
  | awaited {m x y : ShortMsgPending} {q1 q2 : SMq} (hs : h.state = .awaitingRegisterHandset)
      (hr : readyToRegister lib env h = .ok (true, x))
      (hq : (q.store x).setState x.id .registerHandset env.clock.first = .ok q1)
      (hy : q1.msg x.id = .ok y) (ho : registerMsg lib env q1 y = .ok (q2, 0, m)) :
      Originated lib env q h m

/-- The message as it is inserted. -/
inductive Incoming (lib : Libs) (env : Env) (q : SMq) (h : ShortMsgPending) :
    ShortMsgPending → Prop
  | inserted {m : ShortMsgPending} {s : SmState} {t : Time} (ho : q.Originated lib env h m) :
      Incoming lib env q h { m with state := s, nextActionTime := t }

/-! ## Delivery attempts -/

/-- The queue with one more delivery attempt of the message counted. -/
def attempted (q : SMq) (h : ShortMsgPending) : SMq := q.store { h with retries := h.retries + 1 }

/-- The counter of the message exceeds the limit after one more attempt. -/
def exceeds (env : Env) (h : ShortMsgPending) : Prop :=
  env.config.maxRetries ≠ 0 ∧ env.config.maxRetries < (h.retries + 1 : Nat)

/-- The pass with the head `h` counts a delivery attempt, and makes the given deliveries. -/
inductive Attempt (lib : Libs) (env : Env) (q : SMq) (h : ShortMsgPending) :
    List Delivery → Prop
  /-- A command asks for another attempt later. -/
  | retryAfterDelay {r : ShortCodeResult} (hs : h.state = .initialState)
      (hm : isTextMessage h.toShortMsg = true) (hc : q.callShortCode lib env h = .ok (some r))
      (ha : r.action = .retryAfterDelay) : Attempt lib env q h []
  /-- The message cannot be packed. -/
  | unpacked {sm : ShortMsg} (hs : delivers h.state = true)
      (hp : h.toShortMsg.packSmsForDelivery lib env = .ok (false, sm)) : Attempt lib env q h []
  /-- The message is dropped, since its retries are exceeded. -/
  | exceeded {sm : ShortMsg} (hs : delivers h.state = true)
      (hp : h.toShortMsg.packSmsForDelivery lib env = .ok (true, sm)) (hx : exceeds env h) :
      Attempt lib env q h []
  /-- The rate limiter delays the message. -/
  | delayed {sm : ShortMsg} (hs : delivers h.state = true)
      (hp : h.toShortMsg.packSmsForDelivery lib env = .ok (true, sm)) (hx : ¬ exceeds env h)
      (ht : q.tooSoon env = true) : Attempt lib env q h []
  | sent {sm : ShortMsg} (hs : delivers h.state = true)
      (hp : h.toShortMsg.packSmsForDelivery lib env = .ok (true, sm)) (hx : ¬ exceeds env h)
      (ht : q.tooSoon env = false) :
      Attempt lib env q h [⟨h.id, q.spacingAt env, env.clock.sending⟩]

/-- What the pass with the head `h` makes of the queue, apart from the delivery attempts. -/
structure Evolved (lib : Libs) (env : Env) (q0 : SMq) (h : ShortMsgPending) (q q' : SMq) : Prop where
  messages : Population.Evolves (q0.Change lib env h) (q0.Incoming lib env h) q.timeSortedList
    q'.timeSortedList
  delivered : q'.delivered = q.delivered

/-- What the pass with the head `h` makes of the queue. -/
inductive Outcome (lib : Libs) (env : Env) (q : SMq) (h : ShortMsgPending) (q' : SMq) : Prop
  /-- No delivery attempt is counted. -/
  | quiet (he : Evolved lib env q h q q') : Outcome lib env q h q'
  | attempt {sent : List Delivery} (ha : q.Attempt lib env h sent)
      (hm : Population.Evolves (q.Change lib env h) (q.Incoming lib env h)
        (q.attempted h).timeSortedList q'.timeSortedList)
      (hd : q'.delivered = sent ++ q.delivered) : Outcome lib env q h q'

end SMq

end Smqueue

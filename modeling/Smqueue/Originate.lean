import Smqueue.Queue

/-!
# Messages that the program originates

Replies, bounces and registrations: each is built as a tree, turned into text, validated like a
message from outside, and inserted at the front of the queue.
-/

namespace Smqueue

namespace SMq

/-- The value of the `Via` header that describes this program. -/
def viaLine (s : Settings) : CString :=
  str "SIP/2.0/UDP " ++ s.myIpaddress ++ str ":" ++ s.myUdpPort ++
    str ";branch=1;received=smqueue@Range.com"

/-- `osip_message_append_via` -/
def appendVia (lib : Libs) (s : Settings) (sip : SipMessage) : SipMessage :=
  { sip with vias := sip.vias ++ (lib.viaParse (viaLine s)).toList }

/-- The Call-ID of a message that the program originates. The first REGISTER message makes up the one
that all its successors use. -/
def newCallId (lib : Libs) (env : Env) (q : SMq) (method : CString) : SMq × Option CallId :=
  if !q.haveRegisterCallId || method ≠ str "REGISTER" then
    let callId : CallId := ⟨some env.callNumber, some q.settings.myIpaddress⟩
    if method = str "REGISTER" then
      ({ q with registerCallId := env.callNumber ++ str "@" ++ q.settings.myIpaddress,
                registerCallSeq := 0, haveRegisterCallId := true }, some callId)
    else (q, some callId)
  else (q, lib.callIdParse q.registerCallId)

/-- The number of the CSeq header of a message that the program originates. -/
def newCSeq (env : Env) (q : SMq) (method : CString) : SMq × CString :=
  if method = str "REGISTER" then
    ({ q with registerCallSeq := q.registerCallSeq + 1 }, decimal (q.registerCallSeq + 1))
  else (q, decimal (env.randomNumber % 2 ^ 16))

/-- `originate_half_sm`: a message without its request URI, From, To and content. -/
def originateHalfSm (lib : Libs) (env : Env) (q : SMq) (method : CString) :
    SMq × ShortMsgPending :=
  let (q, callId) := newCallId lib env q method
  let (q, cseq) := newCSeq env q method
  let sip : SipMessage :=
    { sipMethod := some method, callId := callId, cseq := some ⟨some cseq, some method⟩ }
  let sm : ShortMsg := { parsedIsValid := true, parsed := some (appendVia lib q.settings sip) }
  ({ q with nextId := q.nextId + 1 }, { toShortMsg := sm.parsedWasChanged, id := q.nextId })

/-- `osip_uri_init` and `osip_uri_parse` -/
def parsedUri (lib : Libs) (line : CString) : SipUri :=
  (lib.uriParse line).getD ⟨none, none, none, none⟩

/-- The number in the CSeq header of a message. -/
def cseqNumber (sip : SipMessage) : CString := (sip.cseq.bind CSeq.number).getD []

/-- The last steps for a message that was built as a tree: its tag is set, the tree is turned into
text and the text is validated. -/
def finishMsg (lib : Libs) (env : Env) (s : Settings) (m : ShortMsgPending) :
    Except Fault (Int × ShortMsgPending) := do
  let sm ← m.toShortMsg.makeTextValid lib
  let sm ← sm.unparse lib
  ShortMsgPending.validateShortMsg lib s env { m with toShortMsg := sm } false

/-- The tree that `originate_sm` builds. -/
def replySip (lib : Libs) (env : Env) (s : Settings) (sip : SipMessage)
    (sender recipient msgtext : CString) : SipMessage :=
  let fromline := sender ++ str "<sip:" ++ sender ++ str "@" ++ s.myIpaddress ++ str ">;tag=" ++
    cseqNumber sip
  let toline := str "<sip:" ++ recipient ++ str "@" ++ s.myIpaddress ++ str ">"
  let uriline := str "sip:" ++ recipient ++ str "@" ++ s.myIpaddress ++ str ":" ++
    env.config.defaultBtsPort
  { sip with
    fromHeader := lib.nameAddrParse fromline
    toHeader := lib.nameAddrParse toline
    reqUri := some (parsedUri lib uriline)
    contentType := some ⟨some (str "text"), some (str "plain")⟩
    -- a text is cut off at the maximum length of a short message
    bodies := [msgtext.take 160] }

/-- The message that `originate_sm` builds, with the result of its validation. -/
def originateMsg (lib : Libs) (env : Env) (q : SMq) (sender recipient msgtext : CString) :
    Except Fault (SMq × Int × ShortMsgPending) := do
  let (q, response) := originateHalfSm lib env q (str "MESSAGE")
  let sip := replySip lib env q.settings (← deref response.parsed) sender recipient msgtext
  let sm := { response.toShortMsg with
    needRepack := true, parsed := some sip, contentType := .textPlain }.parsedWasChanged
  let (_, response) ← ShortMsgPending.setQtag lib { response with toShortMsg := sm }
  let (errcode, response) ← finishMsg lib env q.settings response
  return (q, errcode, response)

/-- `originate_sm`: the result tells whether the message was inserted. -/
def originateSm (lib : Libs) (env : Env) (q : SMq) (sender recipient msgtext : CString)
    (firststate : SmState) : Except Fault (Bool × SMq) := do
  let (q, errcode, response) ← originateMsg lib env q sender recipient msgtext
  if errcode = 0 then
    return (true, ← q.insertNewMessageIn lib response firststate env.clock.insert)
  else return (false, q)

/-! ## Bounces -/

/-- The recipient and the text of a bounce; nothing for a message from us, which is not bounced. -/
def bounceText (env : Env) (sentMsg : ShortMsgPending) (errstr : CString) :
    Except Fault (Option (CString × CString)) := do
  let sip ← deref sentMsg.parsed
  let username ← deref (← sip.toUsername)
  let thetext ← sentMsg.toShortMsg.getText
  let errmsg := str "Can't send your SMS to " ++ username ++ str ": " ++ errstr ++ str ": " ++ thetext
  let bounceto ← deref (← sip.fromUsername)
  return if env.config.bounceCode = bounceto then none else some (bounceto, errmsg)

/-- The first state of a bounce to the given recipient. -/
def bounceState (bounceto : CString) : SmState :=
  if (str "IMSI").isPrefixOf bounceto || (str "imsi").isPrefixOf bounceto then
    .requestDestinationSipurl
  else .requestDestinationImsi

/-- `bounce_message`: the result is the next state of the bounced message. -/
def bounceMessage (lib : Libs) (env : Env) (q : SMq) (sentMsg : ShortMsgPending)
    (errstr : CString) : Except Fault (SmState × SMq) := do
  match ← bounceText env sentMsg errstr with
  | none => return (.noState, q)
  | some (bounceto, errmsg) =>
    let (ok, q) ← originateSm lib env q env.config.bounceCode bounceto errmsg (bounceState bounceto)
    return (if ok then .deleteMeState else .noState, q)

/-! ## Registrations -/

def readyToRegister (lib : Libs) (env : Env) (m : ShortMsgPending) :
    Except Fault (Bool × ShortMsgPending) := do
  let (_, sm) ← m.toShortMsg.parse lib
  let m := { m with toShortMsg := sm }
  match (m.parsed.bind SipMessage.fromHeader).bind NameAddr.url with
  | none => return (false, m)
  | some url => return ((env.hlr.getCLIDLocal (← deref url.username)).isSome, m)

/-- The tree that `register_handset` builds. -/
def registerSip (lib : Libs) (env : Env) (s : Settings) (sip : SipMessage) (imsi : CString)
    (srcaddr : List UInt8) : SipMessage :=
  let toline := imsi ++ str "<sip:" ++ imsi ++ str "@" ++ s.myRegisterHostport ++ str ">"
  let fromline := toline ++ str ";tag=" ++ cseqNumber sip
  { sip with
    toHeader := lib.nameAddrParse toline
    fromHeader := lib.nameAddrParse fromline
    reqUri := some (parsedUri lib (str "sip:" ++ s.myRegisterHostport))
    contact := some (str "<sip:" ++ imsi ++ str "@" ++ env.stringAddr srcaddr true ++
      str ">;expires=3600") }

/-- What `register_handset` makes of the half built message `response` for a queued message, with the
result of its validation. -/
def registerResponse (lib : Libs) (env : Env) (s : Settings) (response qmsg : ShortMsgPending) :
    Except Fault (Int × ShortMsgPending) := do
  let imsi ← deref (← (← deref qmsg.parsed).fromUsername)
  let sip := registerSip lib env s (← deref response.parsed) imsi qmsg.srcaddr
  let sm := { response.toShortMsg with needRepack := false, parsed := some sip }.parsedWasChanged
  let (_, response) ← ShortMsgPending.setQtag lib { response with toShortMsg := sm }
  -- set_linktag
  let response := { response with linktag := some (← deref qmsg.qtag) }
  finishMsg lib env s response

/-- The message that `register_handset` builds for a queued message. -/
def registerMsg (lib : Libs) (env : Env) (q : SMq) (qmsg : ShortMsgPending) :
    Except Fault (SMq × Int × ShortMsgPending) := do
  let (q, response) := originateHalfSm lib env q (str "REGISTER")
  let (errcode, response) ← registerResponse lib env q.settings response qmsg
  return (q, errcode, response)

/-- `register_handset`: the result is the next state of the message. -/
def registerHandset (lib : Libs) (env : Env) (q : SMq) (qmsg : ShortMsgPending) :
    Except Fault (SmState × SMq) := do
  let (q, errcode, response) ← registerMsg lib env q qmsg
  if errcode ≠ 0 then return (.deleteMeState, q)
  else
    return (.askedToRegisterHandset,
      ← q.insertNewMessageIn lib response .requestMsgDelivery env.clock.insert)

end SMq

end Smqueue

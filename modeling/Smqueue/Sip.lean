import Smqueue.GsmCommon

/-!
# SIP messages

The tree that the osip library parses a SIP message into, as far as the program reads or writes it.
A null pointer in the tree is `none`. The library itself, and the transfer coding of message
bodies, are parameters of the model.
-/

namespace Smqueue

/-- `osip_uri_t` -/
structure SipUri where
  scheme : Option CString
  username : Option CString
  host : Option CString
  port : Option CString
deriving DecidableEq, Repr

/-- `osip_from_t` and `osip_to_t` -/
structure NameAddr where
  displayname : Option CString
  url : Option SipUri
  /-- The parameters, such as the tag, with their values. -/
  params : List (CString × Option CString)
deriving DecidableEq, Repr

/-- `osip_cseq_t` -/
structure CSeq where
  number : Option CString
  method : Option CString
deriving DecidableEq, Repr

/-- `osip_call_id_t` -/
structure CallId where
  number : Option CString
  host : Option CString
deriving DecidableEq, Repr

/-- `osip_via_t` -/
structure Via where
  host : Option CString
  port : Option CString
  /-- Protocol and parameters. -/
  rest : CString
deriving DecidableEq, Repr

/-- `osip_content_type_t` -/
structure MediaType where
  type : Option CString
  subtype : Option CString
deriving DecidableEq, Repr

/-- `osip_message_t`. A header that holds a single value, which may be missing as well, is an option
of an option. -/
structure SipMessage where
  sipVersion : Option CString := some (str "SIP/2.0")
  sipMethod : Option CString := none
  reqUri : Option SipUri := none
  /-- Zero for a request. -/
  statusCode : Int := 0
  reasonPhrase : Option CString := none
  vias : List Via := []
  fromHeader : Option NameAddr := none
  toHeader : Option NameAddr := none
  callId : Option CallId := none
  cseq : Option CSeq := none
  contact : Option CString := none
  contentType : Option MediaType := none
  contentLength : Option (Option CString) := none
  mimeVersion : Option (Option CString) := none
  /-- The headers that osip has no field for, by name. -/
  headers : List (CString × CString) := []
  bodies : List CString := []
deriving DecidableEq, Repr

/-- `MSG_IS_RESPONSE` -/
def SipMessage.isResponse (p : SipMessage) : Bool := p.statusCode ≠ 0

/-- `MSG_IS_REQUEST` -/
def SipMessage.isRequest (p : SipMessage) : Bool := !p.isResponse

/-- The value behind a pointer that the program follows without a check. -/
def deref {α : Type} (p : Option α) : Except Fault α := p.elim (.error .nullPointer) .ok

/-- `p->from->url->username`, which may be null at its end only -/
def SipMessage.fromUsername (p : SipMessage) : Except Fault (Option CString) := do
  return (← deref (← deref p.fromHeader).url).username

/-- `p->to->url->username` -/
def SipMessage.toUsername (p : SipMessage) : Except Fault (Option CString) := do
  return (← deref (← deref p.toHeader).url).username

/-- `0 == strcmp(s, t)` for a pointer `s`. -/
def strcmpEq (s : Option CString) (t : CString) : Except Fault Bool := do
  return (← deref s) = t

/-- The comparison of a content type with `type/subtype`. -/
def MediaType.is (ct : MediaType) (type subtype : CString) : Except Fault Bool := do
  if ← strcmpEq ct.type type then strcmpEq ct.subtype subtype else return false

/-- The osip library and the transfer coding of bodies. -/
structure Libs where
  /-- `osip_message_parse` of a buffer. -/
  messageParse : List UInt8 → Option SipMessage
  /-- `osip_message_to_str` -/
  messageToStr : SipMessage → CString
  /-- The value of a `Via` header. -/
  viaParse : CString → Option Via
  /-- The value of a `From` or `To` header. -/
  nameAddrParse : CString → Option NameAddr
  /-- `osip_uri_parse` -/
  uriParse : CString → Option SipUri
  /-- `osip_call_id_parse` -/
  callIdParse : CString → Option CallId
  /-- `decodeToString`: the octets that the first so many characters of a text stand for in an
  encoding. -/
  decodeToString : CString → Nat → CString → List UInt8
  /-- `encodeToString` -/
  encodeToString : List UInt8 → CString → CString

end Smqueue

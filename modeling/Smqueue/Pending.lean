import Smqueue.ShortMsg
import Smqueue.SmState

/-!
# Pending messages

`short_msg_pending`: a short message with its place in the state machine and its tag. Messages are
told apart by an identity, which stands for their address in memory.
-/

namespace Smqueue

/-- The identity of a message. -/
abbrev MsgId := Nat

structure ShortMsgPending extends ShortMsg where
  id : MsgId
  state : SmState := .noState
  /-- The time to do something different. -/
  nextActionTime : Time := 0
  /-- How often delivery was tried. -/
  retries : Nat := 0
  /-- The source address, in its binary form. -/
  srcaddr : List UInt8 := []
  /-- The tag of the message, once it was parsed. -/
  qtag : Option CString := none
  qtaghash : UInt8 := 0
  /-- The tag of the message that this one is related to. -/
  linktag : Option CString := none
deriving DecidableEq, Repr

/-- What the program was configured with. -/
structure Config where
  maxRetries : Int := 2160
  rateLimit : Int := 0
  /-- `SIP.Timeout.ACKedMessageResend`, if it is defined. -/
  ackedMessageResend : Option Int := none
  bounceCode : CString := str "101"
  notRegistered : CString := str "Phone not registered here."
  defaultBtsPort : CString := str "5062"
  fakeSrcSmsc : CString := str "0000"
  relaxedVerify : Bool := false
  globalRelayIp : CString := []
  httpGatewayUrl : CString := []
  httpGatewayRetries : Int := 5
  httpGatewayTimeout : Int := 5
  registerCode : CString := str "101"
  infoCode : CString := str "411"
  whiplashQuitPassword : CString := str "Snidely"
  zapQueuedPassword : CString := str "6000"
  digitsMax : Int := 10
  digitsMin : Int := 7
  digitsMinStr : CString := str "7"
  digitsMaxStr : CString := str "10"
  digitsOverride : Bool := false
  welcomeA : CString := str "Hello"
  welcomeB : CString := str "! Text to 411 for system status."
  alreadyA : CString := str "Your phone is already registered as"
  alreadyB : CString := str "."
  takenA : CString := str "The phone number"
  takenB : CString :=
    str "is already in use. Try another, then call that one to talk to whoever took yours."
  errorA : CString := str "Error in assigning"
  errorB : CString := str "to IMSI"

/-- `SubscriberRegistry::Status` -/
inductive HlrStatus
  | success
  | failure
  | delayed
  | tryAgain
deriving DecidableEq, Repr

/-- The answers of the subscriber registry. -/
structure Hlr where
  getCLIDLocal : CString → Option CString := fun _ => none
  getIMSI2 : CString → Option CString := fun _ => none
  getRegistrationIP : CString → Option CString := fun _ => none
  mapCLIDGlobal : CString → Option CString := fun _ => none
  addUser : CString → CString → HlrStatus := fun _ _ => .success

/-- The readings of the clock during one operation, in the order they are taken. -/
structure Clock where
  /-- When the operation starts. -/
  entry : Time
  /-- At the first change of a state. -/
  first : Time
  /-- When the rate limiter reads its timer. -/
  limiter : Time
  /-- When the rate limiter sets its timer. -/
  spacing : Time
  /-- At the call of `deliver_msg_datagram`. -/
  sending : Time
  /-- At the insertion of a message that the operation originates. -/
  insert : Time
  /-- At the last change of a state. -/
  final : Time
  entry_first : entry ≤ first
  first_limiter : first ≤ limiter
  limiter_spacing : limiter ≤ spacing
  spacing_sending : spacing ≤ sending
  sending_insert : sending ≤ insert
  insert_final : insert ≤ final

/-- What an operation of the program takes from outside: the configuration, the subscriber registry,
the network, random numbers and the clock. -/
structure Env where
  config : Config
  hlr : Hlr
  clock : Clock
  /-- `my_network.string_addr` -/
  stringAddr : List UInt8 → Bool → CString
  /-- The result of `my_network.msg_is_from_relay` for the address and the global relay. -/
  msgIsFromRelay : List UInt8 → CString → CString → Bool
  /-- `my_network.new_call_number()` -/
  callNumber : CString
  /-- `my_network.new_random_number()` -/
  randomNumber : Nat
  /-- `random()` -/
  random : Nat
  /-- The calendar time, for time stamps. -/
  calendar : Tm
  /-- The bits that a fresh bit vector holds. -/
  junk : Nat → Bool
  /-- What reading an SMS-DELIVER as if it were an SMS-SUBMIT gives for the protocol identifier. -/
  miscastPI : Nat
  /-- The wall clock time as text. -/
  ctime : CString
  /-- The mail or web program could be run. -/
  gatewayRuns : Bool

/-- The commands that handle messages to special numbers. -/
inductive ShortCode
  | whiplashQuit
  | debugDump
  | quickChk
  | fourOneOne
  | zapQueued
  | register
  | smsc
deriving DecidableEq, Repr

/-- The part of the `SMq` object that is set up at the start. -/
structure Settings where
  myIpaddress : CString := str "127.0.0.1"
  myUdpPort : CString := str "5063"
  myRegisterHostport : CString := str "127.0.0.1:5064"
  globalRelay : CString := []
  globalRelayPort : CString := []
  globalRelayContentType : ContentType := .vnd3gppSms
  /-- The map from numbers to commands, the latest entry for a number first. -/
  shortCodeMap : List (CString × ShortCode) := []
  timeouts : Timeouts := ⟨none, fun _ _ => 0⟩
  /-- The log takes debug messages. -/
  logsDebug : Bool := false

namespace ShortMsgPending

/-! ## Tags -/

/-- The value of the first `tag` parameter. -/
def tagParam (params : List (CString × Option CString)) : Option CString :=
  (params.find? fun p => p.1 = str "tag").bind Prod.snd

def taghashOf (tag : CString) : UInt8 := tag.headD 0

/-- `set_qtag`: the result is zero or an error code. -/
def setQtag (lib : Libs) (m : ShortMsgPending) : Except Fault (Int × ShortMsgPending) := do
  let (ok, sm) ← m.toShortMsg.parse lib
  let m := { m with toShortMsg := sm }
  if !ok then return (400, m)
  let p ← deref m.parsed
  match p.fromHeader with
  | none => return (400, m)
  | some fromHeader =>
    if p.callId.isNone then return (401, m)
    match p.cseq with
    | none => return (402, m)
    | some cseq =>
      let number ← deref cseq.number
      -- a message without a tag makes strlen follow a null pointer
      let fromtag ← deref (tagParam fromHeader.params)
      let qtag := number ++ str "--" ++ fromtag
      return (0, { m with qtag := some qtag, qtaghash := taghashOf qtag })

/-! ## Validation -/

def checkHostPort (host : Option CString) : Bool := host.isSome

/-- What `strtol` leaves of a string behind the number. -/
def strtolRest (s : CString) : CString :=
  let t := s.dropWhile isspace
  let t' := if t.head? = some 43 ∨ t.head? = some 45 then t.drop 1 else t
  if (t'.takeWhile isdigit).isEmpty then s else t'.dropWhile isdigit

/-- The number of a header is out of the range of a `long`. -/
def strtolOverflows (s : CString) : Bool :=
  let (neg, ds) := strtolDigits s
  if neg then 2 ^ 63 < digitsValue ds else 2 ^ 63 ≤ digitsValue ds

/-- The checks that `validate_short_msg` makes of a response. -/
def checkResponse (p : SipMessage) : Int :=
  if p.statusCode < 0 || p.reasonPhrase.isNone then 400
  else
    match p.contentLength with
    | some (some value) =>
      if !(strtolRest value).isEmpty || strtolOverflows value then 400
      else if strtol value ≠ 0 then 400
      else if !p.bodies.isEmpty then 400
      else 0
    | _ => if !p.bodies.isEmpty then 400 else 0

/-- The content type is one that messages are accepted with. -/
def supportedContent (p : SipMessage) : Bool :=
  p.contentType = some ⟨some (str "text"), some (str "plain")⟩ ||
    p.contentType = some ⟨some (str "application"), some (str "vnd.3gpp.sms")⟩

/-- The CSeq header names the method and has a number. -/
def cseqNames (p : SipMessage) (method : CString) : Bool :=
  p.cseq.any fun c => c.method = some method && c.number.isSome

/-- The announced length is positive, but there is not exactly one body. -/
def bodyMissing (p : SipMessage) : Bool :=
  match p.contentLength with
  | some (some value) => (strtol value).bmod (2 ^ 32) > 0 && p.bodies.length ≠ 1
  | _ => false

/-- The checks that `validate_short_msg` makes of a request. -/
def checkRequest (p : SipMessage) : Int :=
  match p.reqUri with
  | none => 400
  | some uri =>
    if uri.scheme.isNone then 400
    else if uri.scheme ≠ some (str "sip") then 416
    else if !checkHostPort uri.host then 484
    else if p.sipMethod.isNone then 405
    else if p.sipMethod = some (str "MESSAGE") then
      if uri.username.isNone then 484
      else if !supportedContent p then 415
      else if bodyMissing p then 413
      else if !cseqNames p (str "MESSAGE") then 400
      else 0
    else if p.sipMethod = some (str "REGISTER") then
      if !cseqNames p (str "REGISTER") then 400 else 0
    else 405

/-- The To header has a SIP address with a host and a user. -/
def toHeaderOk (p : SipMessage) : Bool :=
  (p.toHeader.bind NameAddr.url).any fun u =>
    u.scheme = some (str "sip") && checkHostPort u.host && u.username.isSome

/-- The checks that `validate_short_msg` makes of every message. -/
def checkCommon (p : SipMessage) : Int :=
  if p.callId.isNone then 400
  else if (p.fromHeader.bind NameAddr.url).isNone then 400
  else if p.mimeVersion.any (· ≠ some (str "1.0")) then 415
  else if !toHeaderOk p then 400
  else 0

/-- All checks of the parsed message, in their order; zero if it passes. -/
def checkParsed (p : SipMessage) : Int :=
  if p.sipVersion ≠ some (str "SIP/2.0") then 400
  else
    let code := if p.isResponse then checkResponse p else checkRequest p
    if code ≠ 0 then code else checkCommon p

/-- The log line about a bad From header is reached and follows the pointer to a missing header. -/
def logsMissingFrom (s : Settings) (p : SipMessage) : Bool :=
  s.logsDebug && p.fromHeader.isNone && p.callId.isSome && p.sipVersion = some (str "SIP/2.0") &&
    (if p.isResponse then checkResponse p else checkRequest p) = 0

/-- `strcasecmp` finds two strings equal. -/
def strcaseEq (s t : CString) : Bool := s.map tolower = t.map tolower

def relaxedVerifyRelay (vias : List Via) (host port : CString) : Bool :=
  vias.any fun v => v.host.any (strcaseEq host) && v.port.any (strcaseEq port)

def toIsDeliverable (s : Settings) (hlr : Hlr) (user : CString) : Bool :=
  s.shortCodeMap.any (·.1 = user) ||
    (hlr.getIMSI2 user).any fun d => (str "imsi").isPrefixOf d || (str "IMSI").isPrefixOf d

/-- The message is a SIP MESSAGE that the global relay sent. -/
def arrivedFromRelay (s : Settings) (env : Env) (m : ShortMsgPending) (p : SipMessage) : Bool :=
  !p.isResponse && p.sipMethod = some (str "MESSAGE") &&
    (env.msgIsFromRelay m.srcaddr s.globalRelay s.globalRelayPort ||
      (env.config.relaxedVerify && relaxedVerifyRelay p.vias s.globalRelay s.globalRelayPort))

/-- `validate_short_msg`: the result is zero or the status code to answer with. -/
def validateShortMsg (lib : Libs) (s : Settings) (env : Env) (m : ShortMsgPending)
    (shouldEarlyCheck : Bool) : Except Fault (Int × ShortMsgPending) := do
  let (ok, sm) ← m.toShortMsg.parse lib
  let m := { m with toShortMsg := sm }
  if !ok then return (400, m)
  match m.parsed with
  | none => return (400, m)
  | some p =>
    if logsMissingFrom s p then throw .nullPointer
    if checkParsed p ≠ 0 then return (checkParsed p, m)
    if shouldEarlyCheck && arrivedFromRelay s env m p then
      let user ← deref (← p.toUsername)
      if !toIsDeliverable s env.hlr user then return (404, m)
      setQtag lib { m with fromRelay := true }
    else setQtag lib m

end ShortMsgPending

end Smqueue

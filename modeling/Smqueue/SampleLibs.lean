import Mathlib.Tactic.DeriveEncodable
import Mathlib.Logic.Equiv.List
import Smqueue.LibLaws
import Smqueue.Queue

/-!
# A concrete instance of the libraries

Libraries that obey the laws. For the messages of a given list they print and read the text that
osip does; every other tree is given a text that is its number in a row of letters, followed by its
other headers and its bodies. Bodies are coded in hexadecimal.
-/

namespace Smqueue

instance encodableUInt8 : Encodable UInt8 :=
  Encodable.ofEquiv (Fin 256) ⟨UInt8.toFin, UInt8.ofFin, fun _ => rfl, fun _ => rfl⟩

deriving instance Encodable for SipUri, NameAddr, CSeq, CallId, Via, MediaType, SipMessage

namespace SampleLibs

/-! ## Text of a SIP message -/

/-- A line of a header, with the line break in front. -/
def line (name value : CString) : CString := str "\r\n" ++ name ++ str ": " ++ value

def uriText (u : SipUri) : CString :=
  u.scheme.getD [] ++ str ":" ++ u.username.elim [] (· ++ str "@") ++ u.host.getD [] ++
    u.port.elim [] (str ":" ++ ·)

def nameAddrText (a : NameAddr) : CString :=
  a.displayname.elim [] (· ++ str " ") ++ str "<" ++ a.url.elim [] uriText ++ str ">" ++
    a.params.flatMap fun p => str ";" ++ p.1 ++ p.2.elim [] (str "=" ++ ·)

def viaText (v : Via) : CString :=
  str "SIP/2.0/UDP " ++ v.host.getD [] ++ v.port.elim [] (str ":" ++ ·) ++ v.rest

/-- The start line and the headers that osip has fields for. -/
def headText (m : SipMessage) : CString :=
  (if m.isResponse then
    str "SIP/2.0 " ++ decimalInt m.statusCode ++ str " " ++ m.reasonPhrase.getD []
  else m.sipMethod.getD [] ++ str " " ++ m.reqUri.elim [] uriText ++ str " SIP/2.0") ++
  (m.vias.flatMap fun v => line (str "Via") (viaText v)) ++
  m.fromHeader.elim [] (line (str "From") <| nameAddrText ·) ++
  m.toHeader.elim [] (line (str "To") <| nameAddrText ·) ++
  m.callId.elim [] (fun c => line (str "Call-ID")
    (c.number.getD [] ++ c.host.elim [] (str "@" ++ ·))) ++
  m.cseq.elim [] (fun c => line (str "CSeq") (c.number.getD [] ++ str " " ++ c.method.getD [])) ++
  m.contact.elim [] (line (str "Contact")) ++
  m.contentType.elim [] (fun c => line (str "Content-Type")
    (c.type.getD [] ++ str "/" ++ c.subtype.getD [])) ++
  m.contentLength.elim [] fun l => line (str "Content-Length") (l.getD [])

/-- The other headers and the bodies. -/
def contentText (m : SipMessage) : CString :=
  ((m.headers.flatMap fun h => line h.1 h.2) ++ str "\r\n\r\n" ++ m.bodies.flatten).filter (· ≠ 0)

/-- The text of a message as osip prints it. -/
def messageText (m : SipMessage) : CString := headText m ++ contentText m

/-- The text of a message outside the list. -/
def numberText (m : SipMessage) : CString :=
  1 :: List.replicate (Encodable.encode m) 97 ++ contentText m

/-- `osip_message_to_str` -/
def toStr (known : List SipMessage) (m : SipMessage) : CString :=
  if m ∈ known then messageText m else numberText m

/-- The number that a text outside the list starts with. -/
def textNumber (s : CString) : Nat := (s.tail.takeWhile (· = 97)).length

/-- `osip_message_parse` -/
def parse (known : List SipMessage) (s : CString) : Option SipMessage :=
  (known.find? fun m => messageText m = s).or
    ((Encodable.decode (α := SipMessage) (textNumber s)).filter fun m => m ∉ known ∧ numberText m = s)

/-! ## Hexadecimal coding -/

def hexDigit (n : Nat) : UInt8 := UInt8.ofNat (if n < 10 then 48 + n else 87 + n)

def hexValue (c : UInt8) : Nat := if c < 58 then c.toNat - 48 else c.toNat - 87

def toHex (bytes : List UInt8) : CString :=
  bytes.flatMap fun b => [hexDigit (b.toNat / 16), hexDigit (b.toNat % 16)]

def ofHex : CString → List UInt8
  | a :: b :: s => UInt8.ofNat (16 * hexValue a + hexValue b) :: ofHex s
  | _ => []

end SampleLibs

open SampleLibs in
/-- The libraries that know the given messages, and read the given address lines. -/
def sampleLibs (known : List SipMessage) (vias : List (CString × Via)) : Libs where
  messageParse := SampleLibs.parse known
  messageToStr := SampleLibs.toStr known
  viaParse s := (vias.find? (·.1 = s)).map Prod.snd
  nameAddrParse _ := none
  uriParse _ := none
  callIdParse _ := none
  decodeToString s n _ := ofHex (s.take n)
  encodeToString bytes _ := toHex bytes

/-- The value of the `Via` header that the program adds, with what osip reads it as. -/
def sampleVias : List (CString × Via) :=
  [(str "SIP/2.0/UDP 127.0.0.1:5063;branch=1;received=smqueue@Range.com",
    ⟨some (str "127.0.0.1"), some (str "5063"), str ";branch=1;received=smqueue@Range.com"⟩)]

/-- The libraries that read the given addresses as well. -/
def addressLibs (known : List SipMessage) (names : List (CString × NameAddr))
    (uris : List (CString × SipUri)) : Libs :=
  { sampleLibs known sampleVias with
    nameAddrParse := fun s => (names.find? (·.1 = s)).map Prod.snd
    uriParse := fun s => (uris.find? (·.1 = s)).map Prod.snd }

/-! ## Sample messages -/

/-- The address of a number at this host, with an optional port. -/
def sampleUri (number : CString) (port : Option CString) : SipUri :=
  ⟨some (str "sip"), some number, some (str "127.0.0.1"), port⟩

/-- A text message from one phone number to another. -/
def sampleRequest : SipMessage where
  sipMethod := some (str "MESSAGE")
  reqUri := some (sampleUri (str "+15550002") none)
  vias := [⟨some (str "127.0.0.1"), some (str "5062"), str ";branch=z9hG4bK1"⟩]
  fromHeader := some ⟨none, some (sampleUri (str "+15550001") none),
    [(str "tag", some (str "7"))]⟩
  toHeader := some ⟨none, some (sampleUri (str "+15550002") none), []⟩
  callId := some ⟨some (str "1"), some (str "127.0.0.1")⟩
  cseq := some ⟨some (str "1"), some (str "MESSAGE")⟩
  contentType := some ⟨some (str "text"), some (str "plain")⟩
  contentLength := some (some (str "2"))
  bodies := [str "hi"]

/-- A response to the sample message. -/
def sampleResponse (code : Int) (reason : CString) : SipMessage :=
  { sampleRequest with
    sipMethod := none, reqUri := none, statusCode := code, reasonPhrase := some reason
    contentType := none, contentLength := some (some (str "0")), bodies := [] }

/-- A message to the number of a command. -/
def sampleCommand : SipMessage :=
  { sampleRequest with
    reqUri := some (sampleUri (str "2336") none)
    toHeader := some ⟨none, some (sampleUri (str "2336") none), []⟩ }

/-- The reply to that message, if the command counts the messages of a queue with one message. -/
def sampleReply : SipMessage where
  sipMethod := some (str "MESSAGE")
  reqUri := some (sampleUri (str "+15550001") (some (str "5062")))
  vias := sampleVias.map Prod.snd
  fromHeader := some ⟨some (str "2336"), some (sampleUri (str "2336") none),
    [(str "tag", some (str "1"))]⟩
  toHeader := some ⟨none, some (sampleUri (str "+15550001") none), []⟩
  callId := some ⟨some (str "1"), some (str "127.0.0.1")⟩
  cseq := some ⟨some (str "1"), some (str "MESSAGE")⟩
  contentType := some ⟨some (str "text"), some (str "plain")⟩
  bodies := [str "1 queued."]

/-- The libraries that know the command and the reply to it. -/
def commandLibs : Libs :=
  addressLibs [sampleCommand, sampleReply]
    [(str "2336<sip:2336@127.0.0.1>;tag=1",
      ⟨some (str "2336"), some (sampleUri (str "2336") none), [(str "tag", some (str "1"))]⟩),
     (str "<sip:+15550001@127.0.0.1>",
      ⟨none, some (sampleUri (str "+15550001") none), []⟩)]
    [(str "sip:+15550001@127.0.0.1:5062", sampleUri (str "+15550001") (some (str "5062")))]

/-- A message as it is after its text was parsed. -/
def parsedMsg (sip : SipMessage) : ShortMsg where
  text := some (SampleLibs.messageText sip)
  textLength := (SampleLibs.messageText sip).length
  parsedIsValid := true
  parsed := some sip
  contentType := if sip.isRequest then .textPlain else .unsupportedContent
  msToSc := true

/-- A queued message with the tag of the sample message. -/
def queuedMsg (id : MsgId) (state : SmState) (due : Time) (sip : SipMessage) : ShortMsgPending where
  toShortMsg := parsedMsg sip
  id := id
  state := state
  nextActionTime := due
  qtag := some (str "1--7")
  qtaghash := 49

/-- An environment whose clock stands still. -/
def sampleEnv (now : Time) : Env where
  config := {}
  hlr := {}
  clock := ⟨now, now, now, now, now, now, now, le_rfl, le_rfl, le_rfl, le_rfl, le_rfl, le_rfl⟩
  stringAddr _ _ := []
  msgIsFromRelay _ _ _ := false
  callNumber := str "1"
  randomNumber := 1
  random := 1
  calendar := ⟨2012, 0, 1, 0, 0, 0, 0⟩
  junk _ := false
  miscastPI := 0
  ctime := []
  gatewayRuns := true

end Smqueue

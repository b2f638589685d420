import Smqueue.Sip
import Smqueue.SmsMessages

/-!
# Short messages

`short_msg`: a SIP message held as text, as a parsed tree, or as both. Two flags say which of the
two is there and which is the newer one; every function that edits the tree is expected to call
`parsed_was_changed`.
-/

namespace Smqueue

inductive ContentType
  | unsupportedContent
  | textPlain
  | vnd3gppSms
deriving DecidableEq, Repr

structure ShortMsg where
  /-- The text, up to its first zero byte. -/
  text : Option CString := none
  /-- The length of the text buffer, an `unsigned short`. -/
  textLength : Nat := 0
  /-- The tree is there. -/
  parsedIsValid : Bool := false
  /-- The tree was changed, so that the text is no longer valid. -/
  parsedIsBetter : Bool := false
  /-- The tree. -/
  parsed : Option SipMessage := none
  /-- The content type of the message. -/
  contentType : ContentType := .unsupportedContent
  /-- The content type to convert to before delivery, if any. -/
  convertContentType : ContentType := .unsupportedContent
  /-- The RP-DATA of an encoded body. -/
  rpData : Option RPData := none
  /-- The TPDU of an encoded body. -/
  tlMessage : Option TLMessage := none
  /-- The message goes from a handset to the service centre. -/
  msToSc : Bool := false
  /-- The message has to be packed before delivery. -/
  needRepack : Bool := true
  /-- The message came in from the relay. -/
  fromRelay : Bool := false
deriving DecidableEq, Repr

namespace ShortMsg

/-- `initialize` with a copy of the given bytes -/
def initializeCopy (m : ShortMsg) (buffer : List UInt8) : ShortMsg :=
  let textLength := buffer.length % 2 ^ 16
  { m with textLength := textLength, text := some (cstr (strncpy (cstr buffer) textLength)) }

/-- The bytes that `osip_message_parse(sip, text, text_length)` reads. -/
def buffer (text : CString) (textLength : Nat) : List UInt8 := strncpy text textLength

def parsedWasChanged (m : ShortMsg) : ShortMsg := { m with parsedIsBetter := true }

def makeTextValid (lib : Libs) (m : ShortMsg) : Except Fault ShortMsg :=
  if m.parsedIsBetter && m.parsedIsValid then do
    let dest := lib.messageToStr (← deref m.parsed)
    let textLength := dest.length % 2 ^ 16
    return { m with textLength := textLength, text := some (dest.take textLength),
                    parsedIsValid := true, parsedIsBetter := false }
  else return m

def unparse (lib : Libs) (m : ShortMsg) : Except Fault ShortMsg := do
  let m := { m with rpData := none, tlMessage := none, contentType := .unsupportedContent }
  let m ← if m.parsedIsBetter then m.makeTextValid lib else pure m
  return { m with parsed := none, parsedIsValid := false, parsedIsBetter := false }

def scanWord (s : CString) : CString := s.takeWhile fun c => isalpha c || isdigit c || c = 95

/-- The transfer encoding that a text names: the word after the first place that looks like the
header, or `hex`. -/
def encodingOf (text : CString) : CString :=
  match strcasestr text (str "\r\nContent-Transfer-Encoding") with
  | some s =>
    scanWord ((s.drop (str "\r\nContent-Transfer-Encoding").length).dropWhile
      fun c => isspace c || c = 58)
  | none => str "hex"

/-- The part of a text after its headers. -/
def bodyOf (text : CString) : Option CString := (strstr text (str "\r\n\r\n")).map (List.drop 4)

/-- The content length of a tree as an `unsigned` number of octets. -/
def contentLen (sip : SipMessage) : Nat :=
  match sip.contentLength with
  | some (some value) => (atoi value % 2 ^ 32).toNat
  | _ => 0

/-- `decodeRPData` of the body of a text -/
def decodeRPData (lib : Libs) (text : CString) (sip : SipMessage) : Except Fault (Option RPData) :=
  if contentLen sip = 0 then .ok none
  else do
    let datastring ← deref (bodyOf text)
    parseRPDU (lib.decodeToString datastring (contentLen sip) (encodingOf text))

/-- The part of `parse` after the SIP parser: the content type, and the RP-DATA and the TPDU of an
encoded message. -/
def parseContent (lib : Libs) (m : ShortMsg) (text : CString) (sip : SipMessage) :
    Except Fault (Bool × ShortMsg) := do
  match sip.contentType with
  | none => return (true, { m with contentType := .unsupportedContent })
  | some ct =>
    if ← ct.is (str "text") (str "plain") then
      return (true, { m with contentType := .textPlain })
    else if ← ct.is (str "application") (str "vnd.3gpp.sms") then
      let m := { m with contentType := .vnd3gppSms }
      match ← decodeRPData lib text sip with
      | none => return (true, { m with rpData := none })
      | some rp =>
        -- outside of the try block of decodeRPData
        match ← parseTPDU (Frame.develop (fun _ => false) rp.tpdu) with
        | none => return (false, { m with rpData := some rp, tlMessage := none })
        | some tl => return (true, { m with rpData := some rp, tlMessage := some tl })
    else return (true, m)

def parse (lib : Libs) (m : ShortMsg) : Except Fault (Bool × ShortMsg) := do
  if m.parsedIsValid then return (true, m)
  let m ← m.unparse lib
  match m.text with
  | none => return (false, m)
  | some text =>
    match lib.messageParse (buffer text m.textLength) with
    | none => return (false, m)
    | some sip =>
      parseContent lib { m with parsed := some sip, parsedIsValid := true, parsedIsBetter := false }
        text sip

/-- The decoded user data, or nothing where it cannot be decoded: the `try` block of `get_text` -/
def decodedText (ud : TLUserData) : Except Fault CString :=
  match ud.decode with
  | .error .smsReadError => .ok []
  | r => r

def getText (m : ShortMsg) : Except Fault CString := do
  match m.contentType with
  | .textPlain => return (← deref m.parsed).bodies.headD []
  | .vnd3gppSms =>
    match m.msToSc, m.tlMessage with
    | true, some (.submit s) => decodedText s.ud
    | false, some (.deliver d) => decodedText d.ud
    | _, _ => return []
  | .unsupportedContent => return []

def convertMessage (m : ShortMsg) (toType : ContentType) : ShortMsg :=
  { m with convertContentType := toType }

end ShortMsg

end Smqueue

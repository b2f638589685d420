import Smqueue.Pending

/-!
# Packing messages for delivery

The part of `smsc.cpp` that turns a message from a handset into the message to the handset it goes
to, with the conversions between plain text and TPDUs.
-/

namespace Smqueue

namespace ShortMsg

/-- Replace the text of the first body, if there is a body. -/
def setBody (sip : SipMessage) (body : CString) : SipMessage :=
  match sip.bodies with
  | [] => sip
  | _ :: rest => { sip with bodies := body :: rest }

/-- Replace the content type, which the program does not check to be there. -/
def setContentType (sip : SipMessage) (type subtype : CString) : Except Fault SipMessage := do
  let _ ← deref sip.contentType
  return { sip with contentType := some ⟨some type, some subtype⟩ }

def packTpdu (lib : Libs) (env : Env) (m : ShortMsg) : Except Fault ShortMsg := do
  let rp ← deref m.rpData
  let packet := packToString (Frame.develop env.junk (← rp.write))
  let omsg ← deref m.parsed
  if omsg.bodies.isEmpty then return m.parsedWasChanged
  let encoding := encodingOf (← deref m.text)
  let omsg := setBody omsg (lib.encodeToString packet encoding)
  return { m with parsed := some omsg }.parsedWasChanged

/-- The TP-PID of the SMS-DELIVER: only one value is passed on from the SMS-SUBMIT, and a text may
name another one. -/
def tlpid (env : Env) (m : ShortMsg) (body : CString) : Nat :=
  let pi := match m.tlMessage with
    | none => 0
    | some (.submit s) => s.pi
    | some (.deliver _) => env.miscastPI
  let pid := if pi ≠ 0x40 then 0 else pi
  let number := body.drop (str "#!TLPID").length
  if (str "#!TLPID").isPrefixOf body && !(strtolDigits number).2.isEmpty then
    (strtol number % 2 ^ 32).toNat
  else pid

def createSmsDelivery (lib : Libs) (env : Env) (body : CString) (ud : TLUserData) (m : ShortMsg) :
    Except Fault ShortMsg := do
  let fromHeader ← deref (← deref m.parsed).fromHeader
  let sender ← match fromHeader.displayname with
    | some name => pure name
    | none => do deref (← deref fromHeader.url).username
  let deliver : TLDeliver :=
    { oa := Address.ofDigits sender, pid := tlpid env m body, scts := env.calendar, ud := ud }
  let rp ← RPData.ofDeliver (env.random % 255) (Address.ofDigits env.config.fakeSrcSmsc) deliver
  let m ← packTpdu lib env { m with rpData := some rp, tlMessage := some (.deliver deliver) }
  return { m with msToSc := false }

def packTextToTpdu (lib : Libs) (env : Env) (body : CString) (m : ShortMsg) :
    Except Fault (Bool × ShortMsg) := do
  let m ← createSmsDelivery lib env body (TLUserData.encode7bit body) m
  let omsg ← setContentType (← deref m.parsed) (str "application") (str "vnd.3gpp.sms")
  return (true, { m with parsed := some omsg }.parsedWasChanged)

def packPlainText (body : CString) (m : ShortMsg) : Except Fault (Bool × ShortMsg) := do
  let omsg := setBody (← deref m.parsed) body
  let omsg ← setContentType omsg (str "text") (str "plain")
  return (true, { m with parsed := some omsg, msToSc := false }.parsedWasChanged)

def recodeTpdu (lib : Libs) (env : Env) (body : CString) (m : ShortMsg) :
    Except Fault (Bool × ShortMsg) := do
  match m.tlMessage with
  | none => return (false, m)
  | some (.submit s) => return (true, ← createSmsDelivery lib env body s.ud m)
  -- an SMS-DELIVER has the number of an SMS-DELIVER-REPORT
  | some (.deliver _) => return (false, m)

/-- The packing that `pack_sms_for_delivery` chooses for the text of the message. -/
def packAs (lib : Libs) (env : Env) (msgtext : CString) (m : ShortMsg) :
    Except Fault (Bool × ShortMsg) :=
  match m.convertContentType, m.contentType with
  | .textPlain, _ => packPlainText msgtext m
  | .vnd3gppSms, _ => packTextToTpdu lib env msgtext m
  | .unsupportedContent, .textPlain => packPlainText msgtext m
  -- no need to recode if it goes to the handset already
  | .unsupportedContent, .vnd3gppSms =>
    if m.msToSc then recodeTpdu lib env msgtext m else .ok (true, m)
  | .unsupportedContent, .unsupportedContent => .ok (false, m)

def packSmsForDelivery (lib : Libs) (env : Env) (m : ShortMsg) :
    Except Fault (Bool × ShortMsg) := do
  if !m.needRepack then return (true, m)
  let (_, m) ← m.parse lib
  let (ok, m) ← packAs lib env (← m.getText) m
  return (ok, if ok then { m with needRepack := false } else m)

end ShortMsg

end Smqueue

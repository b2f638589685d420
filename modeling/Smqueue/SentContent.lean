import Smqueue.Smsc
import Smqueue.LibLaws
import Smqueue.PduLayout

/-!
# What a packed message carries

A message goes out with the content of its tree: its text is the first body, or the user data of the
SMS-DELIVER in it, which has to be read off the octets that the body encodes.
-/

namespace Smqueue

/-! ## Content that goes out -/

/-- The user data of an SMS-DELIVER that is laid out as `d`, read off the bits of its TPDU. -/
def TLDeliver.readUserData (d : TLDeliver) (tpdu : List Bool) : Option TLUserData :=
  (TLUserData.parse tpdu (fieldAt tpdu d.dcsAt 8) (fieldAt tpdu 1 1 = 1) d.udAt).toOption.map
    Prod.fst

namespace ShortMsg

/-- The content type of the tree. -/
def sentType (m : ShortMsg) : Option MediaType := m.parsed.bind SipMessage.contentType

/-- The TPDU of the RP-DATA that the body encodes. -/
def sentTpdu (lib : Libs) (m : ShortMsg) : Option (List Bool) := do
  let body ← (← m.parsed).bodies.head?
  let encoding := encodingOf (← m.text)
  let rp ← (parseRPDU (lib.decodeToString body body.length encoding)).toOption.join
  return Frame.develop (fun _ => false) rp.tpdu

/-- The user data that goes out: that of the SMS-DELIVER in the body, or that of the SMS-SUBMIT that
the message came with and still has. -/
def sentUserData (lib : Libs) (m : ShortMsg) : Option TLUserData :=
  if m.sentType = some ⟨some (str "application"), some (str "vnd.3gpp.sms")⟩ then
    match m.tlMessage with
    | some (.deliver d) => (m.sentTpdu lib).bind d.readUserData
    | some (.submit s) => some s.ud
    | none => none
  else none

/-- The text that goes out: the body, or the decoded user data. -/
def sentText (lib : Libs) (m : ShortMsg) : Except Fault CString :=
  if m.sentType = some ⟨some (str "text"), some (str "plain")⟩ then
    .ok (m.parsed.elim [] fun sip => sip.bodies.headD [])
  else
    match m.msToSc, m.tlMessage with
    | true, some (.submit _) | false, some (.deliver _) =>
      (m.sentUserData lib).elim (.ok []) decodedText
    | _, _ => .ok []

end ShortMsg

/-! ## Content that is kept -/

/-- The texts differ at most where the first one has a character outside of the alphabet. -/
structure SameText (t t' : CString) : Prop where
  length : t'.length = t.length
  char : ∀ (i : Nat) c, t[i]? = some c → c ∈ gGSMAlphabet → t'[i]? = some c

/-- The user data are the same, with a last octet that was filled up. -/
structure SameUserData (ud ud' : TLUserData) : Prop where
  dcs : ud'.dcs = ud.dcs
  udhi : ud'.udhi = ud.udhi
  length : ud'.length = ud.length
  rawData : ∃ fill : List Bool, fill.length < 8 ∧ ud'.rawData = ud.rawData ++ fill

namespace ShortMsg

/-- The message was parsed from a text, after which its flags, its text and the addresses of its tree
may have been changed. -/
structure WasParsed (lib : Libs) (m : ShortMsg) : Prop where
  valid : m.parsedIsValid = true
  parse : ∃ (m0 m1 : ShortMsg) (ok : Bool) (sip1 sip : SipMessage), m0.parsedIsValid = false ∧
    m0.parse lib = .ok (ok, m1) ∧ m1.parsed = some sip1 ∧ m.parsed = some sip ∧
    sip.contentType = sip1.contentType ∧ sip.bodies = sip1.bodies ∧
    m.contentType = m1.contentType ∧ m.tlMessage = m1.tlMessage

/-- `m'` goes out with the text `t` of `m`, and with the user data of `m` if they cannot be
decoded. -/
structure ContentSent (lib : Libs) (m : ShortMsg) (t : CString) (m' : ShortMsg) : Prop where
  text : ∃ t', m'.sentText lib = .ok t' ∧ SameText t t'
  userData : ∀ s, m.tlMessage = some (.submit s) → decodable s.ud.dcs = false →
    ∃ ud', m'.sentUserData lib = some ud' ∧ SameUserData s.ud ud'

end ShortMsg

/-! ## When content is kept -/

/-- The number or name that an SMS-DELIVER names as its sender. -/
def SipMessage.sender (sip : SipMessage) : Option CString :=
  sip.fromHeader.bind fun f => f.displayname.or (f.url.bind SipUri.username)

/-- The octets of the SMS-DELIVER with the user data `ud`. -/
def SipMessage.deliverOctets (sip : SipMessage) (ud : TLUserData) : Nat :=
  10 + TLAddress.length (Address.ofDigits (sip.sender.getD [])) + ud.octets

/-- The text does not fit into the user data, but would if the last octet were filled up, and it does
not end with the header. -/
def TLUserData.LastSeptetCut (ud : TLUserData) : Prop :=
  decodable ud.dcs = true ∧ ud.rawData.length < 7 * ud.length ∧
    7 * ud.length ≤ (ud.rawData.length + 7) / 8 * 8 ∧
    ¬ (ud.udhi = true ∧ udhSeptets (Frame.ofBits (ud.rawData.take 8).reverse) = ud.length)

/-- User data that stay the same in an SMS-DELIVER: there is a body for it, its length fits into the
length octet in front of it, and its last septet is all there. Else there is no text to be lost. -/
def Recodable (sip : SipMessage) (ud : TLUserData) (t : CString) : Prop :=
  if sip.bodies ≠ [] ∧ sip.deliverOctets ud ≤ 255 then ¬ ud.LastSeptetCut
  else t = [] ∧ decodable ud.dcs = true

/-- Packing keeps the content: a conversion needs a body for the text and user data that can be
decoded, and a conversion to user data a text whose length fits into an octet. -/
def ShortMsg.Packable (m : ShortMsg) (sip : SipMessage) (t : CString) : Prop :=
  let converts := (t ≠ [] → sip.bodies ≠ []) ∧
    ∀ s, m.tlMessage = some (.submit s) → decodable s.ud.dcs = true
  match m.convertContentType with
  | .textPlain => converts
  | .vnd3gppSms => converts ∧ t.length ≤ 255
  | .unsupportedContent =>
    ∀ s, m.tlMessage = some (.submit s) → m.msToSc = true → Recodable sip s.ud t

/-- Packing encodes an SMS-DELIVER into the body. -/
def ShortMsg.EncodesBody (m : ShortMsg) (sip : SipMessage) : Prop :=
  sip.bodies ≠ [] ∧ (m.convertContentType = .vnd3gppSms ∨
    m.convertContentType = .unsupportedContent ∧ m.contentType = .vnd3gppSms ∧ m.msToSc = true)

/-- A body that is encoded is encoded in a known transfer coding. -/
def ShortMsg.CodingKnown (m : ShortMsg) (sip : SipMessage) : Prop :=
  m.EncodesBody sip → ∀ text ∈ m.text, KnownCoding (encodingOf text)

end Smqueue

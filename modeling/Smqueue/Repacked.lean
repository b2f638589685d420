import Smqueue.SentContent

/-!
# The text of a packed message

`get_text` goes by the content type and the direction of a message, which packing does not set
together with its TPDU and its tree.
-/

namespace Smqueue

/-- The text in the user data of a TPDU. -/
def TLMessage.text : TLMessage → Except Fault CString
  | .submit s => ShortMsg.decodedText s.ud
  | .deliver d => ShortMsg.decodedText d.ud

/-- Bodies get longer when they are coded, as in hexadecimal and in base 64: there are four characters
or more for three octets. -/
def Libs.Lengthens (lib : Libs) (encoding : CString) : Prop :=
  ∀ bytes, 4 * bytes.length ≤ 3 * (lib.encodeToString bytes encoding).length

namespace ShortMsg

/-- `get_text` gives the text, with characters outside of the alphabet replaced. -/
def StillReads (m : ShortMsg) (t : CString) : Prop := ∃ t', m.getText = .ok t' ∧ SameText t t'

/-- A text that is packed into a TPDU has no body that is replaced, and a TPDU from a handset that is
packed into a text holds no text. -/
def KeepsText (m : ShortMsg) : Prop :=
  match m.convertContentType, m.contentType with
  | .vnd3gppSms, .textPlain => ∀ sip, m.parsed = some sip → sip.bodies = []
  | .textPlain, .vnd3gppSms => m.msToSc = true → ∀ tl, m.tlMessage = some tl → tl.text = .ok []
  | _, _ => True

end ShortMsg

end Smqueue

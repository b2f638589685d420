import Smqueue.ReadErrors

/-!
# Parses that fail

A message that cannot be parsed stays without a tree, so that the next parse fails as well. `parse`
marks the tree as valid when the SIP parser is done, and goes on to the TPDU.
-/

namespace Smqueue

namespace ShortMsg

/-- The message is an encoded SMS that has not been parsed, and its RP-DATA carries the TPDU. -/
def CarriesTpdu (lib : Libs) (m : ShortMsg) (tpdu : List Bool) : Prop :=
  m.parsedIsValid = false ∧ ∃ text sip rp,
    m.text = some text ∧ lib.messageParse (buffer text m.textLength) = some sip ∧
    sip.contentType = some ⟨some (str "application"), some (str "vnd.3gpp.sms")⟩ ∧
    decodeRPData lib text sip = .ok (some rp) ∧ tpdu = Frame.develop (fun _ => false) rp.tpdu

/-- By its type, the TPDU is no SMS-SUBMIT. -/
def OtherTpdu (tpdu : List Bool) : Prop := 8 ≤ tpdu.length ∧ fieldAt tpdu 6 2 ≠ 1

/-- A parse that fails leaves the message without a tree, and another parse of the same message has
the same result as the first one. -/
def ParseIsRepeatable (lib : Libs) (m : ShortMsg) : Prop :=
  ∀ ok m', m.parse lib = .ok (ok, m') →
    (ok = false → m'.parsedIsValid = false) ∧ ∃ m'', m'.parse lib = .ok (ok, m'')

end ShortMsg

end Smqueue

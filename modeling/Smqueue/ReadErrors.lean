import Smqueue.ShortMsg

/-!
# Which messages make the parser throw

`decodeRPData` catches both read errors, but `parseTPDU` runs after it. An SMS-SUBMIT makes it throw
by its destination address alone: by a clear extension bit, or by more digits than the digit array
holds.
-/

namespace Smqueue

/-- `SMSReadError` and `L3ReadError` -/
def Fault.IsReadError (e : Fault) : Prop := e = .smsReadError ∨ e = .l3ReadError

/-- The value of the `n` bits at position `p`. -/
def fieldAt (bs : List Bool) (p n : Nat) : Nat := Frame.ofBits ((bs.drop p).take n)

/-- The number of digits in `k` octets of BCD digits at position `p`: an octet holds one digit if
its first nibble is the filler, and two otherwise. -/
def digitCount (bs : List Bool) (p : Nat) : Nat → Nat
  | 0 => 0
  | k + 1 => digitCount bs p k + if fieldAt bs (p + 8 * k) 4 ≠ 15 then 2 else 1

/-- The extension bit of the destination address is clear. -/
def NoExtensionBit (tpdu : List Bool) : Prop := 25 ≤ tpdu.length ∧ fieldAt tpdu 24 1 ≠ 1

/-- Within the octets that the destination address announces and that are there, the digits (and
the plus of an international number) become more than the digit array holds. -/
def TooManyDigits (tpdu : List Bool) : Prop :=
  fieldAt tpdu 24 1 = 1 ∧ ∃ k ≤ fieldAt tpdu 16 8 / 2 + fieldAt tpdu 16 8 % 2,
    32 + 8 * k ≤ tpdu.length ∧
      maxDigits < (if fieldAt tpdu 25 3 = internationalNumber then 1 else 0) + digitCount tpdu 32 k

/-- A TPDU from the handset whose destination address cannot be read. -/
def BadDestination (tpdu : List Bool) : Prop :=
  fieldAt tpdu 6 2 = 1 ∧ (NoExtensionBit tpdu ∨ TooManyDigits tpdu)

/-- The message is an encoded SMS whose RP-DATA can be read but carries a TPDU with a bad
destination address. -/
def ShortMsg.CarriesBadDestination (lib : Libs) (m : ShortMsg) : Prop :=
  m.parsedIsValid = false ∧ ∃ text sip ct rp,
    m.text = some text ∧ lib.messageParse (ShortMsg.buffer text m.textLength) = some sip ∧
    sip.contentType = some ct ∧ ct = ⟨some (str "application"), some (str "vnd.3gpp.sms")⟩ ∧
    ShortMsg.decodeRPData lib text sip = .ok (some rp) ∧
    BadDestination (Frame.develop (fun _ => false) rp.tpdu)

end Smqueue

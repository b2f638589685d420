import Smqueue.PduLayout

/-!
# Truncated PDUs

Which octet strings make the parsers of RP-DATA and of the TPDU read past the end of their frame. The
user data of RP-DATA alone is checked against the end; every other element is read before anything
is known about its length.
-/

namespace Smqueue

/-- The place that the plus of an international number at `p` takes in the digit array. -/
def plusAt (bs : List Bool) (p : Nat) : Nat :=
  if fieldAt bs (p + 1) 3 = internationalNumber then 1 else 0

/-- The type, the plan and `n` octets of digits at `p` are there and fit into the digit array. -/
structure NumberFits (bs : List Bool) (p n : Nat) : Prop where
  extension : fieldAt bs p 1 = 1
  inside : p + 8 + 8 * n ≤ bs.length
  digits : plusAt bs p + digitCount bs (p + 8) n ≤ maxDigits

/-- The frame ends in a number at `p` with `n` octets of digits, and nothing is wrong with the number
up to there. -/
def NumberCut (bs : List Bool) (p n : Nat) : Prop :=
  bs.length < p + 1 ∨ fieldAt bs p 1 = 1 ∧ bs.length < p + 8 + 8 * n ∧
    plusAt bs p + digitCount bs (p + 8) ((bs.length - (p + 8)) / 8) ≤ maxDigits

/-! ## RP-DATA -/

/-- The bit behind the element with its length octet at `p`. -/
def elementEnd (bs : List Bool) (p : Nat) : Nat := p + 8 + 8 * fieldAt bs p 8

/-- The address with its length octet at `p` can be read. -/
def RPAddress.Fits (bs : List Bool) (p : Nat) : Prop :=
  p + 8 ≤ bs.length ∧ (fieldAt bs p 8 ≠ 0 → NumberFits bs (p + 8) (fieldAt bs p 8 - 1))

/-- The frame ends in the address with its length octet at `p`. -/
def RPAddress.Cut (bs : List Bool) (p : Nat) : Prop :=
  bs.length < p + 8 ∨ fieldAt bs p 8 ≠ 0 ∧ NumberCut bs (p + 8) (fieldAt bs p 8 - 1)

namespace RPData

/-- Where the destination is. -/
def destinationAt (frame : List Bool) : Nat := elementEnd frame 16

/-- Where the user data is. -/
def userDataAt (frame : List Bool) : Nat := elementEnd frame (destinationAt frame)

/-- Both addresses can be read. -/
def AddressesFit (frame : List Bool) : Prop :=
  RPAddress.Fits frame 16 ∧ RPAddress.Fits frame (destinationAt frame)

/-- The frame ends in the reference, in an address or in the length octet of the user data. -/
def Cut (frame : List Bool) : Prop :=
  frame.length < 16 ∨ RPAddress.Cut frame 16 ∨
    RPAddress.Fits frame 16 ∧ (RPAddress.Cut frame (destinationAt frame) ∨
      RPAddress.Fits frame (destinationAt frame) ∧ frame.length < userDataAt frame + 8)

/-- The message can be read. -/
def Fits (frame : List Bool) : Prop :=
  AddressesFit frame ∧ userDataAt frame + 8 ≤ frame.length ∧
    elementEnd frame (userDataAt frame) ≤ frame.length

/-- The TPDU in the message. -/
def tpduOf (frame : List Bool) : List Bool :=
  (frame.drop (userDataAt frame + 8)).take (8 * fieldAt frame (userDataAt frame) 8)

end RPData

/-! ## The TPDU -/

/-- The TPDU ends in the octet with its type or, if it is an SMS-SUBMIT, in front of the user data. -/
def TpduCut (tpdu : List Bool) : Prop :=
  tpdu.length < 8 ∨ fieldAt tpdu 6 2 = 1 ∧ (tpdu.length < 24 ∨
    NumberCut tpdu 24 (TLSubmit.addressOctets tpdu) ∨
      NumberFits tpdu 24 (TLSubmit.addressOctets tpdu) ∧ tpdu.length < TLSubmit.udAt tpdu + 8)

/-- No parser reads past the end of its frame. -/
def ReadsInside (binaryData : List UInt8) : Prop :=
  parseRPDU binaryData ≠ .error .assertion ∧
    ∀ rp, parseRPDU binaryData = .ok (some rp) →
      parseTPDU (Frame.develop (fun _ => false) rp.tpdu) ≠ .error .assertion

end Smqueue

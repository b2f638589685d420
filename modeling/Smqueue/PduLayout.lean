import Smqueue.SmsMessages
import Smqueue.ReadErrors

/-!
# The layout of the PDUs

Which bits stand where in an SMS-DELIVER and in the RP-DATA message around it, and where the fields
of an SMS-SUBMIT are.
-/

namespace Smqueue

open Frame (Sheet blank toBits)

/-! ## Elements -/

/-- Digits as they are written: two an octet, the second one first, with a filler at the end. -/
def digitBits : CString → List Bool
  | a :: b :: ds => toBits 4 (encode b) ++ toBits 4 (encode a) ++ digitBits ds
  | [a] => toBits 4 15 ++ toBits 4 (encode a)
  | [] => []

/-- The type, the plan and the digits of an address. -/
def Address.bits (a : Address) : List Bool :=
  toBits 1 1 ++ toBits 3 a.type ++ toBits 4 a.plan ++ digitBits (dropPlus a.digits)

def pairBits (v : Nat) : List Bool := toBits 4 (v % 10) ++ toBits 4 (v / 10)

/-- A time stamp: six pairs of digits and the time zone. -/
def Tm.bits (t : Tm) : List Bool :=
  let zone := t.gmtoff.tdiv (15 * 60)
  pairBits (t.year % 100) ++ pairBits (t.mon + 1) ++ pairBits t.mday ++ pairBits t.hour ++
    pairBits t.min ++ pairBits t.sec ++
    (toBits 4 (zone.natAbs % 10) ++ toBits 1 (if zone < 0 then 1 else 0) ++
      toBits 3 (zone.natAbs / 10))

/-- The octets of user data: the bits that fill up the last octet are not written. -/
def TLUserData.sheet (ud : TLUserData) : Sheet :=
  Frame.reverseOctets (ud.rawData.map some ++
    blank ((ud.rawData.length + 7) / 8 * 8 - ud.rawData.length))

/-- The septets of the header, by the length octet in front of it. -/
def TLUserData.headerSeptets (ud : TLUserData) : Nat :=
  udhSeptets (Frame.ofBits (ud.rawData.take 8).reverse)

/-- The coding scheme is one of text, and the septets are there. -/
def TLUserData.Readable (ud : TLUserData) : Prop :=
  decodable ud.dcs = true ∧ ud.length * 7 ≤ ud.rawData.length

/-! ## SMS-DELIVER -/

/-- The first octet of an SMS-DELIVER: no more messages are waiting, and of the other flags only the
header indicator can be set. -/
def TLDeliver.headerBits (udhi : Bool) : List Bool :=
  [false, udhi, false, false, false, true, false, false]

/-- The fields between the first octet and the user data. -/
def TLDeliver.fieldBits (d : TLDeliver) : List Bool :=
  toBits 8 d.oa.digits.length ++ d.oa.bits ++ toBits 8 d.pid ++ toBits 8 d.ud.dcs ++ d.scts.bits ++
    toBits 8 d.ud.length

def TLDeliver.sheet (d : TLDeliver) : Sheet :=
  (TLDeliver.headerBits d.ud.udhi ++ d.fieldBits).map some ++ d.ud.sheet

/-- `bitsNeeded()` of an SMS-DELIVER. The length of its user data is asserted to have a coding scheme of
one octet. -/
def TLDeliver.bitsNeeded (d : TLDeliver) : Except Fault Nat :=
  if d.ud.dcs < 256 then .ok (d.octets * 8) else .error .assertion

/-- Where the data coding scheme of an SMS-DELIVER is. -/
def TLDeliver.dcsAt (d : TLDeliver) : Nat := 8 * (TLAddress.length d.oa + 2)

/-- Where the length octet of the user data is, and behind it the user data. -/
def TLDeliver.udAt (d : TLDeliver) : Nat := TLDeliver.dcsAt d + 64

/-! ## RP-DATA -/

/-- An address with its length octet. -/
def RPAddress.bits (a : Address) : List Bool :=
  toBits 8 (RPAddress.lengthV a) ++ if RPAddress.lengthV a ≠ 0 then a.bits else []

/-- The message in front of its TPDU. -/
def RPData.headBits (d : RPData) : List Bool :=
  toBits 5 0 ++ toBits 3 1 ++ toBits 8 d.reference ++ RPAddress.bits d.originator ++
    RPAddress.bits d.destination ++ toBits 8 d.tpduLengthV

/-- Digits, stars and hashes, if any, behind an optional plus, that fit into the digit array. -/
def IsDigits (digits : CString) : Prop :=
  digits.length ≤ maxDigits ∧ ∀ c ∈ dropPlus digits, c = 42 ∨ c = 35 ∨ isdigit c = true

/-- A number of a service centre: digits, stars and hashes, at least one of them, behind an optional
plus, that fit into the digit array. -/
def IsNumber (number : CString) : Prop :=
  number.length ≤ maxDigits ∧ dropPlus number ≠ [] ∧
    ∀ c ∈ dropPlus number, c = 42 ∨ c = 35 ∨ isdigit c = true

/-! ## SMS-SUBMIT -/

/-- The octets of digits that the destination address announces. -/
def TLSubmit.addressOctets (tpdu : List Bool) : Nat :=
  fieldAt tpdu 16 8 / 2 + fieldAt tpdu 16 8 % 2

/-- Where the protocol identifier is, and behind it the data coding scheme. -/
def TLSubmit.piAt (tpdu : List Bool) : Nat := 32 + 8 * TLSubmit.addressOctets tpdu

/-- The bits over which the parser moves for a validity period format: nine bits are read for the
time zone, and of the enhanced format seven bits are taken. -/
def validityBits (vpf : Nat) : Nat :=
  if vpf = 2 then 8 else if vpf = 3 then 57 else if vpf = 1 then 7 else 0

/-- Where the length octet of the user data is. -/
def TLSubmit.udAt (tpdu : List Bool) : Nat :=
  TLSubmit.piAt tpdu + 16 + validityBits (fieldAt tpdu 3 2)

end Smqueue

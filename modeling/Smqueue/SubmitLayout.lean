import Smqueue.PduLayout

/-!
# The layout of an SMS-SUBMIT

The octets of an SMS-SUBMIT as GSM 03.40 prescribes them, what a parser should find in them, and what
a decoder should make of the user data in them.
-/

namespace Smqueue

open Frame (toBits)

/-! ## Fields -/

/-- The validity period of an SMS-SUBMIT in its four formats. -/
inductive ValidityPeriod
  | absent
  /-- One octet. -/
  | relative (vp : UInt8)
  /-- Seven octets. -/
  | enhanced (octets : Vector UInt8 7)
  /-- A time stamp of seven octets. -/
  | absolute (t : Tm)

namespace ValidityPeriod

/-- TP-Validity-Period-Format -/
def format : ValidityPeriod → Nat
  | absent => 0
  | enhanced _ => 1
  | relative _ => 2
  | absolute _ => 3

def bits : ValidityPeriod → List Bool
  | absent => []
  | relative vp => toBits 8 vp.toNat
  | enhanced octets => unpack octets.toList
  | absolute t => t.bits

/-- The expiration that the block stands for; one week is assumed where there is none and for the
enhanced format. -/
def expiration : ValidityPeriod → Expiration
  | absent => .week
  | relative vp => .minutes (relativeMinutes vp.toNat)
  | enhanced _ => .week
  | absolute t => .absolute t

end ValidityPeriod

/-- The fields of an SMS-SUBMIT. -/
structure SubmitFields where
  /-- Reject duplicates. -/
  rd : Bool
  /-- Reply path. -/
  rp : Bool
  /-- The user data start with a header. -/
  udhi : Bool
  /-- Status report request. -/
  srr : Bool
  /-- The message reference. -/
  mr : UInt8
  /-- The type of number of the destination. -/
  ton : Nat
  /-- The numbering plan of the destination. -/
  npi : Nat
  /-- The digits of the destination. -/
  digits : CString
  /-- The protocol identifier. -/
  pid : UInt8
  /-- The data coding scheme. -/
  dcs : UInt8
  /-- The validity period. -/
  vp : ValidityPeriod
  /-- The length of the user data, in septets or octets. -/
  udl : UInt8
  /-- The octets of the user data. -/
  ud : List UInt8

/-- A time whose fields have two BCD digits, the zone with one digit of three bits. -/
structure Tm.IsBcd (t : Tm) : Prop where
  mon : t.mon + 1 < 100
  mday : t.mday < 100
  hour : t.hour < 100
  min : t.min < 100
  sec : t.sec < 100
  zone : (t.gmtoff.tdiv (15 * 60)).natAbs < 80

namespace SubmitFields

/-- The fields fit into their places: there are at most 19 digits, so that a plus in front of them has
a place as well. -/
structure Valid (f : SubmitFields) : Prop where
  ton : f.ton < 8
  npi : f.npi < 16
  length : 1 ≤ f.digits.length ∧ f.digits.length ≤ 19
  digits : ∀ c ∈ f.digits, c = 42 ∨ c = 35 ∨ isdigit c = true
  time : ∀ t, f.vp = .absolute t → t.IsBcd

/-- The first octet. -/
def headerBits (f : SubmitFields) : List Bool :=
  [f.rp, f.udhi, f.srr] ++ toBits 2 f.vp.format ++ [f.rd] ++ toBits 2 1

/-- The destination: the number of digits, the type and the plan of the number and the digits. -/
def addressBits (f : SubmitFields) : List Bool :=
  toBits 8 f.digits.length ++ (toBits 1 1 ++ toBits 3 f.ton ++ toBits 4 f.npi) ++ digitBits f.digits

/-- The SMS-SUBMIT with these fields. -/
def bits (f : SubmitFields) : List Bool :=
  f.headerBits ++ (toBits 8 f.mr.toNat ++ (f.addressBits ++ (toBits 8 f.pid.toNat ++
    (toBits 8 f.dcs.toNat ++ (f.vp.bits ++ (toBits 8 f.udl.toNat ++ unpack f.ud))))))

/-- What a parser should find: the type of an international number stands in front of its digits as a
plus, and of the user data the bits of every octet are reversed. -/
def submit (f : SubmitFields) : TLSubmit :=
  { rd := f.rd
    vpf := f.vp.format
    rp := f.rp
    srr := f.srr
    mr := f.mr.toNat
    da := ⟨f.ton, f.npi, (if f.ton == internationalNumber then [43] else []) ++ f.digits⟩
    pi := f.pid.toNat
    vp := f.vp.expiration
    ud := ⟨f.dcs.toNat, f.udhi, f.udl.toNat, Frame.reverseOctets (unpack f.ud)⟩ }

end SubmitFields

/-! ## Addresses -/

/-- The address is read back from a sheet on whose last `n` bits it was written behind `pre`, and reader
and writer stop at the end of its length. -/
def TLAddress.ReadBack (a : Address) (pre : List Bool) (n : Nat) (junk : Nat → Bool) : Prop :=
  ∃ dest, TLAddress.write a (pre.map some ++ Frame.blank n, pre.length) =
      .ok ((), (dest, pre.length + 8 * TLAddress.length a)) ∧
    TLAddress.parse (Frame.develop junk dest) pre.length =
      .ok (a, pre.length + 8 * TLAddress.length a)

/-! ## User data -/

namespace TLUserData

/-- The user data of the SMS-SUBMIT that is received in RP-DATA. -/
def received (binaryData : List UInt8) : Option TLUserData := do
  let rp ← (parseRPDU binaryData).toOption.join
  match (parseTPDU (Frame.develop (fun _ => false) rp.tpdu)).toOption.join with
  | some (.submit s) => some s.ud
  | _ => none

/-- Decoding fails with a read error or gives as many characters as the length leaves behind the
header. -/
def DecodesInside (ud : TLUserData) : Prop :=
  ud.decode = .error .smsReadError ∨ ∃ text, ud.decode = .ok text ∧ text.length ≤ ud.length ∧
    (ud.udhi = true → text.length + ud.headerSeptets = ud.length)

/-- A header that is in front of a text is no longer than the length of the user data. -/
def HeaderFits (ud : TLUserData) : Prop :=
  ud.Readable → ud.udhi = true → ud.headerSeptets ≤ ud.length

end TLUserData

end Smqueue

import Smqueue.GsmCommon

/-!
# Elements of the SMS transport and relay layers

The addresses, the validity period, the time stamp and the user data of an SMS, with their
parsers, writers and lengths. A parser reads a frame at the position of the reader, a writer writes
a sheet at the position of the writer.
-/

namespace Smqueue

/-! ## BCD digits and addresses -/

/-- The character that `L3BCDDigits::parse` stores for a nibble. -/
def bcdChar (d : Nat) : UInt8 := if d = 10 then 42 else if d = 11 then 35 else UInt8.ofNat (d + 48)

/-- The size of the digit array less its terminating zero. -/
def maxDigits : Nat := 20

/-- The loop of `L3BCDDigits::parse` over the octets left, with the characters stored so far. -/
def L3BCDDigits.parseLoop (src : List Bool) : Nat → CString → Read CString
  | 0, mDigits => pure mDigits
  | n + 1, mDigits => do
    let d2 ← readField src 4
    let d1 ← readField src 4
    let mDigits := mDigits ++ [bcdChar d1] ++ if d2 ≠ 15 then [bcdChar d2] else []
    if mDigits.length > maxDigits then throw .l3ReadError
    L3BCDDigits.parseLoop src n mDigits

def L3BCDDigits.parse (src : List Bool) (numOctets : Nat) (international : Bool) : Read CString :=
  L3BCDDigits.parseLoop src numOctets (if international then [43] else [])

/-- `encode`: the nibble of a digit, or zero for a character that has none. -/
def encode (c : UInt8) : Nat :=
  if c = 42 then 10 else if c = 35 then 11 else if isdigit c then c.toNat - 48 else 0

/-- The loop of `L3BCDDigits::write`: two characters an octet, the second one first. -/
def L3BCDDigits.writeLoop : CString → Write Unit
  | a :: b :: ds => do
    writeField (encode b) 4
    writeField (encode a) 4
    L3BCDDigits.writeLoop ds
  | [a] => do
    writeField 15 4
    writeField (encode a) 4
  | [] => pure ()

/-- The digits without a leading plus. -/
def dropPlus : CString → CString
  | 43 :: ds => ds
  | ds => ds

def L3BCDDigits.write (mDigits : CString) : Write Unit := L3BCDDigits.writeLoop (dropPlus mDigits)

def L3BCDDigits.lengthV (mDigits : CString) : Nat :=
  let sz := (dropPlus mDigits).length
  sz / 2 + sz % 2

/-- The type of number for a number with a country code. -/
def internationalNumber : Nat := 1

/-- The type of number for a number without one. -/
def nationalNumber : Nat := 2

/-- The numbering plan of telephone numbers. -/
def e164Plan : Nat := 1

/-- A number with its type and plan, as `TLAddress` and `RPAddress` hold it. -/
structure Address where
  /-- The type of number, three bits. -/
  type : Nat
  /-- The numbering plan, four bits. -/
  plan : Nat
  /-- The digits, with a plus in front of an international number. -/
  digits : CString
deriving DecidableEq, Repr

/-- The constructor of `TLAddress` and of `L3CalledPartyBCDNumber` from a string, which the digit
array cuts off. -/
def Address.ofDigits (wDigits : CString) : Address :=
  { type := if wDigits.head? = some 43 then internationalNumber else nationalNumber
    plan := e164Plan
    digits := wDigits.take maxDigits }

def TLAddress.parse (src : List Bool) : Read Address := do
  let numDigits ← readField src 8
  let length := numDigits / 2 + numDigits % 2
  if (← readField src 1) ≠ 1 then throw .smsReadError
  let mType ← readField src 3
  let mPlan ← readField src 4
  let mDigits ← L3BCDDigits.parse src length (mType == internationalNumber)
  return ⟨mType, mPlan, mDigits⟩

def TLAddress.length (a : Address) : Nat := 2 + L3BCDDigits.lengthV a.digits

def TLAddress.write (a : Address) : Write Unit := do
  writeField a.digits.length 8
  writeField 1 1
  writeField a.type 3
  writeField a.plan 4
  L3BCDDigits.write a.digits

def RPAddress.parseV (src : List Bool) (expectedLength : Nat) : Read Address := do
  if (← readField src 1) ≠ 1 then throw .l3ReadError
  let mType ← readField src 3
  let mPlan ← readField src 4
  let mDigits ← L3BCDDigits.parse src (expectedLength - 1) (mType == internationalNumber)
  return ⟨mType, mPlan, mDigits⟩

def RPAddress.lengthV (a : Address) : Nat :=
  if L3BCDDigits.lengthV a.digits = 0 then 0 else 1 + L3BCDDigits.lengthV a.digits

def RPAddress.writeV (a : Address) : Write Unit := do
  writeField 1 1
  writeField a.type 3
  writeField a.plan 4
  L3BCDDigits.write a.digits

/-! ## Times -/

/-- The fields of a `struct tm` that the SMS library reads and writes. -/
structure Tm where
  /-- The year, as `L3TimeZoneAndTime` has it: 2000 plus two digits when parsed. -/
  year : Nat
  /-- The month. -/
  mon : Nat
  /-- The day of the month. -/
  mday : Nat
  /-- The hour. -/
  hour : Nat
  /-- The minute. -/
  min : Nat
  /-- The second. -/
  sec : Nat
  /-- The offset from UTC in seconds. -/
  gmtoff : Int
deriving DecidableEq, Repr

/-- Two BCD digits, the low one first. -/
def readPair (src : List Bool) : Read Nat := do
  let lo ← readField src 4
  let hi ← readField src 4
  return lo + hi * 10

/-- `L3TimeZoneAndTime::parseV` up to the conversion of the fields: it reads nine bits for the
zone. -/
def L3TimeZoneAndTime.parseV (src : List Bool) : Read Tm := do
  let year ← readPair src
  let mon ← readPair src
  let mday ← readPair src
  let hour ← readPair src
  let min ← readPair src
  let sec ← readPair src
  let zone ← readField src 4
  let zoneSign ← readField src 1
  let zone := zone + 10 * (← readField src 4)
  -- the zone is an unsigned int, so its negation wraps
  let zone := if zoneSign ≠ 0 then (2 ^ 32 - zone) % 2 ^ 32 else zone
  return ⟨2000 + year, 1 + mon, mday, hour, min, sec, (zone * 900 % 2 ^ 32 : Nat)⟩

/-- Two BCD digits of `v`, the low one first. -/
def writePair (v : Nat) : Write Unit := do
  writeField (v % 10) 4
  writeField (v / 10) 4

/-- `L3TimeZoneAndTime::writeV` of the calendar fields of its time. -/
def L3TimeZoneAndTime.writeV (fields : Tm) : Write Unit := do
  writePair (fields.year % 100)
  writePair (fields.mon + 1)
  writePair fields.mday
  writePair fields.hour
  writePair fields.min
  writePair fields.sec
  let zone := fields.gmtoff.tdiv (15 * 60)
  writeField (zone.natAbs % 10) 4
  writeField (if zone < 0 then 1 else 0) 1
  writeField (zone.natAbs / 10) 3

/-- The expiration that a validity period field stands for. -/
inductive Expiration
  /-- The given number of minutes from now. -/
  | minutes (n : Nat)
  /-- At a given time. -/
  | absolute (fields : Tm)
  /-- One week from now. -/
  | week
deriving DecidableEq, Repr

/-- The minutes that a relative validity period stands for. -/
def relativeMinutes (vp : Nat) : Nat :=
  if vp < 144 then (vp + 1) * 5
  else if vp < 168 then 12 * 60 + (vp - 143) * 30
  else if vp < 197 then 24 * 60 * (vp - 166)
  else 7 * 24 * 60 * (vp - 192)

/-- `TLValidityPeriod::parse` for a validity period format. -/
def TLValidityPeriod.parse (src : List Bool) (mVPF : Nat) : Read Expiration :=
  match mVPF with
  | 2 => do
    let vp ← readField src 8
    return .minutes (relativeMinutes vp)
  | 3 => do
    let fields ← L3TimeZoneAndTime.parseV src
    return .absolute fields
  | 1 => do
    -- the position moves seven bits, not seven octets, over the enhanced format
    modify (· + 7)
    return .week
  | 0 => return .week
  | _ => throw .assertion

end Smqueue

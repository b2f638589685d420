import Smqueue.SmsElements

/-!
# SMS messages

The user data of an SMS, the transport layer messages SMS-SUBMIT (from the handset) and SMS-DELIVER
(to the handset), and the relay layer message RP-DATA that carries them.
-/

namespace Smqueue

/-! ## User data -/

/-- `TLUserData`. The raw data is kept with the bits of every octet reversed, so that its septets
can be read off it from the front. -/
structure TLUserData where
  /-- The data coding scheme. -/
  dcs : Nat
  /-- The user data starts with a header. -/
  udhi : Bool
  /-- TP-User-Data-Length. -/
  length : Nat
  /-- The raw packed data. -/
  rawData : List Bool
deriving DecidableEq, Repr

/-- The data coding schemes that `TLUserData::decode` reads as 7-bit text. -/
def decodable (dcs : Nat) : Bool := dcs ∈ [0, 244, 245, 246, 247]

def TLUserData.encode7bit (text : CString) : TLUserData :=
  let bytes := (text.length * 7 + 7) / 8
  let fillerBits := bytes * 8 - text.length * 7
  { dcs := 0
    udhi := false
    length := text.length
    rawData := (text.flatMap fun c => (Frame.toBits 7 (encodeGSMChar c)).reverse) ++
      List.replicate fillerBits false }

/-- The loop of `TLUserData::decode` over the characters left. -/
def TLUserData.decodeLoop (raw : List Bool) : Nat → Read CString
  | 0 => pure []
  | n + 1 => do
    let gsm ← readFieldReversed raw 7
    let text ← TLUserData.decodeLoop raw n
    return decodeGSMChar gsm :: text

/-- The septets that a user data header of `udhl` octets takes, with its length octet and fill
bits. -/
def udhSeptets (udhl : Nat) : Nat := (udhl * 8 + 8 + 6) / 7

def TLUserData.decode (ud : TLUserData) : Except Fault CString := do
  if !decodable ud.dcs then throw .smsReadError
  if ud.length * 7 > ud.rawData.length then throw .smsReadError
  if ud.udhi then
    let udhl ← Frame.peekReversed .assertion ud.rawData 0 8
    -- the text length is an unsigned int: a header longer than the text wraps it around
    let textLength := (ud.length + 2 ^ 32 - udhSeptets udhl) % 2 ^ 32
    return (← TLUserData.decodeLoop ud.rawData textLength (udhSeptets udhl * 7)).1
  return (← TLUserData.decodeLoop ud.rawData ud.length 0).1

/-- `TLUserData::size` in octets, with the length octet: `TLUserData::length()` -/
def TLUserData.octets (ud : TLUserData) : Nat := 1 + (ud.rawData.length + 7) / 8

/-- `TLUserData::parse` of user data with the given coding scheme and header indicator: all the
rest of the frame is user data. -/
def TLUserData.parse (src : List Bool) (dcs : Nat) (udhi : Bool) : Read TLUserData := do
  let mLength ← readField src 8
  let rp ← get
  return { dcs := dcs, udhi := udhi, length := mLength,
           rawData := Frame.reverseOctets (src.drop rp) }

/-- `copyTo` a sheet of at least the same size, and then `LSB8MSB` on all of the sheet. -/
def copyReversed (raw : List Bool) (dest : Frame.Sheet) : Except Fault Frame.Sheet :=
  if raw.length ≤ dest.length then
    .ok (Frame.reverseOctets (raw.map some ++ dest.drop raw.length))
  else .error .assertion

def TLUserData.write (ud : TLUserData) : Write Unit := do
  writeField ud.length 8
  Frame.editTail (copyReversed ud.rawData)

/-! ## SMS-SUBMIT and SMS-DELIVER -/

structure TLSubmit where
  /-- Reject duplicates. -/
  rd : Bool
  /-- The validity period format. -/
  vpf : Nat
  /-- Reply path. -/
  rp : Bool
  /-- Status report request. -/
  srr : Bool
  /-- The message reference. -/
  mr : Nat
  /-- The destination address. -/
  da : Address
  /-- The protocol identifier. -/
  pi : Nat
  /-- The validity period. -/
  vp : Expiration
  /-- The user data, with the coding scheme and the header indicator. -/
  ud : TLUserData
deriving DecidableEq, Repr

/-- A bit of the first octet of a frame. -/
def headerBit (fm : List Bool) (i : Nat) : Except Fault Bool := do
  return (← peekField fm i 1) = 1

def TLSubmit.parseBody (src : List Bool) : Read TLSubmit := do
  let rd ← headerBit src 5
  let vpf ← peekField src 3 2
  let rp ← headerBit src 0
  let udhi ← headerBit src 1
  let srr ← headerBit src 2
  let mr ← readField src 8
  let da ← TLAddress.parse src
  let pi ← readField src 8
  let dcs ← readField src 8
  let vp ← TLValidityPeriod.parse src vpf
  let ud ← TLUserData.parse src dcs udhi
  return ⟨rd, vpf, rp, srr, mr, da, pi, vp, ud⟩

/-- `TLMessage::parse` for an SMS-SUBMIT: the body starts after the first octet. -/
def TLSubmit.parse (src : List Bool) : Except Fault TLSubmit :=
  (TLSubmit.parseBody src 8).map Prod.fst

/-- `TLDeliver`. The more-messages, reply-path and status-report bits have the values that the
constructor of `TLMessage` gives them. -/
structure TLDeliver where
  /-- The originating address. -/
  oa : Address
  /-- The protocol identifier. -/
  pid : Nat
  /-- The service centre time stamp, in the fields of its calendar time. -/
  scts : Tm
  /-- The user data. -/
  ud : TLUserData
deriving DecidableEq, Repr

/-- `TLDeliver::length()`, in octets -/
def TLDeliver.octets (d : TLDeliver) : Nat :=
  1 + (TLAddress.length d.oa + 1 + 1 + 7 + d.ud.octets)

def TLDeliver.writeBody (d : TLDeliver) : Write Unit := do
  Frame.setBit .assertion 5 true
  Frame.setBit .assertion 0 false
  Frame.setBit .assertion 1 d.ud.udhi
  Frame.setBit .assertion 2 false
  TLAddress.write d.oa
  writeField d.pid 8
  writeField d.ud.dcs 8
  L3TimeZoneAndTime.writeV d.scts
  Frame.setBit .assertion 3 false
  Frame.setBit .assertion 4 false
  d.ud.write

/-- `TLMessage::write` for an SMS-DELIVER -/
def TLDeliver.write (d : TLDeliver) : Except Fault Frame.Sheet := do
  let writeMTI : Write Unit := do
    Frame.setBit .assertion 6 false
    Frame.setBit .assertion 7 false
  let (_, (dest, _)) ← (do writeMTI; d.writeBody : Write Unit) (Frame.blank (d.octets * 8), 8)
  return dest

/-- A transport layer message that the program holds: a parsed SMS-SUBMIT or an SMS-DELIVER of its
own. -/
inductive TLMessage
  | submit (s : TLSubmit)
  | deliver (d : TLDeliver)
deriving DecidableEq, Repr

/-! ## RP-DATA -/

/-- `RPData`. A parsed message holds the bits of its TPDU, an originated one the sheet that the TPDU
was written on. -/
structure RPData where
  /-- The message reference. -/
  reference : Nat
  /-- The originating service centre. -/
  originator : Address
  /-- The destination service centre. -/
  destination : Address
  /-- The TPDU. -/
  tpdu : Frame.Sheet
deriving DecidableEq, Repr

/-- `RPAddress()` -/
def RPAddress.empty : Address := ⟨0, 0, []⟩

def RPUserData.parseV (src : List Bool) (expectedLength : Nat) : Read (List Bool) := do
  let rp ← get
  if rp + expectedLength * 8 > src.length then throw .smsReadError
  Frame.segment .assertion src (expectedLength * 8)

/-- `L3ProtocolElement::parseLV`: an element of length zero keeps its default. -/
def parseLV {α : Type} (src : List Bool) (default : α) (parseV : Nat → Read α) : Read α := do
  let expectedLength ← readField src 8
  if expectedLength = 0 then return default
  let rpEnd := (← get) + 8 * expectedLength
  let v ← parseV expectedLength
  if rpEnd ≠ (← get) then throw .l3ReadError
  return v

/-- `RPMessage::parse` behind the first octet, with `RPData::parseBody` -/
def RPMessage.parse (frame : List Bool) : Read RPData := do
  let mReference ← readField frame 8
  let mOriginator ← parseLV frame RPAddress.empty (RPAddress.parseV frame)
  let mDestination ← parseLV frame RPAddress.empty (RPAddress.parseV frame)
  let mUserData ← parseLV frame [] (RPUserData.parseV frame)
  return ⟨mReference, mOriginator, mDestination, mUserData.map some⟩

def RPData.parse (frame : List Bool) : Except Fault RPData :=
  (RPMessage.parse frame 8).map Prod.fst

/-- The constructor of `RPData` around a message to the handset. -/
def RPData.ofDeliver (ref : Nat) (wOriginator : Address) (tlm : TLDeliver) :
    Except Fault RPData := do
  return ⟨ref, wOriginator, RPAddress.empty, ← tlm.write⟩

def writeLV (lengthV : Nat) (writeV : Write Unit) : Write Unit := do
  writeField lengthV 8
  if lengthV ≠ 0 then writeV

/-- The octets of the TPDU: `RPUserData::lengthV` -/
def RPData.tpduLengthV (d : RPData) : Nat := d.tpdu.length / 8 + if d.tpdu.length % 8 ≠ 0 then 1 else 0

/-- `RPData::length()`, in octets -/
def RPData.octets (d : RPData) : Nat :=
  (1 + RPAddress.lengthV d.originator) + (1 + RPAddress.lengthV d.destination) +
    (1 + d.tpduLengthV) + 2

/-- `RPMessage::write` with `RPData::writeBody`, on a sheet of the size that `octets` gives -/
def RPData.write (d : RPData) : Except Fault Frame.Sheet := do
  let body : Write Unit := do
    writeField 0 5
    writeField 1 3
    writeField d.reference 8
    writeLV (RPAddress.lengthV d.originator) (RPAddress.writeV d.originator)
    writeLV (RPAddress.lengthV d.destination) (RPAddress.writeV d.destination)
    writeLV d.tpduLengthV (Frame.putBits .assertion d.tpdu)
  let (_, (dest, _)) ← body (Frame.blank (d.octets * 8), 0)
  return dest

/-! ## Entry points -/

/-- `parseTPDU`: only messages from the handset are handled. -/
def parseTPDU (tpdu : List Bool) : Except Fault (Option TLMessage) := do
  match ← peekField tpdu 6 2 with
  | 1 => return some (.submit (← TLSubmit.parse tpdu))
  | _ => return none

/-- The part of `decodeRPData` after the decoding of the octets: both read errors are caught. -/
def parseRPDU (binaryData : List UInt8) : Except Fault (Option RPData) :=
  match RPData.parse (unpack binaryData) with
  | .ok d => .ok (some d)
  | .error .smsReadError => .ok none
  | .error .l3ReadError => .ok none
  | .error e => .error e

end Smqueue

import Smqueue.SmsMessages

/-!
# The connection layer

CP-DATA, which carries a message of the relay layer, CP-ACK and CP-ERROR: the frames that
`CPMessage::write` writes, and `parseSMS`, which reads them.
-/

namespace Smqueue

open Frame (Sheet blank develop toBits)

/-! ## Messages of the relay layer -/

/-- The messages that `RPMessage::write` can write. -/
inductive RPMessage
  | data (d : RPData)
  | ack (mReference : Nat)
  | error (mCause mReference : Nat)
deriving DecidableEq, Repr

namespace RPMessage

/-- The message type from the handset; the one to the handset is the next one. -/
def mti : RPMessage → Nat
  | data _ => 0
  | ack _ => 2
  | error _ _ => 4

def reference : RPMessage → Nat
  | data d => d.reference
  | ack mReference => mReference
  | error _ mReference => mReference

def l2BodyLength : RPMessage → Nat
  | data d => (1 + RPAddress.lengthV d.originator) + (1 + RPAddress.lengthV d.destination) +
      (1 + d.tpduLengthV)
  | ack _ => 0
  | error _ _ => 1 + 1

/-- `RPMessage::length`, in octets -/
def length (m : RPMessage) : Nat := m.l2BodyLength + 2

def writeBody : RPMessage → Write Unit
  | data d => do
    writeLV (RPAddress.lengthV d.originator) (RPAddress.writeV d.originator)
    writeLV (RPAddress.lengthV d.destination) (RPAddress.writeV d.destination)
    writeLV d.tpduLengthV (Frame.putBits .assertion d.tpdu)
  | ack _ => pure ()
  | error mCause _ => writeLV 1 (writeField mCause 8)

def write (m : RPMessage) : Except Fault Sheet := do
  let message : Write Unit := do
    writeField 0 5
    writeField (m.mti + 1) 3
    writeField m.reference 8
    m.writeBody
  let (_, (dest, _)) ← message (blank (m.length * 8), 0)
  return dest

end RPMessage

/-! ## Messages of the connection layer -/

/-- The kinds of CP messages, with what each of them holds. -/
inductive CPBody
  /-- The bits of the RPDU. -/
  | data (mRPDU : List Bool)
  | ack
  | error (mCause : Nat)
deriving DecidableEq, Repr

structure CPMessage where
  /-- The transaction identifier. -/
  mTI : Nat
  /-- The members of the derived class. -/
  body : CPBody
deriving DecidableEq, Repr

def CPUserData.lengthV (mRPDU : List Bool) : Nat := mRPDU.length / 8

def CPUserData.writeV (mRPDU : List Bool) : Write Unit :=
  Frame.putBits .assertion (mRPDU.map some)

def CPUserData.parseV (src : List Bool) (expectedLength : Nat) : Read (List Bool) := do
  let numBits := expectedLength * 8
  let rp ← get
  -- the length octet promises more than the frame has
  if (src.length : Int) - rp < numBits then throw .l3ReadError
  Frame.segment .assertion src numBits

/-- The constructor of `CPUserData` around a message of the relay layer: bits that its writer leaves
out are as they were in memory. -/
def CPUserData.ofRPMessage (junk : Nat → Bool) (RPM : RPMessage) : Except Fault (List Bool) := do
  return develop junk (← RPM.write)

namespace CPBody

/-- `CPMessage::MessageType` -/
def mti : CPBody → Nat
  | data _ => 1
  | ack => 4
  | error _ => 16

def l2BodyLength : CPBody → Nat
  | data mRPDU => 1 + CPUserData.lengthV mRPDU
  | ack => 0
  | error _ => 1

def writeBody : CPBody → Write Unit
  | data mRPDU => writeLV (CPUserData.lengthV mRPDU) (CPUserData.writeV mRPDU)
  | ack => pure ()
  | error mCause => writeField mCause 8

def parseBody (src : List Bool) : CPBody → Read CPBody
  | data mRPDU => do
    let mRPDU ← parseLV src mRPDU (CPUserData.parseV src)
    return .data mRPDU
  | ack => return .ack
  | error _ => throw .assertion

end CPBody

/-- The transaction identifier of a message that is not given one. -/
def defaultTI : Nat := 7

/-- `L3SMSPD` -/
def smsPD : Nat := 9

/-- What the constructors of `CPData`, `CPAck` and `CPError` are given. -/
inductive CPArgument
  | data (RPM : RPMessage)
  | ack
  | error (wCause : Nat)
deriving DecidableEq, Repr

namespace CPMessage

/-- The constructors of `CPData`, `CPAck` and `CPError`. -/
def create (junk : Nat → Bool) (wTI : Nat) : CPArgument → Except Fault CPMessage
  | .data RPM => do return ⟨wTI, .data (← CPUserData.ofRPMessage junk RPM)⟩
  | .ack => return ⟨wTI, .ack⟩
  | .error wCause => return ⟨wTI, .error wCause⟩

def bitsNeeded (m : CPMessage) : Nat := 8 * (m.body.l2BodyLength + 2)

def write (m : CPMessage) : Except Fault Sheet := do
  let message : Write Unit := do
    writeField m.mTI 4
    writeField smsPD 4
    writeField m.body.mti 8
    m.body.writeBody
  let (_, (dest, _)) ← message (blank m.bitsNeeded, 0)
  return dest

end CPMessage

def CPFactory (val : Nat) : Option CPMessage :=
  match val with
  | 1 => some ⟨defaultTI, .data []⟩
  | 4 => some ⟨defaultTI, .ack⟩
  | 16 => some ⟨defaultTI, .error 0x7f⟩
  | _ => none

/-- `L3Message::parse` goes on behind the header. -/
def parseSMS (frame : List Bool) : Except Fault (Option CPMessage) := do
  match CPFactory (← peekField frame 8 8) with
  | none => return none
  | some retVal => do
    let ti ← peekField frame 0 4
    let (body, _) ← retVal.body.parseBody frame 16
    return some ⟨ti, body⟩

/-! ## Frames that are read back -/

/-- The RPDU of CP-DATA. -/
def CPBody.rpdu : CPBody → Option (List Bool)
  | data mRPDU => some mRPDU
  | _ => none

/-- The bits of a message, as they are written. -/
def CPBody.bits : CPBody → List Bool
  | data mRPDU => toBits 8 (CPUserData.lengthV mRPDU) ++ mRPDU
  | ack => []
  | error mCause => toBits 8 mCause

def CPMessage.bits (m : CPMessage) : List Bool :=
  toBits 4 m.mTI ++ toBits 4 smsPD ++ toBits 8 m.body.mti ++ m.body.bits

/-- The frame of the message is read back: the kind of the message, its transaction identifier and the
RPDU of CP-DATA. -/
def CPMessage.IsReread (m : CPMessage) : Prop :=
  ∃ dest, m.write = .ok dest ∧ ∀ junk, ∃ m', parseSMS (develop junk dest) = .ok (some m') ∧
    m'.body.mti = m.body.mti ∧ m'.mTI = m.mTI ∧ m'.body.rpdu = m.body.rpdu

/-- The message of the relay layer, if any, has an octet for its length. -/
def CPArgument.Fits (a : CPArgument) : Prop := ∀ RPM, a = .data RPM → RPM.length ≤ 255

end Smqueue

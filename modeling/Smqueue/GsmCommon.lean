import Smqueue.CString
import Smqueue.Lib.Frame

/-!
# The GSM alphabet and the program's failures

The parsers of the SMS library signal malformed input by two C++ exceptions; the bit vectors they
run on answer a read outside the frame with a failed assertion. `Fault` collects these and the
other ways in which a function of the program ends without returning.
-/

namespace Smqueue

/-- How a function of the program can fail to return. -/
inductive Fault
  /-- `throw SMSReadError()` -/
  | smsReadError
  /-- `throw L3ReadError()` -/
  | l3ReadError
  /-- a failed assertion of the bit vector library -/
  | assertion
  /-- a null pointer is followed -/
  | nullPointer
  /-- a message that is no longer in any list is used -/
  | freedMessage
  /-- a string is read that was freed -/
  | freedString
deriving DecidableEq, Repr

/-- The reading computations of the SMS parsers. -/
abbrev Read := Frame.Reader Fault

/-- The writing computations of the SMS messages. -/
abbrev Write := Frame.Writer Fault

def readField (src : List Bool) (n : Nat) : Read Nat := Frame.field .assertion src n

def readFieldReversed (src : List Bool) (n : Nat) : Read Nat :=
  Frame.fieldReversed .assertion src n

def peekField (src : List Bool) (p n : Nat) : Except Fault Nat := Frame.peek .assertion src p n

def writeField (v n : Nat) : Write Unit := Frame.put .assertion v n

/-- The bits of an octet string, as `BitVector::unpack` lays them out. -/
def unpack (bytes : List UInt8) : List Bool := bytes.flatMap fun b => Frame.toBits 8 b.toNat

/-- The octets of a frame, as `packToString` gives them; a last incomplete octet is filled up with
zeros. -/
def packToString : List Bool → List UInt8
  | a :: b :: c :: d :: e :: f :: g :: h :: rest =>
    UInt8.ofNat (Frame.ofBits [a, b, c, d, e, f, g, h]) :: packToString rest
  | [] => []
  | rest => [UInt8.ofNat (Frame.ofBits (rest ++ List.replicate (8 - rest.length) false))]

/-! ## The GSM 7-bit alphabet -/

/-- The GSM 7-bit alphabet in ISO-8859-1, by code. -/
def gGSMAlphabet : CString :=
  [64, 163, 36, 165, 232, 233, 249, 236, 242, 231, 10, 216, 248, 13, 197, 229] ++ str "D_FGLOPCSTZ " ++
  [198, 230, 223, 201] ++ str " !\"#" ++ [164] ++ str "%&'()*+,-./0123456789:;<=>?" ++ [161] ++
  str "ABCDEFGHIJKLMNOPQRSTUVWXYZ" ++ [196, 214, 209, 220, 167, 191] ++
  str "abcdefghijklmnopqrstuvwxyz" ++ [228, 246, 241, 252, 225]

/-- The ISO-8859-1 character of a GSM code. -/
def decodeGSMChar (sms : Nat) : UInt8 := gGSMAlphabet.getD sms 0

/-- The GSM code of an ISO-8859-1 character: the last place of the character in the alphabet, or
zero, which the reverse table holds for every character that is not in the alphabet. -/
def encodeGSMChar (ascii : UInt8) : Nat :=
  if ascii ∈ gGSMAlphabet then
    gGSMAlphabet.length - 1 - gGSMAlphabet.reverse.idxOf ascii
  else 0

example : encodeGSMChar 32 = 32 ∧ decodeGSMChar 27 = 32 := by decide +kernel

end Smqueue

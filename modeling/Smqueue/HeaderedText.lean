import Smqueue.PduLayout

/-!
# Text behind a user data header

User data of 7-bit text with a header, as GSM 03.40 packs them (figure 9.2.3.24 (a)): the header is made
of octets, the text of septets, and fill bits between them let the text start at a septet boundary.
-/

namespace Smqueue

open Frame (toBits)

structure HeaderedText where
  /-- The octets of the header behind its length octet. -/
  header : List UInt8
  /-- The bits up to the next septet boundary. -/
  fill : List Bool
  text : CString
  aligned : fill.length = (7 - 8 * (header.length + 1) % 7) % 7
  inAlphabet : ∀ c ∈ text, c ∈ gGSMAlphabet
  /-- All septets fit into one message. -/
  fits : (8 * (header.length + 1) + fill.length) / 7 + text.length ≤ 160

namespace HeaderedText

/-- TP-User-Data-Length: the septets of the header, with its length octet and the fill bits, and those
of the text. -/
def udl (t : HeaderedText) : Nat := (8 * (t.header.length + 1) + t.fill.length) / 7 + t.text.length

/-- The length octet and the header, the least significant bit of each octet first. -/
def headerBits (t : HeaderedText) : List Bool :=
  (UInt8.ofNat t.header.length :: t.header).flatMap fun b => (toBits 8 b.toNat).reverse

/-- The bits in the order in which they are packed into octets, each octet from its least significant
bit on. -/
def bits (t : HeaderedText) : List Bool :=
  t.headerBits ++ t.fill ++ t.text.flatMap fun c => (toBits 7 (encodeGSMChar c)).reverse

/-- The bits with zeros up to the end of the last octet. -/
def paddedBits (t : HeaderedText) : List Bool :=
  t.bits ++ List.replicate ((t.bits.length + 7) / 8 * 8 - t.bits.length) false

/-- The user data in a frame, behind TP-User-Data-Length. -/
def frameBits (t : HeaderedText) : List Bool :=
  toBits 8 t.udl ++ Frame.reverseOctets t.paddedBits

end HeaderedText

end Smqueue

import Smqueue.ShortMsg

/-!
# Laws of the libraries

What the program relies on in the osip library and in the transfer coding of bodies.
-/

namespace Smqueue

/-- The program finds the same body in the texts, as far as the content length `n` goes, and the same
transfer coding. -/
def SameBody (n : Nat) (text text' : CString) : Prop :=
  (ShortMsg.bodyOf text').map (List.take n) = (ShortMsg.bodyOf text).map (List.take n) ∧
    ShortMsg.encodingOf text' = ShortMsg.encodingOf text

/-- The laws of the libraries. -/
structure Libs.Lawful (lib : Libs) : Prop where
  /-- A tree that was turned into text is parsed back. -/
  parse_toStr : ∀ m, lib.messageParse (lib.messageToStr m) = some m
  /-- The text is a C string. -/
  toStr_noZero : ∀ m, 0 ∉ lib.messageToStr m
  /-- Trees with the same content are printed with the same body and transfer coding. -/
  content_eq : ∀ m m', m'.contentType = m.contentType → m'.headers = m.headers →
    m'.bodies = m.bodies → m'.contentLength = m.contentLength →
    SameBody (ShortMsg.contentLen m) (lib.messageToStr m) (lib.messageToStr m')
  /-- The decoding looks at so many characters only. -/
  decode_take : ∀ s n enc, lib.decodeToString (s.take n) n enc = lib.decodeToString s n enc

/-- The name of a transfer coding of bodies that the program relies on. -/
def KnownCoding (enc : CString) : Prop := enc = str "hex" ∨ enc = str "base64"

/-- The known transfer codings lose nothing. -/
def Libs.CodesBodies (lib : Libs) : Prop :=
  ∀ bytes enc, KnownCoding enc → lib.decodeToString (lib.encodeToString bytes enc)
    (lib.encodeToString bytes enc).length enc = bytes

end Smqueue

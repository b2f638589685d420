import Smqueue.Coherence
import Smqueue.LibLaws
import Smqueue.QueueFile

/-!
# Queued messages across a restart

The queue is saved as the texts of its messages, and a message is queued again after a restart if
its text is parsed and passes the checks. In between the tree of the message was edited, and its
body may have been packed anew.
-/

namespace Smqueue

/-- The text that is saved for the message is parsed and accepted when it is read back, and it is
that of a request. -/
def Restorable (lib : Libs) (m : ShortMsg) : Prop :=
  ∃ saved text, m.makeTextValid lib = .ok saved ∧ saved.text = some text ∧
    ∀ (l : ReadLoop) (s : Settings) (env : Env) (srcaddr : List UInt8), l.alength = text.length →
      (∃ sm, (l.message text srcaddr).toShortMsg.parse lib = .ok (true, sm)) ∧
        ∃ m', (l.message text srcaddr).validateShortMsg lib s env false = .ok (0, m') ∧
          m'.parsed.any SipMessage.isRequest

/-- The message holds a C string and its length. -/
def HasText (m : ShortMsg) (text : CString) : Prop :=
  m.text = some text ∧ 0 ∉ text ∧ m.textLength = text.length ∧ text.length < 2 ^ 16

/-- The message was accepted from a text. -/
def Accepted (lib : Libs) (m : ShortMsgPending) : Prop :=
  ∃ (m0 : ShortMsgPending) (text : CString) (s : Settings) (env : Env) (early : Bool),
    HasText m0.toShortMsg text ∧ m0.parsedIsValid = false ∧
      m0.validateShortMsg lib s env early = .ok (0, m)

/-- The TPDU is an SMS-SUBMIT. -/
def TLMessage.isSubmit : TLMessage → Bool
  | submit _ => true
  | deliver _ => false

/-- Packing the message for delivery makes an SMS-DELIVER of its body: its text is converted, or its
SMS-SUBMIT is recoded. -/
def PacksDeliver (m : ShortMsg) (sip : SipMessage) : Prop :=
  m.needRepack = true ∧
    (m.convertContentType = .vnd3gppSms ∧ (sip.bodies ≠ [] ∨ ShortMsg.contentLen sip ≠ 0) ∨
      m.convertContentType = .unsupportedContent ∧ m.contentType = .vnd3gppSms ∧ m.msToSc = true ∧
        m.tlMessage.any TLMessage.isSubmit = true ∧ sip.bodies ≠ [])

/-- The tree of the message is not printed yet, but would be printed with the body and the transfer
coding of the text that it was parsed from. -/
def PrintsAlike (lib : Libs) (m : ShortMsg) : Prop :=
  m.parsedIsBetter = false → ∀ text ∈ m.text, ∀ sip ∈ m.parsed, ShortMsg.contentLen sip ≠ 0 →
    SameBody (ShortMsg.contentLen sip) text (lib.messageToStr sip)

/-- The pass does not pack its head `h` into an SMS-DELIVER. If it edits the tree of the head, which
is an SMS, then that tree is printed like its text, and the texts of all trees that it makes fit. -/
structure SMq.KeepsTexts (lib : Libs) (env : Env) (q : SMq) (h : ShortMsgPending) : Prop where
  packs : delivers h.state = true → ∀ sip ∈ h.parsed, ¬ PacksDeliver h.toShortMsg sip
  alike : ∀ sm, q.HeadEdit lib env h sm → sm.parsedIsBetter = true →
    sm.parsed.bind SipMessage.contentType =
      some ⟨some (str "application"), some (str "vnd.3gpp.sms")⟩ → PrintsAlike lib h.toShortMsg
  fits : ∀ m', q.Makes lib env h m' → m'.toShortMsg.TextFits lib

namespace Daemon

/-- The threads start with messages that were accepted. -/
structure StartAccepted (lib : Libs) (d : Daemon) : Prop extends Start d where
  accepted : ∀ m ∈ d.queue.timeSortedList, ∃ m', Accepted lib m' ∧ m.toShortMsg = m'.toShortMsg

/-- The step keeps the texts of the queue acceptable: a datagram is parsed like its text up to its
first zero byte, and a pass packs no SMS-DELIVER and prints no SMS in another way. -/
def KeepsTexts (lib : Libs) (d : Daemon) : DaemonAct → Prop
  | .arrive _ buffer _ => lib.messageParse (ShortMsg.buffer (cstr buffer) buffer.length) =
      lib.messageParse (cstr buffer)
  | .pass env => ∀ h ∈ d.queue.timeSortedList.head?, h.nextActionTime ≤ env.clock.entry →
      d.queue.KeepsTexts lib env h
  | _ => True

end Daemon

end Smqueue

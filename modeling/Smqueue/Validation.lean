import Smqueue.Pending

/-!
# Validation and missing parts

Which trees `validate_short_msg` and `set_qtag` can handle without following a null pointer.
-/

namespace Smqueue

namespace ShortMsgPending

/-- The tag of the From header. -/
def fromTag (p : SipMessage) : Option CString := p.fromHeader.bind fun f => tagParam f.params

/-- The number of the CSeq header. -/
def cseqNumberOf (p : SipMessage) : Option CString := p.cseq.bind CSeq.number

/-- The tag of a message, with an empty From tag where there is none. -/
def tagOf (p : SipMessage) : CString :=
  (cseqNumberOf p).getD [] ++ str "--" ++ (fromTag p).getD []

/-- The message is not from the relay, or the relay sent it to someone we know. -/
def passesEarlyCheck (s : Settings) (env : Env) (m : ShortMsgPending) (p : SipMessage)
    (shouldEarlyCheck : Bool) : Bool :=
  !(shouldEarlyCheck && arrivedFromRelay s env m p) ||
    ((p.toHeader.bind NameAddr.url).bind SipUri.username).any (toIsDeliverable s env.hlr)

/-- Zero, or the status code to reject a message with. -/
def IsCode (code : Int) : Prop := code = 0 ∨ 400 ≤ code ∧ code < 700

/-- The message is accepted with its tag, or rejected with a status code, and no null pointer is
followed on the way. -/
def ValidatesSafely (lib : Libs) (s : Settings) (env : Env) (m : ShortMsgPending)
    (shouldEarlyCheck : Bool) (p : SipMessage) : Prop :=
  ∃ code m', m.validateShortMsg lib s env shouldEarlyCheck = .ok (code, m') ∧
    IsCode code ∧ (code = 0 → m'.qtag = some (tagOf p))

/-- The parts that are read without a check are there: the From header, if a line about it is logged;
the number of a CSeq header and the From tag, if the message passes all checks. -/
structure PartsPresent (s : Settings) (env : Env) (m : ShortMsgPending) (shouldEarlyCheck : Bool)
    (p : SipMessage) : Prop where
  logged : logsMissingFrom s p = false
  tagged : checkParsed p = 0 → passesEarlyCheck s env m p shouldEarlyCheck = true →
    p.cseq.isSome = true → (cseqNumberOf p).isSome = true ∧ (fromTag p).isSome = true

end ShortMsgPending

end Smqueue

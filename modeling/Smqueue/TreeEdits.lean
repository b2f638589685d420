import Smqueue.Changes

/-!
# Edits of the tree of a message

The state machine changes the parsed form of a message field by field. These are all the ways in
which it does so after the message was accepted.
-/

namespace Smqueue

namespace SipMessage

/-- An edit of the addresses of a tree. -/
inductive HeaderEdit (lib : Libs) : SipMessage → SipMessage → Prop
  | appendVia {p : SipMessage} {s : Settings} : HeaderEdit lib p (SMq.appendVia lib s p)
  | setFromUsername {p : SipMessage} {name : CString} :
      HeaderEdit lib p (ShortMsg.setFromUsername p name)
  | setFromDisplayname {p : SipMessage} {name : CString} :
      HeaderEdit lib p (ShortMsg.setFromDisplayname p name)
  | setUriUsername {p : SipMessage} {name : CString} :
      HeaderEdit lib p (ShortMsg.editUri p fun u => { u with username := some name })
  | setUriHostport {p : SipMessage} {host port : CString} :
      HeaderEdit lib p (ShortMsg.editUri p fun u => { u with host := some host, port := some port })
  | setToForSmsc {p p' : SipMessage} {address : CString} (h : SMq.setToForSmsc p address = .ok p') :
      HeaderEdit lib p p'
  | renewCallId {p : SipMessage} {s : Settings} {callnum : CString} {c : CallId} :
      HeaderEdit lib p { p with callId := some (ShortMsg.renewCallId s callnum c) }

/-- An edit of the content of a tree. -/
inductive ContentEdit : SipMessage → SipMessage → Prop
  | setBody {p : SipMessage} {body : CString} : ContentEdit p (ShortMsg.setBody p body)
  | setTextPlain {p p' : SipMessage}
      (h : ShortMsg.setContentType p (str "text") (str "plain") = .ok p') : ContentEdit p p'
  | setVnd3gppSms {p p' : SipMessage}
      (h : ShortMsg.setContentType p (str "application") (str "vnd.3gpp.sms") = .ok p') :
      ContentEdit p p'

/-- An edit of a tree. -/
def Edit (lib : Libs) (p p' : SipMessage) : Prop := HeaderEdit lib p p' ∨ ContentEdit p p'

end SipMessage

/-- The tree of the message was edited by `r`; its text was not. -/
structure ShortMsg.TreeEdited (r : SipMessage → SipMessage → Prop) (m m' : ShortMsg) : Prop where
  text : m'.text = m.text
  textLength : m'.textLength = m.textLength
  valid : m'.parsedIsValid = m.parsedIsValid
  better : m.parsedIsBetter = true → m'.parsedIsBetter = true
  tree : ∀ p, m.parsed = some p →
    ∃ p', m'.parsed = some p' ∧ Relation.ReflTransGen r p p'

end Smqueue

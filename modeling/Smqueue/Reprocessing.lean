import Smqueue.Changes

/-!
# Messages that are processed again

The command for the service centre gives a message another recipient and has it processed again from
the start. The new recipient may be the number of a command as well.
-/

namespace Smqueue

/-- The numbers of the commands in the configuration, where they are defined. -/
structure ShortCodeKeys where
  register : Option CString := none
  info : Option CString := none
  debugDump : Option CString := none
  quickChk : Option CString := none
  zapQueued : Option CString := none
  whiplashQuit : Option CString := none
  smsc : Option CString := none

/-- `init_smcommands`, with the latest entry first. -/
def initSmcommands (keys : ShortCodeKeys) : List (CString × ShortCode) :=
  [(keys.smsc, ShortCode.smsc), (keys.whiplashQuit, .whiplashQuit), (keys.zapQueued, .zapQueued),
    (keys.quickChk, .quickChk), (keys.debugDump, .debugDump), (keys.info, .fourOneOne),
    (keys.register, .register)].filterMap fun (key, code) => key.map (·, code)

namespace SMq

/-- The user in the request URI of a message. -/
def requestUser (m : ShortMsg) : Option CString :=
  (m.parsed.bind SipMessage.reqUri).bind SipUri.username

/-- The service centre has the message processed again with the address as its recipient, unless it
goes out by web. A plain text is not processed again, since its recipient is read after it was freed. -/
inductive SendsOn (m : ShortMsg) (address : CString) : Prop
  | submit {submit : TLSubmit} {body : CString} (hc : m.contentType = .vnd3gppSms)
      (ht : m.tlMessage = some (.submit submit)) (hb : m.getText = .ok body)
      (he : startsWithEmail body = false) (ha : submit.da.digits = address) : SendsOn m address

/-- The message is for the service centre, which sends it on to itself. -/
def Circular (keys : ShortCodeKeys) (m : ShortMsg) : Prop :=
  isTextMessage m = true ∧ ∃ number ∈ keys.smsc, requestUser m = some number ∧ SendsOn m number

/-- The message passed the checks, and enters the state machine. -/
structure Enters (m : ShortMsgPending) : Prop where
  state : m.state = .initialState
  valid : m.parsedIsValid = true
  checked : ∀ sip ∈ m.parsed, ShortMsgPending.checkParsed sip = 0

/-- In a pass with the head `m`, `handle_short_code` puts it back into the initial state. Until the
next pass its SIP message may be parsed or printed, and it may be given another time. -/
inductive Reprocessed (lib : Libs) (keys : ShortCodeKeys) (m : ShortMsgPending) :
    ShortMsgPending → Prop
  | mk {env : Env} {q q1 q' : SMq} {m1 : ShortMsgPending} {sm : ShortMsg} {t : Time}
      (hk : q.settings.shortCodeMap = initSmcommands keys) (hd : q.Distinct)
      (hh : q.timeSortedList.head? = some m) (hdue : m.nextActionTime ≤ env.clock.entry)
      (hs : m.state = .initialState) (ht : isTextMessage m.toShortMsg = true)
      (hc : q.handleShortCode lib env m = .ok (some .initialState, q1))
      (hq : q.processTimeout lib env = .ok q') (hm : m1 ∈ q'.timeSortedList) (hid : m1.id = m.id)
      (hr : Relation.ReflTransGen (ShortMsg.Refresh lib) m1.toShortMsg sm) :
      Reprocessed lib keys m { m1 with toShortMsg := sm, nextActionTime := t }

/-- Every chain of passes that process the message again is finite. -/
def Settles (lib : Libs) (keys : ShortCodeKeys) (m : ShortMsgPending) : Prop :=
  Acc (fun m' m => Reprocessed lib keys m m') m

end SMq

end Smqueue

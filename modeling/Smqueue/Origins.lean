import Smqueue.ProcessTimeout

/-!
# Which message a pass originates

A pass of the state machine inserts at most one message of its own. Before the pass is made one can
say which: the definitions here give the state in which that message is inserted.
-/

namespace Smqueue

namespace SMq

/-- The state in which `originate_sm` inserts its message, if that message is valid. -/
def originateOrigin (lib : Libs) (env : Env) (q : SMq) (sender recipient msgtext : CString)
    (firststate : SmState) : Option SmState :=
  match originateMsg lib env q sender recipient msgtext with
  | .ok (_, code, _) => if code = 0 then some firststate else none
  | .error _ => none

/-- The state in which `bounce_message` inserts its message. -/
def bounceOrigin (lib : Libs) (env : Env) (q : SMq) (sentMsg : ShortMsgPending)
    (errstr : CString) : Option SmState :=
  match bounceText env sentMsg errstr with
  | .ok (some (bounceto, errmsg)) =>
    q.originateOrigin lib env env.config.bounceCode bounceto errmsg (bounceState bounceto)
  | _ => none

/-- The state in which `register_handset` inserts its message. -/
def registerOrigin (lib : Libs) (env : Env) (q : SMq) (qmsg : ShortMsgPending) : Option SmState :=
  match registerMsg lib env q qmsg with
  | .ok (_, code, _) => if code = 0 then some .requestMsgDelivery else none
  | .error _ => none

/-- The state in which the reply or the registration that a command asks for is inserted. -/
def resultOrigin (lib : Libs) (env : Env) (i : MsgId) (r : ShortCodeResult) : Option SmState :=
  match r.action, r.queue.find i with
  | .reply, some m =>
    match replyAddresses m.toShortMsg with
    | .ok (shortcode, imsi) =>
      r.queue.originateOrigin lib env shortcode imsi r.reply .requestDestinationSipurl
    | .error _ => none
  | .register, some m => r.queue.registerOrigin lib env m
  | _, _ => none

/-- The queue that the command for a message leaves, and the state in which the reply or the
registration it asks for is inserted. -/
def afterShortCode (lib : Libs) (env : Env) (q : SMq) (m : ShortMsgPending) :
    SMq × Option SmState :=
  match q.callShortCode lib env m with
  | .ok (some r) => (r.queue, resultOrigin lib env m.id r)
  | _ => (q, none)

/-- The number of the recipient stands for the command that deletes queued messages. -/
def IsZap (s : Settings) (m : ShortMsg) : Prop :=
  ((m.parsed.bind SipMessage.reqUri).bind SipUri.username).bind (shortCodeOf s) = some .zapQueued

/-- The state in which `lookup_uri_imsi` inserts the bounce of a message it cannot locate. -/
def lookupOrigin (lib : Libs) (env : Env) (q : SMq) (m : ShortMsgPending) : Option SmState :=
  match m.toShortMsg.lookupUriImsi lib env q.settings with
  | .ok (none, sm) =>
    let m := { m with toShortMsg := sm }
    (q.store m).bounceOrigin lib env m env.config.notRegistered
  | _ => none

/-- The text that a bounce after an error response quotes. -/
def errorText (response : SipMessage) : CString :=
  decimalInt response.statusCode ++ str " " ++ response.reasonPhrase.getD []

/-- The state in which the bounce is inserted that a response to `sentMsg` leads to. -/
def statusOrigin (lib : Libs) (env : Env) (q : SMq) (response : SipMessage)
    (sentMsg : ShortMsgPending) : Option SmState :=
  if response.statusCode.tdiv 100 = 4 ∧ ¬ (response.statusCode = 480 ∨ response.statusCode = 486) then
    q.bounceOrigin lib env sentMsg (errorText response)
  else none

/-- The state in which `handle_response` inserts a bounce. -/
def responseOrigin (lib : Libs) (env : Env) (q : SMq) (m : ShortMsgPending) : Option SmState :=
  m.qtag.bind fun tag => m.parsed.bind fun response =>
    ((q.remove m.id).findQueuedMsgByTag tag).bind fun sentMsg =>
      (q.remove m.id).statusOrigin lib env response sentMsg

/-- The message is a response. -/
def respondsTo (m : ShortMsg) : Bool := m.parsed.any SipMessage.isResponse

/-- The state in which a pass with the due head `m` inserts a message. -/
def dispatchOrigin (lib : Libs) (env : Env) (q : SMq) (m : ShortMsgPending) : Option SmState :=
  match m.state with
  | .initialState =>
    if respondsTo m.toShortMsg then q.responseOrigin lib env m
    else if methodOf m.toShortMsg = some (str "MESSAGE") then (q.afterShortCode lib env m).2
    else none
  | .requestDestinationImsi => q.lookupOrigin lib env m
  | .registerHandset => q.registerOrigin lib env m
  | .awaitingRegisterHandset =>
    match readyToRegister lib env m with
    | .ok (true, m') => q.registerOrigin lib env m'
    | _ => none
  | _ => none

/-- The state in which a pass of `process_timeout` inserts a message. -/
def passOrigin (lib : Libs) (env : Env) (q : SMq) : Option SmState :=
  q.timeSortedList.head?.bind fun m =>
    if m.nextActionTime > env.clock.entry then none else q.dispatchOrigin lib env m

/-- The due time of a message that a pass inserts in state `s`. -/
def originDue (env : Env) (q : SMq) (s : SmState) : Time :=
  env.clock.insert + q.settings.timeouts.get .noState s

end SMq

end Smqueue

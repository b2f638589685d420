import Smqueue.ShortCodes
import Smqueue.Smsc

/-!
# The state machine

`handle_response` and `process_timeout`: one pass looks at the message at the head of the queue and,
if it is due, takes it one step on.
-/

namespace Smqueue

namespace SMq

/-! ## Responses -/

def increaseAckedMsgTimeout (env : Env) (q : SMq) (m : ShortMsgPending) : Except Fault SMq :=
  q.setStateInPlaceAt m.id m.state (env.clock.first + env.config.ackedMessageResend.getD 60000)

/-- The method of a message that was parsed. -/
def methodOf (m : ShortMsg) : Option CString := m.parsed.bind SipMessage.sipMethod

/-- The message that started a registration is run again, if it still waits for it. -/
def restartLinked (env : Env) (q : SMq) (sentMsg : ShortMsgPending) : Except Fault SMq :=
  match q.getLink sentMsg with
  | none => .ok q
  | some oldsms =>
    if underRegistration oldsms.state then
      q.setStateInPlace oldsms.id .initialState env.clock.first
    else .ok q

/-- `write_cdr`, of which the model keeps the pointers that are followed. -/
def writeCdr (m : ShortMsg) : Except Fault Unit := do
  let sip ← deref m.parsed
  let _ ← sip.fromUsername
  let _ ← sip.toUsername

/-- The 2xx branch of `handle_response`. -/
def handleSuccess (lib : Libs) (env : Env) (q : SMq) (sentMsg : ShortMsgPending) :
    Except Fault SMq := do
  let (_, sm) ← sentMsg.toShortMsg.parse lib
  let sentMsg := { sentMsg with toShortMsg := sm }
  let q := q.store sentMsg
  let q ← if methodOf sm = some (str "REGISTER") then q.restartLinked env sentMsg else pure q
  if methodOf sm = some (str "MESSAGE") then writeCdr sm
  return q.remove sentMsg.id

/-- The switch of `handle_response` over the status code. -/
def handleStatus (lib : Libs) (env : Env) (q : SMq) (response : SipMessage)
    (sentMsg : ShortMsgPending) : Except Fault SMq := do
  let code := response.statusCode
  match code.tdiv 100 with
  | 1 => q.increaseAckedMsgTimeout env sentMsg
  | 2 => q.handleSuccess lib env sentMsg
  | 4 =>
    if code = 480 ∨ code = 486 then q.increaseAckedMsgTimeout env sentMsg
    else
      let errmsg := decimalInt code ++ str " " ++ response.reasonPhrase.getD []
      let (next, q) ← q.bounceMessage lib env sentMsg errmsg
      q.setStateInPlace sentMsg.id next env.clock.final
  | 5 => q.increaseAckedMsgTimeout env sentMsg
  | 3 => q.setStateInPlace sentMsg.id .requestDestinationImsi env.clock.first
  | 6 => q.setStateInPlace sentMsg.id .requestDestinationImsi env.clock.first
  | _ => return q

/-- `handle_response` for the message at the head of the queue. -/
def handleResponse (lib : Libs) (env : Env) (q : SMq) (m : ShortMsgPending) : Except Fault SMq := do
  -- the response is taken out first, so that the search does not find it
  let q := q.remove m.id
  match q.findQueuedMsgByTag (← deref m.qtag) with
  | none => return q
  | some sentMsg => q.handleStatus lib env (← deref m.parsed) sentMsg

/-! ## The branches of `process_timeout` -/

/-- The branch for `INITIAL_STATE`. -/
def processInitial (lib : Libs) (env : Env) (q : SMq) (m : ShortMsgPending) : Except Fault SMq := do
  let sip ← deref m.parsed
  if sip.isRequest then
    if !(← strcmpEq sip.sipMethod (str "MESSAGE")) then q.setState m.id .noState env.clock.final
    else
      let (next, q) ← q.handleShortCode lib env m
      q.setState m.id (next.getD .requestFromAddressLookup) env.clock.final
  else q.handleResponse lib env m

/-- The branch for `REQUEST_FROM_ADDRESS_LOOKUP`. -/
def processFromLookup (lib : Libs) (env : Env) (q : SMq) (m : ShortMsgPending) :
    Except Fault SMq := do
  let (next, sm) ← m.toShortMsg.lookupFromAddress lib env q.settings
  (q.store { m with toShortMsg := sm }).setState m.id next env.clock.final

/-- `deliver_msg_datagram`, of which the model keeps the message; whether the datagram could be sent
makes no difference to the caller. -/
def deliverMsgDatagram (lib : Libs) (m : ShortMsg) : Except Fault ShortMsg := do
  let m ← m.makeTextValid lib
  return (← m.parse lib).2

/-- The delay of `SMS.RateLimit` in milliseconds, an `int`. -/
def msSMSRateLimit (cfg : Config) : Int := (cfg.rateLimit * 1000).bmod (2 ^ 32)

/-- The rate limiter lets no message pass yet. -/
def tooSoon (env : Env) (q : SMq) : Bool :=
  0 < msSMSRateLimit env.config &&
    env.clock.limiter - q.spacingTimer ≤ msSMSRateLimit env.config

/-- The timer of the rate limiter, once a message has passed. -/
def spacingAt (env : Env) (q : SMq) : Time :=
  if 0 < msSMSRateLimit env.config then env.clock.spacing else q.spacingTimer

/-- The branch for `REQUEST_MSG_DELIVERY` after the packing. -/
def sendPacked (lib : Libs) (env : Env) (q : SMq) (m : ShortMsgPending) : Except Fault SMq := do
  if env.config.maxRetries ≠ 0 ∧ env.config.maxRetries < m.retries then
    q.setState m.id .deleteMeState env.clock.final
  else if q.tooSoon env then
    return q.store { m with nextActionTime := m.nextActionTime + msSMSRateLimit env.config }
  else
    let m := { m with toShortMsg := ← deliverMsgDatagram lib m.toShortMsg }
    let q := { q.store m with
      spacingTimer := q.spacingAt env
      delivered := ⟨m.id, q.spacingAt env, env.clock.sending⟩ :: q.delivered }
    q.setState m.id .askedForMsgDelivery env.clock.final

/-- The branch for `REQUEST_MSG_DELIVERY`. -/
def processDelivery (lib : Libs) (env : Env) (q : SMq) (m : ShortMsgPending) :
    Except Fault SMq := do
  let (ok, sm) ← m.toShortMsg.packSmsForDelivery lib env
  let m := { m with toShortMsg := sm, retries := m.retries + 1 }
  let q := q.store m
  if ok then q.sendPacked lib env m else q.setState m.id .noState env.clock.final

/-- The branch for `REGISTER_HANDSET`. -/
def processRegister (lib : Libs) (env : Env) (q : SMq) (m : ShortMsgPending) :
    Except Fault SMq := do
  let (next, q) ← q.registerHandset lib env m
  q.setState m.id next env.clock.final

/-- The branch for `AWAITING_REGISTER_HANDSET`. -/
def processAwaitingRegister (lib : Libs) (env : Env) (q : SMq) (m : ShortMsgPending) :
    Except Fault SMq := do
  let (ready, m) ← readyToRegister lib env m
  let q := q.store m
  if ready then
    let q ← q.setState m.id .registerHandset env.clock.first
    q.processRegister lib env (← q.msg m.id)
  else q.setState m.id .awaitingRegisterHandset env.clock.final

/-- The switch of `process_timeout` over the state of the head. -/
def dispatch (lib : Libs) (env : Env) (q : SMq) (m : ShortMsgPending) : Except Fault SMq := do
  match m.state with
  | .initialState => q.processInitial lib env m
  | .noState =>
    let _ ← m.toShortMsg.makeTextValid lib
    return q.remove m.id
  | .deleteMeState => return q.remove m.id
  | .requestFromAddressLookup => q.processFromLookup lib env m
  | .requestDestinationImsi =>
    let (next, q) ← q.lookupUriImsi lib env m
    q.setState m.id next env.clock.final
  | .requestDestinationSipurl =>
    let (next, m) ← lookupUriHostport lib env q.settings m
    (q.store m).setState m.id next env.clock.final
  | .awaitingTryMsgDelivery =>
    let q ← q.setState m.id .requestMsgDelivery env.clock.first
    q.processDelivery lib env (← q.msg m.id)
  | .requestMsgDelivery => q.processDelivery lib env m
  | .askedForMsgDelivery => q.setState m.id .awaitingTryMsgDelivery env.clock.final
  | .awaitingRegisterHandset => q.processAwaitingRegister lib env m
  | .registerHandset => q.processRegister lib env m
  | .askedToRegisterHandset => q.setState m.id .awaitingRegisterHandset env.clock.final
  | _ =>
    -- a state that no case names is reset, and looked up without a break
    let q ← q.setState m.id .initialState env.clock.first
    q.processFromLookup lib env (← q.msg m.id)

def processTimeout (lib : Libs) (env : Env) (q : SMq) : Except Fault SMq :=
  match q.timeSortedList with
  | [] => .ok q
  | m :: _ => if m.nextActionTime > env.clock.entry then .ok q else q.dispatch lib env m

end SMq

end Smqueue

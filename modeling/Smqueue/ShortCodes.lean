import Smqueue.Lookup

/-!
# Short codes

Messages to special numbers are commands to the program. A command works on the queue and the
message that carries it and says what is to be done with the message.
-/

namespace Smqueue

/-- `enum short_code_action` -/
inductive ShortCodeAction
  | done
  | internalError
  | reply
  | retryAfterDelay
  | replyAndRetry
  | quitSmqueue
  | awaitRegister
  | register
  | treatAsOrdinary
  | execSmqueue
  | restartProcessing
deriving DecidableEq, Repr

/-- What a command returns: the action, the reply text and the queue. -/
structure ShortCodeResult where
  action : ShortCodeAction
  reply : CString := []
  queue : SMq

namespace SMq

def whiplashQuit (lib : Libs) (env : Env) (q : SMq) (msgtext : CString) :
    Except Fault ShortCodeResult := do
  let psswd := env.config.whiplashQuitPassword
  if !psswd.isPrefixOf msgtext then return ⟨.treatAsOrdinary, [], q⟩
  let command := (msgtext.drop (psswd.length + 1)).take 4
  if command = str "quit" then return ⟨.quitSmqueue, [], q⟩
  if command = str "exec" then return ⟨.execSmqueue, [], q⟩
  -- saving the queue makes the texts of all messages valid
  if command = str "test" then return ⟨.reply, str "Done.", ← q.debugDump lib⟩
  return ⟨.reply, str "Unknown Command", q⟩

def shortcodeDebugDump (lib : Libs) (q : SMq) : Except Fault ShortCodeResult := do
  return ⟨.done, [], ← q.debugDump lib⟩

def shortcodeQuickChk (q : SMq) : ShortCodeResult :=
  ⟨.reply, decimal q.timeSortedList.length ++ str " queued.", q⟩

/-- The messages that `shortcode_four_one_one` counts as unlocatable, registering and bouncing. -/
structure QueueCounts where
  missing : Nat := 0
  registering : Nat := 0
  bouncing : Nat := 0

/-- The states in which a message is on its way to its destination. -/
def underDelivery (s : SmState) : Bool :=
  s ∈ [SmState.requestDestinationSipurl, .requestMsgDelivery, .askedForMsgDelivery,
    .awaitingTryMsgDelivery]

/-- The states of a message that waits for a registration. -/
def underRegistration (s : SmState) : Bool :=
  s ∈ [SmState.awaitingRegisterHandset, .registerHandset, .askedToRegisterHandset]

/-- The count of one message by `shortcode_four_one_one`. -/
def countMsg (lib : Libs) (cfg : Config) (c : QueueCounts) (x : ShortMsgPending) :
    Except Fault (QueueCounts × ShortMsgPending) := do
  if underDelivery x.state then
    let x := { x with toShortMsg := ← x.toShortMsg.makeTextValid lib }
    let sip ← deref x.parsed
    let uri ← deref sip.reqUri
    let sender ← deref (← sip.fromUsername)
    let host ← deref uri.host
    let user ← deref uri.username
    return ({ missing := c.missing + if host = str "127.0.0.1" then 1 else 0
              registering := c.registering + (if sender = cfg.registerCode then 1 else 0) +
                if user = cfg.registerCode then 1 else 0
              bouncing := c.bouncing + if sender = cfg.infoCode then 1 else 0 }, x)
  else if underRegistration x.state then
    return ({ c with registering := c.registering + 1 }, x)
  else return (c, x)

/-- The loop of `shortcode_four_one_one` over the queue. -/
def countMsgs (lib : Libs) (cfg : Config) :
    QueueCounts → List ShortMsgPending → Except Fault (QueueCounts × List ShortMsgPending)
  | c, [] => return (c, [])
  | c, x :: xs => do
    let (c, x) ← countMsg lib cfg c x
    let (c, xs) ← countMsgs lib cfg c xs
    return (c, x :: xs)

/-- A count with its label, if it is not zero. -/
def countText (n : Nat) (label : String) : CString :=
  if n = 0 then [] else str ", " ++ decimal n ++ str label

def shortcodeFourOneOne (lib : Libs) (env : Env) (q : SMq) (i : MsgId) (msgtext : CString) :
    Except Fault ShortCodeResult := do
  let (c, l) ← countMsgs lib env.config {} q.timeSortedList
  let q := { q with timeSortedList := l }
  let m ← q.msg i
  let cell := env.stringAddr m.srcaddr false
  let username ← deref (← (← deref m.parsed).fromUsername)
  let answer := decimal l.length ++ str " queued" ++ countText c.missing " unlocatable" ++
    countText c.registering " registering" ++ countText c.bouncing " bouncing" ++ str ", cell " ++
    cell.drop (cell.length - 3) ++ str ", " ++ username ++ str ", phonenum "
  match env.hlr.getCLIDLocal username with
  -- printing a null pointer makes the stream drop the rest
  | none => return ⟨.reply, answer, q⟩
  | some phone =>
    return ⟨.reply, answer ++ phone ++ str ", at " ++ env.ctime ++ str ", '" ++ msgtext ++ str "'", q⟩

/-- The age from which on a timeout counts as huge. -/
def longDeleteMs : Time := 5000000

def shortcodeZapQueued (env : Env) (q : SMq) (msgtext : CString) :
    Except Fault ShortCodeResult := do
  let noreply := msgtext.head? = some 45
  let msgtext := if noreply then msgtext.drop 1 else msgtext
  let action := if noreply then .done else .reply
  if env.config.zapQueuedPassword = msgtext then
    let toolate := longDeleteMs + env.clock.first
    if q.timeSortedList.any fun x => x.state = .noState || toolate ≤ x.nextActionTime then
      -- the loop goes on from the message it has just deleted
      throw .freedMessage
    return ⟨action, str "Removed 0 messages.", q⟩
  match q.findQueuedMsgByTag msgtext with
  | none => return ⟨action, str "No message queued with tag '" ++ msgtext ++ str "'.", q⟩
  | some sentMsg =>
    -- the quote in front of the tag is not closed
    let answer := str "Deleting queued msg '" ++ msgtext ++ str " in state " ++
      decimal sentMsg.state.toNat ++ str " and timeout " ++
      decimalInt (sentMsg.nextActionTime - env.clock.first)
    return ⟨action, answer, q.remove sentMsg.id⟩

/-! ## Registration of a phone number -/

/-- What `shortcode_register` reads off the text of a message. -/
structure NumberScan where
  phonenum : CString := []
  seendig : Nat := 0
  seenplus : Bool := false
  exclaim : Nat := 0
  /-- The complaint about a bad number. -/
  bad : Option CString := none

/-- One turn of the loop of `shortcode_register`. -/
def scanNumberChar (st : NumberScan) (c : UInt8) : NumberScan :=
  if isdigit c then { st with phonenum := st.phonenum ++ [c], seendig := st.seendig + 1 }
  else if c = 43 then
    if st.seendig = 0 && !st.seenplus then
      { st with phonenum := st.phonenum ++ [c], seenplus := true }
    else
      { st with bad := some (str "Error: + can only be the first character in a phone number") }
  else if c ∈ [32, 40, 41, 13, 10] then st
  else if c = 33 then { st with exclaim := st.exclaim + 1 }
  else
    { st with bad := some (str "Error: invalid character '" ++ [c] ++ str "' in requested number") }

/-- The loop of `shortcode_register`, which stops at the first bad character. -/
def scanNumber : NumberScan → CString → NumberScan
  | st, [] => st
  | st, c :: cs => if st.bad.isSome then st else scanNumber (scanNumberChar st c) cs

/-- The complaint of `shortcode_register` about the number of digits. -/
def digitsComplaint (cfg : Config) (st : NumberScan) : Option CString :=
  if (cfg.digitsOverride && st.exclaim = 3) ||
      !(st.seendig > cfg.digitsMax || st.seendig < cfg.digitsMin) then none
  else
    some (st.phonenum ++ str " not valid with " ++ decimal st.seendig ++ str " digits. Must be " ++
      cfg.digitsMinStr ++ str " to " ++ cfg.digitsMaxStr ++ str " digits.")

def shortcodeRegister (env : Env) (q : SMq) (imsi : CString) (msgtext : CString) :
    ShortCodeResult :=
  let cfg := env.config
  let st := scanNumber {} msgtext
  let phone := str " " ++ st.phonenum ++ str " "
  match st.bad.or (digitsComplaint cfg st) with
  | some complaint => ⟨.reply, complaint, q⟩
  | none =>
    match env.hlr.getCLIDLocal imsi with
    | some existing =>
      if existing = st.phonenum then ⟨.reply, cfg.welcomeA ++ phone ++ cfg.welcomeB, q⟩
      else ⟨.reply, cfg.alreadyA ++ str " " ++ existing ++ str " " ++ cfg.alreadyB, q⟩
    | none =>
      if (env.hlr.getIMSI2 st.phonenum).isSome then
        ⟨.reply, cfg.takenA ++ phone ++ cfg.takenB, q⟩
      else
        match env.hlr.addUser imsi st.phonenum with
        | .success => ⟨.register, [], q⟩
        | .delayed => ⟨.awaitRegister, [], q⟩
        | .failure => ⟨.reply, cfg.errorA ++ phone ++ cfg.errorB ++ imsi ++ str ".", q⟩
        | .tryAgain => ⟨.retryAfterDelay, [], q⟩

/-! ## The service centre -/

/-- `set_to_for_smsc` with the request URI -/
def setToForSmsc (sip : SipMessage) (address : CString) : Except Fault SipMessage := do
  let toHeader ← deref sip.toHeader
  let url ← deref toHeader.url
  let user ← deref (← deref sip.reqUri).username
  let url := { url with username := some address }
  return { sip with toHeader := some { toHeader with displayname := some user, url := some url } }

/-- `sendSIP_init` once the address is known -/
def sendSIP (m : ShortMsg) (address : CString) : Except Fault ShortMsg := do
  let sip := ShortMsg.editUri (← deref m.parsed) fun u => { u with username := some address }
  return { m with parsed := some (← setToForSmsc sip address) }.parsedWasChanged

def sendSIPInit (submit : TLSubmit) (m : ShortMsg) : Except Fault ShortMsg :=
  sendSIP m submit.da.digits

/-- `sendSIP_init_text` -/
def sendSIPInitText (m : ShortMsg) : Except Fault ShortMsg := do
  let _ ← sendSIP m (← deref (← (← deref m.parsed).toUsername))
  -- the address is the user in the To header, which `set_to_for_smsc` frees before it copies it
  throw .freedString

/-- The characters of the class `[:graph:]`. -/
def isgraph (c : UInt8) : Bool := 33 ≤ c && c ≤ 126

/-- The expression `^[[:graph:]]+@[[:graph:]]+ ` matches. -/
def startsWithEmail (body : CString) : Bool :=
  let word := body.takeWhile isgraph
  (body.drop word.length).head? = some 32 && 64 ∈ (word.drop 1).dropLast

/-- `submitSMS`: the message goes out by mail or web, or goes on in the queue with a new
recipient. -/
def submitSMS (env : Env) (submit : TLSubmit) (body : CString) (m : ShortMsg) :
    Except Fault (ShortCodeAction × ShortMsg) := do
  let sent : ShortCodeAction := if env.gatewayRuns then .done else .internalError
  if startsWithEmail body then return (sent, m)
  let destinationNumber := env.hlr.getIMSI2 submit.da.digits
  if env.config.globalRelayIp.isEmpty && !env.config.httpGatewayUrl.isEmpty &&
      destinationNumber.isNone then
    return (sent, m)
  return (.restartProcessing, ← sendSIPInit submit m)

def shortcodeSmsc (env : Env) (q : SMq) (m : ShortMsgPending) (msgtext : CString) :
    Except Fault ShortCodeResult := do
  match m.contentType, m.tlMessage with
  | .textPlain, _ =>
    return ⟨.restartProcessing, [],
      q.store { m with toShortMsg := ← sendSIPInitText m.toShortMsg }⟩
  | .vnd3gppSms, some (.submit submit) =>
    let (action, sm) ← submitSMS env submit msgtext m.toShortMsg
    return ⟨action, [], q.store { m with toShortMsg := sm }⟩
  | _, _ => return ⟨.internalError, [], q⟩

/-! ## Dispatch -/

/-- The command that a number stands for. -/
def shortCodeOf (s : Settings) (number : CString) : Option ShortCode :=
  (s.shortCodeMap.find? (·.1 = number)).map Prod.snd

/-- The call of a command for a message. -/
def runShortCode (lib : Libs) (env : Env) (q : SMq) (m : ShortMsgPending) (imsi : Option CString)
    (msgtext : CString) : ShortCode → Except Fault ShortCodeResult
  | .whiplashQuit => q.whiplashQuit lib env msgtext
  | .debugDump => q.shortcodeDebugDump lib
  | .quickChk => .ok q.shortcodeQuickChk
  | .fourOneOne => q.shortcodeFourOneOne lib env m.id msgtext
  | .zapQueued => q.shortcodeZapQueued env msgtext
  | .register => do return q.shortcodeRegister env (← deref imsi) msgtext
  | .smsc => q.shortcodeSmsc env m msgtext

/-- The sender and the recipient of the reply to a message. -/
def replyAddresses (m : ShortMsg) : Except Fault (CString × CString) := do
  let sip ← deref m.parsed
  let shortcode ← deref (← deref sip.reqUri).username
  return (shortcode, ← deref (← sip.fromUsername))

/-- What `handle_short_code` does with the result of a command. -/
def finishShortCode (lib : Libs) (env : Env) (i : MsgId) (r : ShortCodeResult) :
    Except Fault (Option SmState × SMq) := do
  let q := r.queue
  match r.action with
  | .reply =>
    let (shortcode, imsi) ← replyAddresses (← q.msg i).toShortMsg
    let (ok, q) ← q.originateSm lib env shortcode imsi r.reply .requestDestinationSipurl
    return (some (if ok then .deleteMeState else .noState), q)
  | .internalError | .replyAndRetry => return (some .noState, q)
  | .execSmqueue =>
    return (some .deleteMeState, { q with reexecSmqueue := true, stopMainLoop := true })
  | .quitSmqueue => return (some .deleteMeState, { q with stopMainLoop := true })
  | .done => return (some .deleteMeState, q)
  | .retryAfterDelay =>
    let m ← q.msg i
    return (some .requestFromAddressLookup, q.store { m with retries := m.retries + 1 })
  | .awaitRegister => return (some .awaitingRegisterHandset, q)
  | .register =>
    let (next, q) ← q.registerHandset lib env (← q.msg i)
    return (some next, q)
  | .treatAsOrdinary => return (none, q)
  | .restartProcessing => return (some .initialState, q)

/-- The call of the command that a message is for, if it is for one. -/
def callShortCode (lib : Libs) (env : Env) (q : SMq) (m : ShortMsgPending) :
    Except Fault (Option ShortCodeResult) := do
  let sip ← deref m.parsed
  let number ← deref (← deref sip.reqUri).username
  match shortCodeOf q.settings number with
  | none => return none
  | some code =>
    let bods ← m.toShortMsg.getText
    return some (← q.runShortCode lib env m (← sip.fromUsername) bods code)

/-- `handle_short_code`: the next state of the message, or nothing if it is not for a command. -/
def handleShortCode (lib : Libs) (env : Env) (q : SMq) (m : ShortMsgPending) :
    Except Fault (Option SmState × SMq) := do
  match ← q.callShortCode lib env m with
  | none => return (none, q)
  | some r => finishShortCode lib env m.id r

end SMq

end Smqueue

import Smqueue.Originate

/-!
# Address lookups

The three lookups that take a message to its destination: the sender's number, the recipient's IMSI
and the address of the recipient's cell.
-/

namespace Smqueue

/-- The built-in table of IMSIs and phone numbers. -/
def imsiPhone : List (CString × CString) :=
  [(str "IMSI666410186585295", str "+17074700741"), (str "IMSI777100223456161", str "+17074700746")]

/-- The name starts with `imsi` or `IMSI`. -/
def hasImsiPrefix (s : CString) : Bool := (str "imsi").isPrefixOf s || (str "IMSI").isPrefixOf s

/-- The number of digits is that of an IMSI. -/
def imsiLength (s : CString) : Bool := s.length = 15 || s.length = 14

namespace ShortMsg

/-- Replace the user name of the From header. -/
def setFromUsername (sip : SipMessage) (name : CString) : SipMessage :=
  { sip with fromHeader := sip.fromHeader.map fun f =>
      { f with url := f.url.map fun u => { u with username := some name } } }

/-- Replace the display name of the From header. -/
def setFromDisplayname (sip : SipMessage) (name : CString) : SipMessage :=
  { sip with fromHeader := sip.fromHeader.map fun f => { f with displayname := some name } }

/-- Replace a field of the request URI. -/
def editUri (sip : SipMessage) (f : SipUri → SipUri) : SipMessage :=
  { sip with reqUri := sip.reqUri.map f }

/-- The user name without a prefix `imsi` in any spelling. -/
def stripImsi (user : CString) : CString :=
  if (str "imsi").isPrefixOf (user.map tolower) then user.drop 4 else user

/-- The name starts like a phone number. -/
def isPhoneNumber (user : CString) : Bool := user.head? = some 43 || user.head?.any isdigit

/-- The phone number of a sender, from the registry or the built-in table. -/
def phoneOf (hlr : Hlr) (user : CString) : Option CString :=
  (hlr.getCLIDLocal user).or ((imsiPhone.find? (·.1 = user)).map Prod.snd)

def lookupFromAddress (lib : Libs) (env : Env) (s : Settings) (m : ShortMsg) :
    Except Fault (SmState × ShortMsg) := do
  let sip ← deref m.parsed
  let url ← deref (← deref sip.fromHeader).url
  if url.scheme ≠ some (str "sip") then return (.noState, m)
  match url.username with
  | none => return (.noState, m)
  | some fromusername =>
    if url.host.isNone then return (.noState, m)
    let sip := SMq.appendVia lib s sip
    let m := { m with parsed := some sip }
    if isPhoneNumber fromusername then return (.requestDestinationImsi, m)
    if !imsiLength (stripImsi fromusername) then return (.noState, m)
    match phoneOf env.hlr fromusername with
    | none => return (.requestDestinationImsi, m)
    | some newfrom =>
      let sip := setFromDisplayname (setFromUsername sip newfrom) newfrom
      return (.requestDestinationImsi, { m with parsed := some sip }.parsedWasChanged)

/-- The IMSI of a recipient, from the registry or the built-in table. -/
def imsiOf (hlr : Hlr) (user : CString) : Option CString :=
  ((hlr.getIMSI2 user).or ((imsiPhone.find? (·.2 = user)).map Prod.fst)).filter hasImsiPrefix

/-- The user name is to be looked up, since it does not start like an IMSI. -/
def needsTranslation (user : CString) : Bool := user.head? = some 43 || !hasImsiPrefix user

/-- The user name of the request URI without its IMSI prefixes. -/
def stripUriImsi (user : CString) : CString :=
  let user := if (str "imsi").isPrefixOf user then user.drop 4 else user
  if (str "IMSI").isPrefixOf user then user.drop 4 else user

/-- The outcome of `lookup_uri_imsi` as far as the message itself goes: its next state, or nothing if
it has to be bounced. -/
def lookupUriImsi (lib : Libs) (env : Env) (s : Settings) (m : ShortMsg) :
    Except Fault (Option SmState × ShortMsg) := do
  let (_, m) ← m.parse lib
  let sip ← deref m.parsed
  let uri ← deref sip.reqUri
  if uri.scheme ≠ some (str "sip") then return (some .noState, m)
  match uri.username with
  | none => return (some .noState, m)
  | some username =>
    if needsTranslation username then
      match imsiOf env.hlr username with
      | some newdest =>
        let sip := editUri sip fun u => { u with username := some newdest }
        return (some .requestDestinationSipurl, { m with parsed := some sip }.parsedWasChanged)
      | none =>
        if s.globalRelay.isEmpty then return (none, m)
        let sender ← deref (← sip.fromUsername)
        let sip := match env.hlr.mapCLIDGlobal sender with
          | some newfrom => setFromUsername sip newfrom
          | none => sip
        return (some .requestDestinationSipurl,
          { m with parsed := some sip }.convertMessage s.globalRelayContentType)
    else if imsiLength (stripUriImsi username) then return (some .requestDestinationSipurl, m)
    else return (some .noState, m)

/-- The host and port that a `host:port` string names. -/
def splitHostport (hp : CString) : CString × Option CString :=
  match hp.dropWhile (· ≠ 58) with
  | [] => (hp, none)
  | _ :: port => (hp.takeWhile (· ≠ 58), some port)

/-- The host and port to send to. -/
def destination (env : Env) (s : Settings) (imsi : CString) : CString × CString :=
  if needsTranslation imsi then (s.globalRelay, s.globalRelayPort)
  else
    match env.hlr.getRegistrationIP imsi with
    | none => (str "127.0.0.1", env.config.defaultBtsPort)
    | some hp =>
      let (host, port) := splitHostport hp
      (host, port.getD env.config.defaultBtsPort)

/-- The Call-ID with the number of a new call, and with our host if it names one. -/
def renewCallId (s : Settings) (callnum : CString) (c : CallId) : CallId :=
  { number := some callnum, host := c.host.map fun _ => s.myIpaddress }

/-- `lookup_uri_hostport` up to the new tag -/
def lookupUriHostport (lib : Libs) (env : Env) (s : Settings) (m : ShortMsg) :
    Except Fault (SmState × ShortMsg) := do
  let (_, m) ← m.parse lib
  let sip ← deref m.parsed
  match (← deref sip.reqUri).username with
  | none => return (.noState, m)
  | some imsi =>
    let m := if needsTranslation imsi then m.convertMessage s.globalRelayContentType else m
    let (newhost, newport) := destination env s imsi
    let _ ← deref (← deref sip.reqUri).host
    -- the port is compared as a pointer, so that it always counts as changed
    let sip := editUri sip fun u => { u with host := some newhost, port := some newport }
    let callId ← match sip.callId with
      | none => pure (⟨none, none⟩ : CallId)
      | some c => pure c
    let _ ← deref callId.number
    let sip := { sip with callId := some (renewCallId s env.callNumber callId) }
    return (.requestMsgDelivery, { m with parsed := some sip }.parsedWasChanged)

end ShortMsg

namespace SMq

def lookupUriImsi (lib : Libs) (env : Env) (q : SMq) (m : ShortMsgPending) :
    Except Fault (SmState × SMq) := do
  let (next, sm) ← m.toShortMsg.lookupUriImsi lib env q.settings
  let m := { m with toShortMsg := sm }
  let q := q.store m
  match next with
  | some state => return (state, q)
  | none => q.bounceMessage lib env m env.config.notRegistered

def lookupUriHostport (lib : Libs) (env : Env) (s : Settings) (m : ShortMsgPending) :
    Except Fault (SmState × ShortMsgPending) := do
  let (next, sm) ← m.toShortMsg.lookupUriHostport lib env s
  let m := { m with toShortMsg := sm }
  if next = .noState then return (next, m)
  let (_, m) ← m.setQtag lib
  return (next, m)

end SMq

end Smqueue

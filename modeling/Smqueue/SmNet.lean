import Smqueue.ProcessTimeout

/-!
# Sending

The sockets of the daemon, and the loops of `deliver_msg_datagram` over the addresses that a message
may go to and over the sockets that can reach them.
-/

namespace Smqueue

/-- An open socket: its descriptor in `sockets` and its kind in `sockinfo`. -/
structure Socket where
  fd : Int
  addrfam : Int
  socktype : Int
  protofam : Int
  addrlen : Nat
deriving DecidableEq, Repr

/-- `struct addrinfo` -/
structure AddrInfo where
  aiFamily : Int
  aiSocktype : Int
  aiProtocol : Int
  aiAddrlen : Nat
  aiAddr : List UInt8
deriving DecidableEq, Repr

/-- The socket can send to the address. -/
def Socket.fits (s : Socket) (ap : AddrInfo) : Bool :=
  s.addrfam = ap.aiFamily && s.socktype = ap.aiSocktype && s.protofam = ap.aiProtocol &&
    s.addrlen = ap.aiAddrlen

/-- A call of `sendto`, and whether the datagram was sent in its full length. -/
structure SendTo where
  fd : Int
  addr : List UInt8
  sent : Bool
deriving DecidableEq, Repr

structure SMnet where
  /-- The sockets, in the order in which they were opened. -/
  sockets : List Socket

/-- Whether `sendto` takes the datagram, by the number of the address and that of the socket. -/
abbrev Outcomes := Nat → Nat → Bool

namespace SMnet

/-- The inner loop over the sockets left, from a value of the status `i`: its last value, and the
calls made. -/
def sendLoop (textLength : Nat) (takes : Nat → Bool) (ap : AddrInfo) :
    List (Socket × Nat) → Int → Int × List SendTo
  | [], i => (i, [])
  | (s, j) :: rest, i =>
    if s.fits ap then
      let call := ⟨s.fd, ap.aiAddr, takes j⟩
      let i : Int := if takes j then textLength else -1
      -- try another address
      if i < 0 then (i, [call])
      else
        let (i, calls) := sendLoop textLength takes ap rest i
        (i, call :: calls)
    else sendLoop textLength takes ap rest i

/-- The outer loop over the addresses left: whether it stopped before their end, and the calls. -/
def addressLoop (net : SMnet) (textLength : Nat) (takes : Outcomes) :
    List (AddrInfo × Nat) → Bool × List SendTo
  | [] => (false, [])
  | (ap, k) :: rest =>
    let (i, calls) := sendLoop textLength (takes k) ap net.sockets.zipIdx 0
    -- below zero an error, zero no match
    if i ≤ 0 then
      let (sent, later) := net.addressLoop textLength takes rest
      (sent, calls ++ later)
    else (true, calls)

/-- The host and the port that a message is sent to. -/
def destination (m : ShortMsg) : Except Fault (Option CString × CString) := do
  let uri ← deref (← deref m.parsed).reqUri
  return (uri.host, uri.port.getD (uri.scheme.getD (str "sip")))

/-- `deliver_msg_datagram`: its result, the calls of `sendto` and the message. -/
def deliverMsgDatagram (net : SMnet) (lib : Libs)
    (getaddrinfo : Option CString → CString → Option (List AddrInfo)) (takes : Outcomes)
    (m : ShortMsg) : Except Fault (Bool × List SendTo × ShortMsg) := do
  let m ← m.makeTextValid lib
  if net.sockets = [] then return (false, [], m)
  let (ok, m) ← m.parse lib
  if !ok then return (false, [], m)
  let (host, port) ← destination m
  match getaddrinfo host port with
  | none => return (false, [], m)
  | some addrs =>
    let (sent, calls) := net.addressLoop m.textLength takes addrs.zipIdx
    return (sent, calls, m)

/-! ## What is sent -/

/-- The datagram is sent at most once, and the result says whether it was. -/
def SentOnce (result : Bool) (calls : List SendTo) : Prop :=
  calls.countP (·.sent) ≤ 1 ∧ (result = true ↔ 0 < calls.countP (·.sent))

/-- The sockets that fit an address, with their numbers. -/
def fitting (net : SMnet) (ap : AddrInfo) : List (Socket × Nat) :=
  net.sockets.zipIdx.filter (·.1.fits ap)

/-- There is a socket for the address, and each of them takes the datagram, which is not empty. -/
def Reaches (net : SMnet) (textLength : Nat) (takes : Outcomes) (a : AddrInfo × Nat) : Prop :=
  0 < textLength ∧ net.fitting a.1 ≠ [] ∧ ∀ s ∈ net.fitting a.1, takes a.2 s.2 = true

/-- The first socket for the address fails, if there is one, or it is the only one and the datagram is
not empty. -/
def FailsOrSingle (net : SMnet) (textLength : Nat) (takes : Outcomes) (a : AddrInfo × Nat) : Prop :=
  (∀ s ∈ (net.fitting a.1).head?, takes a.2 s.2 = false) ∨
    0 < textLength ∧ (net.fitting a.1).length = 1

/-- Each address that is tried has a first socket that fails or a single one. -/
def NoSecondSocket (net : SMnet) (textLength : Nat) (takes : Outcomes)
    (addrs : List (AddrInfo × Nat)) : Prop :=
  ∀ before a after, addrs = before ++ a :: after →
    (∀ b ∈ before, ¬ net.Reaches textLength takes b) → net.FailsOrSingle textLength takes a

/-- The addresses that a message may be sent to have no second socket. -/
def CanSendOnce (net : SMnet) (lib : Libs)
    (getaddrinfo : Option CString → CString → Option (List AddrInfo)) (takes : Outcomes)
    (m : ShortMsg) : Prop :=
  ∀ m₁ m₂ host port addrs, m.makeTextValid lib = .ok m₁ → m₁.parse lib = .ok (true, m₂) →
    destination m₂ = .ok (host, port) → getaddrinfo host port = some addrs →
    net.NoSecondSocket m₂.textLength takes addrs.zipIdx

end SMnet

end Smqueue

import Mathlib.Logic.Function.Basic
import Smqueue.Daemon
import Smqueue.Polling

/-!
# Datagrams

The sockets under the threads: `get_next_dgram` reads what the kernel holds for the sockets and hands it
to `main_loop`, and `send_dgram` sends an answer back.
-/

namespace Smqueue

/-- A datagram, with the address that it came from. -/
structure Datagram where
  bytes : List UInt8
  addr : List UInt8
deriving DecidableEq, Repr

/-- The datagrams that the kernel holds for each descriptor, the oldest first. -/
abbrev Queues := Int → List Datagram

/-- What `SMnet` receives with. -/
structure Receiver where
  fds : List PollFd
  srcAddr : List UInt8
  recvaddrlen : Nat
deriving DecidableEq, Repr

/-- `sizeof(src_addr)` of `SMnet` -/
def srcAddrSize : Nat := 200

/-- `sizeof(srcaddr)` of a message -/
def msgSrcaddrSize : Nat := 16

/-- `SOCK_DGRAM` -/
def sockDgram : Int := 2

namespace Receiver

/-- `recvfrom` with `MSG_TRUNC`: the oldest datagram is taken out, and its whole length is returned; if
there is none, an error is. -/
def recvfrom (queues : Queues) (fd : Int) : Option Datagram × Queues :=
  ((queues fd).head?, Function.update queues fd (queues fd).tail)

/-- The part of `get_next_dgram` for a socket with input: the result and the bytes in the buffer. -/
def readSocket (bufferlen : Nat) (fd : Int) (queues : Queues) (net : Receiver) :
    Option ((Int × List UInt8) × Queues × Receiver) :=
  let (received, queues) := recvfrom queues fd
  let addrlen := received.elim srcAddrSize (·.addr.length)
  -- the error -1 as a number without a sign, so that it is no error but a datagram that is too long
  let recvlength := received.elim (2 ^ 64 - 1) (·.bytes.length)
  if srcAddrSize < addrlen then none
  else
    let net := { net with
      srcAddr := received.elim net.srcAddr fun d => d.addr ++ net.srcAddr.drop d.addr.length
      recvaddrlen := addrlen }
    let buffer := received.elim [] (·.bytes.take bufferlen)
    if bufferlen < recvlength then some ((-1, buffer), queues, net)
    else some ((recvlength, buffer), queues, net)

/-- The loop of `get_next_dgram` over the sockets left. -/
def walkSockets (bufferlen : Nat) (queues : Queues) (net : Receiver) :
    List PollFd → Option ((Int × List UInt8) × Queues × Receiver)
  | [] => some ((-1, []), queues, net)
  | p :: rest =>
    if PollFlag.isSet p.revents .pollin || PollFlag.isSet p.revents .pollpri then
      readSocket bufferlen p.fd queues net
    else if PollFlag.isSet p.revents .pollout then some ((0, []), queues, net)
    else if PollFlag.isSet p.revents .pollerr || PollFlag.isSet p.revents .pollhup ||
        PollFlag.isSet p.revents .pollnval then some ((-1, []), queues, net)
    else walkSockets bufferlen queues net rest

/-- `get_next_dgram`. The array that `poll` is given must have been allocated. -/
def getNextDgram (ready : Option Ready) (bufferlen : Nat) (mstimeout : Int) (queues : Queues)
    (net : Receiver) : Option ((Int × List UInt8) × Queues × Receiver) :=
  if net.fds = [] then none
  else
    (SocketTable.pollSockets ready net.fds mstimeout).bind fun (i, fds) =>
      let net := { net with fds := fds }
      if i ≤ 0 then some ((i, []), queues, net) else walkSockets bufferlen queues net net.fds

end Receiver

namespace SMnet

/-- `send_dgram`, where `sendto` gives the number of the bytes that a socket took: the result, and the
calls made. -/
def sendDgram (sendto : Int → Option Nat) (buffsize : Nat) (toaddr : List UInt8) :
    List Socket → Bool × List SendTo
  | [] => (false, [])
  | s :: rest =>
    if s.socktype = sockDgram && s.addrlen = toaddr.length then
      match sendto s.fd with
      | none =>
        let (ok, calls) := sendDgram sendto buffsize toaddr rest
        (ok, ⟨s.fd, toaddr, false⟩ :: calls)
      | some i => (i = buffsize, [⟨s.fd, toaddr, i = buffsize⟩])
    else sendDgram sendto buffsize toaddr rest

end SMnet

namespace SocketTable

/-- An address that `listen_on_port` tries, with what `socket` and `bind` give for it. -/
structure Attempt where
  ap : AddrInfo
  fd : Int
  bound : Bool
deriving DecidableEq, Repr

/-- The socket for the address is open. -/
def Attempt.opened (a : Attempt) : Bool := 0 ≤ a.fd && a.bound

def Attempt.socket (a : Attempt) : Socket :=
  ⟨a.fd, a.ap.aiFamily, a.ap.aiSocktype, a.ap.aiProtocol, a.ap.aiAddrlen⟩

/-- `POLLIN|POLLPRI` -/
def listenEvents : Int := PollFlag.set (PollFlag.set 0 .pollin) .pollpri

/-- The loop of `listen_on_port` over the addresses left: the table, and `gotasocket`. -/
def listenLoop (t : SocketTable) : List Attempt → Option (SocketTable × Nat)
  | [] => some (t, 0)
  | a :: rest =>
    -- without a socket or an address the next one is tried
    if a.fd < 0 then listenLoop t rest
    else if !a.bound then listenLoop t rest
    else (t.addSocket a.socket listenEvents).bind fun t =>
      (listenLoop t rest).map fun (t, gotasocket) => (t, gotasocket + 1)

/-- `listen_on_port`, where `getaddrinfo` may give no address. -/
def listenOnPort (t : SocketTable) : Option (List Attempt) → Option (Bool × SocketTable)
  | none => some (false, t)
  | some attempts => (listenLoop t attempts).map fun (t, gotasocket) => (gotasocket ≠ 0, t)

/-- The sockets that `listen_on_port` opens, in the order of the addresses. -/
def openedBy (attempts : List Attempt) : List Socket :=
  (attempts.filter Attempt.opened).map Attempt.socket

end SocketTable

/-! ## The program on its sockets -/

/-- The threads, the sockets, and what the kernel holds for them. -/
structure Node where
  net : Receiver
  queues : Queues
  daemon : Daemon

inductive NodeAct
  /-- The kernel gets a datagram for a descriptor. -/
  | datagram (fd : Int) (d : Datagram)
  /-- The reader waits in `main_loop`, and gets what is there. -/
  | mainLoop (env : Env) (ready : Option Ready)
  /-- Another step of a thread. -/
  | thread (a : DaemonAct)

/-- A step that is not a datagram for the threads. -/
def DaemonAct.isArrival : DaemonAct → Bool
  | .arrive _ _ _ => true
  | _ => false

namespace Node

/-- The reader is in front of `get_next_dgram`. -/
def listens (d : Daemon) : Bool :=
  match d.reader with
  | .waiting => true
  | _ => false

/-- The address that `main_loop` copies into the message, if there is room for it. -/
def srcaddr (net : Receiver) : List UInt8 :=
  if net.recvaddrlen ≤ msgSrcaddrSize then net.srcAddr.take net.recvaddrlen else []

/-- `main_loop` up to the checks of the message. -/
def mainLoop (lib : Libs) (env : Env) (ready : Option Ready) (n : Node) : Option Node :=
  if listens n.daemon then
    (n.net.getNextDgram ready Daemon.bufferSize 60000 n.queues).bind fun ((len, buffer), queues, net) =>
      if len ≤ 0 then
        some { net := net, queues := queues, daemon := n.daemon.leave.getD n.daemon }
      else (n.daemon.arrive lib env (buffer.take len.toNat) (srcaddr net)).map fun d =>
        { net := net, queues := queues, daemon := d }
  else none

def next (lib : Libs) (n : Node) : NodeAct → Option Node
  | .datagram fd d => some { n with queues := Function.update n.queues fd (n.queues fd ++ [d]) }
  | .mainLoop env ready => n.mainLoop lib env ready
  | .thread a =>
    if a.isArrival then none else (n.daemon.next lib a).map fun d => { n with daemon := d }

end Node

/-! ## What becomes of the datagrams -/

namespace Datagram

/-- The datagram is one that `get_next_dgram` gives to its caller and that `main_loop` takes: it fits
into the buffer and is not empty. -/
def fits (bufferlen : Nat) (d : Datagram) : Bool := d.bytes ≠ [] && d.bytes.length ≤ bufferlen

/-- What the threads get of a datagram: its bytes, and its address if there is room for it. -/
def handed (d : Datagram) : List UInt8 × List UInt8 :=
  (d.bytes, if d.addr.length ≤ msgSrcaddrSize then d.addr else [])

/-- What `get_next_dgram` returns for a datagram, an error where it is too long. -/
def result (bufferlen : Nat) (d : Datagram) : Int :=
  if bufferlen < d.bytes.length then -1 else d.bytes.length

end Datagram

/-- The bytes and the address of an arrival. -/
def DaemonAct.arrival : DaemonAct → Option (List UInt8 × List UInt8)
  | .arrive _ buffer srcaddr => some (buffer, srcaddr)
  | _ => none

/-- The datagram that the kernel gets for the descriptor. -/
def NodeAct.datagramFor (fd : Int) : NodeAct → Option Datagram
  | .datagram fd' d => if fd' = fd then some d else none
  | _ => none

/-- The datagrams of a descriptor among those that were taken out of the kernel. -/
def takenFrom (fd : Int) (taken : List (Int × Datagram)) : List Datagram :=
  (taken.filter (·.1 = fd)).map Prod.snd

namespace Node

/-- Along a sequence of steps the threads took steps of their own and were handed datagrams. For every
descriptor the datagrams were taken out of the kernel in the order in which they came, and those that
fit were handed to the threads in the order in which they were taken. -/
def Carries (lib : Libs) (n : Node) (acts : List NodeAct) (n' : Node) : Prop :=
  ∃ (taken : List (Int × Datagram)) (as : List DaemonAct),
    n.daemon.run lib as = some n'.daemon ∧
    as.filterMap DaemonAct.arrival =
      (taken.map Prod.snd).filterMap (fun d =>
        if d.fits Daemon.bufferSize then some d.handed else none) ∧
    ∀ fd, n.queues fd ++ acts.filterMap (NodeAct.datagramFor fd) =
      takenFrom fd taken ++ n'.queues fd

end Node

namespace Receiver

/-- There are sockets, each of them is polled for input and not for output, and no two have one
descriptor. -/
structure Listening (net : Receiver) : Prop where
  nonempty : net.fds ≠ []
  distinct : (net.fds.map PollFd.fd).Nodup
  usable : ∀ p ∈ net.fds, 0 ≤ p.fd ∧ p.fd < fdSetSize
  events : ∀ p ∈ net.fds, PollFlag.isSet p.events .pollin = true ∧
    PollFlag.isSet p.events .pollout = false

/-- The descriptors with datagrams are those that `select` finds ready to read. -/
def readyOf (queues : Queues) (write : Int → Bool) : Ready where
  read fd := queues fd ≠ []
  write := write
  except _ := false

/-- What the kernel holds for the sockets, in the order in which it is read. -/
def pending (net : Receiver) (queues : Queues) : List Datagram :=
  net.fds.flatMap fun p => queues p.fd

/-- The result of a call, with the bytes and the address where there is a datagram. -/
def outcome (len : Int) (buffer : List UInt8) (net : Receiver) : Int × List UInt8 × List UInt8 :=
  (len, if 0 < len then (buffer, net.srcAddr.take net.recvaddrlen) else ([], []))

/-- So many calls of `get_next_dgram` while no datagram comes. -/
def receive (write : Int → Bool) (bufferlen : Nat) (mstimeout : Int) :
    Nat → Queues → Receiver →
      Option (List (Int × List UInt8 × List UInt8) × Queues × Receiver)
  | 0, queues, net => some ([], queues, net)
  | n + 1, queues, net =>
    (net.getNextDgram (some (readyOf queues write)) bufferlen mstimeout queues).bind
      fun ((len, buffer), queues, net) =>
        (receive write bufferlen mstimeout n queues net).map fun (results, rest) =>
          (outcome len buffer net :: results, rest)

/-- The result of a call that takes the datagram. -/
def received (bufferlen : Nat) (d : Datagram) : Int × List UInt8 × List UInt8 :=
  (d.result bufferlen, if d.fits bufferlen then (d.bytes, d.addr) else ([], []))

end Receiver

/-- The socket can send to an address of that length. -/
def Socket.suits (toaddr : List UInt8) (s : Socket) : Bool :=
  s.socktype = sockDgram && s.addrlen = toaddr.length

/-- The sockets that may send to the address. -/
def SMnet.suited (toaddr : List UInt8) (sockets : List Socket) : List Socket :=
  sockets.filter (Socket.suits toaddr)

end Smqueue

import Smqueue.Lib.Compaction
import Smqueue.Lib.Runs
import Smqueue.SmNet

/-!
# The socket table

`add_socket` and `remove_socket` of `SMnet`. What is polled of a socket and what else is remembered of
it stand in two arrays under one subscript. The arrays grow together.
-/

namespace Smqueue

/-- `struct pollfd` -/
structure PollFd where
  fd : Int
  events : Int
  revents : Int
deriving DecidableEq, Repr

/-- `extra_sockinfo`, less the copy of the address, which nothing reads. -/
structure ExtraSockinfo where
  addrfam : Int
  socktype : Int
  protofam : Int
  addrlen : Nat
deriving DecidableEq, Repr

/-- What `add_socket` is given to remember of a socket. -/
def Socket.info (s : Socket) : ExtraSockinfo := ⟨s.addrfam, s.socktype, s.protofam, s.addrlen⟩

/-- The arrays of `SMnet`. An entry that was allocated and never assigned is `none`. -/
structure SocketTable where
  sockets : List (Option PollFd)
  sockinfo : List (Option ExtraSockinfo)
  allocsockets : Nat
  numsockets : Nat
deriving DecidableEq, Repr

/-- A call of `add_socket` or `remove_socket`. -/
inductive SocketCall
  | add (s : Socket) (events : Int)
  | remove (socket : Int)
deriving DecidableEq, Repr

/-- `sizeof(struct sockaddr_storage)`, which every socket address fits into. -/
def sockaddrStorageSize : Nat := 128

namespace SocketTable

/-- The constructor of `SMnet`. -/
def empty : SocketTable := ⟨[], [], 0, 0⟩

/-- An array with room for `newalloc` entries that starts with the first `n` entries of `l`. -/
def realloc {α : Type} (l : List (Option α)) (n newalloc : Nat) : List (Option α) :=
  l.take n ++ List.replicate (newalloc - n) none

/-- The first part of `add_socket`. The new size is an `int`: where it becomes negative, `new`
throws. -/
def grow (t : SocketTable) : Option SocketTable :=
  if t.numsockets ≥ t.allocsockets then
    let newalloc := t.allocsockets + 10
    if newalloc < 2 ^ 31 then
      some { t with sockets := realloc t.sockets t.numsockets newalloc, allocsockets := newalloc,
                    sockinfo := realloc t.sockinfo t.numsockets newalloc }
    else none
  else some t

def addSocket (t : SocketTable) (s : Socket) (events : Int) : Option SocketTable :=
  t.grow.map fun t =>
    let addrlen := if s.addrlen ≤ sockaddrStorageSize then s.addrlen else 0
    { t with sockets := t.sockets.set t.numsockets (some ⟨s.fd, events, 0⟩)
             sockinfo := t.sockinfo.set t.numsockets
               (some ⟨s.addrfam, s.socktype, s.protofam, addrlen⟩)
             numsockets := t.numsockets + 1 }

/-- The entry is not one of the socket. -/
def isOther (socket : Int) (entry : Option PollFd) : Bool := entry.map PollFd.fd != some socket

/-- Only `sockets` is compacted. -/
def removeSocket (t : SocketTable) (socket : Int) : SocketTable :=
  let (sockets, j) := Compaction.loop (isOther socket) t.numsockets 0 0 t.sockets
  { t with sockets := sockets, numsockets := j }

def call (t : SocketTable) : SocketCall → Option SocketTable
  | .add s events => t.addSocket s events
  | .remove socket => some (t.removeSocket socket)

/-! ## The sockets that are open -/

/-- The sockets added and not removed, in order of addition. -/
def openSockets (opened : List Socket) : SocketCall → List Socket
  | .add s _ => opened ++ [s]
  | .remove socket => opened.filter fun s => s.fd != socket

/-- A call on a table, next to what was added to it. -/
def next (s : SocketTable × List Socket) (c : SocketCall) : Option (SocketTable × List Socket) :=
  (s.1.call c).map fun t => (t, openSockets s.2 c)

/-- A table to which nothing was added. -/
def start : SocketTable × List Socket := (empty, [])

/-- The descriptors in use. -/
def fds (t : SocketTable) : List (Option Int) :=
  (t.sockets.take t.numsockets).map (Option.map PollFd.fd)

/-- What is remembered of the sockets in use. -/
def infos (t : SocketTable) : List (Option ExtraSockinfo) := t.sockinfo.take t.numsockets

/-- The descriptors in use are those of the sockets added and not removed, in order of addition, and
under the subscript of each descriptor stands what was given when it was added. -/
structure Aligned (t : SocketTable) (opened : List Socket) : Prop where
  bounded : t.numsockets ≤ t.allocsockets
  descriptors : t.fds = opened.map fun s => some s.fd
  remembered : t.infos = opened.map fun s => some s.info

/-- The entries of the two arrays under one subscript. -/
def entries (t : SocketTable) : List (Option Int × Option ExtraSockinfo) := t.fds.zip t.infos

/-- The address of an added socket is one that is remembered; each socket that a removal keeps is of the
kind that is remembered at the place where it goes. -/
def KeepsInfo (t : SocketTable) : SocketCall → Prop
  | .add s _ => s.addrlen ≤ sockaddrStorageSize
  | .remove socket =>
    let kept := t.entries.filter fun e => e.1 != some socket
    kept.map Prod.snd = (t.entries.take kept.length).map Prod.snd

/-- The sockets as the sending loops find them. -/
def net (t : SocketTable) : SMnet :=
  ⟨t.entries.filterMap fun e => e.1.bind fun fd => e.2.map fun i =>
    ⟨fd, i.addrfam, i.socktype, i.protofam, i.addrlen⟩⟩

end SocketTable

end Smqueue

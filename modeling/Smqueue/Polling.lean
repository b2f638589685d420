import Mathlib.Data.Int.Bitwise
import Smqueue.SocketTable

/-!
# Polling

The emulation of `poll` by `select`, and the functions of `SMnet` that wait for the sockets. The
descriptors that `select` finds ready are a parameter.
-/

namespace Smqueue

/-- The flags in `events` and `revents`. -/
inductive PollFlag
  | pollin | pollpri | pollout | pollerr | pollhup | pollnval
deriving DecidableEq, Repr

namespace PollFlag

/-- The position of the bit: `POLLIN` is `0x01`, `POLLNVAL` is `0x20`. -/
def bit : PollFlag → Nat
  | pollin => 0
  | pollpri => 1
  | pollout => 2
  | pollerr => 3
  | pollhup => 4
  | pollnval => 5

def value (f : PollFlag) : Int := 2 ^ f.bit

/-- `flags & f` -/
def isSet (flags : Int) (f : PollFlag) : Bool := flags.testBit f.bit

/-- `flags | f` -/
def set (flags : Int) (f : PollFlag) : Int := Int.lor flags f.value

/-- `flags & ~f` -/
def clear (flags : Int) (f : PollFlag) : Int := Int.ldiff flags f.value

end PollFlag

open PollFlag

/-- The three `fd_set`s of a call of `select`: the descriptors in them. -/
structure FdSets where
  read : List Int := []
  write : List Int := []
  except : List Int := []
deriving DecidableEq, Repr

/-- `FD_SETSIZE` -/
def fdSetSize : Int := 1024

/-- The descriptors that are ready when `select` returns. -/
structure Ready where
  read : Int → Bool
  write : Int → Bool
  except : Int → Bool

namespace FdSets

/-- `FD_SET`, where the entry asks for it. -/
def putIf (wanted : Bool) (fd : Int) (set : List Int) : List Int :=
  if wanted then set.insert fd else set

/-- A set has no room for the descriptor that the entry asks to put in. -/
def overflows (p : PollFd) : Bool :=
  fdSetSize ≤ p.fd && (isSet p.events pollin || isSet p.events pollout || isSet p.events pollpri)

/-- One turn of the loop of `map_poll_spec`. -/
def add (s : FdSets × Int) (p : PollFd) : Option (FdSets × Int) :=
  if p.fd < 0 then some s
  else if overflows p then none
  else
    some ({ read := putIf (isSet p.events pollin) p.fd s.1.read
            write := putIf (isSet p.events pollout) p.fd s.1.write
            except := putIf (isSet p.events pollpri) p.fd s.1.except }, max s.2 p.fd)

end FdSets

namespace Poll

/-- `map_poll_spec`: the sets and the highest descriptor. -/
def mapPollSpec (fds : List PollFd) : Option (FdSets × Int) := fds.foldlM FdSets.add ({}, -1)

/-- `map_timeout`: seconds and microseconds, or nothing for an infinite time. -/
def mapTimeout (timeout : Int) : Option (Int × Int) :=
  if timeout = -1 then none
  else if timeout = 0 then some (0, 0)
  else some (timeout.tdiv 1000, timeout.tmod 1000 * 1000)

/-- `select` refuses a time that is not one. -/
def validTimeout : Option (Int × Int) → Bool
  | none => true
  | some (sec, usec) => 0 ≤ sec && 0 ≤ usec && usec < 1000000

/-- `select` keeps the descriptors below `nfds` that are ready, and counts them; below zero is an
error, which leaves the sets alone. -/
def select (ready : Option Ready) (nfds : Int) (sets : FdSets) (timeout : Option (Int × Int)) :
    Int × FdSets :=
  if validTimeout timeout then
    match ready with
    | none => (-1, sets)
    | some r =>
      let sets := { read := sets.read.filter fun fd => fd < nfds && r.read fd
                    write := sets.write.filter fun fd => fd < nfds && r.write fd
                    except := sets.except.filter fun fd => fd < nfds && r.except fd }
      (sets.read.length + sets.write.length + sets.except.length, sets)
  else (-1, sets)

/-- One turn of the loop of `map_select_results`. Exceptions hide input. -/
def mapSelectResult (sets : FdSets) (p : PollFd) : PollFd :=
  if p.fd < 0 then p
  else
    let revents :=
      if p.fd ∈ sets.except then set 0 pollpri
      else if p.fd ∈ sets.read then set 0 pollin
      else 0
    { p with revents := if p.fd ∈ sets.write then set revents pollout else revents }

/-- `map_select_results` -/
def mapSelectResults (sets : FdSets) (fds : List PollFd) : List PollFd :=
  fds.map (mapSelectResult sets)

/-- `poll`: its result and the array. -/
def poll (ready : Option Ready) (fds : List PollFd) (timeout : Int) : Option (Int × List PollFd) := do
  let (sets, maxFd) ← mapPollSpec fds
  let (readyDescriptors, sets) := select ready (maxFd + 1) sets (mapTimeout timeout)
  return (readyDescriptors, if 0 ≤ readyDescriptors then mapSelectResults sets fds else fds)

end Poll

namespace SocketTable

/-- The entries in use. -/
def pollFds (t : SocketTable) : List PollFd := (t.sockets.take t.numsockets).filterMap id

/-- `poll_sockets` -/
def pollSockets (ready : Option Ready) (fds : List PollFd) (mstimeout : Int) :
    Option (Int × List PollFd) :=
  Poll.poll ready fds (if mstimeout < 0 then -1 else mstimeout)

/-- `care_about_writes`: the entries, and whether there is one of the socket. -/
def careAboutWrites (socket : Int) (icare : Bool) : List PollFd → Bool × List PollFd
  | [] => (false, [])
  | p :: rest =>
    if p.fd = socket then
      (true, { p with events := if icare then set p.events pollout else clear p.events pollout } :: rest)
    else
      let (found, rest) := careAboutWrites socket icare rest
      (found, p :: rest)

end SocketTable

/-! ## What polling is for -/

/-- `select` has a set for the flag. -/
def PollFlag.polled : PollFlag → Bool
  | pollin | pollout | pollpri => true
  | _ => false

/-- The descriptors in the set that belongs to the flag. -/
def FdSets.fdsOf (s : FdSets) : PollFlag → List Int
  | pollin => s.read
  | pollout => s.write
  | pollpri => s.except
  | _ => []

/-- What the flag stands for is there. -/
def Ready.isReady (r : Ready) : PollFlag → Int → Bool
  | pollin => r.read
  | pollout => r.write
  | pollpri => r.except
  | _ => fun _ => false

namespace PollFd

/-- What `poll` has to report of an entry: what was asked for and is ready. -/
def Reports (r : Ready) (p : PollFd) (f : PollFlag) : Prop :=
  0 ≤ p.fd ∧ isSet p.events f = true ∧ r.isReady f p.fd = true

/-- The descriptor has room in a set; if there is none, nothing was reported of it before. -/
structure Usable (p : PollFd) : Prop where
  fits : p.fd < fdSetSize
  unused : p.fd < 0 → p.revents = 0

end PollFd

end Smqueue

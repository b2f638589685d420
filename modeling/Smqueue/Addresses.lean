import Smqueue.Datagrams

/-!
# Addresses as text

The address that a message came from is printed with its port, into the queue file and for the
registrar, and `parse_addr` makes an address of such a text again.
-/

namespace Smqueue

/-- `strchr`: the part of the string from the first such character on. -/
def strchr (c : UInt8) (s : CString) : Option CString :=
  if c ∈ s then some (s.dropWhile (· ≠ c)) else none

/-- The functions of the C library that print addresses and find them. -/
structure NameService where
  /-- `getnameinfo` with numbers: the host and the port of an address, or an error. -/
  getnameinfo : List UInt8 → Option (CString × CString)
  /-- `inet_ntop` for a family and the data behind it -/
  inetNtop : List UInt8 → List UInt8 → Option CString
  /-- `getaddrinfo` for datagrams of any address family, with international names or without. -/
  getaddrinfo : Bool → CString → CString → Option (List AddrInfo)

namespace NameService

/-- `string_addr`: what cannot be printed is a zero. -/
def stringAddr (ns : NameService) (sa : List UInt8) (withport : Bool) : CString :=
  let (p, port) :=
    if sa = [] then (str "0", str "0")
    else
      match ns.getnameinfo sa with
      | some (p, port) => (p, port)
      | none => ((ns.inetNtop (sa.take 2) (sa.drop 2)).getD (str "0"), str "0")
  if withport then p ++ str ":" ++ port else p

/-- `msg_is_from_relay` -/
def msgIsFromRelay (ns : NameService) (srcaddr : List UInt8) (relayIp relayPort : CString) : Bool :=
  -- without a relay no message is from it
  if relayIp = [] then false
  else
    match ns.getaddrinfo true relayIp relayPort with
    | none => false
    | some addrs => addrs.any fun ap => ap.aiAddrlen = srcaddr.length && ap.aiAddr = srcaddr

/-- The loop of `parse_addr` over the addresses left, with the one that it has seen: it fails on a
second one. -/
def pickAddr (maxlen : Nat) : List AddrInfo → Option (List UInt8) → Option (List UInt8)
  | [], seen => seen
  | ap :: rest, seen =>
    if maxlen < ap.aiAddrlen || ap.aiSocktype ≠ sockDgram then pickAddr maxlen rest seen
    else if seen.isSome then none
    else pickAddr maxlen rest (some ap.aiAddr)

/-- `parse_addr` -/
def parseAddr (ns : NameService) (maxlen : Nat) (s : CString) : Option (List UInt8) :=
  match strchr 58 s with
  | none => none
  | some p =>
    -- the empty address
    if s = str "0:0" then some []
    else
      let host := s.take (s.length - p.length)
      let port := p.drop 1
      match ns.getaddrinfo false host port with
      | none => none
      | some addrs => pickAddr maxlen addrs none

end NameService

/-! ## Addresses of the internet -/

/-- An address of the internet protocol, version 4, and a port, byte by byte. -/
structure InetAddr where
  a : UInt8
  b : UInt8
  c : UInt8
  d : UInt8
  portHigh : UInt8
  portLow : UInt8
deriving DecidableEq, Repr

namespace InetAddr

/-- `struct sockaddr_in` in the memory of the machine, with its padding. -/
def sockaddr (x : InetAddr) : List UInt8 :=
  [2, 0, x.portHigh, x.portLow, x.a, x.b, x.c, x.d] ++ List.replicate 8 0

/-- The numbers of the bytes with dots between them. -/
def host (x : InetAddr) : CString :=
  decimal x.a.toNat ++ 46 :: (decimal x.b.toNat ++ 46 :: (decimal x.c.toNat ++
    46 :: decimal x.d.toNat))

def port (x : InetAddr) : CString := decimal (256 * x.portHigh.toNat + x.portLow.toNat)

end InetAddr

namespace NameService

/-- What the program relies on: addresses of the internet are printed as numbers, and the text of
such numbers is found without asking anyone, as the one address that it says. -/
structure Lawful (ns : NameService) : Prop where
  getnameinfo_inet : ∀ x : InetAddr, ns.getnameinfo x.sockaddr = some (x.host, x.port)
  getaddrinfo_inet : ∀ (idn : Bool) (x : InetAddr), ∃ family protocol,
    ns.getaddrinfo idn x.host x.port = some [⟨family, sockDgram, protocol, 16, x.sockaddr⟩]

/-- The address of a message that the queue file can hold: none, or one of the internet. -/
def Storable (srcaddr : List UInt8) : Prop := srcaddr = [] ∨ ∃ x : InetAddr, srcaddr = x.sockaddr

end NameService

end Smqueue

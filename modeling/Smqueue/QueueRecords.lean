import Smqueue.QueueFile

/-!
# The records of the queue file

A queue file seen as a list of records, and what it means that a saved queue comes back.
-/

namespace Smqueue

/-- What a record of the queue file says about a message. -/
structure QueueRecord where
  state : SmState
  nextActionTime : Time
  address : CString
  text : CString
  msToSc : Bool
  needRepack : Bool
deriving DecidableEq, Repr

/-- The record of a message with the given text. -/
def ShortMsgPending.record (env : Env) (m : ShortMsgPending) (text : CString) : QueueRecord :=
  ⟨m.state, m.nextActionTime, env.stringAddr m.srcaddr true, text, m.msToSc, m.needRepack⟩

/-- The record that a turn of the record loop has read. -/
def ReadLoop.record (l : ReadLoop) (msgtext : CString) : QueueRecord :=
  ⟨.ofNat l.astate, l.atime, l.netaddrstr, cstr msgtext, l.msToSc ≠ 0, l.needRepack ≠ 0⟩

namespace QueueRecord

/-- The bytes of a record in the file. -/
def bytes (r : QueueRecord) : CString :=
  str "=== " ++ decimal r.state.toNat ++ str " " ++ decimalInt r.nextActionTime ++ str " " ++
    r.address ++ str " " ++ decimal r.text.length ++ str " " ++ boolText r.msToSc ++ str " " ++
    boolText r.needRepack ++ str "\n" ++ r.text ++ str "\n\n"

/-- The message that is made of a record, with its identity and the address that was parsed. -/
def message (r : QueueRecord) (srcaddr : List UInt8) (id : MsgId) : ShortMsgPending where
  text := some r.text
  textLength := r.text.length
  msToSc := r.msToSc
  needRepack := r.needRepack
  id := id
  srcaddr := srcaddr

/-- The record of a message in some state, with a time that fits into an `unsigned`, an address
without white space and a nonempty C string shorter than 65536 bytes. -/
structure Savable (r : QueueRecord) : Prop where
  state : SmState.ofNat r.state.toNat = r.state ∧ r.state.toNat < 2 ^ 31
  time : 0 ≤ r.nextActionTime ∧ r.nextActionTime < 2 ^ 32
  address : ∀ c ∈ r.address, isspace c = false
  text : r.text ≠ [] ∧ 0 ∉ r.text ∧ r.text.length < 2 ^ 16

/-- The record has an address, and its text does not begin with a line break. -/
def Framed (r : QueueRecord) : Prop := r.address ≠ [] ∧ r.text.head? ≠ some 10

/-- The record passes address parsing and validation, and it is that of a request. -/
def Passes (lib : Libs) (env : Env) (parseAddr : CString → Option (List UInt8)) (s : Settings)
    (r : QueueRecord) : Prop :=
  ∃ srcaddr, parseAddr r.address = some srcaddr ∧ ∀ id, ∃ m,
    (r.message srcaddr id).validateShortMsg lib s env false = .ok (0, m) ∧
      m.parsed.any SipMessage.isRequest

/-- The message came back from the record. -/
def CameBack (parseAddr : CString → Option (List UInt8)) (r : QueueRecord) (m : ShortMsgPending) :
    Prop :=
  m.state = r.state ∧ m.nextActionTime = r.nextActionTime ∧
    parseAddr r.address = some m.srcaddr ∧ m.text = some r.text ∧ m.msToSc = r.msToSc ∧
    m.needRepack = r.needRepack

end QueueRecord

namespace ReadLoop

/-- The record loop reads exactly the given records, and each one ends where the next one begins. -/
inductive ReadsBack : ReadLoop → List QueueRecord → Prop
  | done {l : ReadLoop} (h : l.turn = none) : ReadsBack l []
  | record {l l' : ReadLoop} {msgtext : CString} {rs : List QueueRecord}
      (ht : l.turn = some (l', msgtext)) (hend : l'.file.rest = (rs.map QueueRecord.bytes).flatten)
      (h : ReadsBack l' rs) : ReadsBack l (l'.record msgtext :: rs)

/-- `read_queue_from_file` as a whole makes the second queue out of the first one. -/
inductive Rebuilds (lib : Libs) (env : Env) (parseAddr : CString → Option (List UInt8)) :
    ReadLoop → SMq → SMq → Prop
  | done {l : ReadLoop} {q : SMq} (h : l.turnWith lib env parseAddr q = .ok none) :
      Rebuilds lib env parseAddr l q q
  | record {l l' : ReadLoop} {q q1 q' : SMq}
      (ht : l.turnWith lib env parseAddr q = .ok (some (l', q1)))
      (h : Rebuilds lib env parseAddr l' q1 q') : Rebuilds lib env parseAddr l q q'

/-- The file gives back the records, and, if all of them pass, the queue in its order; the records
stand in the file in the reverse order of the queue. -/
def GivesBack (lib : Libs) (env : Env) (parseAddr : CString → Option (List UInt8)) (s : Settings)
    (content : List UInt8) (rs : List QueueRecord) : Prop :=
  ∀ astate atime alength msToSc needRepack,
    let l := start content astate atime alength msToSc needRepack
    ReadsBack l rs.reverse ∧
      ((∀ r ∈ rs, r.Passes lib env parseAddr s) →
        ∃ q', Rebuilds lib env parseAddr l { settings := s } q' ∧
          List.Forall₂ (QueueRecord.CameBack parseAddr) rs q'.timeSortedList)

end ReadLoop

end Smqueue

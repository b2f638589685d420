import Smqueue.Lib.InputStream
import Smqueue.Queue

/-!
# The queue file

The queue is written to a file when the program stops and read back when it starts. A record is a
line of fields and the text of the message.
-/

namespace Smqueue

/-! ## Writing -/

def boolText (b : Bool) : CString := if b then str "1" else str "0"

/-- One record of `save_queue_to_file`, for a message with a valid text. -/
def saveRecord (env : Env) (m : ShortMsgPending) (text : CString) : CString :=
  str "=== " ++ decimal m.state.toNat ++ str " " ++ decimalInt m.nextActionTime ++ str " " ++
    env.stringAddr m.srcaddr true ++ str " " ++ decimal text.length ++ str " " ++
    boolText m.msToSc ++ str " " ++ boolText m.needRepack ++ str "\n" ++ text ++ str "\n\n"

/-- `save_queue_to_file`: the records are in the reverse order of the queue. -/
def SMq.saveQueueToFile (lib : Libs) (env : Env) (q : SMq) : Except Fault (List UInt8 × SMq) := do
  let q ← q.debugDump lib
  let records ← q.timeSortedList.reverse.mapM fun m => do
    return saveRecord env m (← deref m.text)
  return (records.flatten, q)

/-! ## Reading -/

/-- The largest `unsigned`. -/
def unsignedMax : Nat := 2 ^ 32 - 1

/-- The file and the variables of the record loop of `read_queue_from_file`, which keep their values
where an extraction does not start. -/
structure ReadLoop where
  file : InputStream
  equals : CString := []
  astate : Nat
  atime : Nat
  netaddrstr : CString := []
  alength : Nat
  msToSc : Nat
  needRepack : Nat

namespace ReadLoop

/-- The marker, the state and the time of a record. -/
def readHead (l : ReadLoop) : ReadLoop :=
  let (equals, file) := l.file.extractWord isspace
  let (astate, file) := file.extractUnsigned isspace unsignedMax
  let (atime, file) := file.extractUnsigned isspace unsignedMax
  { l with file := file, equals := equals.getD l.equals, astate := astate.getD l.astate
           atime := atime.getD l.atime }

/-- The other fields of a record. -/
def readFields (l : ReadLoop) : ReadLoop :=
  let (netaddrstr, file) := l.file.extractWord isspace
  let (alength, file) := file.extractUnsigned isspace unsignedMax
  let (msToSc, file) := file.extractUnsigned isspace unsignedMax
  let (needRepack, file) := file.extractUnsigned isspace unsignedMax
  { l with file := file, netaddrstr := netaddrstr.getD l.netaddrstr
           alength := alength.getD l.alength, msToSc := msToSc.getD l.msToSc
           needRepack := needRepack.getD l.needRepack }

/-- The text of a record: `alength + 1` is an `unsigned`, and `get` leaves one place for a zero. -/
def readText (l : ReadLoop) : ReadLoop × CString :=
  let file := l.file.skipChar 10
  let (msgtext, file) := file.takeText ((l.alength + 1) % 2 ^ 32 - 1) 0
  ({ l with file := file.skipChar 10 }, msgtext)

/-- One turn of the record loop: nothing if the loop is left. -/
def turn (l : ReadLoop) : Option (ReadLoop × CString) :=
  if l.file.eof then none
  else
    let l := l.readHead
    if l.equals ≠ str "===" || l.file.eof then none else some l.readFields.readText

/-- The loop before its first turn. The numbers are not set. -/
def start (content : List UInt8) (astate atime alength msToSc needRepack : Nat) : ReadLoop :=
  { file := ⟨content, false, false⟩, astate, atime, alength, msToSc, needRepack }

/-- The message that is made of a record. -/
def message (l : ReadLoop) (msgtext srcaddr : List UInt8) : ShortMsgPending where
  text := some (cstr msgtext)
  textLength := l.alength % 2 ^ 16
  msToSc := l.msToSc ≠ 0
  needRepack := l.needRepack ≠ 0
  id := 0
  srcaddr := srcaddr

/-- What `read_queue_from_file` does with a record; `addr` is what `parse_addr` makes of the address
field. -/
def load (lib : Libs) (env : Env) (q : SMq) (l : ReadLoop) (msgtext : CString)
    (addr : Option (List UInt8)) : Except Fault SMq :=
  match addr with
  | none => .ok q
  | some srcaddr => do
    let m := { l.message msgtext srcaddr with id := q.nextId }
    let q := { q with nextId := q.nextId + 1 }
    let (errcode, m) ← m.validateShortMsg lib q.settings env false
    if errcode = 0 then
      if (← deref m.parsed).isRequest then q.insertNewMessageAt lib m (.ofNat l.astate) l.atime
      else return q
    else return q

/-- One turn of `read_queue_from_file` with what it does to the queue. -/
def turnWith (lib : Libs) (env : Env) (parseAddr : CString → Option (List UInt8)) (l : ReadLoop)
    (q : SMq) : Except Fault (Option (ReadLoop × SMq)) :=
  match l.turn with
  | none => .ok none
  | some (l, msgtext) => do
    return some (l, ← l.load lib env q msgtext (parseAddr l.netaddrstr))

/-- The record loop, as far as it changes its variables. -/
def next (l : ReadLoop) : Option ReadLoop := l.turn.map Prod.fst

end ReadLoop

/-! ## The format -/

/-- Scan the text of a record of the given length. -/
def scanText (alength : Nat) (s : List UInt8) : Scan Unit :=
  (Scan.chars 10 s).bind fun _ s =>
  (Scan.text ((alength + 1) % 2 ^ 32 - 1) 0 s).bind fun _ s => Scan.chars 10 s

/-- Scan a record from its address on. -/
def scanFields (s : List UInt8) : Scan Unit :=
  (Scan.word isspace s).bind fun _ s =>
  (Scan.unsigned isspace unsignedMax s).bind fun alength s =>
  (Scan.unsigned isspace unsignedMax s).bind fun _ s =>
  (Scan.unsigned isspace unsignedMax s).bind fun _ s => scanText alength s

/-- Scan one record: the input may end before the next record does, the record may be malformed with
input behind it, or it is there with input behind it. -/
def scanRecord (s : List UInt8) : Scan Unit :=
  (Scan.word isspace s).bind fun equals s =>
  if equals ≠ str "===" then .ended
  else
    (Scan.unsigned isspace unsignedMax s).bind fun _ s =>
    (Scan.unsigned isspace unsignedMax s).bind fun _ s => scanFields s

/-- One of the records of a file is malformed: a number field is not a number or does not fit into an
`unsigned`, or the text is missing. -/
inductive HasMalformedRecord : List UInt8 → Prop
  | here {s : List UInt8} (h : scanRecord s = .malformed) : HasMalformedRecord s
  | later {s rest : List UInt8} (h : scanRecord s = .found () rest)
      (hr : HasMalformedRecord rest) : HasMalformedRecord s

end Smqueue

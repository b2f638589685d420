import Smqueue.Changes
import Smqueue.Daemon

/-!
# What comes in and what leaves

A message comes in with a datagram or is built by a pass, and it leaves in one of a few ways. One of
them is that its delivery is answered with success, of which a call record is written. An account of
a run lists the messages that came in and those that left.
-/

namespace Smqueue

/-! ## Call records -/

/-- The fields of a line that `write_cdr` writes, without the date. -/
structure CallRecord where
  source : CString
  sourceIMSI : CString
  dest : CString
deriving DecidableEq, Repr

/-- What `fprintf` prints for `%s`, which may be a null pointer. -/
def printed (s : Option CString) : CString := s.getD (str "(null)")

/-- The call record that `write_cdr` writes for the message. -/
def ShortMsg.callRecord (env : Env) (m : ShortMsg) : Option CallRecord := do
  let sip ← m.parsed
  let source ← sip.fromUsername.toOption
  let dest ← sip.toUsername.toOption
  return ⟨printed source, printed (source.bind env.hlr.getIMSI2), printed dest⟩

/-! ## Leaving the queue -/

/-- How a message leaves. -/
inductive Departure
  /-- A pass found it in one of the states that end its life. -/
  | finished
  /-- It is a response, and a pass handled it. -/
  | handled
  /-- A response answered it with success. -/
  | answered (record : Option CallRecord)
  /-- The command to delete a queued message took it out. -/
  | zapped
  /-- The reader refused it. -/
  | refused
deriving DecidableEq, Repr

namespace SMq

/-- The call record of a message that was answered with success, if it has one. -/
def recordOf (lib : Libs) (env : Env) (sentMsg : ShortMsgPending) : Option CallRecord :=
  match sentMsg.toShortMsg.parse lib with
  | .ok (_, sm) => if methodOf sm = some (str "MESSAGE") then sm.callRecord env else none
  | .error _ => none

/-- The message that the response `m` answers with success. -/
def answered (lib : Libs) (env : Env) (q : SMq) (m : ShortMsgPending) : Option (MsgId × Departure) :=
  if isSuccess m.toShortMsg then
    (q.selected m).map fun sentMsg => (sentMsg.id, .answered (recordOf lib env sentMsg))
  else none

/-- The message that the request `m` takes out, if it is the command to do so. -/
def zapping (env : Env) (q : SMq) (m : ShortMsgPending) : Option MsgId :=
  if methodOf m.toShortMsg = some (str "MESSAGE") ∧ q.commandOf m.toShortMsg = some .zapQueued then
    m.toShortMsg.getText.toOption.bind (q.zapped env)
  else none

/-- The messages that leave with a pass whose head is the due message `m`. -/
def dispatchLeaves (lib : Libs) (env : Env) (q : SMq) (m : ShortMsgPending) :
    List (MsgId × Departure) :=
  match m.state with
  | .noState | .deleteMeState => [(m.id, .finished)]
  | .initialState =>
    if respondsTo m.toShortMsg then (m.id, .handled) :: (q.answered lib env m).toList
    else ((q.zapping env m).map fun i => (i, .zapped)).toList
  | _ => []

/-- The messages that leave with a pass. -/
def leaves (lib : Libs) (env : Env) (q : SMq) : List (MsgId × Departure) :=
  match q.timeSortedList with
  | [] => []
  | m :: _ => if m.nextActionTime > env.clock.entry then [] else q.dispatchLeaves lib env m

end SMq

/-! ## Accounts -/

namespace Daemon

/-- The messages in the queue and in the temporary list of the reader. -/
def alive (d : Daemon) : List MsgId := Agenda.ids d.queue.agenda ++ d.held.toList

/-- The messages that come in with a step. -/
def comes (lib : Libs) (d : Daemon) : DaemonAct → List MsgId
  | .arrive _ _ _ => [d.queue.nextId]
  | .pass env => ((d.queue.passOrigin lib env).map fun _ => d.queue.nextId).toList
  | _ => []

/-- The messages that leave with a step. -/
def leaves (lib : Libs) (d : Daemon) : DaemonAct → List (MsgId × Departure)
  | .deleteList => d.held.toList.map fun i => (i, .refused)
  | .pass env => d.queue.leaves lib env
  | _ => []

/-- A run of the threads, with the messages that came in and those that left. -/
inductive Account (lib : Libs) : Daemon → List MsgId → List (MsgId × Departure) → Prop
  | start {d : Daemon} (h : d.Start) : Account lib d d.alive []
  | next {d d' : Daemon} {came : List MsgId} {left : List (MsgId × Departure)} {a : DaemonAct}
      (h : Account lib d came left) (hs : d.Step lib a d') :
      Account lib d' (came ++ d.comes lib a) (left ++ d.leaves lib a)

/-- The call records that were written, with the messages that they are for. -/
def callRecords (left : List (MsgId × Departure)) : List (MsgId × CallRecord) :=
  left.filterMap fun (i, departure) =>
    match departure with
    | .answered record => record.map fun r => (i, r)
    | _ => none

end Daemon

end Smqueue

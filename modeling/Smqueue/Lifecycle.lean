import Smqueue.Daemon
import Smqueue.Transitions

/-!
# The life of a message

What the program does with one message, as seen from outside: the message comes in with a datagram
or is built by the program, it goes through the states of the state machine, and it is deleted. The
two threads, whatever they do with all other messages, make steps of this life only.
-/

namespace Smqueue

/-! ## The graph of the states -/

namespace SmState

/-- A pass may take a message from one state to the other. -/
inductive Follows : SmState → SmState → Prop
  /-- A call of `set_state` on the head of the queue. -/
  | call {s s' t : SmState} (h : (s, s') ∈ t.calls) : Follows s s'
  /-- An error response, or a head in a state without a case. -/
  | rejected {s s' : SmState} (hs : s' = noState ∨ s' = deleteMeState) : Follows s s'
  /-- A redirection or a global failure, or a head in a state without a case. -/
  | redirected {s : SmState} : Follows s requestDestinationImsi
  /-- The registration that the message waits for has succeeded. -/
  | restarted {s : SmState} (hu : SMq.underRegistration s = true) : Follows s initialState

/-- How far a message in the state has come: its text may still be run as a command (0), its sender
is still to be looked up (1), or both are behind it (2). -/
def progress : SmState → Nat
  | initialState | awaitingRegisterHandset | registerHandset | askedToRegisterHandset => 0
  | requestDestinationImsi | requestDestinationSipurl | requestMsgDelivery | askedForMsgDelivery
  | awaitingTryMsgDelivery | noState | deleteMeState => 2
  | _ => 1

end SmState

/-! ## The stages of a life -/

/-- What has become of a message. -/
inductive Stage
  /-- No message has the identity yet. -/
  | unborn
  /-- The message is in the temporary list of the reader. -/
  | arriving
  | queued (s : SmState)
  | gone
deriving DecidableEq, Repr

namespace Stage

/-- One step in the life of a message. -/
inductive Next : Stage → Stage → Prop
  /-- A datagram is received. -/
  | received : Next unborn arriving
  /-- The message of the datagram passes the checks and is inserted. -/
  | accepted : Next arriving (queued .initialState)
  /-- It fails the checks and is deleted. -/
  | refused : Next arriving gone
  /-- A pass builds the message and inserts it. -/
  | originated {s : SmState}
      (hs : s = .requestDestinationImsi ∨ s = .requestDestinationSipurl ∨
        s = .requestMsgDelivery) : Next unborn (queued s)
  /-- A pass builds the message and deletes it again. -/
  | dropped : Next unborn gone
  | moved {s s' : SmState} (h : s.Follows s') : Next (queued s) (queued s')
  | removed {s : SmState} : Next (queued s) gone

/-- The life of a message. -/
def Lives : Stage → Stage → Prop := Relation.ReflTransGen Next

/-- A measure of the age of a message. -/
def age : Stage → Nat
  | unborn => 0
  | arriving => 1
  | queued s => 2 + s.progress
  | gone => 5

end Stage

namespace Daemon

/-- What has become of the message `i`. -/
def stage (d : Daemon) (i : MsgId) : Stage :=
  match d.queue.agenda.find? (·.id = i) with
  | some e => .queued e.state
  | none =>
    if d.held = some i then .arriving else if i < d.queue.nextId then .gone else .unborn

end Daemon

end Smqueue

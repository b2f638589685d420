import Smqueue.Daemon

/-!
# The end of the program

A command can end the program. The writer tests for this in front of every event: it brings to an end
what it has begun, and takes no event any more.
-/

namespace Smqueue

/-- How many steps the writer is away from the head of its loop at most. -/
def Writer.stepsLeft : Writer → Nat
  | waiting => 0
  | tidying | acking _ _ => 1
  | sending timedOut posts => posts + 1 + timedOut.toNat
  -- a pass posts one event at most
  | passing timedOut => 3 + timedOut.toNat

/-- The writer is in front of the pass or of the answer that it has taken an event for. -/
def Writer.engaged : Writer → Bool
  | passing _ | acking _ _ => true
  | _ => false

/-- Whether it is the writer that takes the step. -/
def DaemonAct.byWriter : DaemonAct → Nat
  | receive | pass _ | sendNested | unlock | respond | tidy _ => 1
  | _ => 0

namespace Daemon

/-- What is left as it is when the program ends: no message is delivered, those that are queued keep
their states and times, and the events that were posted wait to be taken. -/
structure Suspends (d d' : Daemon) : Prop where
  delivered : d'.queue.delivered = d.queue.delivered
  queued : d.queue.agenda ⊆ d'.queue.agenda
  events : d.events <+: d'.events

end Daemon

end Smqueue

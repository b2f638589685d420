import Smqueue.Daemon
import Smqueue.Transitions

/-!
# What holds a message back

A response may postpone the message that it answers, and the rate limiter keeps a time between any
two datagrams.
-/

namespace Smqueue

/-! ## Runs with a clock -/

/-- The threads at a time. -/
structure DaemonAt where
  daemon : Daemon
  now : Time

namespace DaemonAt

def Start (x : DaemonAt) : Prop := x.daemon.Start

/-- A pass does not start before the last one has ended. -/
def Step (lib : Libs) (x : DaemonAt) (a : DaemonAct) (x' : DaemonAt) : Prop :=
  x.daemon.Step lib a x'.daemon ∧
    match a with
    | .pass env => x.now ≤ env.clock.entry ∧ x'.now = env.clock.final
    | _ => x'.now = x.now

end DaemonAt

/-! ## Postponed messages -/

namespace SmState

/-- The message is not sent as long as only timeouts take it from its state. -/
def isHeld : SmState → Bool
  | noState | deleteMeState | awaitingRegisterHandset | registerHandset | askedToRegisterHandset =>
    true
  | _ => false

/-- How long the message waits in any case, before it is sent, after the time for its next action. -/
def rest (s : SmState) : Time :=
  if s = askedForMsgDelivery then 60 * 1000 else if s.hasCase then 0 else NT

/-- A message that is due in as many milliseconds as it should wait seconds is not sent too early. -/
def PostponesEnough (s : SmState) (seconds : Int) : Prop :=
  s.isHeld = true ∨ seconds * 1000 ≤ seconds + s.rest

end SmState

namespace Daemon

/-- The pass handles a response that postpones the message `i`. -/
def Postpones (env : Env) (d : Daemon) (i : MsgId) : Prop :=
  ∃ h ∈ d.queue.timeSortedList.head?, h.nextActionTime ≤ env.clock.entry ∧
    ∃ response, d.queue.Answers h response i ∧ postpones response.statusCode

/-- The passes run with the given number for `SIP.Timeout.ACKedMessageResend`. -/
def ResendsAfter (seconds : Int) : DaemonAct → Prop
  | .pass env => env.config.ackedMessageResend = some seconds
  | _ => True

/-- The step handles no response that redirects the message `i` or runs it again. -/
def LeavesWaiting (lib : Libs) (i : MsgId) (d : Daemon) : DaemonAct → Prop
  | .pass env => ∀ h ∈ d.queue.timeSortedList.head?, h.nextActionTime ≤ env.clock.entry →
      (∀ response, d.queue.Answers h response i → ¬ redirects response.statusCode) ∧
        ¬ d.queue.Restarts lib h i
  | _ => True

/-- The messages that the step postpones are in states in which milliseconds are enough. -/
def PostponesEnough (seconds : Int) (d : Daemon) : DaemonAct → Prop
  | .pass env => ∀ m ∈ d.queue.timeSortedList, d.Postpones env m.id →
      m.state.PostponesEnough seconds
  | _ => True

/-- In a run with the given configuration, whose steps all meet `guard`, a response postpones the
message `i` at the time `t`, and after that nothing but such responses and timeouts changes its state
until it is sent at the time `u`. -/
inductive Resent (lib : Libs) (seconds : Int) (guard : Daemon → DaemonAct → Prop) (i : MsgId)
    (t u : Time) : Prop
  | mk {x1 x2 x3 x4 : DaemonAt} {env env' : Env}
      (before : Runs.GuardedRun DaemonAt.Start (DaemonAt.Step lib)
        (fun x a => ResendsAfter seconds a ∧ guard x.daemon a) x1)
      (hp : x1.daemon.Postpones env i) (ht : env.clock.first = t)
      (hc : ResendsAfter seconds (.pass env)) (hg : guard x1.daemon (.pass env))
      (response : DaemonAt.Step lib x1 (.pass env) x2)
      (after : Runs.GuardedRun (· = x2) (DaemonAt.Step lib)
        (fun x a => ResendsAfter seconds a ∧ guard x.daemon a ∧ x.daemon.LeavesWaiting lib i a) x3)
      (last : DaemonAt.Step lib x3 (.pass env') x4)
      (sent : ∃ spacing, x4.daemon.queue.delivered = ⟨i, spacing, u⟩ :: x3.daemon.queue.delivered)

/-! ## The rate limiter -/

/-- The passes run with the given number for `SMS.RateLimit`. -/
def LimitsTo (seconds : Int) : DaemonAct → Prop
  | .pass env => env.config.rateLimit = seconds
  | _ => True

/-- Any two calls of `deliver_msg_datagram` are more than the given number of seconds apart. -/
def CallsApart (seconds : Int) (d : Daemon) : Prop :=
  d.queue.delivered.Pairwise fun later earlier => earlier.time + seconds * 1000 < later.time

/-- Any two datagrams were sent more than the given number of seconds apart, where for the earlier one
it is the setting of the timer in front of its call that counts. -/
structure SentApart (seconds : Int) (d : Daemon) : Prop where
  spacing : ∀ x ∈ d.queue.delivered, x.spacing ≤ x.time
  apart : d.queue.delivered.Pairwise fun later earlier =>
    earlier.spacing + seconds * 1000 < later.time

end Daemon

end Smqueue

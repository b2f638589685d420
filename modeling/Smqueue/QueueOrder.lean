import Smqueue.Origins

/-!
# The order of the queue

`time_sorted_list` is kept in the order of the times of the next actions, since a pass looks at its
head only. Three things in the code do not look at that order: a new message goes to the front, the
rate limiter changes the time of the head where it stands, and a response changes the time of the
message it answers where that stands. The conditions under which they keep the order are stated
here on the queue before the step.
-/

namespace Smqueue

open Agenda (Fits NotAfter)

namespace SMq

/-- The queue is in the order of the times of the next actions. -/
def InOrder (q : SMq) : Prop := Agenda.Sorted q.agenda

/-- The messages of the queue are different objects, and `nextId` is none of them. -/
structure Distinct (q : SMq) : Prop where
  nodup : (Agenda.ids q.agenda).Nodup
  lt_nextId : ∀ i ∈ Agenda.ids q.agenda, i < q.nextId

/-- The queue without the message `i`. -/
def others (q : SMq) (i : MsgId) : List (Agenda.Entry MsgId SmState Time) :=
  Agenda.erase i q.agenda

/-- A message that the pass inserts, if it inserts one, is due no later than every entry of `l`. -/
def FrontFits (env : Env) (q : SMq) (fresh : Option SmState)
    (l : List (Agenda.Entry MsgId SmState Time)) : Prop :=
  ∀ s ∈ fresh, NotAfter (q.originDue env s) l

/-- The time that a message in state `m.state` gets when it goes to state `s` at time `now`. -/
def dueIn (q : SMq) (m : ShortMsgPending) (s : SmState) (now : Time) : Time :=
  now + q.settings.timeouts.get m.state s

/-! ## Responses -/

/-- The time that `increase_acked_msg_timeout` sets. -/
def ackedDue (env : Env) : Time := env.clock.first + env.config.ackedMessageResend.getD 60000

/-- The message that a success response to the registration `sentMsg` runs again. -/
def restarted (lib : Libs) (q : SMq) (sentMsg : ShortMsgPending) : Option ShortMsgPending :=
  match sentMsg.toShortMsg.parse lib with
  | .ok (_, sm) =>
    if methodOf sm = some (str "REGISTER") then
      (q.getLink sentMsg).filter fun old => underRegistration old.state
    else none
  | .error _ => none

/-- The next state of a message that was bounced. -/
def bouncedState (fresh : Option SmState) : SmState :=
  if fresh.isSome then .deleteMeState else .noState

/-- A bounce keeps the order: the bounced message fits its place with its new time, and the bounce
fits the front. -/
def BounceKeepsOrder (lib : Libs) (env : Env) (q : SMq) (sentMsg : ShortMsgPending)
    (errstr : CString) : Prop :=
  let fresh := q.bounceOrigin lib env sentMsg errstr
  let due := q.dueIn sentMsg (bouncedState fresh) env.clock.final
  Fits sentMsg.id due q.agenda ∧
    FrontFits env q fresh (Agenda.retime sentMsg.id (bouncedState fresh) due q.agenda)

/-- What `handle_response` does with the answered message keeps the order. -/
def StatusKeepsOrder (lib : Libs) (env : Env) (q : SMq) (response : SipMessage)
    (sentMsg : ShortMsgPending) : Prop :=
  match response.statusCode.tdiv 100 with
  | 1 => Fits sentMsg.id (ackedDue env) q.agenda
  | 2 => ∀ old ∈ q.restarted lib sentMsg,
      Fits old.id (q.dueIn old .initialState env.clock.first) (q.others sentMsg.id)
  | 4 =>
    if response.statusCode = 480 ∨ response.statusCode = 486 then
      Fits sentMsg.id (ackedDue env) q.agenda
    else q.BounceKeepsOrder lib env sentMsg (errorText response)
  | 5 => Fits sentMsg.id (ackedDue env) q.agenda
  | 3 => Fits sentMsg.id (q.dueIn sentMsg .requestDestinationImsi env.clock.first) q.agenda
  | 6 => Fits sentMsg.id (q.dueIn sentMsg .requestDestinationImsi env.clock.first) q.agenda
  | _ => True

/-- `handle_response` for the message `m` keeps the order. -/
def ResponseKeepsOrder (lib : Libs) (env : Env) (q : SMq) (m : ShortMsgPending) : Prop :=
  ∀ tag ∈ m.qtag, ∀ response ∈ m.parsed, ∀ sentMsg ∈ (q.remove m.id).findQueuedMsgByTag tag,
    (q.remove m.id).StatusKeepsOrder lib env response sentMsg

/-! ## Passes -/

/-- The rate limiter delays the delivery of the message. -/
def delays (lib : Libs) (env : Env) (q : SMq) (m : ShortMsgPending) : Bool :=
  match m.toShortMsg.packSmsForDelivery lib env with
  | .ok (true, _) =>
    !(env.config.maxRetries ≠ 0 && env.config.maxRetries < (m.retries + 1 : Nat)) && q.tooSoon env
  | _ => false

/-- A pass of `process_timeout` whose head is the due message `m` keeps the order. -/
def DispatchKeepsOrder (lib : Libs) (env : Env) (q : SMq) (m : ShortMsgPending) : Prop :=
  match m.state with
  | .initialState =>
    if respondsTo m.toShortMsg then q.ResponseKeepsOrder lib env m
    else if methodOf m.toShortMsg = some (str "MESSAGE") then
      let (ran, fresh) := q.afterShortCode lib env m
      FrontFits env ran fresh (ran.others m.id)
    else True
  | .requestDestinationImsi =>
    FrontFits env q (q.lookupOrigin lib env m) (q.others m.id)
  | .requestMsgDelivery =>
    q.delays lib env m → Fits m.id (m.nextActionTime + msSMSRateLimit env.config) q.agenda
  | .awaitingTryMsgDelivery =>
    let due := q.dueIn m .requestMsgDelivery env.clock.first
    q.delays lib env m → Fits m.id (due + msSMSRateLimit env.config)
      (Agenda.requeue m.id .requestMsgDelivery due q.agenda)
  | .registerHandset => FrontFits env q (q.registerOrigin lib env m) (q.others m.id)
  | .awaitingRegisterHandset =>
    match readyToRegister lib env m with
    | .ok (true, m') => FrontFits env q (q.registerOrigin lib env m') (q.others m.id)
    | _ => True
  | _ => True

/-- A pass of `process_timeout` keeps the order. -/
def PassKeepsOrder (lib : Libs) (env : Env) (q : SMq) : Prop :=
  ∀ m ∈ q.timeSortedList.head?, m.nextActionTime ≤ env.clock.entry →
    q.DispatchKeepsOrder lib env m

end SMq

end Smqueue

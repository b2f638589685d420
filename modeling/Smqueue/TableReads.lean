import Smqueue.Transitions

/-!
# The table of timeouts in memory

`set_state` without a time reads the entry for the old and the new state. The line that it writes to
the log for debugging reads `*timeouts[state][newstate]`, which is in the table for `NO_STATE` only.
The conditions under which a pass that writes these lines stays in the table are stated here on the
queue before the pass.
-/

namespace Smqueue

/-- The read is inside the table. -/
def TableRead.Inside : TableRead → Prop
  | entry state newstate => state.InTable ∧ newstate.InTable
  | behind state newstate => state.InTable ∧ newstate.toNat = 0

namespace SMq

/-- What `handle_response` does with the answered message calls `set_state` for `NO_STATE` at most. -/
def StatusLogsInside (lib : Libs) (env : Env) (q : SMq) (response : SipMessage)
    (sentMsg : ShortMsgPending) : Prop :=
  match response.statusCode.tdiv 100 with
  | 2 => q.restarted lib sentMsg = none
  | 4 => response.statusCode = 480 ∨ response.statusCode = 486 ∨
      q.bounceOrigin lib env sentMsg (errorText response) = none
  | 3 => False
  | 6 => False
  | _ => True

/-- `handle_response` for the message `m` calls `set_state` for `NO_STATE` at most. -/
def ResponseLogsInside (lib : Libs) (env : Env) (q : SMq) (m : ShortMsgPending) : Prop :=
  ∀ tag ∈ m.qtag, ∀ response ∈ m.parsed, ∀ sentMsg ∈ (q.remove m.id).findQueuedMsgByTag tag,
    (q.remove m.id).StatusLogsInside lib env response sentMsg

/-- The case for the state of the due message `m` calls `set_state` for `NO_STATE` at most: the
message is of no use, or the rate limiter delays it. -/
def DispatchLogsInside (lib : Libs) (env : Env) (q : SMq) (m : ShortMsgPending) : Prop :=
  match m.state with
  | .initialState =>
    if respondsTo m.toShortMsg then q.ResponseLogsInside lib env m
    else if methodOf m.toShortMsg = some (str "MESSAGE") then
      ∀ next q', q.handleShortCode lib env m = .ok (next, q') → next = some .noState
    else True
  | .noState => True
  | .deleteMeState => True
  | .requestFromAddressLookup =>
    ∀ next sm, m.toShortMsg.lookupFromAddress lib env q.settings = .ok (next, sm) → next = .noState
  | .requestDestinationImsi =>
    ∀ next q', q.lookupUriImsi lib env m = .ok (next, q') → next = .noState
  | .requestDestinationSipurl =>
    ∀ next m', lookupUriHostport lib env q.settings m = .ok (next, m') → next = .noState
  | .requestMsgDelivery =>
    ∀ sm, m.toShortMsg.packSmsForDelivery lib env = .ok (true, sm) → q.delays lib env m = true
  | _ => False

/-- A pass of `process_timeout` that writes debug messages calls `set_state` for `NO_STATE` at most. -/
def PassLogsInside (lib : Libs) (env : Env) (q : SMq) : Prop :=
  q.settings.logsDebug = true → ∀ m ∈ q.timeSortedList.head?,
    m.nextActionTime ≤ env.clock.entry → q.DispatchLogsInside lib env m

/-- All that was read since `q` is inside the table. -/
def LooksInside (q q' : SMq) : Prop := ∀ r ∈ q'.tableReads, r ∈ q.tableReads ∨ r.Inside

end SMq

end Smqueue

import Smqueue.Changes

/-!
# The graph of the states

Which calls of `set_state` a pass makes, by the state of its head, and what they and the responses
make of the places of the messages in the queue.
-/

namespace Smqueue

namespace SmState

/-- The state is named by a case of `process_timeout`. -/
def hasCase : SmState → Bool
  | initialState | noState | deleteMeState | requestFromAddressLookup | requestDestinationImsi
  | requestDestinationSipurl | awaitingTryMsgDelivery | requestMsgDelivery | askedForMsgDelivery
  | awaitingRegisterHandset | registerHandset | askedToRegisterHandset => true
  | _ => false

/-- The state has a row and a column in the table of timeouts. -/
def InTable (s : SmState) : Prop := s.toNat < timeoutRows.length

instance (s : SmState) : Decidable s.InTable :=
  inferInstanceAs (Decidable (s.toNat < timeoutRows.length))

/-- The calls of `set_state` on the head in the case for a state, each from a state to a state. A
state without a case has none of its own. -/
def calls : SmState → List (SmState × SmState)
  | initialState =>
    [noState, deleteMeState, initialState, requestFromAddressLookup, awaitingRegisterHandset,
      askedToRegisterHandset].map (initialState, ·)
  | noState | deleteMeState => []
  | requestFromAddressLookup => [noState, requestDestinationImsi].map (requestFromAddressLookup, ·)
  | requestDestinationImsi =>
    [noState, deleteMeState, requestDestinationSipurl].map (requestDestinationImsi, ·)
  | requestDestinationSipurl => [noState, requestMsgDelivery].map (requestDestinationSipurl, ·)
  | awaitingTryMsgDelivery =>
    (awaitingTryMsgDelivery, requestMsgDelivery) ::
      [noState, deleteMeState, askedForMsgDelivery].map (requestMsgDelivery, ·)
  | requestMsgDelivery =>
    [noState, deleteMeState, askedForMsgDelivery].map (requestMsgDelivery, ·)
  | askedForMsgDelivery => [(askedForMsgDelivery, awaitingTryMsgDelivery)]
  | awaitingRegisterHandset =>
    [awaitingRegisterHandset, registerHandset].map (awaitingRegisterHandset, ·) ++
      [deleteMeState, askedToRegisterHandset].map (registerHandset, ·)
  | registerHandset => [deleteMeState, askedToRegisterHandset].map (registerHandset, ·)
  | askedToRegisterHandset => [(askedToRegisterHandset, awaitingRegisterHandset)]
  | _ => []

end SmState

/-- The response makes `handle_response` wait for longer. -/
def postpones (code : Int) : Prop :=
  code.tdiv 100 = 1 ∨ code.tdiv 100 = 5 ∨ code.tdiv 100 = 4 ∧ (code = 480 ∨ code = 486)

/-- The response makes `handle_response` bounce the message that it answers. -/
def rejects (code : Int) : Prop := code.tdiv 100 = 4 ∧ ¬ (code = 480 ∨ code = 486)

/-- The response makes `handle_response` look up the destination again. -/
def redirects (code : Int) : Prop := code.tdiv 100 = 3 ∨ code.tdiv 100 = 6

/-- The place of a message in the queue. -/
abbrev Place := Agenda.Entry MsgId SmState Time

namespace SMq

/-- The head `h` is a success response to a registration, which runs the message `i` again. -/
inductive Restarts (lib : Libs) (q : SMq) (h : ShortMsgPending) (i : MsgId) : Prop
  | mk {response : SipMessage} {sent old : ShortMsgPending}
      (hs : sent ∈ (q.remove h.id).timeSortedList) (ha : q.Answers h response sent.id)
      (hc : response.statusCode.tdiv 100 = 2) (ho : old ∈ (q.remove h.id).restarted lib sent)
      (hid : old.id = i)

/-- A pass with the head `h` takes a message from one place to another by one step. -/
inductive Turn (lib : Libs) (env : Env) (q : SMq) (h : ShortMsgPending) : Place → Place → Prop
  /-- A call of `set_state` on the head. -/
  | call {e : Place} {s : SmState} {now : Time} (hid : e.id = h.id)
      (hs : (e.state, s) ∈ h.state.calls) (hnow : now = env.clock.first ∨ now = env.clock.final) :
      Turn lib env q h e ⟨e.id, s, now + q.settings.timeouts.get e.state s⟩
  /-- A head in a state without a case is put into the initial state, and then its sender is looked
  up. -/
  | reset {e : Place} {s : SmState} (hid : e.id = h.id) (hh : h.state.hasCase = false)
      (hs : s = .noState ∨ s = .requestDestinationImsi) :
      Turn lib env q h e ⟨e.id, s, env.clock.final + q.settings.timeouts.get .initialState s⟩
  /-- The rate limiter delays the head. -/
  | delayed {e : Place} (hid : e.id = h.id) (hd : delivers h.state = true)
      (hs : e.state = .requestMsgDelivery) :
      Turn lib env q h e ⟨e.id, e.state, e.due + msSMSRateLimit env.config⟩
  | postponed {e : Place} {response : SipMessage} (ha : q.Answers h response e.id)
      (hc : postpones response.statusCode) : Turn lib env q h e ⟨e.id, e.state, ackedDue env⟩
  | rejected {e : Place} {s : SmState} {response : SipMessage} (ha : q.Answers h response e.id)
      (hc : rejects response.statusCode) (hs : s = .noState ∨ s = .deleteMeState) :
      Turn lib env q h e ⟨e.id, s, env.clock.final + q.settings.timeouts.get e.state s⟩
  | redirected {e : Place} {response : SipMessage} (ha : q.Answers h response e.id)
      (hc : redirects response.statusCode) :
      Turn lib env q h e ⟨e.id, .requestDestinationImsi,
        env.clock.first + q.settings.timeouts.get e.state .requestDestinationImsi⟩
  | restarted {e : Place} (hr : q.Restarts lib h e.id) (hu : underRegistration e.state = true) :
      Turn lib env q h e ⟨e.id, .initialState,
        env.clock.first + q.settings.timeouts.get e.state .initialState⟩

/-- The place in which a pass inserts a message. -/
inductive Inserted (env : Env) (q : SMq) : Place → Prop
  | mk {s : SmState}
      (hs : s = .requestDestinationImsi ∨ s = .requestDestinationSipurl ∨ s = .requestMsgDelivery) :
      Inserted env q ⟨q.nextId, s, q.originDue env s⟩

/-- The places after a pass with the head `h`, or after a part of it, stem from those before it. -/
def Turned (lib : Libs) (env : Env) (q0 : SMq) (h : ShortMsgPending) (q q' : SMq) : Prop :=
  Population.Evolves (q0.Turn lib env h) (q0.Inserted env) q.agenda q'.agenda

end SMq

end Smqueue

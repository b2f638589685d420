import Mathlib.Data.Int.Basic

/-!
# States of a queued message

The states a message goes through, and the table of the timeouts between them.
-/

namespace Smqueue

/-- A time in milliseconds, as `msgettime` gives it. -/
abbrev Time := Int

/-- `enum sm_state`. A state read from a file is cast from a number, so that any number can come up. -/
inductive SmState
  | noState
  | initialState
  | requestFromAddressLookup
  | askedForFromAddressLookup
  | awaitingTryDestinationImsi
  | requestDestinationImsi
  | askedForDestinationImsi
  | awaitingTryDestinationSipurl
  | requestDestinationSipurl
  | askedForDestinationSipurl
  | awaitingTryMsgDelivery
  | requestMsgDelivery
  | askedForMsgDelivery
  | deleteMeState
  | awaitingRegisterHandset
  | registerHandset
  | askedToRegisterHandset
  /-- A number from 17 on. -/
  | outOfRange (n : Nat)
deriving DecidableEq, Repr

namespace SmState

/-- The named states in the order of the enumeration. -/
def named : List SmState :=
  [noState, initialState, requestFromAddressLookup, askedForFromAddressLookup,
   awaitingTryDestinationImsi, requestDestinationImsi, askedForDestinationImsi,
   awaitingTryDestinationSipurl, requestDestinationSipurl, askedForDestinationSipurl,
   awaitingTryMsgDelivery, requestMsgDelivery, askedForMsgDelivery, deleteMeState,
   awaitingRegisterHandset, registerHandset, askedToRegisterHandset]

/-- The cast of a number to `sm_state`. -/
def ofNat (n : Nat) : SmState := named.getD n (.outOfRange n)

/-- The number of a state. -/
def toNat : SmState → Nat
  | noState => 0
  | initialState => 1
  | requestFromAddressLookup => 2
  | askedForFromAddressLookup => 3
  | awaitingTryDestinationImsi => 4
  | requestDestinationImsi => 5
  | askedForDestinationImsi => 6
  | awaitingTryDestinationSipurl => 7
  | requestDestinationSipurl => 8
  | askedForDestinationSipurl => 9
  | awaitingTryMsgDelivery => 10
  | requestMsgDelivery => 11
  | askedForMsgDelivery => 12
  | deleteMeState => 13
  | awaitingRegisterHandset => 14
  | registerHandset => 15
  | askedToRegisterHandset => 16
  | outOfRange n => n

end SmState

/-! ## Timeouts -/

/-- No timeout, for states that time out only if something is broken. -/
def NT : Int := 3000 * 1000

/-- Retry. -/
def RT : Int := 300 * 1000

/-- The time added by a 100 response. -/
def TT : Int := 60 * 1000

/-- The timeouts when moving from a state (the row) to a new state (the column). -/
def timeoutRows : List (List Int) :=
  [[NT,  0,  0, NT,  NT,  0, NT,  NT,  0, NT,  NT,  0, NT,   0,  NT, NT, NT],
   [ 0,  0,  0, NT,  NT, NT, NT,  NT, NT, NT,  NT,  0, NT,   0,  NT, NT, NT],
   [ 0, NT, 10, 10,  NT,  0, NT,  NT, NT, NT,  NT, NT, NT,   0,   1,  0, NT],
   [ 0, NT, 60, NT,  NT, NT, NT,  NT, NT, NT,  NT, NT, NT,   0,  NT, NT, NT],
   [ 0, NT, RT, NT,  RT, NT, NT,  NT, NT, NT,  NT, NT, NT,   0,  NT, NT, NT],
   [ 0, NT, RT, NT,  RT, NT, NT,  NT,  0, NT,  NT, NT, NT,   0,  NT, NT, NT],
   [ 0, NT, RT, NT,  RT, NT, NT,  NT, NT, NT,  NT, NT, NT,   0,  NT, NT, NT],
   [ 0, NT, RT, NT,  RT, NT, NT,  NT, NT, NT,  NT, NT, NT,   0,  NT, NT, NT],
   [ 0, NT, RT, NT,  RT, NT, NT,  NT, NT, NT,  NT,  0, NT,   0,  NT, NT, NT],
   [ 0, NT, RT, NT,  RT, NT, NT,  NT, NT, NT,  NT, NT, NT,   0,  NT, NT, NT],
   [ 0, NT, RT, NT,  RT, NT, NT,  NT, NT, NT,  75 * 1000,  0, NT,   0,  NT, NT, NT],
   [ 0, NT, RT, NT,  RT, NT, NT,  NT, 15 * 1000, NT,  75 * 1000, 75 * 1000, 15 * 1000,   0,  NT, NT, NT],
   [ 0, NT, RT, NT,  NT, NT, NT,  NT, NT, NT,  60 * 1000, 10 * 1000, TT,   0,  NT, NT, NT],
   [ 0,  0,  0,  0,   0,  0,  0,   0,  0,  0,   0,  0,  0,   0,   0,  0,  0],
   [ 0, NT,  0, NT,  RT, NT, NT,  NT, NT, NT,  NT, NT, NT,   0,  1 * 1000,  0, NT],
   [ 0, NT,  0, NT,  RT, NT, NT,  NT, NT, NT,  NT, NT, NT,   0,  1 * 1000, 1 * 1000, 2 * 1000],
   [ 0, NT,  0, NT,  RT, NT, NT,  NT, NT, NT,  NT, NT, NT,   0,  1 * 1000, 1 * 1000, 10 * 1000]]

/-- The table of timeouts as the program runs with it. -/
structure Timeouts where
  /-- `SIP.Timeout.MessageBounce`, which replaces one entry of the table at the start. -/
  messageBounce : Option Int
  /-- What lies in memory where an index outside the table leads. -/
  beyond : Nat → Nat → Int

/-- A read of the table. -/
inductive TableRead
  /-- `(*timeouts[state])[newstate]` -/
  | entry (state newstate : SmState)
  /-- `*timeouts[state][newstate]`, as the debug line of `set_state` has it: the first entry of what lies
  `newstate` rows behind the row of the state. -/
  | behind (state newstate : SmState)
deriving DecidableEq, Repr

/-- `(*timeouts[state])[newstate]` -/
def Timeouts.get (tt : Timeouts) (state newstate : SmState) : Int :=
  match timeoutRows[state.toNat]? with
  | none => tt.beyond state.toNat newstate.toNat
  | some row =>
    match row[newstate.toNat]? with
    | none => tt.beyond state.toNat newstate.toNat
    | some t =>
      if state = .requestDestinationImsi ∧ newstate = .deleteMeState then tt.messageBounce.getD t
      else t

end Smqueue

import Smqueue.QueueOrder

/-!
# Conservation of messages

What it means that a pass of the state machine neither loses nor duplicates a message. Messages are
followed by their identity.
-/

namespace Smqueue

open Agenda (ids)

namespace SMq

/-- The message that the response `m` answers with success. -/
def Acknowledges (q : SMq) (m : ShortMsgPending) (i : MsgId) : Prop :=
  ∃ tag response sent, m.qtag = some tag ∧ m.parsed = some response ∧
    response.statusCode.tdiv 100 = 2 ∧ (q.remove m.id).findQueuedMsgByTag tag = some sent ∧
    i = sent.id

/-- The message that the command to delete a queued message takes out for the given text. -/
def zapped (env : Env) (q : SMq) (msgtext : CString) : Option MsgId :=
  let tag := if msgtext.head? = some 45 then msgtext.drop 1 else msgtext
  if env.config.zapQueuedPassword = tag then none
  else (q.findQueuedMsgByTag tag).map ShortMsgPending.id

/-- The message that the request `m` to the number of that command takes out. -/
def Zaps (env : Env) (q : SMq) (m : ShortMsgPending) (i : MsgId) : Prop :=
  IsZap q.settings m.toShortMsg ∧
    ∃ msgtext, m.toShortMsg.getText = .ok msgtext ∧ q.zapped env msgtext = some i

/-- The messages that a pass with the head `m` takes out. -/
inductive Removal (env : Env) (q : SMq) (m : ShortMsgPending) : List MsgId → Prop
  | nothing : Removal env q m []
  | finished (hs : m.state = .noState ∨ m.state = .deleteMeState) : Removal env q m [m.id]
  | response (hs : m.state = .initialState) (hr : respondsTo m.toShortMsg) : Removal env q m [m.id]
  | acknowledged {i : MsgId} (hs : m.state = .initialState) (hr : respondsTo m.toShortMsg)
      (ha : q.Acknowledges m i) : Removal env q m [m.id, i]
  | zapped {i : MsgId} (hs : m.state = .initialState) (hr : ¬ respondsTo m.toShortMsg)
      (hm : methodOf m.toShortMsg = some (str "MESSAGE")) (hz : q.Zaps env m i) : Removal env q m [i]

/-- The pass that took the queue from `q` to `q'` with the message `h` at its head took out the
messages `gone`, added the messages `fresh`, and kept all others. -/
structure Conserved (q q' : SMq) (h : MsgId) (gone fresh : List MsgId) : Prop where
  /-- What is queued afterwards is what was queued and is not gone, and what is fresh. -/
  perm : (ids q'.agenda).Perm (fresh ++ (ids q.agenda).filter (· ∉ gone))
  /-- No message is queued twice. -/
  nodup : (ids q'.agenda).Nodup
  /-- At most one message is added. -/
  fresh_le : fresh.length ≤ 1
  /-- A message that is added was not queued before. -/
  fresh_new : ∀ i ∈ fresh, i ∉ ids q.agenda
  /-- The messages other than the head are in the order they were in. -/
  order : (ids q'.agenda).filter (fun i => i ≠ h ∧ i ∈ ids q.agenda) =
    (ids q.agenda).filter fun i => i ≠ h ∧ i ∉ gone

/-- The head is a request to the number of the command that deletes queued messages, and the pass
would run that command. -/
def RunsZap (q : SMq) : Prop :=
  ∃ m ∈ q.timeSortedList.head?, m.state = .initialState ∧ ¬ respondsTo m.toShortMsg ∧
    IsZap q.settings m.toShortMsg

end SMq

end Smqueue

import Smqueue.Conservation

/-!
# Deleting messages by a command

`shortcode_zap_queued` deletes the message with a given tag, or, for a password, all that are finished
or due too late. Its loop over the queue is followed here iterator by iterator.
-/

namespace Smqueue

namespace SMq

/-- The text of the command without the sign that no reply is wanted. -/
def zapTag (msgtext : CString) : CString := if msgtext.head? = some 45 then msgtext.drop 1 else msgtext

/-! ## By tag -/

/-- The text names the message itself: it is the tag of `m` and of no message before it. -/
def NamesItself (env : Env) (q : SMq) (m : ShortMsgPending) (msgtext : CString) : Prop :=
  zapTag msgtext ≠ env.config.zapQueuedPassword ∧ hasTag (zapTag msgtext) m = true ∧
    ∀ x ∈ q.timeSortedList.takeWhile (·.id ≠ m.id), hasTag (zapTag msgtext) x = false

/-! ## By password -/

/-- The time from which on a message is due too late. -/
def toolate (env : Env) : Time := longDeleteMs + env.clock.first

/-- The message is to be deleted. -/
def doomed (env : Env) (x : ShortMsgPending) : Bool :=
  x.state = .noState || toolate env ≤ x.nextActionTime

/-- The state of the loop. -/
structure ZapLoop where
  /-- The queue. -/
  list : List ShortMsgPending
  /-- The iterator, which is nothing at the end of the queue. -/
  x : Option MsgId
  /-- How many messages were deleted. -/
  n : Nat := 0
  /-- The messages that were looked at, in this order. -/
  examined : List MsgId := []

/-- An iterator at the beginning of a list. -/
def beginOf (l : List ShortMsgPending) : Option MsgId := l.head?.map ShortMsgPending.id

/-- `x++`, for an iterator whose message is in the list. -/
def increment (l : List ShortMsgPending) (i : MsgId) : Except Fault (Option MsgId) :=
  match l.dropWhile (·.id ≠ i) with
  | [] => .error .freedMessage
  | _ :: rest => .ok (beginOf rest)

/-- One turn of the loop. -/
def zapTurn (env : Env) (st : ZapLoop) (i : MsgId) : Except Fault ZapLoop :=
  match st.list.find? (·.id = i) with
  | none => .error .freedMessage
  | some m =>
    let n := if doomed env m then st.n + 1 else st.n
    let list := if doomed env m then st.list.filter (·.id ≠ i) else st.list
    (increment list i).map fun x => ⟨list, x, n, st.examined ++ [i]⟩

/-- The loop, if it ends within so many turns. -/
def zapTurns (env : Env) : Nat → ZapLoop → Option (Except Fault ZapLoop)
  | 0, _ => none
  | k + 1, st =>
    match st.x with
    | none => some (.ok st)
    | some i =>
      match zapTurn env st i with
      | .error e => some (.error e)
      | .ok st => zapTurns env k st

/-- The loop when it starts. -/
def zapStart (q : SMq) : ZapLoop := { list := q.timeSortedList, x := beginOf q.timeSortedList }

/-- What the command returns after the loop. -/
def zapAnswer (q : SMq) (msgtext : CString) (st : ZapLoop) : ShortCodeResult :=
  ⟨if msgtext.head? = some 45 then .done else .reply,
    str "Removed " ++ decimal st.n ++ str " messages.", { q with timeSortedList := st.list }⟩

/-- The loop ends, and it looked at each message once; the command leaves just the messages that are
not to be deleted and tells how many were. -/
def ZapsDoomed (env : Env) (q : SMq) (msgtext : CString) : Prop :=
  ∃ k st, zapTurns env k q.zapStart = some (.ok st) ∧
    st.examined = q.timeSortedList.map ShortMsgPending.id ∧
    st.list = q.timeSortedList.filter (!doomed env ·) ∧
    st.n = q.timeSortedList.countP (doomed env) ∧
    q.shortcodeZapQueued env msgtext = .ok (q.zapAnswer msgtext st)

end SMq

end Smqueue

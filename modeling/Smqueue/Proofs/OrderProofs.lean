import Smqueue.Proofs.ConservationProofs
import Smqueue.QueueRun

/-!
# Proofs: when the queue is in order

Every operation keeps the identities of the messages apart. It keeps the order of a queue in order
exactly under its condition `QueueOp.KeepsOrder`; so the queue is in order in every state of a run
whose operations meet that condition. A run of two insertions does not.
-/

namespace Smqueue

open Agenda (ids NotAfter)

variable {lib : Libs} {env : Env} {q q' : SMq} {m : ShortMsgPending} {s : SmState} {t : Time}

namespace SMq

/-! ## One operation -/

/-- The effect of an operation on a queue of distinct messages: the messages stay distinct, and
`keeps` says when the queue stays in order. -/
structure OpEffect (q q' : SMq) (keeps : Prop) : Prop where
  distinct : q'.Distinct
  order : q.InOrder → (q'.InOrder ↔ keeps)

theorem Effect.opEffect {h : MsgId} {keeps : Prop} {gone : List MsgId} {fresh : Option SmState}
    (he : Effect q q' h keeps gone fresh) : OpEffect q q' keeps :=
  ⟨he.distinct, he.order⟩

/-- The trace of the table is no part of the order. -/
theorem OpEffect.of_readTable {s' : SmState} {keeps : Prop}
    (he : OpEffect (q.readTable s s') q' keeps) : OpEffect q q' keeps :=
  ⟨he.distinct, he.order⟩

theorem insert_opEffect (hd : q.Distinct)
    (h : (q.newMessage m).1.insertNewMessageAt lib (q.newMessage m).2 s t = .ok q') :
    OpEffect q q' (NotAfter t q.agenda) := by
  obtain ⟨ha, -, hnext, -⟩ := insertNewMessageAt_ok h
  have ha' : q'.agenda = ⟨q.nextId, s, t⟩ :: q.agenda := ha
  have hnext' : q'.nextId = q.nextId + 1 := hnext
  have hids : ids q'.agenda = q.nextId :: ids q.agenda := by
    rw [ha']
    rfl
  refine ⟨⟨?_, fun i hi => ?_⟩, fun hq => ?_⟩
  · rw [hids]
    exact List.nodup_cons.2 ⟨nextId_not_mem hd, hd.nodup⟩
  · rw [hids] at hi
    rw [hnext']
    rcases List.mem_cons.1 hi with rfl | hi
    · exact Nat.lt_succ_self _
    · exact Nat.lt_succ_of_lt (hd.lt_nextId i hi)
  · unfold InOrder
    rw [ha', Agenda.sorted_cons]
    exact and_iff_left hq

theorem insertIn_opEffect {now : Time} (hd : q.Distinct)
    (h : (q.newMessage m).1.insertNewMessageIn lib (q.newMessage m).2 s now = .ok q') :
    OpEffect q q' (NotAfter (q.dueIn m s now) q.agenda) :=
  (insert_opEffect (q := q.readTable m.state s) ⟨hd.nodup, hd.lt_nextId⟩ h).of_readTable

theorem setStateAt_opEffect {i : MsgId} (hd : q.Distinct) (h : q.setStateAt i s t = .ok q') :
    OpEffect q q' True := by
  obtain ⟨-, ha, hf⟩ := setStateAt_ok h
  have hperm : (ids q'.agenda).Perm (ids q.agenda) := by
    rw [ha]
    exact Agenda.ids_requeue_perm hd.nodup
  refine ⟨⟨hperm.nodup_iff.2 hd.nodup, fun j hj => ?_⟩, fun hq => iff_of_true ?_ trivial⟩
  · rw [hf.nextId]
    exact hd.lt_nextId j (hperm.mem_iff.1 hj)
  · unfold InOrder
    rw [ha]
    exact hq.requeue _ _ _

theorem processTimeout_opEffect (hd : q.Distinct) (h : q.processTimeout lib env = .ok q') :
    OpEffect q q' (q.PassKeepsOrder lib env) := by
  rcases processTimeout_ok hd h with ⟨rfl, hk, -⟩ | ⟨m, gone, -, -, he, -⟩
  · exact ⟨hd, fun hq => iff_of_true hq hk⟩
  · exact he.opEffect

end SMq

open SMq

/-- What an operation does to a queue of distinct messages. -/
theorem QueueOp.run_ok {op : QueueOp} (hd : q.Distinct) (h : op.run lib q = .ok q') :
    OpEffect q q' (op.KeepsOrder lib q) := by
  cases op with
  | insertNewMessage m now => exact insertIn_opEffect hd h
  | insertNewMessageIn m s now => exact insertIn_opEffect hd h
  | insertNewMessageAt m s t now => exact insert_opEffect hd h
  | processTimeout env => exact processTimeout_opEffect hd h
  | handleResponse i env =>
    obtain ⟨m, hm, h⟩ := Except.bind_eq_ok.1 h
    have hfind := msg_ok hm
    obtain ⟨gone, he, -⟩ := handleResponse_ok hd (find_some hfind).1 h
    refine ⟨he.distinct, fun hq => (he.order hq).trans ⟨fun hk m' hm' => ?_, fun hk => ?_⟩⟩
    · rw [hfind] at hm'
      cases hm'
      exact hk
    · exact hk m hfind
  | setState i s now =>
    obtain ⟨m, -, h⟩ := Except.bind_eq_ok.1 h
    exact (setStateAt_opEffect (q := q.readTable m.state s) ⟨hd.nodup, hd.lt_nextId⟩ h).of_readTable
  | setStateAt i s t now => exact setStateAt_opEffect hd h

/-! ## Runs -/

namespace QueueAt

theorem start_inv {x : QueueAt} (h : x.Start) : x.queue.Distinct ∧ x.queue.InOrder := by
  have ha : x.queue.agenda = [] := by
    unfold SMq.agenda
    rw [h]
    rfl
  refine ⟨⟨?_, fun i hi => ?_⟩, ?_⟩
  · rw [ha]
    exact List.nodup_nil
  · rw [ha] at hi
    cases hi
  · unfold InOrder
    rw [ha]
    exact Agenda.sorted_nil

/-- An operation takes a queue in order to a queue in order exactly when it meets its condition. -/
theorem step_inOrder_iff {x y : QueueAt} {op : QueueOp} (hd : x.queue.Distinct)
    (hx : x.queue.InOrder) (hs : Step lib x op y) : y.queue.InOrder ↔ OrderKept lib x op :=
  (QueueOp.run_ok hd hs.2.1).order hx

/-- In every run from the empty queue whose operations meet their conditions, the queue is in
order. -/
theorem inOrder_of_orderKept (lib : Libs) (x : QueueAt)
    (h : Runs.GuardedRun Start (Step lib) (OrderKept lib) x) : x.queue.InOrder := by
  have hinv : x.queue.Distinct ∧ x.queue.InOrder := by
    refine h.invariant (fun y => y.queue.Distinct ∧ y.queue.InOrder) (fun y h0 => start_inv h0) ?_
    rintro y op z ⟨hd, hy⟩ hk hs
    exact ⟨(QueueOp.run_ok hd hs.2.1).distinct, (step_inOrder_iff hd hy hs).2 hk⟩
  exact hinv.2

/-- A queue of messages that were inserted one after the other. -/
def insertedQueue (l : List ShortMsgPending) : SMq where
  settings := {}
  timeSortedList := l
  nextId := l.length
  posted := l.length

/-- A delivered message. -/
def waitingSecond : ShortMsgPending :=
  { queuedMsg 0 .askedForMsgDelivery 70000
      { sampleRequest with callId := some ⟨some (str "2"), some (str "127.0.0.1")⟩ } with
    qtag := some (str "2--7")
    qtaghash := 50 }

/-- Another one, which is due earlier. -/
def waitingSample : ShortMsgPending := queuedMsg 1 .askedForMsgDelivery 200 sampleRequest

/-- A provisional response to the latter. -/
def tryingSample : ShortMsgPending :=
  queuedMsg 2 .initialState 100 (sampleResponse 100 (str "Trying"))

/-- Every message is due no later than the ones that are inserted before it. -/
theorem insert_three : Runs.GuardedRun Start (Step (sampleLibs [] []))
    (OrderKept (sampleLibs [] []))
      ⟨insertedQueue [tryingSample, waitingSample, waitingSecond], 100⟩ := by
  have h0 : Runs.GuardedRun Start (Step (sampleLibs [] [])) (OrderKept (sampleLibs [] []))
      ⟨insertedQueue [], 0⟩ := .start rfl
  have h1 : Runs.GuardedRun Start (Step (sampleLibs [] [])) (OrderKept (sampleLibs [] []))
      ⟨insertedQueue [waitingSecond], 0⟩ := by
    refine h0.next (a := .insertNewMessageAt waitingSecond .askedForMsgDelivery 70000 0) ?_
      ⟨by decide, rfl, rfl⟩
    rintro e ⟨⟩
  have h2 : Runs.GuardedRun Start (Step (sampleLibs [] [])) (OrderKept (sampleLibs [] []))
      ⟨insertedQueue [waitingSample, waitingSecond], 0⟩ := by
    refine h1.next (a := .insertNewMessageAt waitingSample .askedForMsgDelivery 200 0) ?_
      ⟨by decide, rfl, rfl⟩
    simp [OrderKept, QueueOp.KeepsOrder, NotAfter, SMq.agenda, insertedQueue, waitingSecond,
      queuedMsg, ShortMsgPending.entry]
  refine h2.next (a := .insertNewMessageAt tryingSample .initialState 100 100) ?_
    ⟨by decide, rfl, rfl⟩
  simp [OrderKept, QueueOp.KeepsOrder, NotAfter, SMq.agenda, insertedQueue, waitingSample,
    waitingSecond, queuedMsg, ShortMsgPending.entry]

/-- The queue without the response, which has postponed the message that it answers. -/
def tryingLeft : SMq :=
  { insertedQueue [{ waitingSample with nextActionTime := 60100 }, waitingSecond] with
    nextId := 3
    posted := 3 }

/-- The time that the response sets fits the place of the message. -/
theorem trying_keepsOrder :
    (insertedQueue [tryingSample, waitingSample, waitingSecond]).PassKeepsOrder (sampleLibs [] [])
      (sampleEnv 100) := by
  intro m hm _
  cases hm
  change SMq.ResponseKeepsOrder _ _ _ _
  intro tag htag response hresponse sentMsg hsent
  cases htag
  cases hresponse
  have hfind : ((insertedQueue [tryingSample, waitingSample, waitingSecond]).remove
      tryingSample.id).findQueuedMsgByTag (str "1--7") = some waitingSample := rfl
  obtain rfl := Option.some.inj (hfind.symm.trans hsent)
  change Agenda.Fits 1 60100 [waitingSample.entry, waitingSecond.entry]
  intro a e b hab hid
  cases a with
  | nil =>
    cases hab
    refine ⟨fun x hx => ?_, fun x hx => ?_⟩
    · cases hx
    · cases List.mem_singleton.1 hx
      decide
  | cons x a =>
    cases a with
    | nil =>
      cases hab
      cases hid
    | cons y a => simp at hab

/-- Three messages are inserted, and the response at the head is worked on. -/
theorem inOrder_of_orderKept_trying : tryingLeft.InOrder :=
  inOrder_of_orderKept (sampleLibs [] []) ⟨tryingLeft, 100⟩
    (insert_three.next (a := .processTimeout (sampleEnv 100)) trying_keepsOrder
      ⟨le_rfl, rfl, rfl⟩)

/-- The operation that inserts a sample message. -/
def insertSample (now : Time) : QueueOp :=
  .insertNewMessage (queuedMsg 0 .noState 0 sampleRequest) now

/-- A queue of sample messages that are due at the given times. -/
def sampleQueue (dues : List (MsgId × Time)) (n : Nat) : SMq where
  settings := {}
  timeSortedList := dues.map fun d => queuedMsg d.1 .initialState d.2 sampleRequest
  nextId := n
  posted := n

/-- What two such operations leave. -/
def lateQueue : SMq :=
  { sampleQueue [(1, 200), (0, 100)] 2 with
    tableReads := [.entry .noState .initialState, .entry .noState .initialState] }

/-- After a message is inserted at time 100 and another one at time 200, the queue is not in
order. -/
theorem not_inOrder_two :
    ¬ ∀ (lib : Libs) (x : QueueAt), Runs.Reachable Start (Step lib) x → x.queue.InOrder := by
  intro hall
  have h0 : Runs.Reachable Start (Step (sampleLibs [] [])) ⟨insertedQueue [], 0⟩ := .start rfl
  have h1 := h0.next (a := insertSample 100) (t := ⟨_, 100⟩) trivial ⟨by decide, rfl, rfl⟩
  have h2 : Runs.Reachable Start (Step (sampleLibs [] [])) ⟨lateQueue, 200⟩ :=
    h1.next (a := insertSample 200) trivial ⟨by decide, rfl, rfl⟩
  have hsort := (Agenda.sorted_cons.1 (hall _ _ h2)).1 ⟨0, .initialState, 100⟩ List.mem_cons_self
  exact absurd hsort (by decide)

end QueueAt

end Smqueue

import Smqueue.SetState
import Smqueue.Proofs.OrderProofs

/-!
# Proofs: putting a message back into the queue

The walk passes the messages that are due earlier. Where the others are sorted, all behind the place at
which it stops are due no earlier than the message.
-/

namespace Smqueue

namespace SMq

variable {q q' : SMq} {m sm : ShortMsgPending} {a b others : List ShortMsgPending} {s : SmState}
  {t : Time}

/-! ## The walk -/

/-- The walk inserts as the model does. -/
theorem spliceBack_eq (sm : ShortMsgPending) (passed rest : List ShortMsgPending) :
    spliceBack sm passed rest =
      passed ++ rest.orderedInsert (fun x y => x.nextActionTime ≤ y.nextActionTime) sm := by
  induction rest generalizing passed with
  | nil => rfl
  | cons x rest ih =>
    rw [spliceBack, List.orderedInsert_cons]
    by_cases h : sm.nextActionTime ≤ x.nextActionTime
    · rw [if_pos h, if_pos h]
    · rw [if_neg h, if_neg h, ih, List.append_assoc, List.singleton_append]

/-- Where the walk stops. -/
theorem spliceBack_place (sm : ShortMsgPending) (passed rest : List ShortMsgPending) :
    ∃ earlier later, rest = earlier ++ later ∧
      spliceBack sm passed rest = passed ++ (earlier ++ sm :: later) ∧
      (∀ x ∈ earlier, x.nextActionTime < sm.nextActionTime) ∧
      ∀ x ∈ later.head?, sm.nextActionTime ≤ x.nextActionTime := by
  induction rest generalizing passed with
  | nil => exact ⟨[], [], rfl, rfl, by simp, by simp⟩
  | cons x rest ih =>
    rw [spliceBack]
    by_cases h : x.nextActionTime ≥ sm.nextActionTime
    · rw [if_pos h]
      refine ⟨[], x :: rest, rfl, rfl, by simp, fun y hy => ?_⟩
      rw [← Option.some.inj hy]
      exact h
    · obtain ⟨earlier, later, rfl, hwalk, hearlier, hlater⟩ := ih (passed ++ [x])
      rw [if_neg h, hwalk]
      refine ⟨x :: earlier, later, rfl, List.append_assoc _ _ _, ?_, hlater⟩
      intro y hy
      rcases List.mem_cons.1 hy with rfl | hy
      · exact not_le.1 h
      · exact hearlier y hy

/-- A message between those that are due earlier and one that is not is at its place. -/
theorem sortedByTime_place {earlier later : List ShortMsgPending}
    (hsorted : SortedByTime (earlier ++ later))
    (hearlier : ∀ x ∈ earlier, x.nextActionTime < sm.nextActionTime)
    (hlater : ∀ x ∈ later.head?, sm.nextActionTime ≤ x.nextActionTime) :
    SortedByTime (earlier ++ sm :: later) := by
  unfold SortedByTime at hsorted ⊢
  rw [List.pairwise_append] at hsorted ⊢
  obtain ⟨hfront, hback, hcross⟩ := hsorted
  have hall : ∀ y ∈ later, sm.nextActionTime ≤ y.nextActionTime := by
    cases later with
    | nil => simp
    | cons x later =>
      intro y hy
      have hx := hlater x rfl
      rcases List.mem_cons.1 hy with rfl | hy
      · exact hx
      · exact le_trans hx ((List.pairwise_cons.1 hback).1 y hy)
  refine ⟨hfront, List.pairwise_cons.2 ⟨hall, hback⟩, ?_⟩
  intro x hx y hy
  rcases List.mem_cons.1 hy with rfl | hy
  · exact le_of_lt (hearlier x hx)
  · exact hcross x hx y hy

/-! ## The two overloads -/

/-- The messages are different objects, so that the list without one is the rest of it. -/
theorem filter_others (hd : ((a ++ m :: b).map ShortMsgPending.id).Nodup) :
    (a ++ m :: b).filter (·.id ≠ m.id) = a ++ b := by
  rw [List.map_append, List.map_cons, List.nodup_append] at hd
  obtain ⟨-, hb, hab⟩ := hd
  have ha : ∀ x ∈ a, decide (x.id ≠ m.id) = true := by
    intro x hx
    exact decide_eq_true fun hid =>
      hab x.id (List.mem_map_of_mem hx) m.id List.mem_cons_self hid
  have hb' : ∀ x ∈ b, decide (x.id ≠ m.id) = true := by
    intro x hx
    exact decide_eq_true fun hid =>
      (List.nodup_cons.1 hb).1 (hid ▸ List.mem_map_of_mem (f := ShortMsgPending.id) hx)
  rw [List.filter_append, List.filter_cons_of_neg (by simp), List.filter_eq_self.2 ha,
    List.filter_eq_self.2 hb']

theorem msg_mem (hq : q.timeSortedList = a ++ m :: b) (hd : (Agenda.ids q.agenda).Nodup) :
    q.msg m.id = .ok m := by
  have hmem : m ∈ q.timeSortedList := by
    rw [hq]
    exact List.mem_append_right a List.mem_cons_self
  unfold msg
  rw [find_mem hd hmem]
  rfl

/-- The message is found, put back and nothing else changed. -/
theorem setStateAt_putBack (s : SmState) (t : Time) (hq : q.timeSortedList = a ++ m :: b)
    (hd : (Agenda.ids q.agenda).Nodup) (hsorted : SortedByTime (a ++ b)) :
    ∃ q', q.setStateAt m.id s t = .ok q' ∧
      PutBack q (a ++ b) { m with state := s, nextActionTime := t } q' := by
  let sm := { m with state := s, nextActionTime := t }
  let l := (a ++ b).orderedInsert (fun x y => x.nextActionTime ≤ y.nextActionTime) sm
  have hl : l = spliceBack sm [] (a ++ b) := (spliceBack_eq sm [] (a ++ b)).symm
  have hrun : q.setStateAt m.id s t = .ok { q with timeSortedList := l } := by
    unfold setStateAt
    rw [msg_mem hq hd]
    rw [ids_agenda, hq] at hd
    have hfilter := filter_others hd
    rw [← hq] at hfilter
    change Except.ok { q with timeSortedList :=
      (q.timeSortedList.filter fun x : ShortMsgPending => x.id ≠ m.id).orderedInsert _ sm } = _
    rw [hfilter]
  obtain ⟨earlier, later, hsplit, hwalk, hearlier, hlater⟩ := spliceBack_place sm [] (a ++ b)
  rw [← hl] at hwalk
  refine ⟨_, hrun, ⟨⟨earlier, later, hsplit, hwalk, hearlier, hlater⟩, ?_, ?_, rfl⟩⟩
  · exact List.perm_orderedInsert _ sm (a ++ b)
  · change SortedByTime l
    rw [hwalk]
    rw [hsplit] at hsorted
    exact sortedByTime_place hsorted hearlier hlater

/-- Both overloads put the message back at its place among the others, if these are sorted: the one with
the time that it is given, the other one with the time that it reads from the table. -/
theorem setState_putBack (q : SMq) (a b : List ShortMsgPending) (m : ShortMsgPending) (s : SmState)
    (t now : Time) (hq : q.timeSortedList = a ++ m :: b) (hd : (Agenda.ids q.agenda).Nodup)
    (hsorted : SortedByTime (a ++ b)) :
    (∃ q', q.setStateAt m.id s t = .ok q' ∧
      PutBack q (a ++ b) { m with state := s, nextActionTime := t } q') ∧
    ∃ q', q.setState m.id s now = .ok q' ∧
      PutBack (q.readTable m.state s) (a ++ b)
        { m with state := s, nextActionTime := now + q.settings.timeouts.get m.state s } q' := by
  refine ⟨setStateAt_putBack s t hq hd hsorted, ?_⟩
  unfold setState
  rw [msg_mem hq hd]
  exact setStateAt_putBack (q := q.readTable m.state s) s _ hq hd hsorted

/-- The first of three messages goes in front of the last one, which is due at the same time. -/
theorem setState_putBack_three :
    let q := QueueAt.sampleQueue [(0, 5), (1, 20), (2, 30)] 3
    let m := queuedMsg 0 .initialState 5 sampleRequest
    let others := [queuedMsg 1 .initialState 20 sampleRequest, queuedMsg 2 .initialState 30 sampleRequest]
    (∃ q', q.setStateAt 0 .requestMsgDelivery 30 = .ok q' ∧
      PutBack q others { m with state := .requestMsgDelivery, nextActionTime := 30 } q') ∧
    ∃ q', q.setState 0 .requestMsgDelivery 25 = .ok q' ∧
      PutBack (q.readTable .initialState .requestMsgDelivery) others { m with
        state := .requestMsgDelivery
        nextActionTime := 25 + q.settings.timeouts.get m.state .requestMsgDelivery } q' :=
  setState_putBack (QueueAt.sampleQueue [(0, 5), (1, 20), (2, 30)] 3) []
    [queuedMsg 1 .initialState 20 sampleRequest, queuedMsg 2 .initialState 30 sampleRequest]
    (queuedMsg 0 .initialState 5 sampleRequest) .requestMsgDelivery 30 25 rfl (by decide) (by
      refine List.pairwise_cons.2 ⟨?_, List.pairwise_singleton _ _⟩
      intro x hx
      rw [List.mem_singleton.1 hx]
      decide)

end SMq

end Smqueue

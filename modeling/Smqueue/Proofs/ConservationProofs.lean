import Smqueue.Proofs.PassProofs
import Smqueue.SampleLibs

/-!
# Proofs: a pass conserves the messages

From the effect of a pass on the queue: which messages are there afterwards, and in which order.
-/

namespace Smqueue

open Agenda (ids)

variable {lib : Libs} {env : Env} {q q' : SMq} {m : ShortMsgPending} {h : MsgId}

namespace SMq

/-- A list without repetition is one of its elements and the rest. -/
theorem perm_cons_filter {l : List MsgId} (hd : l.Nodup) (hh : h ∈ l) :
    l.Perm (h :: l.filter (· ≠ h)) := by
  have hf : l.filter (· ≠ h) = l.erase h := by
    rw [hd.erase_eq_filter]
    exact List.filter_congr fun i _ => by by_cases hi : i = h <;> simp [hi]
  rw [hf]
  exact List.perm_cons_erase hh

theorem Effect.conserved {keeps : Prop} {gone : List MsgId} {fresh : Option SmState}
    (hd : q.Distinct) (hh : h ∈ ids q.agenda) (he : Effect q q' h keeps gone fresh) :
    Conserved q q' h gone (fresh.map fun _ => q.nextId).toList := by
  have hids : ∀ p : SMq, ids (p.others h) = (ids p.agenda).filter (· ≠ h) :=
    fun p => Agenda.ids_erase h
  have hothers : (ids q'.agenda).filter (· ≠ h) = (fresh.map fun _ => q.nextId).toList ++
      ((ids q.agenda).filter (· ≠ h)).filter (· ∉ gone) := by
    rw [← hids, ← hids]
    exact he.others
  have hfresh : ∀ i ∈ (fresh.map fun _ => q.nextId).toList, i = q.nextId := by
    intro i hi
    cases fresh with
    | none => cases hi
    | some s => exact List.mem_singleton.1 hi
  have hrest : ((ids q.agenda).filter (· ≠ h)).filter (· ∉ gone) =
      ((ids q.agenda).filter (· ∉ gone)).filter (· ≠ h) := List.filter_comm ..
  refine ⟨?_, he.distinct.nodup, ?_, fun i hi => ?_, ?_⟩
  · rw [hrest] at hothers
    by_cases hg : h ∈ gone
    · -- the head is gone, so that the rest is all there is
      have hnot : h ∉ ids q'.agenda := fun hi => he.head.1 hi hg
      have hself : (ids q'.agenda).filter (· ≠ h) = ids q'.agenda :=
        List.filter_eq_self.2 fun i hi => decide_eq_true fun hih => hnot (hih ▸ hi)
      have hself' : ((ids q.agenda).filter (· ∉ gone)).filter (· ≠ h) =
          (ids q.agenda).filter (· ∉ gone) := by
        refine List.filter_eq_self.2 fun i hi => decide_eq_true fun hih => ?_
        subst hih
        simpa [hg] using List.mem_filter.1 hi
      rw [← hself, hothers, hself']
    · have hmem : h ∈ (ids q.agenda).filter (· ∉ gone) :=
        List.mem_filter.2 ⟨hh, by simpa using hg⟩
      have h1 := perm_cons_filter he.distinct.nodup (he.head.2 hg)
      have h2 := perm_cons_filter (hd.nodup.filter _) hmem
      rw [hothers] at h1
      refine h1.trans (List.perm_middle.symm.trans ?_)
      exact h2.symm.append_left _
  · cases fresh <;> simp
  · rw [hfresh i hi]
    exact nextId_not_mem hd
  · have hsplit : ∀ l : List MsgId, l.filter (fun i => i ≠ h ∧ i ∈ ids q.agenda) =
        (l.filter (· ≠ h)).filter (· ∈ ids q.agenda) := by
      intro l
      rw [List.filter_filter]
      exact List.filter_congr fun i _ => by rw [Bool.and_comm, Bool.decide_and]
    rw [hsplit, hothers, List.filter_append]
    have hnew : (fresh.map fun _ => q.nextId).toList.filter (· ∈ ids q.agenda) = [] :=
      List.filter_eq_nil_iff.2 fun i hi => by
        rw [hfresh i hi]
        simpa using nextId_not_mem hd
    rw [hnew, List.nil_append, List.filter_filter, List.filter_filter]
    refine List.filter_congr fun i hi => ?_
    simp [hi, Bool.and_comm]

theorem head_mem (hhead : q.timeSortedList.head? = some m) : m ∈ q.timeSortedList :=
  List.mem_of_head? hhead

/-- What one pass does: nothing, or its head is due and it has one of the effects of the branches. -/
theorem processTimeout_ok (hd : q.Distinct) (h : q.processTimeout lib env = .ok q') :
    q' = q ∧ q.PassKeepsOrder lib env ∧ q.passOrigin lib env = none ∨
      ∃ m gone, q.timeSortedList.head? = some m ∧ m.nextActionTime ≤ env.clock.entry ∧
        Effect q q' m.id (q.PassKeepsOrder lib env) gone (q.passOrigin lib env) ∧
        Removal env q m gone := by
  unfold processTimeout at h
  cases hl : q.timeSortedList with
  | nil =>
    rw [hl] at h
    cases h
    refine .inl ⟨rfl, fun m hm => ?_, ?_⟩
    · rw [hl] at hm
      cases hm
    · unfold passOrigin
      rw [hl]
      rfl
  | cons m rest =>
    rw [hl] at h
    dsimp only at h
    have hhead : q.timeSortedList.head? = some m := by
      rw [hl]
      rfl
    by_cases hdue : m.nextActionTime > env.clock.entry
    · rw [if_pos hdue] at h
      cases h
      refine .inl ⟨rfl, fun m' hm' hdue' => ?_, ?_⟩
      · rw [hhead] at hm'
        cases hm'
        exact absurd hdue' (not_le.2 hdue)
      · unfold passOrigin
        rw [hhead]
        exact if_pos hdue
    · rw [if_neg hdue] at h
      obtain ⟨gone, he, hr⟩ := dispatch_ok hd (head_mem hhead) h
      have horigin : q.passOrigin lib env = q.dispatchOrigin lib env m := by
        unfold passOrigin
        rw [hhead]
        exact if_neg hdue
      rw [horigin]
      refine .inr ⟨m, gone, rfl, not_lt.1 hdue,
        he.congr ⟨fun hk m' hm' _ => ?_, fun hk => ?_⟩, hr⟩
      · rw [hhead] at hm'
        cases hm'
        exact hk
      · exact hk m hhead (not_lt.1 hdue)

/-- One pass conserves the messages: it does nothing, or it takes out nothing, or exactly its head,
or its head and the message that it answers with success; it adds at most one message, and keeps all
others in their order. -/
theorem processTimeout_conserves (lib : Libs) (env : Env) (q q' : SMq) (hd : q.Distinct)
    (hz : ¬ q.RunsZap) (h : q.processTimeout lib env = .ok q') :
    q' = q ∨ ∃ m gone fresh, q.timeSortedList.head? = some m ∧ Conserved q q' m.id gone fresh ∧
      (gone = [] ∨
        gone = [m.id] ∧ (m.state = .noState ∨ m.state = .deleteMeState ∨
          m.state = .initialState ∧ respondsTo m.toShortMsg) ∨
        ∃ i, q.Acknowledges m i ∧ gone = [m.id, i]) := by
  rcases processTimeout_ok hd h with ⟨hq, -⟩ | ⟨m, gone, hhead, -, he, hr⟩
  · exact .inl hq
  · have hh : m.id ∈ ids q.agenda := Agenda.mem_ids.2 ⟨_, mem_agenda (head_mem hhead), rfl⟩
    refine .inr ⟨m, gone, _, hhead, he.conserved hd hh, ?_⟩
    cases hr with
    | nothing => exact .inl rfl
    | finished hs =>
      rcases hs with hs | hs
      · exact .inr (.inl ⟨rfl, .inl hs⟩)
      · exact .inr (.inl ⟨rfl, .inr (.inl hs)⟩)
    | response hs hresp => exact .inr (.inl ⟨rfl, .inr (.inr ⟨hs, hresp⟩)⟩)
    | acknowledged _ _ ha => exact .inr (.inr ⟨_, ha, rfl⟩)
    | zapped hs hresp _ hzap => exact absurd ⟨m, hhead, hs, hresp, hzap.1⟩ hz

/-- A queue with a success response in front of the message that it answers. -/
def answeredQueue : SMq where
  settings := {}
  timeSortedList := [queuedMsg 1 .initialState 0 (sampleResponse 200 (str "OK")),
    queuedMsg 0 .askedForMsgDelivery 15000 sampleRequest]
  nextId := 2

/-- The pass that handles the response takes both messages out. -/
theorem processTimeout_conserves_answered :
    answeredQueue.processTimeout (sampleLibs [] []) (sampleEnv 0) =
        .ok { answeredQueue with timeSortedList := [] } ∧
      ∃ m gone fresh, answeredQueue.timeSortedList.head? = some m ∧
        Conserved answeredQueue { answeredQueue with timeSortedList := [] } m.id gone fresh := by
  have hd : answeredQueue.Distinct := ⟨by decide, by decide⟩
  have hz : ¬ answeredQueue.RunsZap := by
    rintro ⟨m, ⟨⟩, -, hresp, -⟩
    exact hresp rfl
  have hrun : answeredQueue.processTimeout (sampleLibs [] []) (sampleEnv 0) =
      .ok { answeredQueue with timeSortedList := [] } := rfl
  refine ⟨hrun, ?_⟩
  rcases processTimeout_conserves _ _ _ _ hd hz hrun with hq | ⟨m, gone, fresh, hm, hc, -⟩
  · exact absurd (congrArg (fun q => q.timeSortedList.length) hq) (by decide)
  · exact ⟨m, gone, fresh, hm, hc⟩

end SMq

end Smqueue

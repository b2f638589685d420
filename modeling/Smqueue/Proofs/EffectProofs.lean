import Smqueue.Proofs.ShortCodeProofs

/-!
# Proofs: the effect of a step on the queue

Every step that looks at a message `h` has the same kind of effect: `h` changes its place, or is
taken out, at most one other message is taken out, and at most one fresh message is put on the
front. `Effect` says so, and says exactly when the step keeps the queue in order. There is one
lemma for each way in which the branches of the state machine have this effect.
-/

namespace Smqueue

open Agenda (Fits ids)

variable {lib : Libs} {env : Env} {q q1 q2 q' ran : SMq} {m : ShortMsgPending} {h : MsgId}

namespace SMq

/-- Only the place of `h` has changed. -/
structure Moved (q q' : SMq) (h : MsgId) : Prop where
  others : q'.others h = q.others h
  perm : (ids q'.agenda).Perm (ids q.agenda)
  order : q.InOrder → q'.InOrder
  frame : Frame q q'

/-- The effect of a step that looks at `h`: `keeps` says when it leaves the queue in order, `gone`
are the messages that it takes out, and `fresh` is the state of the message it inserts. -/
structure Effect (q q' : SMq) (h : MsgId) (keeps : Prop) (gone : List MsgId)
    (fresh : Option SmState) : Prop where
  order : q.InOrder → (q'.InOrder ↔ keeps)
  others : ids (q'.others h) =
    (fresh.map fun _ => q.nextId).toList ++ (ids (q.others h)).filter (· ∉ gone)
  head : h ∈ ids q'.agenda ↔ h ∉ gone
  distinct : q'.Distinct
  settings : q'.settings = q.settings
  posted : q'.posted = q.posted + fresh.toList.length
  nextId : q.nextId + fresh.toList.length ≤ q'.nextId

/-! ## Moving one message -/

theorem Moved.refl (q : SMq) (h : MsgId) : Moved q q h := ⟨rfl, .refl _, id, .refl q⟩

theorem Moved.of_agenda (ha : q'.agenda = q.agenda) (hf : Frame q q') : Moved q q' h := by
  refine ⟨?_, ?_, ?_, hf⟩
  · unfold SMq.others
    rw [ha]
  · rw [ha]
  · unfold InOrder
    rw [ha]
    exact id

theorem Moved.distinct (hm : Moved q q' h) (hd : q.Distinct) : q'.Distinct := by
  refine ⟨hm.perm.nodup_iff.2 hd.nodup, fun i hi => ?_⟩
  rw [hm.frame.nextId]
  exact hd.lt_nextId i (hm.perm.mem_iff.1 hi)

theorem Moved.setState {s : SmState} {now : Time} (hd : q.Distinct) (hm : Moved q q1 h)
    (hs : q1.setState h s now = .ok q2) : Moved q q2 h := by
  obtain ⟨m, -, ha, hf⟩ := setState_ok hs
  refine ⟨?_, ?_, fun hq => ?_, hm.frame.trans hf⟩
  · rw [← hm.others]
    unfold SMq.others
    rw [ha]
    exact Agenda.erase_requeue _ _ _
  · rw [ha]
    exact (Agenda.ids_requeue_perm (hm.distinct hd).nodup).trans hm.perm
  · unfold InOrder
    rw [ha]
    exact (hm.order hq).requeue _ _ _

/-! ## Fresh messages -/

theorem nextId_not_mem (hd : q.Distinct) : q.nextId ∉ ids q.agenda :=
  fun hi => Nat.lt_irrefl _ (hd.lt_nextId _ hi)

theorem Ran.distinct {gone : Option MsgId} (hr : Ran q ran gone) (hd : q.Distinct) :
    ran.Distinct := by
  refine ⟨hr.nodup hd.nodup, fun i hi => ?_⟩
  rw [hr.frame.nextId]
  refine hd.lt_nextId i ?_
  rw [hr.agenda] at hi
  cases gone with
  | none => exact hi
  | some g =>
    rw [Option.elim_some, Agenda.ids_erase] at hi
    exact List.mem_of_mem_filter hi

theorem Pushed.distinct {fresh : Option SmState} (hp : Pushed env q q' fresh) (hd : q.Distinct) :
    q'.Distinct := by
  have hlt := hp.nextId
  cases fresh with
  | none =>
    refine ⟨?_, fun i hi => ?_⟩
    · rw [hp.agenda]
      exact hd.nodup
    · rw [hp.agenda] at hi
      exact Nat.lt_of_lt_of_le (hd.lt_nextId i hi) hlt
  | some s =>
    have hids : ids q'.agenda = q.nextId :: ids q.agenda := by
      rw [hp.agenda]
      rfl
    refine ⟨?_, fun i hi => ?_⟩
    · rw [hids]
      exact List.nodup_cons.2 ⟨nextId_not_mem hd, hd.nodup⟩
    · rw [hids] at hi
      refine Nat.lt_of_lt_of_le ?_ hlt
      rcases List.mem_cons.1 hi with rfl | hi
      · exact Nat.lt_succ_self _
      · exact Nat.lt_succ_of_lt (hd.lt_nextId i hi)

/-- The fresh message stands before all others. -/
theorem Pushed.others {fresh : Option SmState} (hp : Pushed env q q' fresh) (hlt : h < q.nextId) :
    q'.others h = (fresh.map (q.freshEntry env)).toList ++ q.others h := by
  unfold SMq.others
  rw [hp.agenda]
  cases fresh with
  | none => rfl
  | some s => exact Agenda.erase_cons_ne (Nat.ne_of_gt hlt)

theorem frontFits_none {l : List (Agenda.Entry MsgId SmState Time)} : FrontFits env q none l := by
  rintro s ⟨⟩

/-- Putting the fresh message on the front keeps the order exactly when it fits there. -/
theorem sorted_pushed {fresh : Option SmState} {l : List (Agenda.Entry MsgId SmState Time)}
    (hl : Agenda.Sorted l) :
    Agenda.Sorted ((fresh.map (q.freshEntry env)).toList ++ l) ↔ FrontFits env q fresh l := by
  cases fresh with
  | none => exact ⟨fun _ => frontFits_none, fun _ => hl⟩
  | some s =>
    refine Agenda.sorted_cons.trans ⟨fun hs => ?_, fun hs => ⟨hs s rfl, hl⟩⟩
    rintro s' ⟨⟩
    exact hs.1

theorem ids_pushed {fresh : Option SmState} {l : List (Agenda.Entry MsgId SmState Time)} :
    ids ((fresh.map (q.freshEntry env)).toList ++ l) =
      (fresh.map fun _ => q.nextId).toList ++ ids l := by
  cases fresh <;> rfl

/-! ## Effects -/

/-- The message is taken out of the queue. -/
theorem Effect.removed (hd : q.Distinct) : Effect q (q.remove h) h True [h] none := by
  have ha : (q.remove h).agenda = q.others h := agenda_remove q h
  have hnot : h ∉ ids (q.others h) := by
    unfold SMq.others
    rw [Agenda.ids_erase]
    simp
  refine ⟨fun hq => iff_of_true ?_ trivial, ?_, ?_, ⟨?_, fun i hi => ?_⟩, rfl, rfl, Nat.le_refl _⟩
  · unfold InOrder
    rw [ha]
    exact hq.erase h
  · have hself : (q.remove h).others h = q.others h := by
      unfold SMq.others
      rw [agenda_remove, Agenda.erase_erase]
    rw [hself]
    refine (List.filter_eq_self.2 fun i hi => ?_).symm
    have hih : i ≠ h := fun hih => hnot (hih ▸ hi)
    simpa using hih
  · rw [ha]
    exact iff_of_false hnot (by simp)
  · rw [ha]
    unfold SMq.others
    rw [Agenda.ids_erase]
    exact hd.nodup.filter _
  · rw [ha] at hi
    unfold SMq.others at hi
    rw [Agenda.ids_erase] at hi
    exact hd.lt_nextId i (List.mem_of_mem_filter hi)

/-- The message gets a new state in the end, and a new place, after a command was run and a message
was inserted. -/
theorem Effect.requeued {gone : Option MsgId} {fresh : Option SmState} {s : SmState} {now : Time}
    (hd : q.Distinct) (hh : h ∈ ids q.agenda) (hm : Moved q q1 h) (hr : Ran q1 ran gone)
    (hp : Pushed env ran q2 fresh) (hs : q2.setState h s now = .ok q') :
    Effect q q' h (FrontFits env ran fresh (ran.others h)) gone.toList fresh := by
  have hdran : ran.Distinct := hr.distinct (hm.distinct hd)
  have hd2 : q2.Distinct := hp.distinct hdran
  have hnext : ran.nextId = q.nextId := hr.frame.nextId.trans hm.frame.nextId
  have hlt : h < ran.nextId := by
    rw [hnext]
    exact hd.lt_nextId h hh
  have hothers := hp.others hlt
  obtain ⟨x, hx, ha, hf⟩ := setState_ok hs
  have hmem2 : h ∈ ids q2.agenda := mem_ids_agenda hx
  have hothers' : q'.others h = q2.others h := by
    unfold SMq.others
    rw [ha, Agenda.erase_requeue]
  have hperm : (ids q'.agenda).Perm (ids q2.agenda) := by
    rw [ha]
    exact Agenda.ids_requeue_perm hd2.nodup
  have hgone : ids (ran.others h) = (ids (q.others h)).filter (· ∉ gone.toList) := by
    rw [← hm.others]
    unfold SMq.others
    rw [hr.agenda]
    cases gone with
    | none => simp
    | some g =>
      simp only [Option.elim_some, Agenda.ids_erase, Option.toList_some, List.mem_singleton,
        List.filter_filter]
      exact List.filter_congr fun i _ => Bool.and_comm _ _
  refine ⟨fun hq => ?_, ?_, ?_, ⟨hperm.nodup_iff.2 hd2.nodup, fun i hi => ?_⟩, ?_, ?_, ?_⟩
  · have hran : Agenda.Sorted (ran.others h) := by
      have hq1 : Agenda.Sorted (q1.others h) := (hm.order hq).erase h
      unfold SMq.others at hq1 ⊢
      rw [hr.agenda]
      cases gone with
      | none => exact hq1
      | some g => exact ((hm.order hq).erase g).erase h
    unfold InOrder
    rw [ha, Agenda.sorted_requeue_iff hmem2]
    exact (iff_of_eq (congrArg Agenda.Sorted hothers)).trans (sorted_pushed hran)
  · rw [hothers', hothers, ids_pushed, hnext, hgone]
  · refine iff_of_true (hperm.mem_iff.2 hmem2) fun hg => ?_
    -- the command did not take the message itself out, since it is there at the end
    obtain rfl : gone = some h := by
      cases gone with
      | none => simp at hg
      | some g => rw [List.mem_singleton.1 hg]
    rw [hp.agenda, ids_pushed] at hmem2
    rcases List.mem_append.1 hmem2 with hi | hi
    · cases fresh with
      | none => simp at hi
      | some s =>
        exact absurd (List.mem_singleton.1 hi) (Nat.ne_of_lt hlt)
    · rw [hr.agenda, Option.elim_some, Agenda.ids_erase] at hi
      simp at hi
  · rw [hf.nextId]
    exact hd2.lt_nextId i (hperm.mem_iff.1 hi)
  · rw [hf.settings, hp.settings, hr.frame.settings, hm.frame.settings]
  · rw [hf.posted, hp.posted, hr.frame.posted, hm.frame.posted]
  · rw [hf.nextId, ← hnext]
    exact hp.nextId

/-- The message gets a new state and a new place, and nothing else happens. -/
theorem Effect.moved (env : Env) {s : SmState} {now : Time} (hd : q.Distinct) (hh : h ∈ ids q.agenda)
    (hm : Moved q q1 h) (hs : q1.setState h s now = .ok q') : Effect q q' h True [] none := by
  have hp : Pushed env q1 q1 none := .none_of_frame rfl (.refl q1) rfl
  have he := Effect.requeued hd hh hm (Ran.refl q1) hp hs
  have htrue : FrontFits env q1 none (q1.others h) ↔ True := iff_of_true frontFits_none trivial
  exact { he with order := fun hq => (he.order hq).trans htrue }

end SMq

end Smqueue

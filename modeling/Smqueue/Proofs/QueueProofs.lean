import Smqueue.Queue
import Smqueue.Lib.Proofs.AgendaProofs
import Smqueue.Proofs.ShortMsgProofs

/-!
# Proofs: the queue operations as edits of an agenda

Every operation of `Smqueue.Queue` is an edit of the agenda of the queue, and leaves the settings and
the other counters alone.
-/

namespace Smqueue

namespace SMq

variable {lib : Libs} {q q' : SMq} {i : MsgId} {s : SmState} {t : Time} {m : ShortMsgPending}

/-- The settings and the counters are as they were. -/
structure Frame (q q' : SMq) : Prop where
  settings : q'.settings = q.settings
  nextId : q'.nextId = q.nextId
  posted : q'.posted = q.posted

theorem Frame.refl (q : SMq) : Frame q q := ⟨rfl, rfl, rfl⟩

theorem Frame.readTable (q : SMq) (s s' : SmState) : Frame q (q.readTable s s') := ⟨rfl, rfl, rfl⟩

theorem Frame.trans {q1 q2 q3 : SMq} (h : Frame q1 q2) (h' : Frame q2 q3) : Frame q1 q3 :=
  ⟨h'.settings.trans h.settings, h'.nextId.trans h.nextId, h'.posted.trans h.posted⟩

/-! ## Content -/

theorem agenda_store (q : SMq) (m : ShortMsgPending) :
    (q.store m).agenda = Agenda.retime m.id m.state m.nextActionTime q.agenda := by
  unfold agenda store Agenda.retime
  rw [List.map_map, List.map_map]
  refine List.map_congr_left fun x _ => ?_
  by_cases hx : x.id = m.id <;> simp [hx, ShortMsgPending.entry]

theorem agenda_remove (q : SMq) (i : MsgId) : (q.remove i).agenda = Agenda.erase i q.agenda := by
  unfold agenda remove Agenda.erase
  rw [List.filter_map]
  rfl

theorem find_some (h : q.find i = some m) : m ∈ q.timeSortedList ∧ m.id = i := by
  refine ⟨List.mem_of_find?_eq_some h, ?_⟩
  simpa using List.find?_some h

theorem msg_ok (h : q.msg i = .ok m) : q.find i = some m := by
  unfold msg at h
  cases hf : q.find i with
  | none => simp [hf] at h
  | some x => simpa [hf] using h

theorem mem_agenda (h : m ∈ q.timeSortedList) : m.entry ∈ q.agenda := List.mem_map_of_mem h

theorem store_frame (q : SMq) (m : ShortMsgPending) : Frame q (q.store m) := ⟨rfl, rfl, rfl⟩

theorem remove_frame (q : SMq) (i : MsgId) : Frame q (q.remove i) := ⟨rfl, rfl, rfl⟩

/-- Storing a message whose place in the state machine did not change. -/
theorem agenda_store_same {m' : ShortMsgPending} (hd : (Agenda.ids q.agenda).Nodup)
    (hm : m ∈ q.timeSortedList) (he : m'.entry = m.entry) : (q.store m').agenda = q.agenda := by
  rw [agenda_store]
  obtain ⟨hid, hst, ht⟩ := Agenda.Entry.mk.inj he
  rw [hid, hst, ht]
  exact Agenda.retime_same hd (mem_agenda hm)

theorem debugDump_ok (h : q.debugDump lib = .ok q') :
    q'.agenda = q.agenda ∧ Frame q q' := by
  unfold debugDump at h
  obtain ⟨l, hl, h⟩ := Except.bind_eq_ok.1 h
  obtain rfl := Except.pure_eq_ok.1 h
  refine ⟨Except.map_eq_of_mapM (fun x y hxy => ?_) hl, ⟨rfl, rfl, rfl⟩⟩
  obtain ⟨sm, -, hxy⟩ := Except.bind_eq_ok.1 hxy
  obtain rfl := Except.pure_eq_ok.1 hxy
  rfl

theorem debugDump_reads (h : q.debugDump lib = .ok q') : q'.tableReads = q.tableReads := by
  unfold debugDump at h
  obtain ⟨l, -, h⟩ := Except.bind_eq_ok.1 h
  obtain rfl := Except.pure_eq_ok.1 h
  rfl

/-! ## Insertion -/

theorem insertNewMessageAt_ok (h : q.insertNewMessageAt lib m s t = .ok q') :
    q'.agenda = ⟨m.id, s, t⟩ :: q.agenda ∧ q'.settings = q.settings ∧ q'.nextId = q.nextId ∧
      q'.posted = q.posted + 1 := by
  unfold insertNewMessageAt at h
  obtain ⟨q1, h1, h⟩ := Except.bind_eq_ok.1 h
  obtain rfl := Except.pure_eq_ok.1 h
  obtain ⟨ha, hf⟩ := debugDump_ok h1
  refine ⟨ha, hf.settings, hf.nextId, ?_⟩
  rw [hf.posted]

theorem insertNewMessageAt_reads (h : q.insertNewMessageAt lib m s t = .ok q') :
    q'.tableReads = q.tableReads := by
  unfold insertNewMessageAt at h
  obtain ⟨q1, h1, h⟩ := Except.bind_eq_ok.1 h
  obtain rfl := Except.pure_eq_ok.1 h
  have hreads := debugDump_reads h1
  exact hreads

theorem insertNewMessageIn_ok {now : Time} (h : q.insertNewMessageIn lib m s now = .ok q') :
    q'.agenda = ⟨m.id, s, now + q.settings.timeouts.get m.state s⟩ :: q.agenda ∧
      q'.settings = q.settings ∧ q'.nextId = q.nextId ∧ q'.posted = q.posted + 1 := by
  obtain ⟨ha, hset, hnext, hpost⟩ := insertNewMessageAt_ok (q := q.readTable m.state s) h
  exact ⟨ha, hset, hnext, hpost⟩

/-! ## Changes of state -/

theorem map_orderedInsert (l : List ShortMsgPending) (m : ShortMsgPending) :
    (l.orderedInsert (fun a b => a.nextActionTime ≤ b.nextActionTime) m).map ShortMsgPending.entry =
      Agenda.insert m.entry (l.map ShortMsgPending.entry) := by
  induction l with
  | nil => rfl
  | cons x l ih =>
    unfold Agenda.insert at ih ⊢
    rw [List.map_cons, List.orderedInsert_cons, List.orderedInsert_cons]
    by_cases hx : m.nextActionTime ≤ x.nextActionTime
    · have hx' : m.entry.due ≤ x.entry.due := hx
      rw [if_pos hx, if_pos hx', List.map_cons, List.map_cons]
    · have hx' : ¬ m.entry.due ≤ x.entry.due := hx
      rw [if_neg hx, if_neg hx', List.map_cons, ih]

theorem mem_ids_agenda (h : q.find i = some m) : i ∈ Agenda.ids q.agenda := by
  obtain ⟨hm, rfl⟩ := find_some h
  exact Agenda.mem_ids.2 ⟨m.entry, mem_agenda hm, rfl⟩

theorem setStateAt_ok (h : q.setStateAt i s t = .ok q') :
    i ∈ Agenda.ids q.agenda ∧ q'.agenda = Agenda.requeue i s t q.agenda ∧ Frame q q' := by
  unfold setStateAt at h
  obtain ⟨m, hm, h⟩ := Except.bind_eq_ok.1 h
  obtain rfl := Except.pure_eq_ok.1 h
  have hf := msg_ok hm
  obtain ⟨-, rfl⟩ := find_some hf
  refine ⟨mem_ids_agenda hf, ?_, ⟨rfl, rfl, rfl⟩⟩
  rw [Agenda.requeue, if_pos (mem_ids_agenda hf)]
  refine (map_orderedInsert _ _).trans ?_
  exact congrArg _ (agenda_remove q m.id)

/-- A change of state with the timeout of the table. -/
theorem setState_ok {now : Time} (h : q.setState i s now = .ok q') :
    ∃ m, q.find i = some m ∧
      q'.agenda = Agenda.requeue i s (now + q.settings.timeouts.get m.state s) q.agenda ∧
      Frame q q' := by
  unfold setState at h
  obtain ⟨m, hm, h⟩ := Except.bind_eq_ok.1 h
  obtain ⟨-, ha, hf⟩ := setStateAt_ok h
  exact ⟨m, msg_ok hm, ha, (Frame.readTable q m.state s).trans hf⟩

theorem setState_reads {now : Time} (h : q.setState i s now = .ok q') :
    ∃ m, q.find i = some m ∧ q'.tableReads = (q.readTable m.state s).tableReads := by
  unfold setState at h
  obtain ⟨m, hm, h⟩ := Except.bind_eq_ok.1 h
  obtain ⟨m1, -, h⟩ := Except.bind_eq_ok.1 h
  obtain rfl := Except.pure_eq_ok.1 h
  exact ⟨m, msg_ok hm, rfl⟩

theorem setStateInPlaceAt_ok (h : q.setStateInPlaceAt i s t = .ok q') :
    q'.agenda = Agenda.retime i s t q.agenda ∧ Frame q q' := by
  unfold setStateInPlaceAt at h
  obtain ⟨m, hm, h⟩ := Except.bind_eq_ok.1 h
  obtain rfl := Except.pure_eq_ok.1 h
  obtain ⟨-, rfl⟩ := find_some (msg_ok hm)
  exact ⟨agenda_store _ _, ⟨rfl, rfl, rfl⟩⟩

theorem setStateInPlace_ok {now : Time} (h : q.setStateInPlace i s now = .ok q') :
    ∃ m, q.find i = some m ∧
      q'.agenda = Agenda.retime i s (now + q.settings.timeouts.get m.state s) q.agenda ∧
      Frame q q' := by
  unfold setStateInPlace at h
  obtain ⟨m, hm, h⟩ := Except.bind_eq_ok.1 h
  obtain ⟨ha, hf⟩ := setStateInPlaceAt_ok h
  exact ⟨m, msg_ok hm, ha, (Frame.readTable q m.state s).trans hf⟩

theorem setStateInPlaceAt_reads (h : q.setStateInPlaceAt i s t = .ok q') :
    q'.tableReads = q.tableReads := by
  obtain ⟨m, -, h⟩ := Except.bind_eq_ok.1 h
  obtain rfl := Except.pure_eq_ok.1 h
  rfl

theorem setStateInPlace_reads {now : Time} (h : q.setStateInPlace i s now = .ok q') :
    ∃ m, q.find i = some m ∧ q'.tableReads = (q.readTable m.state s).tableReads := by
  unfold setStateInPlace at h
  obtain ⟨m, hm, h⟩ := Except.bind_eq_ok.1 h
  exact ⟨m, msg_ok hm, setStateInPlaceAt_reads h⟩

/-! ## Searching -/

theorem findQueuedMsgByTag_some {tag : CString} (h : q.findQueuedMsgByTag tag = some m) :
    m ∈ q.timeSortedList ∧ m.qtag = some tag := by
  refine ⟨List.mem_of_find?_eq_some h, ?_⟩
  have := List.find?_some h
  simp only [hasTag, Bool.and_eq_true, decide_eq_true_eq] at this
  exact this.2

theorem ids_agenda (q : SMq) : Agenda.ids q.agenda = q.timeSortedList.map ShortMsgPending.id := by
  unfold agenda Agenda.ids
  rw [List.map_map]
  rfl

/-- With distinct identities, an iterator to a queued message finds it. -/
theorem find_mem (hd : (Agenda.ids q.agenda).Nodup) (hm : m ∈ q.timeSortedList) :
    q.find m.id = some m := by
  rw [ids_agenda] at hd
  cases hf : q.find m.id with
  | none =>
    have := List.find?_eq_none.1 hf m hm
    simp at this
  | some x =>
    obtain ⟨hx, hxm⟩ := find_some hf
    rw [List.inj_on_of_nodup_map hd hx hm hxm]

end SMq

end Smqueue

import Smqueue.Proofs.ChangesProofs
import Smqueue.Proofs.DaemonProofs

/-!
# Proofs: what the steps of the threads do to the messages

A step of a thread is a pass, the arrival of a datagram, the insertion of its message, or it edits
SIP messages at most.
-/

namespace Smqueue

variable {lib : Libs} {env : Env} {d d' : Daemon} {m m' : ShortMsgPending} {q q' : SMq}
  {r r' : ShortMsg → ShortMsg → Prop}

/-! ## Counts and identities -/

namespace SMq

theorem Change.same {h : ShortMsgPending} (hc : q.Change lib env h m m') :
    m'.id = m.id ∧ m'.retries = m.retries := by
  cases hc with
  | refresh _ => exact ⟨rfl, rfl⟩
  | edit _ _ => exact ⟨rfl, rfl⟩
  | tag _ ht =>
    have hs := ShortMsgPending.setQtag_same ht
    exact ⟨congrArg Agenda.Entry.id hs.entry, hs.retries⟩
  | move _ => exact ⟨rfl, rfl⟩

theorem callShortCode_nextId {r : ShortCodeResult} (hd : q.Distinct) (hm : m ∈ q.timeSortedList)
    (hc : q.callShortCode lib env m = .ok (some r)) : r.queue.nextId = q.nextId := by
  obtain ⟨gone, hr, -⟩ := callShortCode_ok hd.nodup hm hc r rfl
  exact hr.frame.nextId

/-- The message that a pass inserts is a new one. -/
theorem Originated.isNew {h : ShortMsgPending} (hd : q.Distinct) (hh : h ∈ q.timeSortedList)
    (ho : q.Originated lib env h m) : IsNew q m := by
  have of_next : ∀ {q1 : SMq}, q1.nextId = q.nextId → IsNew q1 m → IsNew q m := by
    intro q1 hnext hnew
    unfold IsNew at hnew ⊢
    rw [← hnext]
    exact hnew
  cases ho with
  | reply hs ht hc ha hx hr ho => exact of_next (callShortCode_nextId hd hh hc) (originateMsg_ok ho).2
  | notLocated hs hl hb ho => exact of_next rfl (originateMsg_ok ho).2
  | answered hs ha hc hb ho => exact of_next rfl (originateMsg_ok ho).2
  | registered hs ht hc ha hx ho => exact of_next (callShortCode_nextId hd hh hc) (registerMsg_ok ho).2
  | register hs ho => exact (registerMsg_ok ho).2
  | awaited hs hr hq hy ho =>
    obtain ⟨x, -, -, hf⟩ := setState_ok hq
    exact of_next hf.nextId (registerMsg_ok ho).2

theorem Incoming.isNew {h : ShortMsgPending} (hd : q.Distinct) (hh : h ∈ q.timeSortedList)
    (hi : q.Incoming lib env h m) : m.id = q.nextId ∧ m.retries = 0 := by
  cases hi with
  | inserted ho =>
    obtain ⟨he, hr⟩ := ho.isNew hd hh
    exact ⟨congrArg Agenda.Entry.id he, hr⟩

end SMq

/-! ## Steps -/

/-- The SIP message of a message was worked on by `r`, or not. -/
def Edited (r : ShortMsg → ShortMsg → Prop) (m m' : ShortMsgPending) : Prop :=
  m' = m ∨ ∃ sm, r m.toShortMsg sm ∧ m' = { m with toShortMsg := sm }

theorem Edited.id (h : Edited r m m') : m'.id = m.id := by
  rcases h with rfl | ⟨sm, -, rfl⟩ <;> rfl

theorem Edited.state (h : Edited r m m') : m'.state = m.state := by
  rcases h with rfl | ⟨sm, -, rfl⟩ <;> rfl

theorem Edited.retries (h : Edited r m m') : m'.retries = m.retries := by
  rcases h with rfl | ⟨sm, -, rfl⟩ <;> rfl

theorem Edited.mono (hr : ∀ sm sm', r sm sm' → r' sm sm') (h : Edited r m m') : Edited r' m m' := by
  rcases h with rfl | ⟨sm, hsm, rfl⟩
  · exact .inl rfl
  · exact .inr ⟨sm, hr _ _ hsm, rfl⟩

theorem SMq.debugDump_edited (h : q.debugDump lib = .ok q') :
    (∀ x' ∈ q'.timeSortedList, ∃ x ∈ q.timeSortedList, Edited (ShortMsg.Prints lib) x x') ∧
      q'.delivered = q.delivered ∧ q'.nextId = q.nextId ∧ q'.tableReads = q.tableReads := by
  unfold SMq.debugDump at h
  obtain ⟨l, hl, h⟩ := Except.bind_eq_ok.1 h
  obtain rfl := Except.pure_eq_ok.1 h
  refine ⟨fun x' hx' => ?_, rfl, rfl, rfl⟩
  obtain ⟨x, hx, hf⟩ := Except.mem_mapM hl hx'
  obtain ⟨sm, hsm, hf⟩ := Except.bind_eq_ok.1 hf
  obtain rfl := Except.pure_eq_ok.1 hf
  exact ⟨x, hx, .inr ⟨sm, hsm, rfl⟩⟩

/-- A pass does nothing, since no head is due, or it is the case for the state of its head. -/
theorem SMq.processTimeout_cases (h : q.processTimeout lib env = .ok q') :
    (q' = q ∧ ∀ m ∈ q.timeSortedList.head?, ¬ m.nextActionTime ≤ env.clock.entry) ∨
      ∃ m, q.timeSortedList.head? = some m ∧ m.nextActionTime ≤ env.clock.entry ∧
        q.dispatch lib env m = .ok q' := by
  unfold processTimeout at h
  cases hl : q.timeSortedList with
  | nil =>
    rw [hl] at h
    cases h
    exact .inl ⟨rfl, fun m hm => nomatch hm⟩
  | cons m rest =>
    rw [hl] at h
    dsimp only at h
    by_cases hdue : m.nextActionTime > env.clock.entry
    · rw [if_pos hdue] at h
      cases h
      refine .inl ⟨rfl, ?_⟩
      rintro x ⟨⟩
      exact Int.not_le.2 hdue
    · rw [if_neg hdue] at h
      exact .inr ⟨m, rfl, Int.not_lt.1 hdue, h⟩

namespace Daemon

/-- The messages are as they were, up to edits of their SIP messages. -/
structure OnlyEdited (r : ShortMsg → ShortMsg → Prop) (d d' : Daemon) : Prop where
  queue : ∀ x' ∈ d'.queue.timeSortedList, ∃ x ∈ d.queue.timeSortedList, Edited r x x'
  delivered : d'.queue.delivered = d.queue.delivered
  nextId : d'.queue.nextId = d.queue.nextId
  reads : d'.queue.tableReads = d.queue.tableReads
  smpl : ∀ x' ∈ d'.reader.smpl, ∃ x ∈ d.reader.smpl, Edited r x x'
  accepted : ∀ x', d'.reader = .accepted x' → ∃ x, d.reader = .accepted x ∧ Edited r x x'

/-- What the step `a` of a thread does to the messages. -/
inductive Happened (lib : Libs) (d : Daemon) (a : DaemonAct) (d' : Daemon) : Prop
  | passed {env : Env} (ha : a = .pass env)
      (hq : d.queue.processTimeout lib env = .ok d'.queue) (hr : d'.reader = d.reader)
  | arrived {env : Env} {buffer srcaddr : List UInt8} {errcode : Int} {smp : ShortMsgPending}
      (ha : a = .arrive env buffer srcaddr)
      (hv : ({ datagram buffer srcaddr with id := d.queue.nextId } : ShortMsgPending).validateShortMsg
        lib d.queue.settings env true = .ok (errcode, smp))
      (hq : d'.queue = { d.queue with nextId := d.queue.nextId + 1 })
      (hr : d'.reader = if errcode = 0 then .accepted smp else .rejected errcode smp)
  | spliced {now : Time} {smp : ShortMsgPending} (ha : a = .splice now)
      (hr : d.reader = .accepted smp) (hq : d'.queue = d.queue.spliceNewMessage smp now)
      (hr' : d'.reader = .spliced smp.id)
  /-- A message is parsed, or none is touched. -/
  | parsed (he : OnlyEdited (ShortMsg.Parses lib) d d')
  /-- The texts of all messages are made valid. -/
  | dumped (ha : a = .dump ∨ ∃ s, a = .tidy (some s)) (he : OnlyEdited (ShortMsg.Prints lib) d d')

theorem OnlyEdited.mono (hr : ∀ sm sm', r sm sm' → r' sm sm') (h : OnlyEdited r d d') :
    OnlyEdited r' d d' where
  queue := fun x' hx' => (h.queue x' hx').imp fun _ ⟨hx, he⟩ => ⟨hx, he.mono hr⟩
  delivered := h.delivered
  nextId := h.nextId
  reads := h.reads
  smpl := fun x' hx' => (h.smpl x' hx').imp fun _ ⟨hx, he⟩ => ⟨hx, he.mono hr⟩
  accepted := fun x' hx' => (h.accepted x' hx').imp fun _ ⟨hx, he⟩ => ⟨hx, he.mono hr⟩

theorem OnlyEdited.refresh_of_parses (h : OnlyEdited (ShortMsg.Parses lib) d d') :
    OnlyEdited (ShortMsg.Refresh lib) d d' :=
  h.mono fun _ _ hp => .inr hp

theorem OnlyEdited.refresh_of_prints (h : OnlyEdited (ShortMsg.Prints lib) d d') :
    OnlyEdited (ShortMsg.Refresh lib) d d' :=
  h.mono fun _ _ hp => .inl hp

/-- The queue and the temporary list are as they were. -/
theorem OnlyEdited.of_same (hq : d'.queue.timeSortedList = d.queue.timeSortedList)
    (hd : d'.queue.delivered = d.queue.delivered) (hn : d'.queue.nextId = d.queue.nextId)
    (ht : d'.queue.tableReads = d.queue.tableReads)
    (hr : d'.reader = d.reader ∨ d'.reader.smpl = none ∨
      d'.reader.smpl = d.reader.smpl ∧ ∀ x, d'.reader ≠ .accepted x) : OnlyEdited r d d' := by
  refine ⟨fun x hx => ⟨x, ?_, .inl rfl⟩, hd, hn, ht, fun x hx => ?_, fun x hx => ?_⟩
  · rw [← hq]
    exact hx
  · rcases hr with hr | hr | ⟨hr, -⟩
    · exact ⟨x, hr ▸ hx, .inl rfl⟩
    · rw [hr] at hx
      cases hx
    · exact ⟨x, hr ▸ hx, .inl rfl⟩
  · rcases hr with hr | hr | ⟨-, hr⟩
    · exact ⟨x, hr ▸ hx, .inl rfl⟩
    · rw [hx] at hr
      cases hr
    · exact absurd hx (hr x)

theorem OnlyEdited.of_debugDump {settings : Settings}
    (hq : { d.queue with settings := settings }.debugDump lib = .ok q) (hd : d'.queue = q)
    (hr : d'.reader = d.reader ∨ d'.reader.smpl = none) :
    OnlyEdited (ShortMsg.Prints lib) d d' := by
  obtain ⟨hm, hdel, hnext, ht⟩ := SMq.debugDump_edited hq
  subst hd
  refine ⟨hm, hdel, hnext, ht, fun x hx => ?_, fun x hx => ?_⟩
  · rcases hr with hr | hr
    · exact ⟨x, hr ▸ hx, .inl rfl⟩
    · rw [hr] at hx
      cases hx
  · rcases hr with hr | hr
    · exact ⟨x, hr ▸ hx, .inl rfl⟩
    · rw [hx] at hr
      cases hr

/-- The message at an address is the only one with its identity. -/
theorem lookup_unique {i : MsgId} {x : ShortMsgPending} (hs : d.Sound) (hm : d.lookup i = some m)
    (hx : x ∈ d.queue.timeSortedList ∨ x ∈ d.reader.smpl) (hid : x.id = m.id) : x = m := by
  unfold lookup at hm
  cases hf : d.queue.find i with
  | some m1 =>
    rw [hf] at hm
    obtain rfl : m1 = m := Option.some.inj hm
    obtain ⟨hmem, -⟩ := SMq.find_some hf
    rcases hx with hx | hx
    · have hfind := SMq.find_mem hs.distinct.nodup hx
      rw [hid, SMq.find_mem hs.distinct.nodup hmem] at hfind
      exact (Option.some.inj hfind).symm
    · have hheld : m1.id ∈ d.held := by
        unfold held
        rw [hx]
        exact congrArg some hid
      exact absurd (Agenda.mem_ids.2 ⟨_, SMq.mem_agenda hmem, rfl⟩) (hs.held_fresh _ hheld).2
  | none =>
    rw [hf] at hm
    obtain ⟨hsmpl, hmi⟩ := Option.filter_eq_some_iff.1 hm
    rcases hx with hx | hx
    · have hnone := List.find?_eq_none.1 hf x hx
      rw [hid] at hnone
      exact absurd hmi hnone
    · exact Option.some.inj (hx.symm.trans hsmpl)

theorem OnlyEdited.of_update {sm : ShortMsg} {i : MsgId} {w : Writer} (hs : d.Sound)
    (hm : d.lookup i = some m) (he : r m.toShortMsg sm)
    (hd : d' = { d.update { m with toShortMsg := sm } with writer := w }) :
    OnlyEdited r d d' := by
  subst hd
  have hedit : ∀ x, x ∈ d.queue.timeSortedList ∨ x ∈ d.reader.smpl →
      Edited r x (if x.id = m.id then { m with toShortMsg := sm } else x) := by
    intro x hx
    by_cases hid : x.id = m.id
    · obtain rfl := lookup_unique hs hm hx hid
      rw [if_pos rfl]
      exact .inr ⟨sm, he, rfl⟩
    · rw [if_neg hid]
      exact .inl rfl
  have hsmpl : ∀ x ∈ d.reader.smpl, Edited r x
      (if x.id = m.id then { m with toShortMsg := sm } else x) := fun x hx => hedit x (.inr hx)
  refine ⟨fun x' hx' => ?_, rfl, rfl, rfl, ?_, ?_⟩
  · obtain ⟨x, hx, rfl⟩ := List.mem_map.1 hx'
    exact ⟨x, hx, hedit x (.inl hx)⟩
  · unfold update
    cases hr : d.reader with
    | accepted x =>
      rw [hr] at hsmpl
      rintro x' ⟨⟩
      exact ⟨x, rfl, hsmpl x rfl⟩
    | rejected errcode x =>
      rw [hr] at hsmpl
      rintro x' ⟨⟩
      exact ⟨x, rfl, hsmpl x rfl⟩
    | answered smpl =>
      rw [hr] at hsmpl
      intro x' hx'
      cases smpl with
      | none => cases hx'
      | some x =>
        cases hx'
        exact ⟨x, rfl, hsmpl x rfl⟩
    | _ =>
      intro x' hx'
      cases hx'
  · unfold update
    cases hr : d.reader with
    | accepted x =>
      rw [hr] at hsmpl
      rintro x' ⟨⟩
      exact ⟨x, rfl, hsmpl x rfl⟩
    | _ =>
      intro x' hx'
      cases hx'

/-- The message of a datagram is a new one. -/
theorem arrived_new {buffer srcaddr : List UInt8} {errcode : Int} {smp x : ShortMsgPending}
    {early : Bool} {settings : Settings}
    (hv : ({ datagram buffer srcaddr with id := d.queue.nextId } : ShortMsgPending).validateShortMsg
      lib settings env early = .ok (errcode, smp))
    (hr : d'.reader = if errcode = 0 then .accepted smp else .rejected errcode smp)
    (hx : x ∈ d'.reader.smpl) : x.id = d.queue.nextId ∧ x.retries = 0 := by
  have hsame := ShortMsgPending.validateShortMsg_same hv
  obtain rfl : smp = x := by
    rw [hr] at hx
    split at hx <;> exact Option.some.inj hx
  exact ⟨congrArg Agenda.Entry.id hsame.entry, hsame.retries⟩

/-- The message in the temporary list is not in the queue. -/
theorem held_ne {x : ShortMsgPending} (hs : d.Sound) (hx : x ∈ d.reader.smpl)
    (hm : m ∈ d.queue.timeSortedList) : x.id ≠ m.id := by
  intro hid
  have hheld : x.id ∈ d.held := Option.mem_map_of_mem ShortMsgPending.id hx
  refine (hs.held_fresh _ hheld).2 ?_
  rw [hid]
  exact Agenda.mem_ids.2 ⟨_, SMq.mem_agenda hm, rfl⟩

/-- What the steps of the threads do to the messages. -/
theorem next_happened {a : DaemonAct} (hs : d.Sound) (h : d.next lib a = some d') :
    Happened lib d a d' := by
  cases a with
  | arrive env buffer srcaddr =>
    obtain ⟨-, errcode, smp, hv, rfl⟩ := arrive_validated h
    exact .arrived rfl hv rfl rfl
  | splice now =>
    obtain ⟨smp, hr, rfl⟩ := splice_ok h
    exact .spliced rfl hr rfl rfl
  | dump =>
    obtain ⟨smp, q, -, hq, rfl⟩ := dump_debugDump h
    have hq' : { d.queue with settings := d.queue.settings }.debugDump lib = .ok q := hq
    exact .dumped (.inl rfl) (.of_debugDump hq' rfl (.inr rfl))
  | signal =>
    obtain ⟨-, smp, -, rfl⟩ := signal_ok h
    exact .parsed (.of_same rfl rfl rfl rfl (.inr (.inl rfl)))
  | queueRespondSipAck =>
    obtain ⟨-, errcode, smp, smpl, -, hsmpl, rfl⟩ := queueRespondSipAck_ok h
    exact .parsed (.of_same rfl rfl rfl rfl (.inr (.inr ⟨hsmpl.symm, fun x hx => nomatch hx⟩)))
  | deleteList =>
    obtain rfl := deleteList_ok h
    exact .parsed (.of_same rfl rfl rfl rfl (.inr (.inl d.loopHead_smpl)))
  | leave =>
    obtain ⟨-, rfl⟩ := leave_ok h
    exact .parsed (.of_same rfl rfl rfl rfl (.inr (.inl rfl)))
  | receive =>
    rcases receive_ok h with ⟨-, rfl | ⟨rest, -, rfl⟩ | ⟨errcode, smp, rest, -, rfl⟩⟩
    · exact .parsed (.of_same rfl rfl rfl rfl (.inl rfl))
    · exact .parsed (.of_same rfl rfl rfl rfl (.inl rfl))
    · exact .parsed (.of_same rfl rfl rfl rfl (.inl rfl))
  | pass env =>
    obtain ⟨timedOut, q, -, hq, rfl⟩ := pass_ok h
    exact .passed rfl hq rfl
  | sendNested =>
    obtain ⟨-, timedOut, posts, -, rfl⟩ := sendNested_ok h
    exact .parsed (.of_same rfl rfl rfl rfl (.inl rfl))
  | unlock =>
    obtain ⟨w, -, rfl⟩ := unlock_ok h
    exact .parsed (.of_same rfl rfl rfl rfl (.inl rfl))
  | respond =>
    obtain ⟨i, m, ok, sm, hm, hparse, hd'⟩ := respond_parse h
    exact .parsed (.of_update hs hm ⟨ok, hparse⟩ hd')
  | tidy due =>
    obtain ⟨q, hq, rfl⟩ := tidy_debugDump h
    rcases hq with rfl | ⟨⟨s, rfl⟩, settings, hq⟩
    · exact .parsed (.of_same rfl rfl rfl rfl (.inl rfl))
    · exact .dumped (.inr ⟨s, rfl⟩) (.of_debugDump hq rfl (.inl rfl))

/-- The identities are given away in their order. -/
theorem next_nextId {a : DaemonAct} (hs : d.Sound) (hn : d.next lib a = some d') :
    d.queue.nextId ≤ d'.queue.nextId := by
  cases next_happened hs hn with
  | passed _ hq _ => exact (passed hs.distinct hq).nextId
  | arrived _ _ hq _ =>
    rw [hq]
    exact Nat.le_succ _
  | spliced _ _ hq _ =>
    rw [hq]
    exact Nat.le_refl _
  | parsed he => exact Nat.le_of_eq he.nextId.symm
  | dumped _ he => exact Nat.le_of_eq he.nextId.symm

end Daemon

end Smqueue

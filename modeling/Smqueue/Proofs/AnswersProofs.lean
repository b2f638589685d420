import Smqueue.Answers
import Smqueue.Proofs.LifecycleProofs

/-!
# Proofs: the answers to the datagrams

The answers are given in the order in which the datagrams arrived, each at most once, with the code
of the verdict and to the address that the datagram came from, whatever else the threads do in
between.
-/

namespace Smqueue

open Agenda (ids)

variable {lib : Libs} {env : Env} {d d' : Daemon} {i : MsgId} {q q' : SMq}
  {h m m' : ShortMsgPending} {due taken given : List Ack} {a : DaemonAct}

/-! ## Where a message came from -/

/-- The message `m'` stems from the datagram of `m`. -/
def SameSender (m m' : ShortMsgPending) : Prop := m'.id = m.id ∧ m'.srcaddr = m.srcaddr

theorem SameSender.trans {m1 : ShortMsgPending} (h : SameSender m m1) (h' : SameSender m1 m') :
    SameSender m m' := ⟨h'.1.trans h.1, h'.2.trans h.2⟩

theorem ShortMsgPending.SameBut.sender (h : SameBut m m') : SameSender m m' := by
  obtain ⟨sm, tag, hash, rfl⟩ := h
  exact ⟨rfl, rfl⟩

theorem Edited.sender {r : ShortMsg → ShortMsg → Prop} (h : Edited r m m') : SameSender m m' := by
  rcases h with rfl | ⟨sm, -, rfl⟩ <;> exact ⟨rfl, rfl⟩

theorem SMq.Change.sender (hc : q.Change lib env h m m') : SameSender m m' := by
  cases hc with
  | refresh _ => exact ⟨rfl, rfl⟩
  | edit _ _ => exact ⟨rfl, rfl⟩
  | tag _ ht => exact (ShortMsgPending.setQtag_same ht).sender
  | move _ => exact ⟨rfl, rfl⟩

/-- What the program builds came from no address. -/
theorem SMq.originateMsg_srcaddr {sender recipient text : CString} {code : Int}
    (h : originateMsg lib env q sender recipient text = .ok (q', code, m)) : m.srcaddr = [] := by
  unfold originateMsg at h
  obtain ⟨sip, -, h⟩ := Except.bind_eq_ok.1 h
  obtain ⟨⟨c, m1⟩, h1, h⟩ := Except.bind_eq_ok.1 h
  obtain ⟨⟨c2, m2⟩, h2, h⟩ := Except.bind_eq_ok.1 h
  cases h
  have htagged : m1.srcaddr = [] := (ShortMsgPending.setQtag_same h1).sender.2
  exact (finishMsg_same h2).sender.2.trans htagged

theorem SMq.registerMsg_srcaddr {code : Int} (h : registerMsg lib env q m = .ok (q', code, m')) :
    m'.srcaddr = [] := by
  unfold registerMsg registerResponse at h
  obtain ⟨⟨c, m1⟩, h1, h⟩ := Except.bind_eq_ok.1 h
  cases h
  obtain ⟨sip, -, h1⟩ := Except.bind_eq_ok.1 h1
  obtain ⟨user, -, h1⟩ := Except.bind_eq_ok.1 h1
  obtain ⟨imsi, -, h1⟩ := Except.bind_eq_ok.1 h1
  obtain ⟨sip2, -, h1⟩ := Except.bind_eq_ok.1 h1
  obtain ⟨⟨c, m1⟩, ht, h1⟩ := Except.bind_eq_ok.1 h1
  obtain ⟨tag, -, h1⟩ := Except.bind_eq_ok.1 h1
  have htagged : m1.srcaddr = [] := (ShortMsgPending.setQtag_same ht).sender.2
  exact (finishMsg_same h1).sender.2.trans htagged

theorem SMq.Originated.srcaddr (ho : q.Originated lib env h m) : m.srcaddr = [] := by
  cases ho with
  | reply _ _ _ _ _ _ ho => exact originateMsg_srcaddr ho
  | notLocated _ _ _ ho => exact originateMsg_srcaddr ho
  | answered _ _ _ _ ho => exact originateMsg_srcaddr ho
  | registered _ _ _ _ _ ho => exact registerMsg_srcaddr ho
  | register _ ho => exact registerMsg_srcaddr ho
  | awaited _ _ _ _ ho => exact registerMsg_srcaddr ho

theorem SMq.Incoming.srcaddr (hi : q.Incoming lib env h m) : m.srcaddr = [] := by
  cases hi with
  | inserted ho =>
    have hm := ho.srcaddr
    exact hm

/-- Every message after a pass is a new one or stems from one before. -/
theorem SMq.processTimeout_sender (hd : q.Distinct) (hq : q.processTimeout lib env = .ok q')
    (hm : m' ∈ q'.timeSortedList) :
    m'.id = q.nextId ∧ m'.srcaddr = [] ∨ ∃ m ∈ q.timeSortedList, SameSender m m' := by
  rcases processTimeout_outcome hd hq with rfl | ⟨h, hhead, -, -, ho⟩
  · exact .inr ⟨m', hm, rfl, rfl⟩
  · have hh : h ∈ q.timeSortedList := List.mem_of_mem_head? hhead
    have of_evolves : ∀ {l : List ShortMsgPending}, (∀ x ∈ l, ∃ m ∈ q.timeSortedList,
        SameSender m x) → Population.Evolves (q.Change lib env h) (q.Incoming lib env h) l
          q'.timeSortedList →
        m'.id = q.nextId ∧ m'.srcaddr = [] ∨ ∃ m ∈ q.timeSortedList, SameSender m m' := by
      intro l hl he
      have hrelated := he.related (r := SameSender) (fun x => ⟨rfl, rfl⟩) (fun _ _ _ => SameSender.trans)
        (fun _ _ => Change.sender) hm
      obtain ⟨x, hx | hin, hsame⟩ := hrelated
      · obtain ⟨m, hm, hmx⟩ := hl x hx
        exact .inr ⟨m, hm, hmx.trans hsame⟩
      · exact .inl ⟨hsame.1.trans (hin.isNew hd hh).1, hsame.2.trans hin.srcaddr⟩
    cases ho with
    | quiet he => exact of_evolves (fun x hx => ⟨x, hx, rfl, rfl⟩) he.messages
    | attempt _ he _ =>
      refine of_evolves (fun x hx => ?_) he
      rcases mem_attempted hx with rfl | ⟨hx, -⟩
      · exact ⟨h, hh, rfl, rfl⟩
      · exact ⟨x, hx, rfl, rfl⟩

namespace Daemon

theorem mem_messages : m ∈ d.messages ↔ m ∈ d.queue.timeSortedList ∨ m ∈ d.reader.smpl := by
  unfold messages
  rw [List.mem_append, Option.mem_toList]
  exact Iff.rfl

theorem lookup_mem (hm : d.lookup i = some m) : m ∈ d.messages ∧ m.id = i := by
  rw [mem_messages]
  unfold lookup at hm
  rcases Option.or_eq_some_iff.1 hm with hf | ⟨-, hf⟩
  · exact ⟨.inl (SMq.find_some hf).1, (SMq.find_some hf).2⟩
  · obtain ⟨hsmpl, hid⟩ := Option.filter_eq_some_iff.1 hf
    exact ⟨.inr hsmpl, of_decide_eq_true hid⟩

theorem arrived_eq {errcode : Int} {smp x : ShortMsgPending}
    (hr : d'.reader = if errcode = 0 then .accepted smp else .rejected errcode smp)
    (hx : x ∈ d'.reader.smpl) : x = smp := by
  rw [hr] at hx
  split at hx <;> exact (Option.some.inj hx).symm

/-- Every message after a step is a new one, which came with the datagram if there was one, or stems
from one before. -/
theorem next_sender (hs : d.Sound) (h : d.next lib a = some d') (hm : m' ∈ d'.messages) :
    m'.id = d.queue.nextId ∧ (m'.srcaddr = [] ∨ ∃ env buffer, a = .arrive env buffer m'.srcaddr) ∨
      ∃ m ∈ d.messages, SameSender m m' := by
  rw [mem_messages] at hm
  have of_edited : ∀ {r}, OnlyEdited r d d' → ∃ m ∈ d.messages, SameSender m m' := by
    intro r he
    rcases hm with hm | hm
    · obtain ⟨x, hx, hxe⟩ := he.queue m' hm
      exact ⟨x, mem_messages.2 (.inl hx), hxe.sender⟩
    · obtain ⟨x, hx, hxe⟩ := he.smpl m' hm
      exact ⟨x, mem_messages.2 (.inr hx), hxe.sender⟩
  cases next_happened hs h with
  | passed ha hq hr =>
    rcases hm with hm | hm
    · rcases SMq.processTimeout_sender hs.distinct hq hm with ⟨hid, haddr⟩ | ⟨m, hm, hsame⟩
      · exact .inl ⟨hid, .inl haddr⟩
      · exact .inr ⟨m, mem_messages.2 (.inl hm), hsame⟩
    · rw [hr] at hm
      exact .inr ⟨m', mem_messages.2 (.inr hm), rfl, rfl⟩
  | arrived ha hv hq hr =>
    rcases hm with hm | hm
    · rw [hq] at hm
      exact .inr ⟨m', mem_messages.2 (.inl hm), rfl, rfl⟩
    · obtain rfl := arrived_eq hr hm
      have hsender := (ShortMsgPending.validateShortMsg_same hv).sender
      exact .inl ⟨hsender.1, .inr ⟨_, _, by rw [hsender.2]; exact ha⟩⟩
  | @spliced now smp ha hr hq hr' =>
    rcases hm with hm | hm
    · rw [hq] at hm
      rcases List.mem_cons.1 hm with rfl | hm
      · refine .inr ⟨smp, mem_messages.2 (.inr ?_), rfl, rfl⟩
        rw [hr]
        rfl
      · exact .inr ⟨m', mem_messages.2 (.inl hm), rfl, rfl⟩
    · rw [hr'] at hm
      cases hm
  | parsed he => exact .inr (of_edited he)
  | dumped ha he => exact .inr (of_edited he)

/-! ## The answers that are on their way -/

theorem loopHead_acks (d : Daemon) : d.loopHead.acks = [] := by
  unfold loopHead
  split <;> rfl

theorem update_acks (x : ShortMsgPending) : (d.update x).reader.acks = d.reader.acks := by
  have hedit : ∀ y : ShortMsgPending, (if y.id = x.id then x else y).id = y.id := by
    intro y
    by_cases hy : y.id = x.id
    · rw [if_pos hy, hy]
    · rw [if_neg hy]
  unfold update
  cases d.reader with
  | accepted y => exact congrArg (fun i => [(202, i)]) (hedit y)
  | rejected errcode y => exact congrArg (fun i => [(errcode, i)]) (hedit y)
  | _ => rfl

theorem queueRespondSipAck_acks (h : d.next lib .queueRespondSipAck = some d') :
    d.events.length < maxNumOfMessages ∧ ∃ errcode smp, d.reader.acks = [(errcode, smp)] ∧
      ∃ smpl, d' = { d with events := d.events ++ [.sipAck errcode smp],
                            reader := .answered smpl } := by
  have hq : d.queueRespondSipAck = some d' := h
  unfold queueRespondSipAck at hq
  cases hr : d.reader with
  | signalled smp =>
    rw [hr] at hq
    obtain ⟨hlt, hd'⟩ := mqSend_ok hq
    exact ⟨hlt, 202, smp, rfl, none, hd'⟩
  | rejected errcode smp =>
    rw [hr] at hq
    obtain ⟨hlt, hd'⟩ := mqSend_ok hq
    exact ⟨hlt, errcode, smp.id, rfl, some smp, hd'⟩
  | _ =>
    rw [hr] at hq
    cases hq

theorem unlock_acks (h : d.next lib .unlock = some d') :
    ∃ w, d' = { d with writer := w } ∧ w.acks = [] ∧ d.writer.acks = [] := by
  obtain ⟨timedOut, hwriter, hd'⟩ := unlock_sending h
  refine ⟨_, hd', ?_, ?_⟩
  · cases timedOut <;> rfl
  · rw [hwriter]
    rfl

theorem tidy_acks {due : Option Settings} (h : d.next lib (.tidy due) = some d') :
    d.writer.acks = [] := by
  rw [tidy_tidying h]
  rfl

/-! ## The account of the answers -/

/-- The answers that became due are those that were taken up and those that are on their way, in this
order; each of them is for a message of its own, which came from the address of the answer. -/
structure Accounted (d : Daemon) (due taken : List Ack) : Prop extends Sound d where
  account : ∃ rest, due = taken ++ rest ∧ rest.map Ack.sipAck = d.underway ∧
    ∀ a ∈ rest, ∀ m ∈ d.messages, m.id = a.smp → m.srcaddr = a.netaddr
  lt_nextId : ∀ a ∈ due, a.smp < d.queue.nextId
  increasing : due.Pairwise fun a b => a.smp < b.smp

/-- A step that receives no datagram and takes up no answer. -/
theorem Accounted.of_underway (h : d.Accounted due taken) (hn : d.next lib a = some d')
    (hdue : d.becomesDue lib a = []) (htakes : d.ackTaken a = [])
    (hnext : d.queue.nextId ≤ d'.queue.nextId) (hu : d'.underway = d.underway) :
    d'.Accounted (due ++ d.becomesDue lib a) (taken ++ d.ackTaken a) := by
  obtain ⟨rest, hrest, hmap, haddr⟩ := h.account
  have hs' : d'.Sound := h.toSound.next hn
  rw [hdue, htakes, List.append_nil, List.append_nil]
  refine { hs' with account := ⟨rest, hrest, ?_, fun a ha m' hm' hid => ?_⟩
                    lt_nextId := fun a ha => Nat.lt_of_lt_of_le (h.lt_nextId a ha) hnext
                    increasing := h.increasing }
  · rw [hmap, hu]
  · rcases next_sender h.toSound hn hm' with ⟨hnew, -⟩ | ⟨m, hm, hsame⟩
    · have hlt := h.lt_nextId a (hrest ▸ List.mem_append_right taken ha)
      rw [← hid, hnew] at hlt
      exact absurd hlt (Nat.lt_irrefl _)
    · rw [hsame.2]
      exact haddr a ha m hm (hsame.1.symm.trans hid)

theorem Accounted.arrive {buffer srcaddr : List UInt8} (h : d.Accounted due taken)
    (hn : d.next lib (.arrive env buffer srcaddr) = some d') :
    d'.Accounted (due ++ d.becomesDue lib (.arrive env buffer srcaddr))
      (taken ++ d.ackTaken (.arrive env buffer srcaddr)) := by
  have hs' : d'.Sound := h.toSound.next hn
  obtain ⟨rest, hrest, hmap, haddr⟩ := h.account
  obtain ⟨hw, errcode, smp, hv, hd'⟩ := arrive_validated hn
  have hsender := (ShortMsgPending.validateShortMsg_same hv).sender
  have hid : smp.id = d.queue.nextId := hsender.1
  have hdue : d.becomesDue lib (.arrive env buffer srcaddr) =
      [⟨if errcode = 0 then 202 else errcode, smp.id, srcaddr⟩] := by
    have hv' : (d.queue.newMessage (datagram buffer srcaddr)).2.validateShortMsg lib
        d.queue.settings env true = .ok (errcode, smp) := hv
    unfold becomesDue
    dsimp only
    rw [hv']
  have hlast : ∀ a ∈ due, a.smp < smp.id := fun a ha => by
    rw [hid]
    exact h.lt_nextId a ha
  have htakes : d.ackTaken (.arrive env buffer srcaddr) = [] := rfl
  rw [hdue, htakes, List.append_nil]
  refine { hs' with account := ⟨rest ++ [⟨if errcode = 0 then 202 else errcode, smp.id, srcaddr⟩],
                      ?_, ?_, fun a ha m' hm' hma => ?_⟩
                    lt_nextId := fun a ha => ?_
                    increasing := List.pairwise_append.2 ⟨h.increasing, List.pairwise_singleton _ _,
                      fun a ha b hb => List.mem_singleton.1 hb ▸ hlast a ha⟩ }
  · rw [hrest, List.append_assoc]
  · have hacks : d.reader.acks = [] := by
      rw [hw]
      rfl
    rw [List.map_append, hmap, hd']
    unfold underway
    rw [hacks, List.append_nil]
    refine congrArg (d.writer.acks ++ d.events.filterMap QueuedMsg.ack ++ ·) ?_
    dsimp only
    by_cases hcode : errcode = 0
    · rw [if_pos hcode, if_pos hcode]
      rfl
    · rw [if_neg hcode, if_neg hcode]
      rfl
  · rcases mem_messages.1 hm' with hm' | hm'
    · rw [hd'] at hm'
      rcases List.mem_append.1 ha with ha | ha
      · exact haddr a ha m' (mem_messages.2 (.inl hm')) hma
      · obtain rfl := List.mem_singleton.1 ha
        have hlt := h.distinct.lt_nextId m'.id (Agenda.mem_ids.2 ⟨_, SMq.mem_agenda hm', rfl⟩)
        rw [hma, ← hid] at hlt
        exact absurd hlt (Nat.lt_irrefl _)
    · have hsmp : m' = smp := by
        rw [hd'] at hm'
        dsimp only at hm'
        split at hm' <;> exact (Option.some.inj hm').symm
      subst hsmp
      rcases List.mem_append.1 ha with ha | ha
      · exact absurd hma (Nat.ne_of_gt (hlast a (hrest ▸ List.mem_append_right taken ha)))
      · obtain rfl := List.mem_singleton.1 ha
        exact hsender.2
  · rw [hd']
    rcases List.mem_append.1 ha with ha | ha
    · exact Nat.lt_succ_of_lt (h.lt_nextId a ha)
    · obtain rfl := List.mem_singleton.1 ha
      rw [hid]
      exact Nat.lt_succ_self _

theorem Accounted.respond (h : d.Accounted due taken) (hn : d.next lib .respond = some d') :
    d'.Accounted (due ++ d.becomesDue lib .respond) (taken ++ d.ackTaken .respond) := by
  have hs' : d'.Sound := h.toSound.next hn
  obtain ⟨rest, hrest, hmap, haddr⟩ := h.account
  obtain ⟨errcode, i, m, ok, sm, hw, hm, -, hd'⟩ := respond_acking hn
  obtain ⟨hmem, hid⟩ := lookup_mem hm
  have htakes : d.ackTaken .respond = [⟨errcode, i, m.srcaddr⟩] := by
    unfold ackTaken
    dsimp only
    rw [hw]
    dsimp only
    rw [hm]
    rfl
  have hdue : d.becomesDue lib .respond = [] := rfl
  -- the answer that is taken is the first one on its way
  obtain ⟨first, rest', rfl⟩ : ∃ first rest', rest = first :: rest' := by
    cases rest with
    | nil =>
      unfold underway at hmap
      rw [hw] at hmap
      cases hmap
    | cons first rest' => exact ⟨first, rest', rfl⟩
  unfold underway at hmap
  rw [hw] at hmap
  obtain ⟨hfirst, hmap'⟩ := List.cons.inj hmap
  obtain ⟨hcode, hsmp⟩ := Prod.mk.inj hfirst
  have hfirst : first = ⟨errcode, i, m.srcaddr⟩ := by
    have hnet := haddr first List.mem_cons_self m hmem (hid.trans hsmp.symm)
    cases first
    subst hcode hsmp
    rw [hnet]
  rw [hdue, htakes, List.append_nil]
  refine { hs' with account := ⟨rest', ?_, ?_, fun a ha m' hm' hma => ?_⟩
                    lt_nextId := fun a ha => ?_
                    increasing := h.increasing }
  · rw [hrest, hfirst, List.append_assoc]
    rfl
  · rw [hmap', hd']
    unfold underway
    have hreader : ∀ x, (d.update x).reader.acks = d.reader.acks := update_acks
    rw [← hreader { m with toShortMsg := sm }]
    rfl
  · rcases next_sender h.toSound hn hm' with ⟨hnew, -⟩ | ⟨x, hx, hsame⟩
    · have hlt := h.lt_nextId a (hrest ▸ List.mem_append_right taken (List.mem_cons_of_mem _ ha))
      rw [← hma, hnew] at hlt
      exact absurd hlt (Nat.lt_irrefl _)
    · rw [hsame.2]
      exact haddr a (List.mem_cons_of_mem _ ha) x hx (hsame.1.symm.trans hma)
  · rw [hd']
    exact h.lt_nextId a ha

/-- Every step keeps the account. -/
theorem Accounted.next (h : d.Accounted due taken) (hn : d.next lib a = some d') :
    d'.Accounted (due ++ d.becomesDue lib a) (taken ++ d.ackTaken a) := by
  cases a with
  | arrive env buffer srcaddr => exact h.arrive hn
  | splice now =>
    obtain ⟨smp, hr, hd'⟩ := splice_ok hn
    refine h.of_underway hn rfl rfl (Nat.le_of_eq (by rw [hd']; rfl)) ?_
    rw [hd']
    unfold underway
    rw [hr]
    rfl
  | dump =>
    obtain ⟨smp, q, hr, -, hf, hd'⟩ := dump_ok hn
    refine h.of_underway hn rfl rfl (Nat.le_of_eq (by rw [hd']; exact hf.nextId.symm)) ?_
    rw [hd']
    unfold underway
    rw [hr]
    rfl
  | signal =>
    obtain ⟨-, smp, hr, hd'⟩ := signal_ok hn
    refine h.of_underway hn rfl rfl (Nat.le_of_eq (by rw [hd'])) ?_
    rw [hd']
    unfold underway
    rw [hr, List.filterMap_append]
    change d.writer.acks ++ (d.events.filterMap QueuedMsg.ack ++ []) ++ _ = _
    rw [List.append_nil]
    rfl
  | queueRespondSipAck =>
    obtain ⟨-, errcode, smp, hacks, hd'⟩ := queueRespondSipAck_acks hn
    obtain ⟨smpl, hd'⟩ := hd'
    refine h.of_underway hn rfl rfl (Nat.le_of_eq (by rw [hd'])) ?_
    rw [hd']
    unfold underway
    rw [hacks, List.filterMap_append]
    change d.writer.acks ++ (d.events.filterMap QueuedMsg.ack ++ [(errcode, smp)]) ++ [] = _
    rw [List.append_nil, List.append_assoc]
  | deleteList =>
    obtain ⟨smpl, hr, hd'⟩ := deleteList_answered hn
    refine h.of_underway hn rfl rfl (Nat.le_of_eq (by rw [hd'])) ?_
    rw [hd']
    unfold underway
    rw [hr, loopHead_acks]
    rfl
  | leave =>
    obtain ⟨hr, hd'⟩ := leave_ok hn
    refine h.of_underway hn rfl rfl (Nat.le_of_eq (by rw [hd'])) ?_
    rw [hd']
    unfold underway
    rw [hr]
    rfl
  | receive =>
    obtain ⟨hw, hd' | ⟨rest, he, hd'⟩ | ⟨errcode, smp, rest, he, hd'⟩⟩ := receive_ok hn
    · refine h.of_underway hn rfl rfl (Nat.le_of_eq (by rw [hd'])) ?_
      rw [hd']
      unfold underway
      rw [hw]
      rfl
    · refine h.of_underway hn rfl rfl (Nat.le_of_eq (by rw [hd'])) ?_
      rw [hd']
      unfold underway
      rw [hw, he]
      rfl
    · refine h.of_underway hn rfl rfl (Nat.le_of_eq (by rw [hd'])) ?_
      rw [hd']
      unfold underway
      rw [hw, he]
      rfl
  | pass env =>
    obtain ⟨timedOut, q, hw, hq, hd'⟩ := pass_ok hn
    refine h.of_underway hn rfl rfl (by rw [hd']; exact (passed h.distinct hq).nextId) ?_
    rw [hd']
    unfold underway
    rw [hw]
    rfl
  | sendNested =>
    obtain ⟨-, timedOut, posts, hw, hd'⟩ := sendNested_ok hn
    refine h.of_underway hn rfl rfl (Nat.le_of_eq (by rw [hd'])) ?_
    rw [hd']
    unfold underway
    rw [hw, List.filterMap_append]
    change [] ++ (d.events.filterMap QueuedMsg.ack ++ []) ++ _ = _
    rw [List.append_nil]
    rfl
  | unlock =>
    obtain ⟨w, hd', hacks⟩ := unlock_acks hn
    refine h.of_underway hn rfl rfl (Nat.le_of_eq (by rw [hd'])) ?_
    rw [hd']
    unfold underway
    rw [hacks.1, hacks.2]
  | respond => exact h.respond hn
  | tidy due =>
    obtain ⟨q, -, hnext, hd'⟩ := tidy_ok hn
    refine h.of_underway hn rfl rfl (Nat.le_of_eq (by rw [hd']; exact hnext.symm)) ?_
    rw [hd']
    unfold underway
    rw [tidy_acks hn]
    rfl

theorem Start.accounted (h : d.Start) : d.Accounted [] [] := by
  have hunder : d.underway = [] := by
    have hevents : d.events.filterMap QueuedMsg.ack = [] := by
      refine List.filterMap_eq_nil_iff.2 fun e he => ?_
      rw [h.events e he]
      rfl
    unfold underway
    rw [h.writer, h.reader, hevents]
    rfl
  exact { h.sound with account := ⟨[], rfl, hunder.symm, fun a ha => nomatch ha⟩
                       lt_nextId := fun a ha => nomatch ha
                       increasing := .nil }

theorem History.accounted (h : History lib d due taken given) : d.Accounted due taken := by
  induction h with
  | start h => exact h.accounted
  | next _ hs ih => exact ih.next hs

/-- What is sent was taken up before. -/
theorem History.given_sublist (h : History lib d due taken given) : given.Sublist taken := by
  induction h with
  | start h => exact List.Sublist.slnil
  | next _ _ ih => exact ih.append List.filter_sublist

/-- The answers are sent in the order in which the datagrams came, each once at most, with the code
that is due and to the address that the datagram came from: the answers that became due are those
that were taken up, of which some were sent, followed by those that are on their way. -/
theorem History.inOrder (lib : Libs) (d : Daemon) (due taken given : List Ack)
    (h : History lib d due taken given) :
    (∃ rest, due = taken ++ rest ∧ rest.map Ack.sipAck = d.underway) ∧
      given.Sublist taken ∧ (due.map Ack.smp).Nodup := by
  obtain ⟨rest, hrest, hmap, -⟩ := h.accounted.account
  refine ⟨⟨rest, hrest, hmap⟩, h.given_sublist, ?_⟩
  refine (List.pairwise_map.2 h.accounted.increasing).imp fun hlt => ?_
  exact Nat.ne_of_lt hlt

/-! ## A request and a response -/

/-- The answers that become due, are taken up and are sent along a sequence of steps. -/
def answersAlong (lib : Libs) :
    Daemon → List DaemonAct → Option (Daemon × List Ack × List Ack × List Ack)
  | d, [] => some (d, [], [], [])
  | d, a :: as => do
    let d' ← d.next lib a
    let (e, due, taken, given) ← answersAlong lib d' as
    return (e, d.becomesDue lib a ++ due, d.ackTaken a ++ taken, d.gives lib a ++ given)

theorem History.along {as : List DaemonAct} {due' taken' given' : List Ack}
    (h : History lib d due taken given)
    (has : answersAlong lib d as = some (d', due', taken', given')) :
    History lib d' (due ++ due') (taken ++ taken') (given ++ given') := by
  induction as generalizing d due taken given due' taken' given' with
  | nil =>
    cases has
    simpa using h
  | cons a as ih =>
    obtain ⟨d1, h1, has⟩ := Option.bind_eq_some_iff.1 has
    obtain ⟨⟨e, due1, taken1, given1⟩, hrest, has⟩ := Option.bind_eq_some_iff.1 has
    cases has
    have hall := ih (h.next h1) hrest
    simpa only [List.append_assoc] using hall

/-- The libraries that know a request and a response. -/
def answerLibs : Libs := sampleLibs [sampleRequest, sampleResponse 200 (str "OK")] []

/-- The steps of the reader for a datagram. -/
def readerSteps (sip : SipMessage) (now : Time) : List DaemonAct :=
  [.arrive (sampleEnv now) (SampleLibs.messageText sip) [], .splice now, .dump, .signal,
    .queueRespondSipAck, .deleteList]

/-- The steps of the writer for the events of a datagram. -/
def writerSteps (now : Time) : List DaemonAct :=
  [.receive, .pass (sampleEnv now), .unlock, .receive, .respond]

/-- Of the answers to a request and to a response the first one is sent. -/
theorem History.inOrder_response : ∃ (d : Daemon) (due taken given : List Ack),
    taken = [⟨202, 0, []⟩, ⟨202, 1, []⟩] ∧ given = [⟨202, 0, []⟩] ∧
      (∃ rest, due = taken ++ rest ∧ rest.map Ack.sipAck = d.underway) ∧
        given.Sublist taken ∧ (due.map Ack.smp).Nodup := by
  have hrun : (answersAlong answerLibs (idle {}) (readerSteps sampleRequest 0 ++ writerSteps 0 ++
      readerSteps (sampleResponse 200 (str "OK")) 10 ++ writerSteps 5)).map Prod.snd =
      some ([⟨202, 0, []⟩, ⟨202, 1, []⟩], [⟨202, 0, []⟩, ⟨202, 1, []⟩], [⟨202, 0, []⟩]) := by
    decide +kernel
  obtain ⟨⟨d, due, taken, given⟩, hsome, hlists⟩ := Option.map_eq_some_iff.1 hrun
  cases hlists
  have h := (History.start (idle_start {})).along hsome
  exact ⟨d, _, _, _, rfl, rfl, History.inOrder answerLibs d _ _ _ h⟩

end Daemon

end Smqueue

import Smqueue.QueueOrder
import Smqueue.Proofs.QueueProofs

/-!
# Proofs: what the handlers do to the queue

A handler of the state machine changes the content of messages and inserts at most one message of
its own, at the front; only the command to zap a message takes one out.
-/

namespace Smqueue

variable {lib : Libs} {env : Env} {q q' : SMq} {m m' : ShortMsgPending} {i : MsgId}

namespace ShortMsgPending

/-! ## Messages keep their place in the state machine -/

/-- Only the SIP message and the tag have changed. -/
def SameBut (m m' : ShortMsgPending) : Prop :=
  ∃ sm tag hash, m' = { m with toShortMsg := sm, qtag := tag, qtaghash := hash }

theorem SameBut.trans {m1 m2 m3 : ShortMsgPending} (h : SameBut m1 m2) (h' : SameBut m2 m3) :
    SameBut m1 m3 := by
  obtain ⟨sm, tag, hash, rfl⟩ := h
  obtain ⟨sm', tag', hash', rfl⟩ := h'
  exact ⟨sm', tag', hash', rfl⟩

theorem SameBut.content (m : ShortMsgPending) (sm : ShortMsg) :
    SameBut m { m with toShortMsg := sm } := ⟨sm, m.qtag, m.qtaghash, rfl⟩

theorem SameBut.entry (h : SameBut m m') : m'.entry = m.entry := by
  obtain ⟨sm, tag, hash, rfl⟩ := h
  rfl

theorem SameBut.retries (h : SameBut m m') : m'.retries = m.retries := by
  obtain ⟨sm, tag, hash, rfl⟩ := h
  rfl

theorem setQtag_same {code : Int} (h : m.setQtag lib = .ok (code, m')) : SameBut m m' := by
  unfold setQtag at h
  obtain ⟨⟨ok, sm⟩, -, h⟩ := Except.bind_eq_ok.1 h
  have hsm := SameBut.content m sm
  dsimp only at h
  split at h
  · cases h
    exact hsm
  · obtain ⟨p, -, h⟩ := Except.bind_eq_ok.1 h
    split at h
    · cases h
      exact hsm
    · split at h
      · cases h
        exact hsm
      · split at h
        · cases h
          exact hsm
        · obtain ⟨number, -, h⟩ := Except.bind_eq_ok.1 h
          obtain ⟨tag, -, h⟩ := Except.bind_eq_ok.1 h
          cases h
          exact ⟨_, _, _, rfl⟩

theorem validateShortMsg_same {s : Settings} {early : Bool} {code : Int}
    (h : m.validateShortMsg lib s env early = .ok (code, m')) : SameBut m m' := by
  unfold validateShortMsg at h
  obtain ⟨⟨ok, sm⟩, -, h⟩ := Except.bind_eq_ok.1 h
  have hsm := SameBut.content m sm
  dsimp only at h
  split at h
  · cases h
    exact hsm
  · split at h
    · cases h
      exact hsm
    · split at h
      · cases h
      · split at h
        · cases h
          exact hsm
        · split at h
          · obtain ⟨user?, -, h⟩ := Except.bind_eq_ok.1 h
            obtain ⟨user, -, h⟩ := Except.bind_eq_ok.1 h
            split at h
            · cases h
              exact hsm
            · exact (SameBut.content m _).trans (setQtag_same h)
          · exact hsm.trans (setQtag_same h)

end ShortMsgPending

namespace SMq

open ShortMsgPending (SameBut)

theorem finishMsg_same {s : Settings} {code : Int}
    (h : finishMsg lib env s m = .ok (code, m')) : SameBut m m' := by
  unfold finishMsg at h
  obtain ⟨sm, -, h⟩ := Except.bind_eq_ok.1 h
  obtain ⟨sm', -, h⟩ := Except.bind_eq_ok.1 h
  exact (SameBut.content m sm').trans (ShortMsgPending.validateShortMsg_same h)

/-! ## Originated messages -/

/-- One identity has been taken, and nothing was queued or looked up. -/
structure Drawn (q q' : SMq) : Prop where
  list : q'.timeSortedList = q.timeSortedList
  settings : q'.settings = q.settings
  nextId : q'.nextId = q.nextId + 1
  posted : q'.posted = q.posted
  delivered : q'.delivered = q.delivered
  reads : q'.tableReads = q.tableReads

theorem Drawn.agenda (h : Drawn q q') : q'.agenda = q.agenda := by
  unfold SMq.agenda
  rw [h.list]

/-- A message that was built just now. -/
def IsNew (q : SMq) (m : ShortMsgPending) : Prop :=
  m.entry = ⟨q.nextId, .noState, 0⟩ ∧ m.retries = 0

theorem IsNew.same (h : IsNew q m) (hs : SameBut m m') : IsNew q m' :=
  ⟨hs.entry.trans h.1, hs.retries.trans h.2⟩

theorem originateHalfSm_drawn (lib : Libs) (env : Env) (q : SMq) (method : CString) :
    Drawn q (originateHalfSm lib env q method).1 ∧
      IsNew q (originateHalfSm lib env q method).2 := by
  unfold originateHalfSm newCallId newCSeq
  by_cases hreg : method = str "REGISTER" <;> by_cases hid : q.haveRegisterCallId = true <;>
    simp only [hreg, hid, Bool.not_true, Bool.not_false, ne_eq, not_true_eq_false, not_false_eq_true,
      decide_true, decide_false, Bool.or_false, Bool.or_true, if_true, if_false, Bool.false_eq_true] <;>
    exact ⟨⟨rfl, rfl, rfl, rfl, rfl, rfl⟩, rfl, rfl⟩

theorem originateMsg_ok {sender recipient text : CString} {code : Int}
    (h : originateMsg lib env q sender recipient text = .ok (q', code, m)) :
    Drawn q q' ∧ IsNew q m := by
  unfold originateMsg at h
  obtain ⟨hd, he⟩ := originateHalfSm_drawn lib env q (str "MESSAGE")
  obtain ⟨sip, -, h⟩ := Except.bind_eq_ok.1 h
  obtain ⟨⟨c, m1⟩, h1, h⟩ := Except.bind_eq_ok.1 h
  obtain ⟨⟨c2, m2⟩, h2, h⟩ := Except.bind_eq_ok.1 h
  cases h
  refine ⟨hd, ?_⟩
  have htagged := ShortMsgPending.setQtag_same h1
  have hbuilt : SameBut _ m1 := .trans (.content _ _) htagged
  exact he.same (hbuilt.trans (finishMsg_same h2))

theorem registerResponse_new {s : Settings} {response : ShortMsgPending} {code : Int}
    (hnew : IsNew q response) (h : registerResponse lib env s response m = .ok (code, m')) :
    IsNew q m' := by
  unfold registerResponse at h
  obtain ⟨sip, -, h⟩ := Except.bind_eq_ok.1 h
  obtain ⟨user, -, h⟩ := Except.bind_eq_ok.1 h
  obtain ⟨imsi, -, h⟩ := Except.bind_eq_ok.1 h
  obtain ⟨sip2, -, h⟩ := Except.bind_eq_ok.1 h
  obtain ⟨⟨c, m1⟩, h1, h⟩ := Except.bind_eq_ok.1 h
  obtain ⟨tag, -, h⟩ := Except.bind_eq_ok.1 h
  have htagged : IsNew q m1 :=
    hnew.same (.trans (.content _ _) (ShortMsgPending.setQtag_same h1))
  have hlinked : IsNew q { m1 with linktag := some tag } := htagged
  exact hlinked.same (finishMsg_same h)

theorem registerMsg_ok {code : Int} (h : registerMsg lib env q m = .ok (q', code, m')) :
    Drawn q q' ∧ IsNew q m' := by
  unfold registerMsg at h
  obtain ⟨hd, he⟩ := originateHalfSm_drawn lib env q (str "REGISTER")
  obtain ⟨⟨c, m1⟩, h1, h⟩ := Except.bind_eq_ok.1 h
  cases h
  exact ⟨hd, registerResponse_new he h1⟩

/-- The entry of a message that a pass inserts in state `s`. -/
def freshEntry (env : Env) (q : SMq) (s : SmState) : Agenda.Entry MsgId SmState Time :=
  ⟨q.nextId, s, q.originDue env s⟩

/-- A handler put at most one fresh message, in state `fresh`, on the front of the queue. -/
structure Pushed (env : Env) (q q' : SMq) (fresh : Option SmState) : Prop where
  agenda : q'.agenda = (fresh.map (q.freshEntry env)).toList ++ q.agenda
  settings : q'.settings = q.settings
  nextId : q.nextId + fresh.toList.length ≤ q'.nextId
  posted : q'.posted = q.posted + fresh.toList.length
  reads : q'.tableReads =
    fresh.elim q.tableReads fun s => (q.readTable .noState s).tableReads

theorem Pushed.none_of_frame (ha : q'.agenda = q.agenda) (hf : Frame q q')
    (hr : q'.tableReads = q.tableReads) : Pushed env q q' none :=
  ⟨ha, hf.settings, Nat.le_of_eq hf.nextId.symm, hf.posted, hr⟩

theorem Pushed.of_drawn (h : Drawn q q') : Pushed env q q' none :=
  ⟨h.agenda, h.settings, by simp [h.nextId], h.posted, h.reads⟩

/-- A fresh message is inserted after its identity was drawn. -/
theorem Pushed.insert {q1 : SMq} {s : SmState} (hd : Drawn q q1)
    (he : m.entry = ⟨q.nextId, .noState, 0⟩)
    (h : q1.insertNewMessageIn lib m s env.clock.insert = .ok q') :
    Pushed env q q' (some s) := by
  obtain ⟨hid, hst, -⟩ := Agenda.Entry.mk.inj he
  obtain ⟨ha, hset, hnext, hpost⟩ := insertNewMessageIn_ok h
  refine ⟨?_, hset.trans hd.settings, ?_, ?_, ?_⟩
  · rw [ha, hd.agenda, hd.settings, hid, hst]
    rfl
  · rw [hnext, hd.nextId]
    exact Nat.le_refl _
  · rw [hpost, hd.posted]
    rfl
  · have hreads : q'.tableReads = (q1.readTable m.state s).tableReads := insertNewMessageAt_reads h
    rw [hreads, hst]
    unfold readTable
    rw [hd.settings, hd.reads]
    rfl

theorem originateSm_ok {sender recipient text : CString} {s : SmState} {ok : Bool}
    (h : originateSm lib env q sender recipient text s = .ok (ok, q')) :
    Pushed env q q' (originateOrigin lib env q sender recipient text s) ∧
      ok = (originateOrigin lib env q sender recipient text s).isSome := by
  unfold originateSm at h
  unfold originateOrigin
  obtain ⟨⟨q1, code, m⟩, h1, h⟩ := Except.bind_eq_ok.1 h
  obtain ⟨hd, he⟩ := originateMsg_ok h1
  dsimp only at h
  rw [h1]
  by_cases hc : code = 0
  · rw [if_pos hc] at h
    obtain ⟨q2, h2, h⟩ := Except.bind_eq_ok.1 h
    cases h
    simp only [hc, if_true]
    exact ⟨.insert hd he.1 h2, rfl⟩
  · rw [if_neg hc] at h
    cases h
    simp only [hc, if_false]
    exact ⟨.of_drawn hd, rfl⟩

theorem bounceMessage_ok {errstr : CString} {next : SmState}
    (h : q.bounceMessage lib env m errstr = .ok (next, q')) :
    Pushed env q q' (q.bounceOrigin lib env m errstr) ∧
      next = bouncedState (q.bounceOrigin lib env m errstr) := by
  unfold bounceMessage at h
  unfold bounceOrigin
  obtain ⟨text, h1, h⟩ := Except.bind_eq_ok.1 h
  rw [h1]
  rcases text with _ | ⟨bounceto, errmsg⟩
  · cases h
    exact ⟨.none_of_frame rfl (.refl _) rfl, rfl⟩
  · obtain ⟨⟨ok, q1⟩, h2, h⟩ := Except.bind_eq_ok.1 h
    cases h
    obtain ⟨hp, hok⟩ := originateSm_ok h2
    refine ⟨hp, ?_⟩
    rw [hok]
    rfl

theorem registerHandset_ok {next : SmState}
    (h : q.registerHandset lib env m = .ok (next, q')) :
    Pushed env q q' (q.registerOrigin lib env m) := by
  unfold registerHandset at h
  unfold registerOrigin
  obtain ⟨⟨q1, code, m1⟩, h1, h⟩ := Except.bind_eq_ok.1 h
  obtain ⟨hd, he⟩ := registerMsg_ok h1
  dsimp only at h
  rw [h1]
  by_cases hc : code = 0
  · rw [if_neg (not_not.2 hc)] at h
    obtain ⟨q2, h2, h⟩ := Except.bind_eq_ok.1 h
    cases h
    simp only [hc, if_true]
    exact .insert hd he.1 h2
  · rw [if_pos hc] at h
    cases h
    simp only [hc, if_false]
    exact .of_drawn hd

end SMq

end Smqueue

import Smqueue.Conservation
import Smqueue.Proofs.HandlerProofs

/-!
# Proofs: what a command does to the queue

Only the command to delete a message takes one out. All others leave the agenda as it was; then the
reply or the registration that a command asks for is put on the front.
-/

namespace Smqueue

variable {lib : Libs} {env : Env} {q q' : SMq} {m : ShortMsgPending} {i : MsgId}

namespace SMq

/-- Nothing happened to the agenda, except that the message `gone` was taken out. -/
structure Ran (q q' : SMq) (gone : Option MsgId) : Prop where
  agenda : q'.agenda = gone.elim q.agenda fun i => Agenda.erase i q.agenda
  frame : Frame q q'
  reads : q'.tableReads = q.tableReads

theorem Ran.refl (q : SMq) : Ran q q none := ⟨rfl, .refl q, rfl⟩

theorem Ran.nodup {gone : Option MsgId} (h : Ran q q' gone) (hd : (Agenda.ids q.agenda).Nodup) :
    (Agenda.ids q'.agenda).Nodup := by
  rw [h.agenda]
  cases gone with
  | none => exact hd
  | some i =>
    rw [Option.elim_some, Agenda.ids_erase]
    exact hd.filter _

/-! ## Commands -/

theorem countMsg_entry {cfg : Config} {c c' : QueueCounts} {x x' : ShortMsgPending}
    (h : countMsg lib cfg c x = .ok (c', x')) : x'.entry = x.entry := by
  unfold countMsg at h
  split at h
  · obtain ⟨sm, -, h⟩ := Except.bind_eq_ok.1 h
    obtain ⟨sip, -, h⟩ := Except.bind_eq_ok.1 h
    obtain ⟨uri, -, h⟩ := Except.bind_eq_ok.1 h
    obtain ⟨from?, -, h⟩ := Except.bind_eq_ok.1 h
    obtain ⟨sender, -, h⟩ := Except.bind_eq_ok.1 h
    obtain ⟨host, -, h⟩ := Except.bind_eq_ok.1 h
    obtain ⟨user, -, h⟩ := Except.bind_eq_ok.1 h
    cases h
    rfl
  · split at h <;> cases h <;> rfl

theorem countMsgs_entry {cfg : Config} {c c' : QueueCounts} {l l' : List ShortMsgPending}
    (h : countMsgs lib cfg c l = .ok (c', l')) :
    l'.map ShortMsgPending.entry = l.map ShortMsgPending.entry := by
  induction l generalizing c c' l' with
  | nil =>
    cases h
    rfl
  | cons x xs ih =>
    obtain ⟨⟨c1, x1⟩, h1, h⟩ := Except.bind_eq_ok.1 h
    obtain ⟨⟨c2, l2⟩, h2, h⟩ := Except.bind_eq_ok.1 h
    cases h
    rw [List.map_cons, List.map_cons, countMsg_entry h1, ih h2]

variable {text : CString} {r : ShortCodeResult}

theorem whiplashQuit_ok (h : q.whiplashQuit lib env text = .ok r) : Ran q r.queue none := by
  unfold whiplashQuit at h
  dsimp only at h
  split at h
  · cases h
    exact .refl q
  · split at h
    · cases h
      exact .refl q
    · split at h
      · cases h
        exact .refl q
      · split at h
        · obtain ⟨q1, h1, h⟩ := Except.bind_eq_ok.1 h
          cases h
          exact ⟨(debugDump_ok h1).1, (debugDump_ok h1).2, debugDump_reads h1⟩
        · cases h
          exact .refl q

theorem shortcodeDebugDump_ok (h : q.shortcodeDebugDump lib = .ok r) : Ran q r.queue none := by
  obtain ⟨q1, h1, h⟩ := Except.bind_eq_ok.1 h
  cases h
  exact ⟨(debugDump_ok h1).1, (debugDump_ok h1).2, debugDump_reads h1⟩

theorem shortcodeFourOneOne_ok (h : q.shortcodeFourOneOne lib env i text = .ok r) :
    Ran q r.queue none := by
  unfold shortcodeFourOneOne at h
  obtain ⟨⟨c, l⟩, h1, h⟩ := Except.bind_eq_ok.1 h
  have hl : Ran q { q with timeSortedList := l } none := ⟨countMsgs_entry h1, ⟨rfl, rfl, rfl⟩, rfl⟩
  obtain ⟨m, -, h⟩ := Except.bind_eq_ok.1 h
  obtain ⟨sip, -, h⟩ := Except.bind_eq_ok.1 h
  obtain ⟨from?, -, h⟩ := Except.bind_eq_ok.1 h
  obtain ⟨username, -, h⟩ := Except.bind_eq_ok.1 h
  dsimp only at h
  split at h
  · cases h
    exact hl
  · cases h
    exact hl

theorem shortcodeZapQueued_ok (h : q.shortcodeZapQueued env text = .ok r) :
    Ran q r.queue (q.zapped env text) := by
  unfold shortcodeZapQueued at h
  unfold zapped
  dsimp only at h ⊢
  generalize (if text.head? = some 45 then text.drop 1 else text) = tag at h ⊢
  split at h
  next hp =>
    rw [if_pos hp]
    split at h
    · cases h
    · cases h
      exact .refl q
  next hp =>
    rw [if_neg hp]
    split at h
    next hf =>
      cases h
      rw [hf]
      exact .refl q
    next sent hf =>
      cases h
      rw [hf]
      exact ⟨agenda_remove q _, remove_frame q _, rfl⟩

theorem shortcodeRegister_queue (imsi : CString) :
    (q.shortcodeRegister env imsi text).queue = q := by
  unfold shortcodeRegister
  dsimp only
  split
  · rfl
  · split
    · split <;> rfl
    · split
      · rfl
      · split <;> rfl

theorem shortcodeSmsc_ok (hd : (Agenda.ids q.agenda).Nodup) (hm : m ∈ q.timeSortedList)
    (h : q.shortcodeSmsc env m text = .ok r) : Ran q r.queue none := by
  have hstore : ∀ sm, Ran q (q.store { m with toShortMsg := sm }) none := fun sm =>
    ⟨agenda_store_same hd hm rfl, store_frame q _, rfl⟩
  unfold shortcodeSmsc at h
  split at h
  · obtain ⟨sm, -, h⟩ := Except.bind_eq_ok.1 h
    cases h
    exact hstore sm
  · obtain ⟨⟨action, sm⟩, -, h⟩ := Except.bind_eq_ok.1 h
    cases h
    exact hstore sm
  · cases h
    exact .refl q

/-- A command leaves the agenda as it is, unless it is the one to delete messages. -/
theorem runShortCode_ok {imsi : Option CString} {code : ShortCode}
    (hd : (Agenda.ids q.agenda).Nodup) (hm : m ∈ q.timeSortedList)
    (h : q.runShortCode lib env m imsi text code = .ok r) :
    ∃ gone, Ran q r.queue gone ∧
      (gone ≠ none → code = .zapQueued ∧ gone = q.zapped env text) := by
  have none_gone : Ran q r.queue none → ∃ gone, Ran q r.queue gone ∧
      (gone ≠ none → code = .zapQueued ∧ gone = q.zapped env text) :=
    fun hr => ⟨none, hr, fun hn => absurd rfl hn⟩
  cases code with
  | whiplashQuit => exact none_gone (whiplashQuit_ok h)
  | debugDump => exact none_gone (shortcodeDebugDump_ok h)
  | quickChk =>
    cases h
    exact none_gone (.refl q)
  | fourOneOne => exact none_gone (shortcodeFourOneOne_ok h)
  | zapQueued =>
    exact ⟨_, shortcodeZapQueued_ok h, fun _ => ⟨rfl, rfl⟩⟩
  | register =>
    obtain ⟨i, -, h⟩ := Except.bind_eq_ok.1 h
    cases h
    refine none_gone ?_
    rw [shortcodeRegister_queue]
    exact .refl q
  | smsc => exact none_gone (shortcodeSmsc_ok hd hm h)

/-! ## What is done with the result -/

theorem finishShortCode_ok {next : Option SmState} (hd : (Agenda.ids r.queue.agenda).Nodup)
    (h : finishShortCode lib env i r = .ok (next, q')) :
    Pushed env r.queue q' (resultOrigin lib env i r) := by
  unfold finishShortCode at h
  unfold resultOrigin
  cases ha : r.action <;> rw [ha] at h <;> dsimp only at h ⊢
  case reply =>
    obtain ⟨m, h1, h⟩ := Except.bind_eq_ok.1 h
    obtain ⟨⟨shortcode, imsi⟩, h2, h⟩ := Except.bind_eq_ok.1 h
    obtain ⟨⟨ok, q1⟩, h3, h⟩ := Except.bind_eq_ok.1 h
    cases h
    rw [msg_ok h1]
    dsimp only
    rw [h2]
    exact (originateSm_ok h3).1
  case register =>
    obtain ⟨m, h1, h⟩ := Except.bind_eq_ok.1 h
    obtain ⟨⟨st, q1⟩, h2, h⟩ := Except.bind_eq_ok.1 h
    cases h
    rw [msg_ok h1]
    exact registerHandset_ok h2
  case retryAfterDelay =>
    obtain ⟨m, h1, h⟩ := Except.bind_eq_ok.1 h
    cases h
    obtain ⟨hm, -⟩ := find_some (msg_ok h1)
    exact .none_of_frame (agenda_store_same hd hm rfl) (store_frame _ _) rfl
  all_goals
    cases h
    exact .none_of_frame rfl ⟨rfl, rfl, rfl⟩ rfl

theorem callShortCode_ok {res : Option ShortCodeResult} (hd : (Agenda.ids q.agenda).Nodup)
    (hm : m ∈ q.timeSortedList) (h : q.callShortCode lib env m = .ok res) :
    ∀ r ∈ res, ∃ gone, Ran q r.queue gone ∧ ∀ i ∈ gone, q.Zaps env m i := by
  unfold callShortCode at h
  obtain ⟨sip, h1, h⟩ := Except.bind_eq_ok.1 h
  obtain ⟨uri, h2, h⟩ := Except.bind_eq_ok.1 h
  obtain ⟨number, h3, h⟩ := Except.bind_eq_ok.1 h
  split at h
  next =>
    cases h
    simp
  next code hcode =>
    obtain ⟨bods, hbods, h⟩ := Except.bind_eq_ok.1 h
    obtain ⟨imsi, -, h⟩ := Except.bind_eq_ok.1 h
    obtain ⟨r, h4, h⟩ := Except.bind_eq_ok.1 h
    cases h
    rintro r' ⟨⟩
    obtain ⟨gone, hr, hz⟩ := runShortCode_ok hd hm h4
    refine ⟨gone, hr, ?_⟩
    rintro i ⟨⟩
    obtain ⟨hcode', hi⟩ := hz (Option.some_ne_none i)
    refine ⟨?_, bods, hbods, hi.symm⟩
    unfold IsZap
    rw [deref_eq_ok h1, Option.bind_some, deref_eq_ok h2, Option.bind_some, deref_eq_ok h3,
      Option.bind_some, hcode, hcode']

/-- `handle_short_code` runs the command and then inserts at most one message. -/
theorem handleShortCode_ok {next : Option SmState} (hd : (Agenda.ids q.agenda).Nodup)
    (hm : m ∈ q.timeSortedList) (h : q.handleShortCode lib env m = .ok (next, q')) :
    (∃ gone, Ran q (q.afterShortCode lib env m).1 gone ∧ ∀ i ∈ gone, q.Zaps env m i) ∧
    Pushed env (q.afterShortCode lib env m).1 q' (q.afterShortCode lib env m).2 := by
  unfold handleShortCode at h
  unfold afterShortCode
  obtain ⟨res, h1, h⟩ := Except.bind_eq_ok.1 h
  rw [h1]
  cases res with
  | none =>
    cases h
    exact ⟨⟨none, .refl q, by rintro i ⟨⟩⟩, .none_of_frame rfl (.refl q) rfl⟩
  | some r =>
    obtain ⟨gone, hr, hz⟩ := callShortCode_ok hd hm h1 r rfl
    exact ⟨⟨gone, hr, hz⟩, finishShortCode_ok (hr.nodup hd) h⟩

end SMq

end Smqueue

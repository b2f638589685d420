import Smqueue.Finished
import Smqueue.Proofs.AttemptsProofs

/-!
# Proofs: finished messages

A finished message changes only through a response that is matched with it, apart from its removal.
-/

namespace Smqueue

open Relation (ReflTransGen)

variable {lib : Libs} {env : Env} {d d' : Daemon} {q q' : SMq} {h m m' : ShortMsgPending}
  {i : MsgId}

namespace ShortMsgPending

theorem Unaltered.refl (m : ShortMsgPending) : Unaltered lib m m := ⟨_, .refl, rfl⟩

theorem Unaltered.trans {m1 m2 : ShortMsgPending} (h1 : Unaltered lib m m1)
    (h2 : Unaltered lib m1 m2) : Unaltered lib m m2 := by
  obtain ⟨sm1, hr1, rfl⟩ := h1
  obtain ⟨sm2, hr2, rfl⟩ := h2
  exact ⟨sm2, hr1.trans hr2, rfl⟩

theorem Unaltered.state (h : Unaltered lib m m') : m'.state = m.state := by
  obtain ⟨sm, -, rfl⟩ := h
  rfl

end ShortMsgPending

open ShortMsgPending (Unaltered)

theorem Edited.unaltered (h : Edited (ShortMsg.Refresh lib) m m') : Unaltered lib m m' := by
  rcases h with rfl | ⟨sm, hr, rfl⟩
  · exact .refl m'
  · exact ⟨sm, .single hr, rfl⟩

namespace SMq

/-- No response reaches the message, if it is finished. -/
def Undisturbed (q : SMq) (h : ShortMsgPending) (i : MsgId) : Prop :=
  ∀ response, q.Answers h response i → response.statusCode.tdiv 100 ∉ [1, 3, 4, 5, 6]

/-- A finished message that the pass with the head `h` does not work on. -/
def Rests (lib : Libs) (q : SMq) (h m m' : ShortMsgPending) : Prop :=
  m'.id = m.id ∧ (m.id ≠ h.id → m.state.isTerminal = true → q.Undisturbed h m.id →
    Unaltered lib m m')

theorem Change.rests (hc : q.Change lib env h m m') : q.Rests lib h m m' := by
  refine ⟨hc.same.1, fun hne hterm hu => ?_⟩
  cases hc with
  | refresh hr => exact ⟨_, .single hr, rfl⟩
  | edit heq _ => exact absurd heq hne
  | tag heq _ => exact absurd heq hne
  | move hm =>
    cases hm with
    | head heq => exact absurd heq hne
    | retimed ha hc =>
      refine absurd ?_ (hu _ ha)
      rcases hc with hc | hc | hc <;> rw [hc] <;> decide
    | bounced ha hc hs =>
      refine absurd ?_ (hu _ ha)
      rw [hc]
      decide
    | redirected ha hc =>
      refine absurd ?_ (hu _ ha)
      rcases hc with hc | hc <;> rw [hc] <;> decide
    | restarted hreg =>
      rw [not_terminal_of_underRegistration hreg] at hterm
      cases hterm

theorem Rests.trans {m1 m2 : ShortMsgPending} (h1 : q.Rests lib h m m1)
    (h2 : q.Rests lib h m1 m2) : q.Rests lib h m m2 := by
  refine ⟨h2.1.trans h1.1, fun hne hterm hu => ?_⟩
  have hm1 := h1.2 hne hterm hu
  rw [← h1.1] at hne hu
  rw [← hm1.state] at hterm
  exact hm1.trans (h2.2 hne hterm hu)

theorem Outcome.rests (ho : Outcome lib env q h q') (hd : q.Distinct) (hh : h ∈ q.timeSortedList)
    (hm' : m' ∈ q'.timeSortedList) (hne : m'.id ≠ h.id) :
    (∃ m ∈ q.timeSortedList, q.Rests lib h m m') ∨ m'.id = q.nextId := by
  have of_evolves : ∀ {l : List ShortMsgPending}, Population.Evolves (q.Change lib env h)
      (q.Incoming lib env h) l q'.timeSortedList →
      (∃ m ∈ l, q.Rests lib h m m') ∨ m'.id = q.nextId := by
    intro l he
    obtain ⟨m, hfrom, hr⟩ := he.related (r := q.Rests lib h)
      (fun x => ⟨rfl, fun _ _ _ => .refl x⟩) (fun _ _ _ => Rests.trans)
      (fun _ _ => Change.rests) hm'
    rcases hfrom with hl | hin
    · exact .inl ⟨m, hl, hr⟩
    · exact .inr (hr.1.trans (hin.isNew hd hh).1)
  cases ho with
  | quiet he => exact of_evolves he.messages
  | attempt ha hl hdel =>
    rcases of_evolves hl with ⟨m, hm, hr⟩ | hnew
    · rcases mem_attempted hm with rfl | ⟨hm, -⟩
      · exact absurd hr.1 hne
      · exact .inl ⟨m, hm, hr⟩
    · exact .inr hnew

/-- A finished message that no response disturbs is taken out, or it is as it was. -/
theorem processTimeout_unaltered (hd : q.Distinct) (hq : q.processTimeout lib env = .ok q')
    (hm : m ∈ q.timeSortedList) (hs : m.state.isTerminal = true)
    (hg : ∀ h ∈ q.timeSortedList.head?, h.nextActionTime ≤ env.clock.entry →
      ∀ response sent, ¬ q.Disturbs h response sent)
    (hm' : m' ∈ q'.timeSortedList) (hid : m'.id = m.id) : Unaltered lib m m' := by
  rcases processTimeout_outcome hd hq with heq | ⟨h, hhead, hdue, hrun, ho⟩
  · rw [heq] at hm'
    rw [eq_of_id hd hm' hm hid]
    exact .refl m
  · have hh := head_mem hhead
    by_cases hhid : m.id = h.id
    · obtain rfl := eq_of_id hd hm hh hhid
      rw [dispatch_terminal hs hrun] at hm'
      exact absurd hid (of_decide_eq_true (List.mem_filter.1 hm').2)
    · rcases ho.rests hd hh hm' (by rw [hid]; exact hhid) with ⟨x, hx, hr⟩ | hnew
      · obtain rfl : x = m := eq_of_id hd hx hm (hr.1.symm.trans hid)
        exact hr.2 hhid hs fun response ha hc => hg h hhead hdue response x ⟨ha, hx, hs, hc⟩
      · exact absurd (hnew.symm.trans hid) (ne_of_nextId_le hd hm (Nat.le_refl _))

end SMq

namespace Daemon

/-- The message `m` is not anywhere, or in the queue as it was. -/
structure Settled (lib : Libs) (m : ShortMsgPending) (d : Daemon) : Prop extends Sound d where
  born : m.id < d.queue.nextId
  not_held : m.id ∉ d.held
  unaltered : ∀ m' ∈ d.queue.timeSortedList, m'.id = m.id → Unaltered lib m m'

theorem Settled.edited (h : d.Settled lib m) (he : OnlyEdited (ShortMsg.Refresh lib) d d')
    (hsound : d'.Sound) : d'.Settled lib m := by
  refine { hsound with born := ?_, not_held := fun hheld => ?_, unaltered := fun x hx hid => ?_ }
  · rw [he.nextId]
    exact h.born
  · obtain ⟨x, hx, hid⟩ := Option.mem_map.1 hheld
    obtain ⟨y, hy, hxy⟩ := he.smpl x hx
    refine h.not_held ?_
    unfold held
    rw [hy, ← hid, hxy.id]
    rfl
  · obtain ⟨y, hy, hxy⟩ := he.queue x hx
    exact (h.unaltered y hy (hxy.id.symm.trans hid)).trans hxy.unaltered

theorem Settled.next {a : DaemonAct} (h : d.Settled lib m) (hs : m.state.isTerminal = true)
    (hg : d.LeavesFinished a) (hn : d.next lib a = some d') : d'.Settled lib m := by
  have hsound : d'.Sound := h.toSound.next hn
  cases next_happened h.toSound hn with
  | passed ha hq hr =>
    subst ha
    have hpass := passed h.distinct hq
    refine { hsound with
      born := Nat.lt_of_lt_of_le h.born hpass.nextId, not_held := ?_, unaltered := ?_ }
    · unfold held
      rw [hr]
      exact h.not_held
    · intro m' hm' hid
      rcases hpass.fresh m.id (Agenda.mem_ids.2 ⟨_, SMq.mem_agenda hm', hid⟩) with hold | hnew
      · obtain ⟨e, he, heid⟩ := Agenda.mem_ids.1 hold
        obtain ⟨x, hx, rfl⟩ := List.mem_map.1 he
        have hxm := h.unaltered x hx heid
        have hxs : x.state.isTerminal = true := by rw [hxm.state, hs]
        exact hxm.trans (SMq.processTimeout_unaltered h.distinct hq hx hxs hg hm'
          (hid.trans heid.symm))
      · exact absurd hnew (Nat.ne_of_lt h.born)
  | @arrived env buffer srcaddr errcode smp ha hv hq hr =>
    refine { hsound with born := ?_, not_held := fun hheld => ?_, unaltered := ?_ }
    · rw [hq]
      exact Nat.lt_succ_of_lt h.born
    · obtain ⟨x, hx, hid⟩ := Option.mem_map.1 hheld
      rw [(arrived_new hv hr hx).1] at hid
      exact absurd hid.symm (Nat.ne_of_lt h.born)
    · rw [hq]
      exact h.unaltered
  | @spliced now smp ha hr hq hr' =>
    refine { hsound with born := ?_, not_held := fun hheld => ?_, unaltered := fun x hx hid => ?_ }
    · rw [hq]
      exact h.born
    · unfold held at hheld
      rw [hr'] at hheld
      cases hheld
    · rw [hq] at hx
      rcases List.mem_cons.1 hx with rfl | hx
      · refine absurd ?_ h.not_held
        unfold held
        rw [hr]
        exact congrArg some hid
      · exact h.unaltered x hx hid
  | parsed he => exact h.edited he.refresh_of_parses hsound
  | dumped _ he => exact h.edited he.refresh_of_prints hsound

theorem Sound.settled (h : d.Sound) (hm : m ∈ d.queue.timeSortedList) : d.Settled lib m := by
  have hid := Agenda.mem_ids.2 ⟨_, SMq.mem_agenda hm, rfl⟩
  refine { h with
    born := h.distinct.lt_nextId _ hid, not_held := fun hheld => ?_, unaltered := ?_ }
  · exact (h.held_fresh _ hheld).2 hid
  · intro m' hm' heq
    rw [SMq.eq_of_id h.distinct hm' hm heq]
    exact .refl m

theorem reachable_sound (h : Runs.Reachable Start (Step lib) d) : d.Sound :=
  h.invariant Sound (fun _ h0 => h0.sound) fun _ _ _ hi _ hn => hi.next hn

/-- A finished message is as it was until it is taken out, and is not bounced. -/
theorem finished_unaltered (lib : Libs) {d0 : Daemon} (h0 : Runs.Reachable Start (Step lib) d0)
    (m : ShortMsgPending) (hm : m ∈ d0.queue.timeSortedList) (hs : m.state.isTerminal = true)
    {d : Daemon} (h : Runs.GuardedRun (· = d0) (Step lib) LeavesFinished d) :
    (∀ m' ∈ d.queue.timeSortedList, m'.id = m.id → Unaltered lib m m') ∧
      ∀ env, d.LeavesFinished (.pass env) → ∀ h ∈ d.queue.timeSortedList.head?,
        h.nextActionTime ≤ env.clock.entry → ∀ i, d.queue.Bounces lib env h i → i ≠ m.id := by
  have hset : d.Settled lib m := h.invariant (Settled lib m)
    (fun d1 (heq : d1 = d0) => heq ▸ (reachable_sound h0).settled hm)
    fun _ _ _ hi hg hn => hi.next hs hg hn
  refine ⟨hset.unaltered, fun env hg h hhead hdue i hb hid => ?_⟩
  cases hb with
  | notLocated hst _ =>
    have hstate := (hset.unaltered h (SMq.head_mem hhead) hid).state
    rw [← hstate, hst] at hs
    cases hs
  | answered ha hc hb hu =>
    have ha' := ha
    obtain ⟨-, -, -, sent, hsel, hsid⟩ := ha'
    have hmem := SMq.selected_mem hsel
    have hstate := (hset.unaltered sent hmem (hsid.trans hid)).state
    rw [← hsid] at ha
    refine hg h hhead hdue _ sent ⟨ha, hmem, by rw [hstate, hs], ?_⟩
    rw [hc]
    decide

/-! ## A redirection of a finished message -/

/-- A redirection that was received, with the tag of the message it is for. -/
def redirection (tag : CString) : ShortMsgPending :=
  { queuedMsg 1 .initialState 0 (sampleResponse 302 (str "Moved Temporarily")) with
    qtag := some tag
    qtaghash := ShortMsgPending.taghashOf tag }

/-- A message that was delivered, with another tag. -/
def deliveredOther (state : SmState) (due : Time) : ShortMsgPending :=
  { queuedMsg 2 state due sampleRequest with
    qtag := some (str "2--7")
    qtaghash := ShortMsgPending.taghashOf (str "2--7") }

/-- The threads with the given messages, the first of which is due. -/
def unpackableDaemon (l : List ShortMsgPending) (reads : List TableRead) : Daemon :=
  { deliveryDaemon with
    queue := { deliveryDaemon.queue with timeSortedList := l, nextId := 3, tableReads := reads } }

/-- A message that cannot be packed. -/
def unpackableMsg : ShortMsgPending :=
  { queuedMsg 0 .requestMsgDelivery 0 sampleRequest with
    toShortMsg := { parsedMsg sampleRequest with contentType := .unsupportedContent } }

/-- The message after the first pass. -/
def unpackedMsg : ShortMsgPending :=
  { unpackableMsg with state := .noState, nextActionTime := 1, retries := 1 }

/-- The threads after the first pass, with a redirection of the message with the given tag. -/
def unpackedDaemon (tag : CString) : Daemon :=
  unpackableDaemon [redirection tag, unpackedMsg, deliveredOther .askedForMsgDelivery 70000]
    [.entry .requestMsgDelivery .noState]

theorem unpackedDaemon_reachable (tag : CString) :
    Runs.Reachable Start (Step (sampleLibs [] [])) (unpackedDaemon tag) := by
  have h0 : Runs.Reachable Start (Step (sampleLibs [] [])) (unpackableDaemon
      [unpackableMsg, redirection tag, deliveredOther .askedForMsgDelivery 70000] []) := by
    have hids : ([0, 1, 2] : List MsgId).Nodup := by decide
    have hlt : ∀ i ∈ ([0, 1, 2] : List MsgId), i < 3 := by decide
    exact .start
      { distinct := ⟨hids, hlt⟩
        reader := rfl
        writer := rfl
        events := fun _ he => (by cases he)
        fits := Nat.zero_le _ }
  have h1 := h0.next (a := DaemonAct.receive) trivial rfl
  have h2 := h1.next (a := DaemonAct.pass (sampleEnv 1)) trivial rfl
  have h3 := h2.next (a := DaemonAct.unlock) trivial rfl
  exact h3.next (a := DaemonAct.tidy none) trivial rfl

/-- The redirection of another message leaves the finished one alone. -/
theorem leavesFinished_other (env : Env) :
    LeavesFinished (unpackedDaemon (str "2--7")) (.pass env) := by
  intro h hh _ response sent hd
  cases hh
  obtain ⟨-, -, -, x, hx, hid⟩ := hd.answers
  have hsel : (unpackedDaemon (str "2--7")).queue.selected (redirection (str "2--7")) =
      some (deliveredOther .askedForMsgDelivery 70000) := rfl
  obtain rfl := Option.some.inj (hsel.symm.trans hx)
  have hmem := hd.mem
  have hterm := hd.terminal
  simp only [unpackedDaemon, unpackableDaemon, List.mem_cons, List.not_mem_nil, or_false] at hmem
  rcases hmem with rfl | rfl | rfl
  · cases hid
  · cases hid
  · cases hterm

/-- The threads after the redirection of the other message. -/
def redirectedDaemon : Daemon :=
  { unpackableDaemon [unpackedMsg, deliveredOther .requestDestinationImsi 3000001]
      [.entry .askedForMsgDelivery .requestDestinationImsi, .entry .requestMsgDelivery .noState] with
    writer := .sending true 0 }

/-- The message stays finished while the other one is sent back through the lookups. -/
theorem finished_unaltered_unpacked : ∃ m' ∈ redirectedDaemon.queue.timeSortedList,
    m'.id = unpackedMsg.id ∧ Unaltered (sampleLibs [] []) unpackedMsg m' := by
  have h0 : Runs.GuardedRun (· = unpackedDaemon (str "2--7")) (Step (sampleLibs [] []))
      LeavesFinished (unpackedDaemon (str "2--7")) := .start rfl
  have h1 := h0.next (a := DaemonAct.receive) trivial rfl
  have h2 : Runs.GuardedRun (· = unpackedDaemon (str "2--7")) (Step (sampleLibs [] []))
      LeavesFinished redirectedDaemon :=
    h1.next (a := DaemonAct.pass (sampleEnv 1)) (leavesFinished_other (sampleEnv 1)) rfl
  have hm : unpackedMsg ∈ (unpackedDaemon (str "2--7")).queue.timeSortedList := by
    simp [unpackedDaemon, unpackableDaemon]
  exact ⟨_, List.mem_cons_self, rfl, (finished_unaltered (sampleLibs [] [])
    (unpackedDaemon_reachable _) unpackedMsg hm rfl h2).1 _ List.mem_cons_self rfl⟩

/-- A redirection sends a finished message back through the lookups. -/
theorem not_unaltered_redirected : ¬ ∀ (lib : Libs) (d0 : Daemon),
    Runs.Reachable Start (Step lib) d0 → ∀ m ∈ d0.queue.timeSortedList, m.state.isTerminal = true →
    ∀ d, Runs.GuardedRun (· = d0) (Step lib) (fun _ _ => True) d →
    ∀ m' ∈ d.queue.timeSortedList, m'.id = m.id → m'.state = m.state := by
  intro hall
  have h0 : Runs.GuardedRun (· = unpackedDaemon (str "1--7")) (Step (sampleLibs [] []))
      (fun _ _ => True) (unpackedDaemon (str "1--7")) := .start rfl
  have h1 := h0.next (a := DaemonAct.receive) trivial rfl
  have h2 := h1.next (a := DaemonAct.pass (sampleEnv 1)) trivial rfl
  have hm : unpackedMsg ∈ (unpackedDaemon (str "1--7")).queue.timeSortedList := by
    simp [unpackedDaemon, unpackableDaemon]
  have hstate := hall (sampleLibs [] []) _ (unpackedDaemon_reachable _) unpackedMsg hm rfl _ h2
    { unpackedMsg with state := .requestDestinationImsi, nextActionTime := 1 } ?_ rfl
  · cases hstate
  · exact List.mem_cons_self

end Daemon

end Smqueue

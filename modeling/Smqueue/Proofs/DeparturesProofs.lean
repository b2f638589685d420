import Smqueue.Departures
import Smqueue.Proofs.AttemptsProofs
import Smqueue.Proofs.TagSearchProofs

/-!
# Proofs: what comes in and what leaves

A pass takes out exactly the messages that are listed, and so does every other step. Over a run the
messages that came in are those that are still there and those that left.
-/

namespace Smqueue

open Agenda (ids)

variable {lib : Libs} {env : Env} {q q' : SMq} {m sent : ShortMsgPending} {h i : MsgId}
  {d d' : Daemon}

/-! ## Call records -/

/-- `write_cdr` follows no null pointer exactly if there is something to write. -/
theorem SMq.writeCdr_ok {sm : ShortMsg} (h : SMq.writeCdr sm = .ok ()) :
    (sm.callRecord env).isSome = true := by
  obtain ⟨sip, hsip, h⟩ := Except.bind_eq_ok.1 h
  obtain ⟨source, hsource, h⟩ := Except.bind_eq_ok.1 h
  obtain ⟨dest, hdest, -⟩ := Except.bind_eq_ok.1 h
  unfold ShortMsg.callRecord
  rw [deref_eq_ok hsip, Option.bind_eq_bind, Option.bind_some, hsource, hdest]
  rfl

namespace SMq

/-- A text message whose delivery is answered with success has a call record. -/
theorem recordOf_isSome {ok : Bool} {sm : ShortMsg}
    (hparse : sent.toShortMsg.parse lib = .ok (ok, sm))
    (hm : methodOf sm = some (str "MESSAGE")) (h : q.handleSuccess lib env sent = .ok q') :
    (recordOf lib env sent).isSome = true := by
  unfold handleSuccess at h
  rw [hparse, Except.ok_bind] at h
  have hreg : ¬ methodOf sm = some (str "REGISTER") := by
    rw [hm]
    decide
  dsimp only at h
  rw [if_neg hreg] at h
  obtain ⟨q1, -, h⟩ := Except.bind_eq_ok.1 h
  rw [if_pos hm] at h
  obtain ⟨_, hcdr, -⟩ := Except.bind_eq_ok.1 h
  unfold recordOf
  rw [hparse]
  dsimp only
  rw [if_pos hm]
  exact writeCdr_ok hcdr

/-! ## A pass -/

/-- What an effect takes out is no longer queued. -/
theorem Effect.not_mem_of_gone {keeps : Prop} {gone : List MsgId} {fresh : Option SmState}
    (hd : q.Distinct) (hh : h ∈ ids q.agenda) (he : Effect q q' h keeps gone fresh)
    (hi : i ∈ ids q.agenda) (hg : i ∈ gone) : i ∉ ids q'.agenda := by
  have hc := he.conserved hd hh
  intro hmem
  rcases List.mem_append.1 (hc.perm.mem_iff.1 hmem) with hfresh | hkept
  · exact hc.fresh_new i hfresh hi
  · obtain ⟨-, hnot⟩ := List.mem_filter.1 hkept
    exact of_decide_eq_true hnot hg

theorem acknowledges_iff (lib : Libs) (env : Env) :
    q.Acknowledges m i ↔ i ∈ (q.answered lib env m).map Prod.fst := by
  unfold Acknowledges answered selected isSuccess
  constructor
  · rintro ⟨tag, response, sent, htag, hparsed, hcode, hfind, rfl⟩
    rw [hparsed, htag, Option.any_some, if_pos (decide_eq_true hcode), Option.bind_some, hfind]
    rfl
  · intro hi
    split at hi
    next hs =>
      obtain ⟨response, hparsed, hcode⟩ := (Option.any_eq_true _ _).1 hs
      obtain ⟨⟨i', departure⟩, hsent, rfl⟩ := Option.mem_map.1 hi
      obtain ⟨sent, hsel, hpair⟩ := Option.map_eq_some_iff.1 hsent
      obtain ⟨tag, htag, hfind⟩ := Option.bind_eq_some_iff.1 hsel
      exact ⟨tag, response, sent, htag, hparsed, of_decide_eq_true hcode, hfind,
        (congrArg Prod.fst hpair).symm⟩
    next => cases hi

/-- The message that a response answers stands elsewhere in the queue. -/
theorem Acknowledges.mem (ha : q.Acknowledges m i) : i ∈ ids q.agenda ∧ i ≠ m.id := by
  obtain ⟨tag, response, sent, -, -, -, hfind, rfl⟩ := ha
  have hmem := (findQueuedMsgByTag_some hfind).1
  refine ⟨Agenda.mem_ids.2 ⟨_, mem_agenda (List.mem_of_mem_filter hmem), rfl⟩, ?_⟩
  obtain ⟨-, hne⟩ := List.mem_filter.1 hmem
  exact of_decide_eq_true hne

theorem mem_of_zapped {text : CString} (hz : q.zapped env text = some i) : i ∈ ids q.agenda := by
  unfold zapped at hz
  dsimp only at hz
  generalize (if text.head? = some 45 then text.drop 1 else text) = tag at hz
  split at hz
  · cases hz
  · obtain ⟨x, hfind, rfl⟩ := Option.map_eq_some_iff.1 hz
    exact Agenda.mem_ids.2 ⟨_, mem_agenda (findQueuedMsgByTag_some hfind).1, rfl⟩

theorem zapping_eq_some : q.zapping env m = some i ↔
    methodOf m.toShortMsg = some (str "MESSAGE") ∧ q.Zaps env m i := by
  unfold zapping Zaps
  constructor
  · intro hz
    split at hz
    next hc =>
      obtain ⟨text, htext, hz⟩ := Option.bind_eq_some_iff.1 hz
      refine ⟨hc.1, hc.2, text, ?_, hz⟩
      cases ht : m.toShortMsg.getText with
      | error e =>
        rw [ht] at htext
        cases htext
      | ok t =>
        rw [ht] at htext
        exact congrArg Except.ok (Option.some.inj htext)
    next => cases hz
  · rintro ⟨hm, hc, text, htext, hz⟩
    rw [if_pos ⟨hm, hc⟩, htext]
    exact hz

/-- The messages that may leave are among the messages that are listed. -/
theorem Removal.mem_dispatchLeaves {gone : List MsgId} (hr : Removal env q m gone) (hi : i ∈ gone) :
    i ∈ (q.dispatchLeaves lib env m).map Prod.fst := by
  unfold dispatchLeaves
  cases hr with
  | nothing => cases hi
  | finished hs =>
    obtain rfl := List.mem_singleton.1 hi
    rcases hs with hs | hs
    all_goals
      rw [hs]
      exact List.mem_singleton_self _
  | response hs hr =>
    obtain rfl := List.mem_singleton.1 hi
    rw [hs]
    dsimp only
    rw [if_pos hr]
    exact List.mem_cons_self ..
  | acknowledged hs hr ha =>
    rw [hs]
    dsimp only
    rw [if_pos hr, List.map_cons]
    rcases List.mem_cons.1 hi with rfl | hi
    · exact List.mem_cons_self ..
    · obtain rfl := List.mem_singleton.1 hi
      obtain ⟨x, hx, hxi⟩ := Option.mem_map.1 ((acknowledges_iff lib env).1 ha)
      exact List.mem_cons_of_mem _ (List.mem_map.2 ⟨x, Option.mem_toList.2 hx, hxi⟩)
  | zapped hs hr hm hz =>
    obtain rfl := List.mem_singleton.1 hi
    rw [hs]
    dsimp only
    rw [if_neg hr, zapping_eq_some.2 ⟨hm, hz⟩]
    exact List.mem_singleton_self _

/-- What is listed for a pass with the head `m`, one case for each way to leave. -/
inductive Leaving (lib : Libs) (env : Env) (q : SMq) (m : ShortMsgPending) : List MsgId → Prop
  | nothing : Leaving lib env q m []
  | finished (hs : m.state = .noState ∨ m.state = .deleteMeState) : Leaving lib env q m [m.id]
  | handled (hs : m.state = .initialState) (hr : respondsTo m.toShortMsg)
      (hn : ∀ i, ¬ q.Acknowledges m i) : Leaving lib env q m [m.id]
  | answered {i : MsgId} (hs : m.state = .initialState) (hr : respondsTo m.toShortMsg)
      (ha : q.Acknowledges m i) : Leaving lib env q m [m.id, i]
  | zapped {i : MsgId} (hs : m.state = .initialState) (hr : ¬ respondsTo m.toShortMsg)
      (hz : q.zapping env m = some i) : Leaving lib env q m [i]

theorem dispatchLeaves_leaving (lib : Libs) (env : Env) (q : SMq) (m : ShortMsgPending) :
    Leaving lib env q m ((q.dispatchLeaves lib env m).map Prod.fst) := by
  unfold dispatchLeaves
  cases hs : m.state
  case noState => exact .finished (.inl hs)
  case deleteMeState => exact .finished (.inr hs)
  case initialState =>
    dsimp only
    by_cases hr : respondsTo m.toShortMsg
    · rw [if_pos hr, List.map_cons]
      cases ha : q.answered lib env m with
      | none =>
        refine .handled hs hr fun i hi => ?_
        have hmem := (acknowledges_iff lib env).1 hi
        rw [ha] at hmem
        cases hmem
      | some x =>
        refine .answered hs hr ((acknowledges_iff lib env).2 ?_)
        exact Option.mem_map_of_mem Prod.fst ha
    · rw [if_neg hr]
      cases hz : q.zapping env m with
      | none => exact .nothing
      | some i => exact .zapped hs hr hz
  all_goals exact .nothing

variable {gone : List MsgId}

theorem Leaving.nodup (hl : Leaving lib env q m gone) : gone.Nodup := by
  cases hl with
  | nothing => exact List.nodup_nil
  | answered hs hr ha =>
    exact List.nodup_cons.2 ⟨fun hi => ha.mem.2 (List.mem_singleton.1 hi).symm,
      List.nodup_singleton _⟩
  | _ => exact List.nodup_singleton _

theorem Leaving.mem (hm : m ∈ q.timeSortedList) (hl : Leaving lib env q m gone) :
    ∀ i ∈ gone, i ∈ ids q.agenda := by
  have hhead : m.id ∈ ids q.agenda := Agenda.mem_ids.2 ⟨_, mem_agenda hm, rfl⟩
  cases hl with
  | nothing => exact fun i hi => absurd hi List.not_mem_nil
  | finished hs => exact List.forall_mem_singleton.2 hhead
  | handled hs hr hn => exact List.forall_mem_singleton.2 hhead
  | answered hs hr ha => exact List.forall_mem_cons.2 ⟨hhead, List.forall_mem_singleton.2 ha.mem.1⟩
  | zapped hs hr hz =>
    obtain ⟨-, -, text, -, hzapped⟩ := zapping_eq_some.1 hz
    exact List.forall_mem_singleton.2 (mem_of_zapped hzapped)

/-- The command to delete a queued message deletes it. -/
theorem afterShortCode_zapping {next : Option SmState} (hz : q.zapping env m = some i)
    (h : q.handleShortCode lib env m = .ok (next, q')) :
    Ran q (q.afterShortCode lib env m).1 (some i) := by
  obtain ⟨-, hzap, text, htext, hzapped⟩ := zapping_eq_some.1 hz
  obtain ⟨res, hcall, -⟩ := Except.bind_eq_ok.1 h
  unfold afterShortCode
  rw [hcall]
  unfold callShortCode at hcall
  obtain ⟨sip, hsip, hcall⟩ := Except.bind_eq_ok.1 hcall
  obtain ⟨uri, huri, hcall⟩ := Except.bind_eq_ok.1 hcall
  obtain ⟨number, hnumber, hcall⟩ := Except.bind_eq_ok.1 hcall
  unfold IsZap at hzap
  rw [deref_eq_ok hsip, Option.bind_some, deref_eq_ok huri, Option.bind_some,
    deref_eq_ok hnumber, Option.bind_some] at hzap
  rw [hzap] at hcall
  obtain ⟨bods, hbods, hcall⟩ := Except.bind_eq_ok.1 hcall
  obtain ⟨imsi, -, hcall⟩ := Except.bind_eq_ok.1 hcall
  obtain ⟨r, hrun, hcall⟩ := Except.bind_eq_ok.1 hcall
  obtain rfl := Except.pure_eq_ok.1 hcall
  obtain rfl : text = bods := Except.ok.inj (htext.symm.trans hbods)
  rw [← hzapped]
  exact shortcodeZapQueued_ok hrun

theorem dispatch_initial (hs : m.state = .initialState) :
    q.dispatch lib env m = q.processInitial lib env m := by
  unfold dispatch
  rw [hs]

/-- The pass for a response handles it. -/
theorem processInitial_response (hr : respondsTo m.toShortMsg)
    (h : q.processInitial lib env m = .ok q') : q.handleResponse lib env m = .ok q' := by
  unfold processInitial at h
  obtain ⟨sip, hsip, h⟩ := Except.bind_eq_ok.1 h
  have hreq : ¬ sip.isRequest = true := by
    unfold respondsTo at hr
    rw [deref_eq_ok hsip] at hr
    simpa [SipMessage.isRequest] using hr
  rw [if_neg hreq] at h
  exact h

/-- The pass for a message runs the command that it is for. -/
theorem processInitial_command (hr : ¬ respondsTo m.toShortMsg)
    (hm : methodOf m.toShortMsg = some (str "MESSAGE"))
    (h : q.processInitial lib env m = .ok q') :
    ∃ next q2, q.handleShortCode lib env m = .ok (next, q2) ∧
      q2.setState m.id (next.getD .requestFromAddressLookup) env.clock.final = .ok q' := by
  unfold processInitial at h
  obtain ⟨sip, hsip, h⟩ := Except.bind_eq_ok.1 h
  have hreq : sip.isRequest = true := by
    unfold respondsTo at hr
    rw [deref_eq_ok hsip] at hr
    simpa [SipMessage.isRequest] using hr
  rw [if_pos hreq] at h
  obtain ⟨eq, heq, h⟩ := Except.bind_eq_ok.1 h
  obtain ⟨method, hmethod, heq⟩ := Except.bind_eq_ok.1 heq
  have hmsg : method = str "MESSAGE" := by
    unfold methodOf at hm
    rw [deref_eq_ok hsip, Option.bind_some, deref_eq_ok hmethod] at hm
    exact Option.some.inj hm
  obtain rfl := Except.pure_eq_ok.1 heq
  rw [if_neg (by simp [hmsg])] at h
  obtain ⟨⟨next, q2⟩, hcode, h⟩ := Except.bind_eq_ok.1 h
  exact ⟨next, q2, hcode, h⟩

/-- What is listed for a pass is no longer queued behind it. -/
theorem Leaving.not_mem (hd : q.Distinct) (hm : m ∈ q.timeSortedList)
    (h : q.dispatch lib env m = .ok q') (hl : Leaving lib env q m gone) :
    ∀ i ∈ gone, i ∉ ids q'.agenda := by
  have hh : m.id ∈ ids q.agenda := Agenda.mem_ids.2 ⟨_, mem_agenda hm, rfl⟩
  have hhead : q.handleResponse lib env m = .ok q' → m.id ∉ ids q'.agenda := by
    intro hq
    obtain ⟨gone, he, -⟩ := handleResponse_ok hd hm hq
    exact he.not_mem_of_gone hd hh hh (List.mem_cons_self ..)
  cases hl with
  | nothing => exact fun i hi => absurd hi List.not_mem_nil
  | finished hs =>
    have hterminal : m.state.isTerminal = true := by rcases hs with hs | hs <;> rw [hs] <;> rfl
    obtain rfl := dispatch_terminal hterminal h
    refine List.forall_mem_singleton.2 ?_
    rw [agenda_remove, Agenda.ids_erase]
    simp
  | handled hs hr hn =>
    rw [dispatch_initial hs] at h
    exact List.forall_mem_singleton.2 (hhead (processInitial_response hr h))
  | answered hs hr ha =>
    rw [dispatch_initial hs] at h
    have hq := processInitial_response hr h
    refine List.forall_mem_cons.2 ⟨hhead hq, List.forall_mem_singleton.2 ?_⟩
    obtain ⟨tag, response, sent, htag, hparsed, hcode, hfind, rfl⟩ := ha
    refine handleResponse_success hd ?_ ?_ hq
    · unfold selected
      rw [htag]
      exact hfind
    · unfold isSuccess
      rw [hparsed]
      exact decide_eq_true hcode
  | @zapped i hs hr hz =>
    rw [dispatch_initial hs] at h
    obtain ⟨next, q2, hcode, hset⟩ :=
      processInitial_command hr (zapping_eq_some.1 hz).1 h
    have he := Effect.requeued hd hh (.refl q m.id) (afterShortCode_zapping hz hcode)
      (handleShortCode_ok hd.nodup hm hcode).2 hset
    refine List.forall_mem_singleton.2 (he.not_mem_of_gone hd hh ?_ (List.mem_singleton_self _))
    obtain ⟨-, -, text, -, hzapped⟩ := zapping_eq_some.1 hz
    exact mem_of_zapped hzapped

/-- A pass whose head is due. -/
theorem dispatch_leaves {fresh : List MsgId} (hd : q.Distinct) (hm : m ∈ q.timeSortedList)
    (h : q.dispatch lib env m = .ok q')
    (hfresh : ((q.dispatchOrigin lib env m).map fun _ => q.nextId).toList = fresh) :
    (ids q'.agenda ++ (q.dispatchLeaves lib env m).map Prod.fst).Perm (ids q.agenda ++ fresh) := by
  have hh : m.id ∈ ids q.agenda := Agenda.mem_ids.2 ⟨_, mem_agenda hm, rfl⟩
  obtain ⟨gone, he, hr⟩ := dispatch_ok hd hm h
  have hl := dispatchLeaves_leaving lib env q m
  have hc := he.conserved hd hh
  rw [hfresh] at hc
  -- the list is what was taken out
  have hgone : ∀ i, i ∈ gone ↔ i ∈ (q.dispatchLeaves lib env m).map Prod.fst := by
    refine fun i => ⟨hr.mem_dispatchLeaves, fun hi => ?_⟩
    by_contra hnot
    refine hl.not_mem hd hm h i hi (hc.perm.mem_iff.2 (List.mem_append_right _ ?_))
    exact List.mem_filter.2 ⟨hl.mem hm i hi, decide_eq_true hnot⟩
  have hout : ((ids q.agenda).filter (· ∈ gone)).Perm ((q.dispatchLeaves lib env m).map Prod.fst) := by
    refine (List.perm_ext_iff_of_nodup (hd.nodup.filter _) hl.nodup).2 fun i => ?_
    rw [List.mem_filter, decide_eq_true_iff, hgone]
    exact ⟨And.right, fun hi => ⟨hl.mem hm i hi, hi⟩⟩
  have hsplit : ((ids q.agenda).filter (· ∉ gone) ++ (ids q.agenda).filter (· ∈ gone)).Perm
      (ids q.agenda) := by
    have hnot : ∀ i ∈ ids q.agenda, decide (i ∈ gone) = !decide (i ∉ gone) := by simp
    rw [List.filter_congr hnot]
    exact List.filter_append_perm _ _
  have hin : (ids q'.agenda ++ (q.dispatchLeaves lib env m).map Prod.fst).Perm
      (fresh ++ ((ids q.agenda).filter (· ∉ gone) ++ (ids q.agenda).filter (· ∈ gone))) := by
    rw [← List.append_assoc]
    exact hc.perm.append hout.symm
  exact hin.trans ((hsplit.append_left fresh).trans List.perm_append_comm)

/-- What is queued behind a pass, with what left, is what was queued before it, with what came in. -/
theorem processTimeout_balance (hd : q.Distinct) (h : q.processTimeout lib env = .ok q') :
    (ids q'.agenda ++ (q.leaves lib env).map Prod.fst).Perm
      (ids q.agenda ++ ((q.passOrigin lib env).map fun _ => q.nextId).toList) := by
  unfold processTimeout at h
  unfold leaves passOrigin
  cases hl : q.timeSortedList with
  | nil =>
    rw [hl] at h
    cases h
    exact .refl _
  | cons m rest =>
    rw [hl] at h
    dsimp only [List.head?_cons, Option.bind_some] at h ⊢
    by_cases hdue : m.nextActionTime > env.clock.entry
    · rw [if_pos hdue] at h
      cases h
      rw [if_pos hdue, if_pos hdue]
      exact .refl _
    · rw [if_neg hdue] at h
      rw [if_neg hdue, if_neg hdue]
      exact dispatch_leaves hd (hl ▸ List.mem_cons_self) h rfl

end SMq

/-! ## The other steps -/

namespace Daemon

theorem mem_alive : i ∈ d.alive ↔ d.Alive i := by
  unfold alive Alive
  rw [List.mem_append, Option.mem_toList, Option.mem_def]

theorem Sound.nodup_alive (hs : d.Sound) : d.alive.Nodup := by
  refine List.nodup_append.2 ⟨hs.distinct.nodup, ?_, ?_⟩
  · cases d.held with
    | none => exact List.nodup_nil
    | some i => exact List.nodup_singleton i
  · rintro i hi j hj rfl
    exact (hs.held_fresh i (Option.mem_toList.1 hj)).2 hi

theorem Sound.lt_of_alive (hs : d.Sound) (hi : i ∈ d.alive) : i < d.queue.nextId := by
  rcases mem_alive.1 hi with hi | hi
  · exact hs.distinct.lt_nextId i hi
  · exact (hs.held_fresh i hi).1

theorem alive_congr (hids : ids d'.queue.agenda = ids d.queue.agenda) (hheld : d'.held = d.held) :
    d'.alive = d.alive := by
  unfold alive
  rw [hids, hheld]

/-- What is there behind a step, with what left, is what was there before it, with what came in. -/
theorem Sound.next_leaves {a : DaemonAct} (hs : d.Sound) (h : d.next lib a = some d') :
    (d'.alive ++ (d.leaves lib a).map Prod.fst).Perm (d.alive ++ d.comes lib a) := by
  have same : d.leaves lib a = [] → d.comes lib a = [] →
      ids d'.queue.agenda = ids d.queue.agenda → d'.held = d.held →
      (d'.alive ++ (d.leaves lib a).map Prod.fst).Perm (d.alive ++ d.comes lib a) := by
    intro hleaves hcomes hids hheld
    rw [hleaves, hcomes, alive_congr hids hheld]
    exact .refl _
  cases a with
  | arrive env buffer srcaddr =>
    obtain ⟨hw, smp, r, hid, hr, rfl⟩ := arrive_ok h
    have hheld : d.held = none := by
      unfold held
      rw [hw]
      rfl
    have hheld' : Daemon.held
        { d with queue := { d.queue with nextId := d.queue.nextId + 1 }, reader := r } =
        some d.queue.nextId := by
      rw [← hid]
      rcases hr with rfl | ⟨errcode, rfl⟩ <;> rfl
    unfold alive
    rw [hheld, hheld']
    change (ids d.queue.agenda ++ [d.queue.nextId] ++ []).Perm
      (ids d.queue.agenda ++ [] ++ [d.queue.nextId])
    rw [List.append_nil, List.append_nil]
  | splice now =>
    obtain ⟨smp, hr, rfl⟩ := splice_ok h
    have hheld : d.held = some smp.id := by
      unfold held
      rw [hr]
      rfl
    unfold alive
    rw [hheld]
    change (smp.id :: ids d.queue.agenda ++ [] ++ []).Perm (ids d.queue.agenda ++ [smp.id] ++ [])
    rw [List.append_nil, List.append_nil, List.append_nil]
    exact (List.perm_append_singleton _ _).symm
  | dump =>
    obtain ⟨smp, q, hr, ha, hf, rfl⟩ := dump_ok h
    refine same rfl rfl (congrArg ids ha) ?_
    unfold held
    rw [hr]
    rfl
  | signal =>
    obtain ⟨-, smp, hr, rfl⟩ := signal_ok h
    refine same rfl rfl rfl ?_
    unfold held
    rw [hr]
    rfl
  | queueRespondSipAck =>
    obtain ⟨-, errcode, smp, smpl, -, hsmpl, rfl⟩ := queueRespondSipAck_ok h
    refine same rfl rfl rfl ?_
    unfold held
    rw [hsmpl]
    rfl
  | deleteList =>
    obtain rfl := deleteList_ok h
    have hleft : (d.leaves lib .deleteList).map Prod.fst = d.held.toList := by
      change (d.held.toList.map fun i => (i, Departure.refused)).map Prod.fst = d.held.toList
      rw [List.map_map]
      exact List.map_id _
    unfold alive
    rw [hleft, held_loopHead]
    change (ids d.queue.agenda ++ [] ++ d.held.toList).Perm
      (ids d.queue.agenda ++ d.held.toList ++ [])
    rw [List.append_nil, List.append_nil]
  | leave =>
    obtain ⟨hr, rfl⟩ := leave_ok h
    refine same rfl rfl rfl ?_
    unfold held
    rw [hr]
    rfl
  | receive =>
    rcases receive_ok h with ⟨-, rfl | ⟨rest, -, rfl⟩ | ⟨errcode, smp, rest, -, rfl⟩⟩
    · exact same rfl rfl rfl rfl
    · exact same rfl rfl rfl rfl
    · exact same rfl rfl rfl rfl
  | pass env =>
    obtain ⟨timedOut, q, -, hq, rfl⟩ := pass_ok h
    have hpass := SMq.processTimeout_balance hs.distinct hq
    change (ids q.agenda ++ d.held.toList ++ (d.queue.leaves lib env).map Prod.fst).Perm
      (ids d.queue.agenda ++ d.held.toList ++
        ((d.queue.passOrigin lib env).map fun _ => d.queue.nextId).toList)
    -- the temporary list of the reader stands between the two parts
    rw [List.append_assoc, List.append_assoc]
    have hswap : ∀ l l' : List MsgId, (l ++ (d.held.toList ++ l')).Perm (l ++ l' ++ d.held.toList) := by
      intro l l'
      rw [List.append_assoc]
      exact List.perm_append_comm.append_left l
    exact (hswap _ _).trans ((hpass.append_right _).trans (hswap _ _).symm)
  | sendNested =>
    obtain ⟨-, timedOut, posts, -, rfl⟩ := sendNested_ok h
    exact same rfl rfl rfl rfl
  | unlock =>
    obtain ⟨w, -, rfl⟩ := unlock_ok h
    exact same rfl rfl rfl rfl
  | respond =>
    obtain ⟨m, rfl⟩ := respond_ok h
    refine same rfl rfl ?_ (update_held m)
    exact (congrArg ids (SMq.agenda_store d.queue m)).trans (Agenda.ids_retime _ _ _)
  | tidy due =>
    obtain ⟨q, ha, -, rfl⟩ := tidy_ok h
    exact same rfl rfl (congrArg ids ha) rfl

/-! ## Runs -/

/-- What holds of an account of a run. -/
structure Balanced (d : Daemon) (came : List MsgId) (left : List (MsgId × Departure)) : Prop
    extends Sound d where
  nodup : came.Nodup
  lt_nextId : ∀ i ∈ came, i < d.queue.nextId
  perm : came.Perm (d.alive ++ left.map Prod.fst)

variable {came : List MsgId} {left : List (MsgId × Departure)}

/-- The messages that come in with a step are new, and their identities are given away. -/
theorem Sound.comes_new {a : DaemonAct} (hs : d.Sound) (h : d.next lib a = some d') :
    (d.comes lib a).Nodup ∧ ∀ i ∈ d.comes lib a, d.queue.nextId ≤ i ∧ i < d'.queue.nextId := by
  have hnone : d.comes lib a = [] → (d.comes lib a).Nodup ∧
      ∀ i ∈ d.comes lib a, d.queue.nextId ≤ i ∧ i < d'.queue.nextId := by
    intro hcomes
    rw [hcomes]
    exact ⟨List.nodup_nil, fun i hi => absurd hi List.not_mem_nil⟩
  have hone : d.queue.nextId < d'.queue.nextId → d.comes lib a = [d.queue.nextId] →
      (d.comes lib a).Nodup ∧
        ∀ i ∈ d.comes lib a, d.queue.nextId ≤ i ∧ i < d'.queue.nextId := by
    intro hlt hcomes
    rw [hcomes]
    exact ⟨List.nodup_singleton _, List.forall_mem_singleton.2 ⟨Nat.le_refl _, hlt⟩⟩
  cases a with
  | arrive env buffer srcaddr =>
    obtain ⟨-, smp, r, -, -, rfl⟩ := arrive_ok h
    exact hone (Nat.lt_succ_self _) rfl
  | pass env =>
    obtain ⟨timedOut, q, -, hq, rfl⟩ := pass_ok h
    cases horigin : d.queue.passOrigin lib env with
    | none =>
      refine hnone ?_
      change ((d.queue.passOrigin lib env).map fun _ => d.queue.nextId).toList = []
      rw [horigin]
      rfl
    | some s =>
      refine hone ?_ ?_
      · rcases SMq.processTimeout_ok hs.distinct hq with ⟨-, -, hn⟩ | ⟨m, gone, -, -, he, -⟩
        · rw [horigin] at hn
          cases hn
        · have hnext := he.nextId
          rw [horigin] at hnext
          exact hnext
      · change ((d.queue.passOrigin lib env).map fun _ => d.queue.nextId).toList = _
        rw [horigin]
        rfl
  | _ => exact hnone rfl

theorem Balanced.next {a : DaemonAct} (h : d.Balanced came left) (hn : d.next lib a = some d') :
    d'.Balanced (came ++ d.comes lib a) (left ++ d.leaves lib a) := by
  obtain ⟨hnodup, hnew⟩ := h.toSound.comes_new hn
  refine { h.toSound.next hn with nodup := ?_, lt_nextId := fun i hi => ?_, perm := ?_ }
  · refine List.nodup_append.2 ⟨h.nodup, hnodup, ?_⟩
    rintro i hi j hj rfl
    exact Nat.not_lt_of_le (hnew i hj).1 (h.lt_nextId i hi)
  · rcases List.mem_append.1 hi with hi | hi
    · exact Nat.lt_of_lt_of_le (h.lt_nextId i hi) (next_nextId h.toSound hn)
    · exact (hnew i hi).2
  · have hstep := h.toSound.next_leaves hn
    have hcame : (came ++ d.comes lib a).Perm
        (d.alive ++ d.comes lib a ++ left.map Prod.fst) := by
      refine (h.perm.append_right _).trans ?_
      rw [List.append_assoc, List.append_assoc]
      exact List.perm_append_comm.append_left _
    rw [List.map_append]
    refine hcame.trans ((hstep.symm.append_right _).trans ?_)
    rw [List.append_assoc]
    exact List.perm_append_comm.append_left _

theorem Account.balanced_of (h : Account lib d came left) : d.Balanced came left := by
  induction h with
  | start h =>
    exact { h.sound with nodup := h.sound.nodup_alive, lt_nextId := fun i => h.sound.lt_of_alive
                         perm := .of_eq (List.append_nil _).symm }
  | next _ hs ih => exact ih.next hs

theorem callRecords_sublist (left : List (MsgId × Departure)) :
    ((callRecords left).map Prod.fst).Sublist (left.map Prod.fst) := by
  induction left with
  | nil => exact .slnil
  | cons x left ih =>
    obtain ⟨i, departure⟩ := x
    cases departure with
    | answered record =>
      cases record with
      | none => exact .cons _ ih
      | some r => exact .cons_cons _ ih
    | _ => exact .cons _ ih

/-- In every run, each message that came in is still there or left, once and in one way; a call record
is written for a message once at most, and then the message is gone. -/
theorem Account.balances (lib : Libs) (d : Daemon) (came : List MsgId)
    (left : List (MsgId × Departure)) (h : Account lib d came left) :
    came.Nodup ∧ came.Perm (d.alive ++ left.map Prod.fst) ∧
      ((callRecords left).map Prod.fst).Nodup ∧
      ∀ i ∈ (callRecords left).map Prod.fst, i ∈ came ∧ ¬ d.Alive i := by
  have hb := h.balanced_of
  have hnodup : (d.alive ++ left.map Prod.fst).Nodup := hb.perm.nodup_iff.1 hb.nodup
  have hsub := callRecords_sublist left
  obtain ⟨-, hleft, hdisjoint⟩ := List.nodup_append.1 hnodup
  refine ⟨hb.nodup, hb.perm, hleft.sublist hsub, fun i hi => ⟨?_, fun halive => ?_⟩⟩
  · exact hb.perm.mem_iff.2 (List.mem_append_right _ (hsub.subset hi))
  · exact hdisjoint i (mem_alive.2 halive) i (hsub.subset hi) rfl

/-- The threads start with a success response and the message that it answers. -/
def answeredDaemon : Daemon :=
  { queue := SMq.answeredQueue, events := [], reader := .waiting, writer := .waiting }

theorem answeredDaemon_start : answeredDaemon.Start where
  distinct := ⟨by decide, by decide⟩
  reader := rfl
  writer := rfl
  events := fun _ he => absurd he List.not_mem_nil
  fits := Nat.zero_le _

/-- A pass handles the response, and writes the call record. -/
theorem account_answered : Account (sampleLibs [] [])
    { answeredDaemon with
      queue := { SMq.answeredQueue with timeSortedList := [] }, writer := .sending true 0 }
    [1, 0] [(1, .handled), (0, .answered (some ⟨str "+15550001", str "(null)", str "+15550002"⟩))] := by
  have h0 : Account (sampleLibs [] []) answeredDaemon [1, 0] [] := .start answeredDaemon_start
  have h1 : Account (sampleLibs [] []) { answeredDaemon with writer := .passing true } [1, 0] [] :=
    h0.next (a := .receive) rfl
  exact h1.next (a := .pass (sampleEnv 0)) rfl

theorem account_balances_answered : ∃ d left,
    Account (sampleLibs [] []) d [1, 0] left ∧
      callRecords left = [(0, ⟨str "+15550001", str "(null)", str "+15550002"⟩)] ∧ ¬ d.Alive 0 := by
  obtain ⟨-, -, -, hgone⟩ := Account.balances _ _ _ _ account_answered
  exact ⟨_, _, account_answered, rfl, (hgone 0 (List.mem_singleton_self _)).2⟩

end Daemon

end Smqueue

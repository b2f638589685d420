import Smqueue.Proofs.EffectProofs

/-!
# Proofs: what `handle_response` does to the queue

Apart from the response itself, only the message that a success response answers is taken out, and
only a client error makes a bounce. All other responses change a time where it stands.
-/

namespace Smqueue

open Agenda (Fits ids)

variable {lib : Libs} {env : Env} {q q1 q' : SMq} {m sent : ShortMsgPending} {h : MsgId}

namespace SMq

/-- The effect of a response on the rest `q` of the queue. -/
structure Answered (q q' : SMq) (keeps : Prop) (gone : List MsgId) (fresh : Option SmState) :
    Prop where
  order : q.InOrder → (q'.InOrder ↔ keeps)
  kept : ids q'.agenda =
    (fresh.map fun _ => q.nextId).toList ++ (ids q.agenda).filter (· ∉ gone)
  settings : q'.settings = q.settings
  nextId : q.nextId + fresh.toList.length ≤ q'.nextId
  posted : q'.posted = q.posted + fresh.toList.length

/-- The message that is answered is found where it stands. -/
theorem find_entry {x : ShortMsgPending} {i : MsgId} {e : Agenda.Entry MsgId SmState Time}
    (hd : (ids q.agenda).Nodup) (hx : q.find i = some x) (he : e ∈ q.agenda) (hid : e.id = i) :
    x.entry = e := by
  obtain ⟨hmem, hxi⟩ := find_some hx
  exact List.inj_on_of_nodup_map hd (mem_agenda hmem) he (hxi.trans hid.symm)

/-! ## Changes in place -/

theorem Answered.ignored (q : SMq) : Answered q q True [] none :=
  ⟨fun hq => iff_of_true hq trivial, by simp, rfl, Nat.le_refl _, rfl⟩

theorem Answered.retimed {i : MsgId} {s : SmState} {t : Time} (hd : q.Distinct)
    (ha : q'.agenda = Agenda.retime i s t q.agenda) (hf : Frame q q') :
    Answered q q' (Fits i t q.agenda) [] none := by
  refine ⟨fun hq => ?_, ?_, hf.settings, Nat.le_of_eq hf.nextId.symm, hf.posted⟩
  · unfold InOrder
    rw [ha]
    exact Agenda.sorted_retime_iff hd.nodup hq
  · rw [ha, Agenda.ids_retime]
    simp

theorem increaseAckedMsgTimeout_ok (hd : q.Distinct)
    (h : q.increaseAckedMsgTimeout env sent = .ok q') :
    Answered q q' (Fits sent.id (ackedDue env) q.agenda) [] none := by
  obtain ⟨ha, hf⟩ := setStateInPlaceAt_ok h
  exact .retimed hd ha hf

theorem setStateInPlace_answered {s : SmState} {now : Time} (hd : q.Distinct)
    (hs : sent ∈ q.timeSortedList) (h : q.setStateInPlace sent.id s now = .ok q') :
    q'.agenda = Agenda.retime sent.id s (q.dueIn sent s now) q.agenda ∧ Frame q q' := by
  obtain ⟨x, hx, ha, hf⟩ := setStateInPlace_ok h
  have he : x.entry = sent.entry := find_entry hd.nodup hx (mem_agenda hs) rfl
  have hst : x.state = sent.state := congrArg Agenda.Entry.state he
  refine ⟨?_, hf⟩
  rw [ha, hst]
  rfl

/-! ## Bounces -/

/-- The bounced message is retimed behind the bounce. -/
theorem Answered.bounced {fresh : Option SmState} {s : SmState} {now : Time} (hd : q.Distinct)
    (hs : sent ∈ q.timeSortedList) (hp : Pushed env q q1 fresh)
    (h : q1.setStateInPlace sent.id s now = .ok q') :
    Answered q q' (Fits sent.id (q.dueIn sent s now) q.agenda ∧
      FrontFits env q fresh (Agenda.retime sent.id s (q.dueIn sent s now) q.agenda)) [] fresh := by
  obtain ⟨x, hx, ha, hf⟩ := setStateInPlace_ok h
  have hlt : sent.id < q.nextId := hd.lt_nextId _ (Agenda.mem_ids.2 ⟨_, mem_agenda hs, rfl⟩)
  have he : x.entry = sent.entry := by
    refine find_entry (hp.distinct hd).nodup hx ?_ rfl
    rw [hp.agenda]
    exact List.mem_append_right _ (mem_agenda hs)
  have hst : x.state = sent.state := congrArg Agenda.Entry.state he
  have ha' : q'.agenda = (fresh.map (q.freshEntry env)).toList ++
      Agenda.retime sent.id s (q.dueIn sent s now) q.agenda := by
    rw [ha, hst, hp.settings, hp.agenda]
    unfold Agenda.retime
    rw [List.map_append]
    refine congrArg (· ++ _) ?_
    cases fresh with
    | none => rfl
    | some s' =>
      have hne : (q.freshEntry env s').id ≠ sent.id := Nat.ne_of_gt hlt
      exact congrArg (fun e => [e]) (if_neg hne)
  refine ⟨fun hq => ?_, ?_, hf.settings.trans hp.settings, ?_, hf.posted.trans hp.posted⟩
  · have hfits := Agenda.sorted_retime_iff (s := s) (t := q.dueIn sent s now) (i := sent.id)
      hd.nodup hq
    unfold InOrder
    rw [ha']
    constructor
    · intro hsort
      have hl := (Agenda.sorted_append.1 hsort).2.1
      exact ⟨hfits.1 hl, (sorted_pushed hl).1 hsort⟩
    · rintro ⟨h1, h2⟩
      exact (sorted_pushed (hfits.2 h1)).2 h2
  · rw [ha', ids_pushed, Agenda.ids_retime]
    simp
  · rw [hf.nextId]
    exact hp.nextId

/-! ## Success -/

theorem find?_congr {α : Type} {p p' : α → Bool} {l : List α} (h : ∀ x ∈ l, p x = p' x) :
    l.find? p = l.find? p' := by
  induction l with
  | nil => rfl
  | cons x l ih =>
    rw [List.find?_cons, List.find?_cons, h x List.mem_cons_self,
      ih fun y hy => h y (List.mem_cons_of_mem _ hy)]

/-- A message that only changes its content is found under the same tags. -/
theorem findQueuedMsgByTag_store {tag : CString} {sm : ShortMsg} (hd : (ids q.agenda).Nodup)
    (hs : sent ∈ q.timeSortedList) :
    (q.store { sent with toShortMsg := sm }).findQueuedMsgByTag tag =
      (q.findQueuedMsgByTag tag).map fun x =>
        if x.id = sent.id then { sent with toShortMsg := sm } else x := by
  unfold findQueuedMsgByTag store
  rw [List.find?_map]
  refine congrArg _ (find?_congr fun x hx => ?_)
  by_cases hid : x.id = sent.id
  · have hfx := find_mem hd hx
    rw [hid, find_mem hd hs] at hfx
    obtain rfl := Option.some.inj hfx
    simp [hasTag]
  · simp [hid]

theorem restartLinked_ok {sm : ShortMsg} {ok : Bool} (hd : q.Distinct)
    (hs : sent ∈ q.timeSortedList) (hparse : sent.toShortMsg.parse lib = .ok (ok, sm))
    (hreg : methodOf sm = some (str "REGISTER"))
    (h : (q.store { sent with toShortMsg := sm }).restartLinked env
      { sent with toShortMsg := sm } = .ok q') :
    q'.agenda = (q.restarted lib sent).elim q.agenda (fun old =>
      Agenda.retime old.id .initialState (q.dueIn old .initialState env.clock.first) q.agenda) ∧
    Frame q q' ∧ q'.tableReads = (q.restarted lib sent).elim q.tableReads (fun old =>
      (q.readTable old.state .initialState).tableReads) := by
  have hstore : (q.store { sent with toShortMsg := sm }).agenda = q.agenda :=
    agenda_store_same hd.nodup hs rfl
  have hres : q.restarted lib sent =
      (q.getLink sent).filter fun old => underRegistration old.state := by
    unfold restarted
    rw [hparse]
    exact if_pos hreg
  have hlink : (q.store { sent with toShortMsg := sm }).getLink { sent with toShortMsg := sm } =
      (q.getLink sent).map fun x =>
        if x.id = sent.id then { sent with toShortMsg := sm } else x := by
    have hbind : ∀ link : Option CString,
        link.bind (q.store { sent with toShortMsg := sm }).findQueuedMsgByTag =
          (link.bind q.findQueuedMsgByTag).map fun x =>
            if x.id = sent.id then { sent with toShortMsg := sm } else x := by
      rintro (_ | tag)
      · rfl
      · exact findQueuedMsgByTag_store hd.nodup hs
    exact hbind sent.linktag
  rw [hres]
  unfold restartLinked at h
  rw [hlink] at h
  cases hold : q.getLink sent with
  | none =>
    rw [hold] at h
    cases h
    exact ⟨hstore, store_frame _ _, rfl⟩
  | some old =>
    have hmem : old ∈ q.timeSortedList := by
      unfold getLink at hold
      obtain ⟨tag, -, hfind⟩ := Option.bind_eq_some_iff.1 hold
      exact (findQueuedMsgByTag_some hfind).1
    rw [hold] at h
    dsimp only [Option.map_some] at h
    -- the entry of the linked message is the same before and after the parse
    have hentry : ShortMsgPending.entry (if old.id = sent.id then
        { sent with toShortMsg := sm } else old) = old.entry := by
      by_cases hid : old.id = sent.id
      · have hfo := find_mem hd.nodup hmem
        rw [hid, find_mem hd.nodup hs] at hfo
        obtain rfl := Option.some.inj hfo
        rw [if_pos rfl]
        rfl
      · rw [if_neg hid]
    generalize (if old.id = sent.id then ({ sent with toShortMsg := sm } : ShortMsgPending)
      else old) = old' at h hentry
    obtain ⟨hid, hst, -⟩ := Agenda.Entry.mk.inj hentry
    rw [hst] at h
    by_cases hu : underRegistration old.state = true
    · rw [if_pos hu] at h
      obtain ⟨x, hx, ha, hf⟩ := setStateInPlace_ok h
      obtain ⟨y, hy, hreads⟩ := setStateInPlace_reads h
      obtain rfl := Option.some.inj (hx.symm.trans hy)
      have he : x.entry = old.entry := by
        refine find_entry ?_ hx ?_ hid.symm
        · rw [hstore]
          exact hd.nodup
        · rw [hstore]
          exact mem_agenda hmem
      have hxst : x.state = old.state := congrArg Agenda.Entry.state he
      simp only [Option.filter_some, hu, if_true]
      refine ⟨?_, (store_frame _ _).trans hf, ?_⟩
      · rw [ha, hstore, hxst, hid]
        rfl
      · rw [hreads, hxst]
        rfl
    · rw [if_neg hu] at h
      cases h
      simp only [Option.filter_some, hu]
      exact ⟨hstore, store_frame _ _, rfl⟩

/-- The message is parsed, a message that is linked to it is run again, and it is taken out. -/
theorem handleSuccess_steps (h : q.handleSuccess lib env sent = .ok q') :
    ∃ ok sm q2, sent.toShortMsg.parse lib = .ok (ok, sm) ∧
      (if methodOf sm = some (str "REGISTER") then
        (q.store { sent with toShortMsg := sm }).restartLinked env { sent with toShortMsg := sm }
      else pure (q.store { sent with toShortMsg := sm })) = .ok q2 ∧ q' = q2.remove sent.id := by
  unfold handleSuccess at h
  obtain ⟨⟨ok, sm⟩, hparse, h⟩ := Except.bind_eq_ok.1 h
  have h' : (if methodOf sm = some (str "REGISTER") then
      (q.store { sent with toShortMsg := sm }).restartLinked env { sent with toShortMsg := sm }
      else pure (q.store { sent with toShortMsg := sm })) >>= (fun q2 =>
        if methodOf sm = some (str "MESSAGE") then writeCdr sm >>= fun _ => pure (q2.remove sent.id)
        else pure (q2.remove sent.id)) = .ok q' := by
    rw [← h]
    dsimp only
    split <;> rfl
  obtain ⟨q2, h2, h⟩ := Except.bind_eq_ok.1 h'
  refine ⟨ok, sm, q2, hparse, h2, ?_⟩
  split at h
  · obtain ⟨_, -, h⟩ := Except.bind_eq_ok.1 h
    cases h
    rfl
  · cases h
    rfl

/-- The linked message is retimed, if there is one, before the answered message is taken out. -/
theorem handleSuccess_removed (hd : q.Distinct) (hs : sent ∈ q.timeSortedList)
    (h : q.handleSuccess lib env sent = .ok q') :
    ∃ q2 : SMq, q' = q2.remove sent.id ∧
      q2.agenda = (q.restarted lib sent).elim q.agenda (fun old =>
        Agenda.retime old.id .initialState (q.dueIn old .initialState env.clock.first) q.agenda) ∧
      Frame q q2 ∧ q2.tableReads = (q.restarted lib sent).elim q.tableReads (fun old =>
        (q.readTable old.state .initialState).tableReads) := by
  obtain ⟨ok, sm, q2, hparse, h2, hq'⟩ := handleSuccess_steps h
  refine ⟨q2, hq', ?_⟩
  by_cases hreg : methodOf sm = some (str "REGISTER")
  · rw [if_pos hreg] at h2
    exact restartLinked_ok hd hs hparse hreg h2
  · rw [if_neg hreg] at h2
    cases h2
    have hres : q.restarted lib sent = none := by
      unfold restarted
      rw [hparse]
      exact if_neg hreg
    rw [hres]
    exact ⟨agenda_store_same hd.nodup hs rfl, store_frame _ _, rfl⟩

theorem handleSuccess_ok (hd : q.Distinct) (hs : sent ∈ q.timeSortedList)
    (h : q.handleSuccess lib env sent = .ok q') :
    Answered q q' (∀ old ∈ q.restarted lib sent,
      Fits old.id (q.dueIn old .initialState env.clock.first) (q.others sent.id)) [sent.id]
      none := by
  obtain ⟨q2, rfl, ha, hf, -⟩ := handleSuccess_removed hd hs h
  have hids : ids q2.agenda = ids q.agenda := by
    rw [ha]
    cases q.restarted lib sent with
    | none => rfl
    | some old => exact Agenda.ids_retime _ _ _
  refine ⟨fun hq => ?_, ?_, hf.settings, Nat.le_of_eq hf.nextId.symm, hf.posted⟩
  · unfold InOrder
    rw [agenda_remove, ha]
    cases q.restarted lib sent with
    | none => exact iff_of_true (hq.erase _) (by rintro old ⟨⟩)
    | some old =>
      rw [Option.elim_some, Agenda.erase_retime, Agenda.sorted_retime_iff _ (hq.erase _)]
      · exact ⟨by rintro hfit old ⟨⟩; exact hfit, fun hfit => hfit old rfl⟩
      · rw [Agenda.ids_erase]
        exact hd.nodup.filter _
  · rw [agenda_remove, Agenda.ids_erase, hids]
    simp

/-! ## The switch over the status code -/

/-- What `handle_response` makes of the rest of the queue: only a success takes a message out, the
one that is answered. -/
theorem handleStatus_ok {response : SipMessage} (hd : q.Distinct) (hs : sent ∈ q.timeSortedList)
    (h : q.handleStatus lib env response sent = .ok q') :
    ∃ gone, Answered q q' (q.StatusKeepsOrder lib env response sent) gone
        (q.statusOrigin lib env response sent) ∧
      (gone = [] ∨ response.statusCode.tdiv 100 = 2 ∧ gone = [sent.id]) := by
  have hfits : ∀ {s : SmState} {now : Time}, q.setStateInPlace sent.id s now = .ok q' →
      Answered q q' (Fits sent.id (q.dueIn sent s now) q.agenda) [] none := by
    intro s now h
    obtain ⟨ha, hf⟩ := setStateInPlace_answered hd hs h
    exact .retimed hd ha hf
  have hnone : response.statusCode.tdiv 100 ≠ 4 → q.statusOrigin lib env response sent = none :=
    fun hcode => if_neg fun hc => hcode hc.1
  unfold handleStatus at h
  unfold StatusKeepsOrder
  dsimp only at h
  split at h
  case h_1 hcode =>
    rw [hnone (by omega), hcode]
    exact ⟨[], increaseAckedMsgTimeout_ok hd h, .inl rfl⟩
  case h_2 hcode =>
    rw [hnone (by omega), hcode]
    exact ⟨[sent.id], handleSuccess_ok hd hs h, .inr ⟨rfl, rfl⟩⟩
  case h_3 hcode =>
    by_cases hretry : response.statusCode = 480 ∨ response.statusCode = 486
    · have horigin : q.statusOrigin lib env response sent = none := if_neg fun hc => hc.2 hretry
      rw [horigin, hcode]
      rw [if_pos hretry] at h ⊢
      exact ⟨[], increaseAckedMsgTimeout_ok hd h, .inl rfl⟩
    · have horigin : q.statusOrigin lib env response sent =
          q.bounceOrigin lib env sent (errorText response) := if_pos ⟨hcode, hretry⟩
      rw [horigin, hcode]
      rw [if_neg hretry] at h ⊢
      obtain ⟨⟨next, q1⟩, hb, h⟩ := Except.bind_eq_ok.1 h
      obtain ⟨hp, hnext⟩ := bounceMessage_ok hb
      subst hnext
      exact ⟨[], .bounced hd hs hp h, .inl rfl⟩
  case h_4 hcode =>
    rw [hnone (by omega), hcode]
    exact ⟨[], increaseAckedMsgTimeout_ok hd h, .inl rfl⟩
  case h_5 hcode =>
    rw [hnone (by omega), hcode]
    exact ⟨[], hfits h, .inl rfl⟩
  case h_6 hcode =>
    rw [hnone (by omega), hcode]
    exact ⟨[], hfits h, .inl rfl⟩
  case h_7 h1 h2 h4 h5 h3 h6 =>
    cases h
    rw [hnone h4]
    refine ⟨[], ?_, .inl rfl⟩
    simpa only using Answered.ignored q

/-! ## The whole response -/

/-- The effect on the rest of the queue is one on the whole queue. -/
theorem Answered.effect {keeps : Prop} {gone : List MsgId} {fresh : Option SmState}
    (hd : q.Distinct) (ha : Answered (q.remove h) q' keeps gone fresh) (hh : h ∈ ids q.agenda) :
    Effect q q' h keeps (h :: gone) fresh := by
  have hrem := Effect.removed (h := h) hd
  have hrest : (q.remove h).agenda = q.others h := agenda_remove q h
  have hnew : ∀ i ∈ (fresh.map fun _ => q.nextId).toList, i = q.nextId := by
    intro i hi
    cases fresh with
    | none => cases hi
    | some s => exact List.mem_singleton.1 hi
  have hids := ha.kept
  rw [hrest, show (q.remove h).nextId = q.nextId from rfl] at hids
  have hold : ∀ i ∈ ids (q.others h), i ∈ ids q.agenda ∧ i ≠ h := by
    intro i hi
    unfold SMq.others at hi
    rw [Agenda.ids_erase] at hi
    simpa using List.mem_filter.1 hi
  have hnot : h ∉ ids q'.agenda := by
    rw [hids]
    intro hi
    rcases List.mem_append.1 hi with hi | hi
    · exact nextId_not_mem hd (hnew h hi ▸ hh)
    · exact (hold h (List.mem_of_mem_filter hi)).2 rfl
  refine ⟨fun hq => ha.order ((hrem.order hq).2 trivial), ?_, ?_, ⟨?_, fun i hi => ?_⟩,
    ha.settings, ha.posted, ha.nextId⟩
  · have hself : q'.others h = q'.agenda := Agenda.erase_eq_self hnot
    rw [hself, hids]
    refine congrArg (_ ++ ·) (List.filter_congr fun i hi => ?_)
    simp [(hold i hi).2]
  · exact iff_of_false hnot (by simp)
  · rw [hids]
    refine List.nodup_append.2 ⟨?_, (hrest ▸ hrem.distinct.nodup).filter _, ?_⟩
    · cases fresh with
      | none => exact List.nodup_nil
      | some s => exact List.nodup_singleton _
    · rintro i hi j hj rfl
      exact nextId_not_mem hd (hnew i hi ▸ (hold i (List.mem_of_mem_filter hj)).1)
  · have hnext := ha.nextId
    rw [show (q.remove h).nextId = q.nextId from rfl] at hnext
    rw [hids] at hi
    rcases List.mem_append.1 hi with hi' | hi'
    · cases fresh with
      | none => cases hi'
      | some s =>
        rw [hnew i hi']
        exact hnext
    · exact Nat.lt_of_lt_of_le (hd.lt_nextId i (hold i (List.mem_of_mem_filter hi')).1)
        (Nat.le_trans (Nat.le_add_right _ _) hnext)

theorem handleResponse_ok (hd : q.Distinct) (hm : m ∈ q.timeSortedList)
    (h : q.handleResponse lib env m = .ok q') :
    ∃ gone, Effect q q' m.id (q.ResponseKeepsOrder lib env m) (m.id :: gone)
        (q.responseOrigin lib env m) ∧
      (gone = [] ∨ ∃ i, q.Acknowledges m i ∧ gone = [i]) := by
  have hh : m.id ∈ ids q.agenda := Agenda.mem_ids.2 ⟨_, mem_agenda hm, rfl⟩
  have hd1 : (q.remove m.id).Distinct := (Effect.removed hd).distinct
  unfold handleResponse at h
  obtain ⟨tag, htag, h⟩ := Except.bind_eq_ok.1 h
  have htag' := deref_eq_ok htag
  unfold responseOrigin
  rw [htag', Option.bind_some]
  cases hfind : (q.remove m.id).findQueuedMsgByTag tag with
  | none =>
    rw [hfind] at h
    cases h
    have hkeeps : q.ResponseKeepsOrder lib env m := by
      intro tag' ht response hr sent hs
      obtain rfl : tag = tag' := Option.some.inj (htag'.symm.trans ht)
      rw [hfind] at hs
      cases hs
    have ha : Answered (q.remove m.id) (q.remove m.id) (q.ResponseKeepsOrder lib env m) [] none :=
      { Answered.ignored (q.remove m.id) with
        order := fun hq => iff_of_true hq hkeeps }
    have horigin : (m.parsed.bind fun response => (none : Option ShortMsgPending).bind fun sent =>
        (q.remove m.id).statusOrigin lib env response sent) = none := by
      cases m.parsed <;> rfl
    rw [horigin]
    exact ⟨[], ha.effect hd hh, .inl rfl⟩
  | some sent =>
    rw [hfind] at h
    obtain ⟨response, hresp, h⟩ := Except.bind_eq_ok.1 h
    have hresp' := deref_eq_ok hresp
    rw [hresp', Option.bind_some, Option.bind_some]
    obtain ⟨gone, ha, hgone⟩ := handleStatus_ok hd1 (findQueuedMsgByTag_some hfind).1 h
    have hiff : (q.remove m.id).StatusKeepsOrder lib env response sent ↔
        q.ResponseKeepsOrder lib env m := by
      constructor
      · intro hk tag' ht response' hr sent' hs
        obtain rfl : tag = tag' := Option.some.inj (htag'.symm.trans ht)
        obtain rfl : response = response' := Option.some.inj (hresp'.symm.trans hr)
        obtain rfl : sent = sent' := Option.some.inj (hfind.symm.trans hs)
        exact hk
      · exact fun hk => hk tag htag' response hresp' sent hfind
    have ha' : Answered (q.remove m.id) q' (q.ResponseKeepsOrder lib env m) gone
        ((q.remove m.id).statusOrigin lib env response sent) :=
      { ha with order := fun hq => (ha.order hq).trans hiff }
    refine ⟨gone, ha'.effect hd hh, ?_⟩
    rcases hgone with rfl | ⟨hcode, rfl⟩
    · exact .inl rfl
    · exact .inr ⟨_, ⟨tag, response, sent, htag', hresp', hcode, hfind, rfl⟩, rfl⟩

end SMq

end Smqueue

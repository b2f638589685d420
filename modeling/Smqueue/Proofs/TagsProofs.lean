import Smqueue.Tags
import Smqueue.Proofs.AttemptsProofs
import Smqueue.Proofs.TreeEditsProofs

/-!
# Proofs: the tags of queued requests

No operation changes the tag of a queued message. The tags stay different as long as no message is
inserted whose tag is in the queue.
-/

namespace Smqueue

open Relation (ReflTransGen)
open ShortMsgPending (Tagged tagOf)

variable {lib : Libs} {env : Env} {d d' : Daemon} {q q' : SMq} {h m m' : ShortMsgPending}

/-! ## Operations on a message -/

/-- The message keeps its identity, and its tag if it has one. -/
def KeepsTag (m m' : ShortMsgPending) : Prop :=
  m'.id = m.id ∧ (m.Tagged → m'.Tagged ∧ m'.qtag = m.qtag ∧
    isRequestMsg m'.toShortMsg = isRequestMsg m.toShortMsg)

theorem KeepsTag.refl (m : ShortMsgPending) : KeepsTag m m := ⟨rfl, fun h => ⟨h, rfl, rfl⟩⟩

theorem KeepsTag.trans {m1 m2 : ShortMsgPending} (h1 : KeepsTag m m1) (h2 : KeepsTag m1 m2) :
    KeepsTag m m2 := by
  refine ⟨h2.1.trans h1.1, fun ht => ?_⟩
  obtain ⟨ht1, htag1, hreq1⟩ := h1.2 ht
  obtain ⟨ht2, htag2, hreq2⟩ := h2.2 ht1
  exact ⟨ht2, htag2.trans htag1, hreq2.trans hreq1⟩

/-- The SIP message is replaced by one whose tree has the same tag. -/
theorem KeepsTag.content {sm : ShortMsg} (hv : m.parsedIsValid = true → sm.parsedIsValid = true)
    (ht : m.parsedIsValid = true → ∀ p, m.parsed = some p →
      ∃ p', sm.parsed = some p' ∧ SipMessage.SameTag p p') :
    KeepsTag m { m with toShortMsg := sm } := by
  refine ⟨rfl, fun h => ?_⟩
  obtain ⟨p, hp, htag⟩ := h.tag
  obtain ⟨p', hp', hsame⟩ := ht h.valid p hp
  refine ⟨⟨hv h.valid, p', hp', ?_⟩, rfl, ?_⟩
  · rw [hsame.tag]
    exact htag
  · unfold isRequestMsg
    rw [hp, show ({ m with toShortMsg := sm } : ShortMsgPending).parsed = some p' from hp']
    exact hsame.isRequest

theorem KeepsTag.refresh {sm : ShortMsg} (hr : ShortMsg.Refresh lib m.toShortMsg sm) :
    KeepsTag m { m with toShortMsg := sm } :=
  .content (fun hv => (hr.tree hv).1) fun hv p hp => ⟨p, (hr.tree hv).2.trans hp, rfl, rfl⟩

theorem KeepsTag.edit {sm : ShortMsg} (hsm : m.toShortMsg = h.toShortMsg)
    (he : q.HeadEdit lib env h sm) : KeepsTag m { m with toShortMsg := sm } := by
  have hedited : m.parsedIsValid = true →
      ShortMsg.TreeEdited (SipMessage.Edit lib) m.toShortMsg sm := by
    rw [hsm]
    exact he.treeEdited
  refine .content (fun hv => (hedited hv).valid.trans hv) fun hv p hp => ?_
  obtain ⟨p', hp', hedits⟩ := (hedited hv).tree p hp
  exact ⟨p', hp', sameTag_of_edits hedits⟩

/-- A tag that is set again is the same one. -/
theorem KeepsTag.setQtag {code : Int} (ht : m.setQtag lib = .ok (code, m')) : KeepsTag m m' := by
  refine ⟨congrArg Agenda.Entry.id (ShortMsgPending.setQtag_same ht).entry, fun h => ?_⟩
  obtain ⟨⟨tag, hash, hm'⟩, hfail, hok⟩ := ShortMsgPending.setQtag_ok h.valid ht
  by_cases hc : code = 0
  · obtain ⟨p, hp, htag, -⟩ := hok hc
    obtain ⟨p0, hp0, htag0⟩ := h.tag
    obtain rfl : p0 = p := Option.some.inj (hp0.symm.trans hp)
    have hsm : m'.toShortMsg = m.toShortMsg := by rw [hm']
    refine ⟨⟨?_, p0, ?_, htag⟩, htag.trans htag0.symm, ?_⟩
    · rw [hsm]
      exact h.valid
    · rw [hsm]
      exact hp0
    · rw [hsm]
  · obtain rfl := hfail hc
    exact ⟨h, rfl, rfl⟩

theorem Edited.keepsTag (h : Edited (ShortMsg.Refresh lib) m m') : KeepsTag m m' := by
  rcases h with rfl | ⟨sm, hr, rfl⟩
  · exact .refl m'
  · exact .refresh hr

/-- A message that was validated has its tag. -/
theorem ShortMsgPending.Validated.tagged {sm : ShortMsg} (h : Validated lib m sm m') :
    m'.Tagged := by
  obtain ⟨p, hp, -, htag, -⟩ := h.tree
  obtain ⟨relay, tag, hash, rfl⟩ := h.same
  exact ⟨(ShortMsg.parse_valid h.parse :), p, hp, htag⟩

namespace SMq

/-! ## One pass -/

theorem Change.keepsTag (hc : q.Change lib env h m m') : KeepsTag m m' := by
  cases hc with
  | refresh hr => exact .refresh hr
  | edit _ hsm he => exact .edit hsm he
  | tag _ ht => exact .setQtag ht
  | move _ => exact ⟨rfl, fun ht => ⟨⟨ht.valid, ht.tag⟩, rfl, rfl⟩⟩

theorem finishMsg_tagged {s : Settings} (hf : finishMsg lib env s m = .ok (0, m')) : m'.Tagged := by
  unfold finishMsg at hf
  obtain ⟨sm, -, hf⟩ := Except.bind_eq_ok.1 hf
  obtain ⟨sm', -, hf⟩ := Except.bind_eq_ok.1 hf
  obtain ⟨sm'', hv⟩ := ShortMsgPending.validated_of_ok hf
  exact hv.tagged

theorem Originated.tagged (ho : q.Originated lib env h m) : m.Tagged := by
  obtain ⟨s, x, -, -, hf⟩ := ho.finished
  exact finishMsg_tagged hf

/-- Every message after a pass has its tag from a queued message or from the one that the pass
inserts. -/
theorem Outcome.keepsTag (ho : Outcome lib env q h q') (hh : h ∈ q.timeSortedList)
    (hm' : m' ∈ q'.timeSortedList) :
    ∃ m, (m ∈ q.timeSortedList ∨ q.Originated lib env h m) ∧ KeepsTag m m' := by
  have of_evolves : ∀ {l : List ShortMsgPending}, Population.Evolves (q.Change lib env h)
      (q.Incoming lib env h) l q'.timeSortedList →
      ∃ m, (m ∈ l ∨ q.Originated lib env h m) ∧ KeepsTag m m' := by
    intro l he
    obtain ⟨m, hfrom, hk⟩ := he.related (r := KeepsTag) KeepsTag.refl (fun _ _ _ => KeepsTag.trans)
      (fun _ _ => Change.keepsTag) hm'
    rcases hfrom with hl | hin
    · exact ⟨m, .inl hl, hk⟩
    · cases hin with
      | @inserted m s t ho =>
        have hmove : KeepsTag m { m with state := s, nextActionTime := t } :=
          ⟨rfl, fun ht => ⟨⟨ht.valid, ht.tag⟩, rfl, rfl⟩⟩
        exact ⟨m, .inr ho, hmove.trans hk⟩
  cases ho with
  | quiet he => exact of_evolves he.messages
  | attempt ha hl hdel =>
    obtain ⟨m, hfrom, hk⟩ := of_evolves hl
    rcases hfrom with hm | ho
    · rcases mem_attempted hm with rfl | ⟨hm, -⟩
      · have hcount : KeepsTag h { h with retries := h.retries + 1 } :=
          ⟨rfl, fun ht => ⟨⟨ht.valid, ht.tag⟩, rfl, rfl⟩⟩
        exact ⟨h, .inl hh, hcount.trans hk⟩
      · exact ⟨m, .inl hm, hk⟩
    · exact ⟨m, .inr ho, hk⟩

/-- What is queued after a command was in the queue that the command left. -/
theorem dispatch_command_ids {r : ShortCodeResult} (hd : q.Distinct) (hm : m ∈ q.timeSortedList)
    (hs : m.state = .initialState) (ht : isTextMessage m.toShortMsg = true)
    (hc : q.callShortCode lib env m = .ok (some r)) (hq : q.dispatch lib env m = .ok q')
    (hm' : m' ∈ q'.timeSortedList) : m'.id ∈ Agenda.ids r.queue.agenda ∨ m'.id = q.nextId := by
  have of_evolved : ∀ {q1 : SMq}, Evolved lib env q m q1 q' →
      (∃ x ∈ q1.timeSortedList, m'.id = x.id) ∨ m'.id = q.nextId := by
    intro q1 he
    obtain ⟨x, hfrom, hid⟩ := he.messages.related (r := fun x y => y.id = x.id) (fun _ => rfl)
      (fun x y z (h1 : y.id = x.id) (h2 : z.id = y.id) => h2.trans h1) (fun _ _ hc => hc.same.1) hm'
    rcases hfrom with hx | hin
    · exact .inl ⟨x, hx, hid⟩
    · exact .inr (hid.trans (hin.isNew hd hm).1)
  have hids : ∀ x ∈ r.queue.timeSortedList, m'.id = x.id → m'.id ∈ Agenda.ids r.queue.agenda := by
    intro x hx hid
    rw [hid]
    exact Agenda.mem_ids.2 ⟨_, mem_agenda hx, rfl⟩
  obtain ⟨p, hp, htext⟩ := (Option.any_eq_true _ _).1 ht
  rw [Bool.and_eq_true] at htext
  have hmethod : p.sipMethod = some (str "MESSAGE") := of_decide_eq_true htext.2
  unfold dispatch at hq
  rw [hs] at hq
  dsimp only at hq
  unfold processInitial at hq
  rw [hp] at hq
  change (if p.isRequest = true then _ else _ : Except Fault SMq) = .ok q' at hq
  rw [if_pos htext.1, hmethod] at hq
  change (q.handleShortCode lib env m >>= fun x =>
    x.2.setState m.id (x.1.getD .requestFromAddressLookup) env.clock.final) = .ok q' at hq
  obtain ⟨⟨next, q1⟩, hcode, hq⟩ := Except.bind_eq_ok.1 hq
  unfold handleShortCode at hcode
  rw [hc] at hcode
  have hset : Evolved lib env q m q1 q' := .setHead rfl hq
  rcases finishShortCode_evolved hs ht hc hcode with he | ⟨-, x, hx, rfl⟩
  · rcases of_evolved (he.trans hset) with ⟨x, hx, hid⟩ | hnew
    · exact .inl (hids x hx hid)
    · exact .inr hnew
  · rcases of_evolved hset with ⟨y, hy, hid⟩ | hnew
    · rcases mem_attempted hy with rfl | ⟨hy, -⟩
      · exact .inl (hids x (find_some (msg_ok hx)).1 hid)
      · exact .inl (hids y hy hid)
    · exact .inr hnew

/-- The messages of the queue have their tags, and no two requests the same one. -/
structure WellTagged (q : SMq) : Prop where
  tagged : ∀ m ∈ q.timeSortedList, m.Tagged
  unique : q.TagsUnique

/-- A pass that does not double a tag keeps the tags different. -/
theorem processTimeout_wellTagged (hd : q.Distinct) (hw : q.WellTagged)
    (hq : q.processTimeout lib env = .ok q')
    (hg : ∀ h ∈ q.timeSortedList.head?, h.nextActionTime ≤ env.clock.entry →
      ∀ m x, ¬ q.Doubles lib env h m x) : q'.WellTagged := by
  rcases processTimeout_outcome hd hq with heq | ⟨h, hhead, hdue, hrun, ho⟩
  · rw [heq]
    exact hw
  · have hh := head_mem hhead
    have hnew : ∀ m, q.Originated lib env h m → m.id = q.nextId := fun m hm =>
      congrArg Agenda.Entry.id (hm.isNew hd hh).1
    -- an old message and the inserted one
    have hcross : ∀ x' ∈ q'.timeSortedList, ∀ x ∈ q.timeSortedList, ∀ y' m,
        KeepsTag x x' → q.Originated lib env h m → KeepsTag m y' →
        isRequestMsg x'.toShortMsg = true → isRequestMsg y'.toShortMsg = true →
        x'.qtag ≠ y'.qtag := by
      intro x' hx' x hx y' m hkx hm hky hreqx hreqy htag
      obtain ⟨-, htagx, hisx⟩ := hkx.2 (hw.tagged x hx)
      obtain ⟨-, htagm, hism⟩ := hky.2 hm.tagged
      refine hg h hhead hdue m x ⟨hm, hism ▸ hreqy, hx, hisx ▸ hreqx, ?_, fun r hs ht hc => ?_⟩
      · rw [← htagx, htag, htagm]
      · rcases dispatch_command_ids hd hh hs ht hc hrun hx' with hid | hid
        · rw [← hkx.1]
          exact hid
        · exact absurd (hid.symm.trans hkx.1) (ne_of_nextId_le hd hx (Nat.le_refl _))
    refine ⟨fun m' hm' => ?_, fun x' hx' y' hy' hreqx hreqy htag => ?_⟩
    · obtain ⟨m, hfrom, hk⟩ := ho.keepsTag hh hm'
      rcases hfrom with hm | hm
      · exact (hk.2 (hw.tagged m hm)).1
      · exact (hk.2 hm.tagged).1
    · obtain ⟨x, hfromx, hkx⟩ := ho.keepsTag hh hx'
      obtain ⟨y, hfromy, hky⟩ := ho.keepsTag hh hy'
      rcases hfromx with hx | hx <;> rcases hfromy with hy | hy
      · obtain ⟨-, htagx, hisx⟩ := hkx.2 (hw.tagged x hx)
        obtain ⟨-, htagy, hisy⟩ := hky.2 (hw.tagged y hy)
        rw [hkx.1, hky.1]
        refine hw.unique x hx y hy (hisx ▸ hreqx) (hisy ▸ hreqy) ?_
        rw [← htagx, htag, htagy]
      · exact absurd htag (hcross x' hx' x hx y' y hkx hy hky hreqx hreqy)
      · exact absurd htag.symm (hcross y' hy' y hy x' x hky hx hkx hreqy hreqx)
      · rw [hkx.1, hky.1, hnew x hx, hnew y hy]

end SMq

/-! ## Runs -/

namespace Daemon

/-- The tags in the queue are different, and a message that is to be inserted has its tag. -/
structure TagsKept (d : Daemon) : Prop extends Sound d where
  queue : d.queue.WellTagged
  accepted : ∀ smp, d.reader = .accepted smp → smp.Tagged

theorem TagsKept.edited (h : d.TagsKept) (he : OnlyEdited (ShortMsg.Refresh lib) d d')
    (hsound : d'.Sound) : d'.TagsKept := by
  refine { hsound with queue := ⟨fun x hx => ?_, fun x hx y hy hreqx hreqy htag => ?_⟩
                       accepted := fun x hx => ?_ }
  · obtain ⟨x0, hx0, hxx⟩ := he.queue x hx
    exact (hxx.keepsTag.2 (h.queue.tagged x0 hx0)).1
  · obtain ⟨x0, hx0, hxx⟩ := he.queue x hx
    obtain ⟨y0, hy0, hyy⟩ := he.queue y hy
    obtain ⟨-, htagx, hisx⟩ := hxx.keepsTag.2 (h.queue.tagged x0 hx0)
    obtain ⟨-, htagy, hisy⟩ := hyy.keepsTag.2 (h.queue.tagged y0 hy0)
    rw [hxx.id, hyy.id]
    refine h.queue.unique x0 hx0 y0 hy0 (hisx ▸ hreqx) (hisy ▸ hreqy) ?_
    rw [← htagx, htag, htagy]
  · obtain ⟨x0, hx0, hxx⟩ := he.accepted x hx
    exact (hxx.keepsTag.2 (h.accepted x0 hx0)).1

theorem TagsKept.next {a : DaemonAct} (h : d.TagsKept) (hg : d.KeepsTags lib a)
    (hn : d.next lib a = some d') : d'.TagsKept := by
  have hsound : d'.Sound := h.toSound.next hn
  cases next_happened h.toSound hn with
  | passed ha hq hr =>
    subst ha
    refine { hsound with queue := SMq.processTimeout_wellTagged h.distinct h.queue hq hg
                         accepted := fun smp hsmp => ?_ }
    rw [hr] at hsmp
    exact h.accepted smp hsmp
  | @arrived env buffer srcaddr errcode smp ha hv hq hr =>
    refine { hsound with queue := ?_, accepted := fun x hx => ?_ }
    · rw [hq]
      exact ⟨h.queue.tagged, h.queue.unique⟩
    · rw [hr] at hx
      by_cases hc : errcode = 0
      · rw [if_pos hc] at hx
        obtain rfl := Reader.accepted.inj hx
        subst hc
        obtain ⟨sm, hvalid⟩ := ShortMsgPending.validated_of_ok hv
        exact hvalid.tagged
      · rw [if_neg hc] at hx
        cases hx
  | @spliced now smp ha hr hq hr' =>
    subst ha
    have hfresh := hg smp hr
    have hsmp := h.accepted smp hr
    refine { hsound with queue := ?_, accepted := fun x hx => ?_ }
    · rw [hq]
      refine ⟨fun x hx => ?_, fun x hx y hy hreqx hreqy htag => ?_⟩
      · rcases List.mem_cons.1 hx with rfl | hx
        · exact ⟨hsmp.valid, hsmp.tag⟩
        · exact h.queue.tagged x hx
      · rcases List.mem_cons.1 hx with rfl | hx <;> rcases List.mem_cons.1 hy with rfl | hy
        · rfl
        · exact absurd htag.symm (hfresh hreqx y hy hreqy)
        · exact absurd htag (hfresh hreqy x hx hreqx)
        · exact h.queue.unique x hx y hy hreqx hreqy htag
    · rw [hr'] at hx
      cases hx
  | parsed he => exact h.edited he.refresh_of_parses hsound
  | dumped _ he => exact h.edited he.refresh_of_prints hsound

theorem StartTagged.tagsKept (h : d.StartTagged) : d.TagsKept := by
  refine { h.sound with queue := ⟨h.tagged, h.unique⟩, accepted := fun smp hsmp => ?_ }
  rw [h.reader] at hsmp
  cases hsmp

/-- The requests in the queue have different tags. -/
theorem tagsUnique_of_keepsTags (lib : Libs) {d : Daemon}
    (h : Runs.GuardedRun StartTagged (Step lib) (KeepsTags lib) d) : d.queue.TagsUnique :=
  (h.invariant TagsKept (fun _ h0 => h0.tagsKept) fun _ _ _ hi hg hn => hi.next hg hn).queue.unique

/-! ## Two requests -/

/-- A request of the same sender, with another CSeq. -/
def sampleNext : SipMessage :=
  { sampleRequest with cseq := some ⟨some (str "2"), some (str "MESSAGE")⟩ }

/-- The libraries that know both requests. -/
def nextLibs : Libs := sampleLibs [sampleRequest, sampleNext] []

/-- The messages were inserted one after the other, and the last one is yet to be answered. -/
def receivedDaemon (l : List ShortMsgPending) : Daemon where
  queue :=
    { settings := {}
      timeSortedList := l
      nextId := l.length
      posted := l.length - 1
      tableReads := l.map fun _ => .entry .noState .initialState }
  events := (l.drop 1).flatMap fun m => [.processIncomming, .sipAck 202 m.id]
  reader := .spliced (l.length - 1)
  writer := .waiting

theorem idle_startTagged (settings : Settings) : (idle settings).StartTagged :=
  { idle_start settings with
    tagged := fun _ hm => (by cases hm)
    unique := fun _ hx => (by cases hx) }

/-- The datagram of a message. -/
def sampleArrival (sip : SipMessage) : DaemonAct :=
  .arrive (sampleEnv 0) (SampleLibs.messageText sip) []

/-- The steps of the reader from one message to the next. -/
def betweenSteps : List DaemonAct := [.dump, .signal, .queueRespondSipAck, .deleteList]

/-- The second request with its tag. -/
def receivedNext : ShortMsgPending :=
  { queuedMsg 1 .initialState 0 sampleNext with
    qtag := some (str "2--7")
    qtaghash := 50 }

set_option maxRecDepth 100000 in
theorem tagsUnique_of_keepsTags_received :
    (receivedDaemon [receivedNext, queuedMsg 0 .initialState 0 sampleRequest]).queue.TagsUnique := by
  have h0 : Runs.GuardedRun StartTagged (Step nextLibs) (KeepsTags nextLibs) (idle {}) :=
    .start (idle_startTagged {})
  have h1 := h0.next (a := sampleArrival sampleRequest) trivial rfl
  have h2 : Runs.GuardedRun StartTagged (Step nextLibs) (KeepsTags nextLibs)
      (receivedDaemon [queuedMsg 0 .initialState 0 sampleRequest]) :=
    h1.next (a := DaemonAct.splice 0) (fun _ _ _ _ hx => by cases hx) rfl
  have h3 := h2.next (a := DaemonAct.dump) trivial rfl
  have h4 := h3.next (a := DaemonAct.signal) trivial rfl
  have h5 := h4.next (a := DaemonAct.queueRespondSipAck) trivial rfl
  have h6 := h5.next (a := DaemonAct.deleteList) trivial rfl
  have h7 := h6.next (a := sampleArrival sampleNext) trivial rfl
  have h8 : Runs.GuardedRun StartTagged (Step nextLibs) (KeepsTags nextLibs)
      (receivedDaemon [receivedNext, queuedMsg 0 .initialState 0 sampleRequest]) := by
    refine h7.next (a := DaemonAct.splice 0) ?_ rfl
    -- the tag of the request in the queue is another one
    intro smp hsmp _ x hx _
    obtain rfl := List.mem_singleton.1 hx
    cases hsmp
    decide
  exact tagsUnique_of_keepsTags nextLibs h8

/-! ## A retransmission -/

set_option maxRecDepth 100000 in
theorem run_retransmission : (idle {}).run (sampleLibs [sampleRequest] [])
    ([sampleArrival sampleRequest, .splice 0] ++ betweenSteps ++
      [sampleArrival sampleRequest, .splice 0]) =
    some (receivedDaemon [queuedMsg 1 .initialState 0 sampleRequest,
      queuedMsg 0 .initialState 0 sampleRequest]) := rfl

/-- A datagram that is sent again is queued again, with the same tag. -/
theorem not_tagsUnique_retransmission : ¬ ∀ (lib : Libs) (d : Daemon),
    Runs.Reachable StartTagged (Step lib) d → d.queue.TagsUnique := by
  intro hall
  have h0 : Runs.Reachable StartTagged (Step (sampleLibs [sampleRequest] [])) (idle {}) :=
    .start (idle_startTagged {})
  have hunique := hall _ _ (reachable_run h0 run_retransmission)
  have hid := hunique (queuedMsg 1 .initialState 0 sampleRequest) (by simp [receivedDaemon])
    (queuedMsg 0 .initialState 0 sampleRequest) (by simp [receivedDaemon]) rfl rfl rfl
  cases hid

end Daemon

end Smqueue

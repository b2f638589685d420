import Smqueue.Registrations
import Smqueue.SampleLibs
import Smqueue.Proofs.AttemptsProofs

/-!
# Proofs: registrations

A message gets its link when it is built, and keeps it. So the queue has no second registration for a
tag as long as none is built while there is one.
-/

namespace Smqueue

open Runs (GuardedRun)

variable {lib : Libs} {env : Env} {q q1 q' : SMq} {m m' h x : ShortMsgPending} {tag : CString}

/-! ## Links -/

theorem ShortMsgPending.SameBut.linktag (hs : SameBut m m') : m'.linktag = m.linktag := by
  obtain ⟨sm, tag, hash, rfl⟩ := hs
  rfl

theorem Edited.linktag {r : ShortMsg → ShortMsg → Prop} (he : Edited r m m') :
    m'.linktag = m.linktag := by
  rcases he with rfl | ⟨sm, -, rfl⟩ <;> rfl

namespace SMq

theorem Change.linktag (hc : q.Change lib env h m m') : m'.linktag = m.linktag := by
  cases hc with
  | tag _ ht => exact (ShortMsgPending.setQtag_same ht).linktag
  | _ => rfl

theorem originateMsg_linktag {sender recipient text : CString} {code : Int}
    (ho : originateMsg lib env q sender recipient text = .ok (q1, code, m)) : m.linktag = none := by
  unfold originateMsg at ho
  obtain ⟨sip, -, ho⟩ := Except.bind_eq_ok.1 ho
  obtain ⟨⟨c, m1⟩, h1, ho⟩ := Except.bind_eq_ok.1 ho
  obtain ⟨⟨c2, m2⟩, h2, ho⟩ := Except.bind_eq_ok.1 ho
  cases ho
  have htagged := (ShortMsgPending.setQtag_same h1).linktag
  exact (finishMsg_same h2).linktag.trans htagged

/-- A registration links to the message that it is for. -/
theorem registerMsg_linktag {code : Int} (ho : registerMsg lib env q x = .ok (q1, code, m)) :
    ∃ tag, x.qtag = some tag ∧ m.linktag = some tag := by
  unfold registerMsg at ho
  obtain ⟨⟨errcode, response⟩, hr, ho⟩ := Except.bind_eq_ok.1 ho
  cases ho
  unfold registerResponse at hr
  obtain ⟨sip, -, hr⟩ := Except.bind_eq_ok.1 hr
  obtain ⟨user, -, hr⟩ := Except.bind_eq_ok.1 hr
  obtain ⟨imsi, -, hr⟩ := Except.bind_eq_ok.1 hr
  obtain ⟨tree, -, hr⟩ := Except.bind_eq_ok.1 hr
  obtain ⟨⟨code, response'⟩, -, hr⟩ := Except.bind_eq_ok.1 hr
  obtain ⟨tag, htag, hr⟩ := Except.bind_eq_ok.1 hr
  exact ⟨tag, deref_eq_ok htag, (finishMsg_same hr).linktag⟩

/-- A message that the pass inserts has no link, or the sender of the head is registered. -/
theorem Originated.linktag (ho : q.Originated lib env h m) :
    m.linktag = none ∨ ∃ tag, q.Registers lib env h tag ∧ m.linktag = some tag := by
  cases ho with
  | reply _ _ _ _ _ _ ho => exact .inl (originateMsg_linktag ho)
  | notLocated _ _ _ ho => exact .inl (originateMsg_linktag ho)
  | answered _ _ _ _ ho => exact .inl (originateMsg_linktag ho)
  | registered hs _ hc ha hx ho =>
    obtain ⟨tag, ht, hm⟩ := registerMsg_linktag ho
    exact .inr ⟨tag, .command hs hc ha hx ht ho, hm⟩
  | register hs ho =>
    obtain ⟨tag, ht, hm⟩ := registerMsg_linktag ho
    exact .inr ⟨tag, .register hs ht ho, hm⟩
  | awaited hs hr hq hy ho =>
    obtain ⟨tag, ht, hm⟩ := registerMsg_linktag ho
    exact .inr ⟨tag, .awaited hs hr hq hy ht ho, hm⟩

theorem mem_registrations : x ∈ q.registrations tag ↔ x ∈ q.timeSortedList ∧ x.linktag = some tag := by
  unfold registrations
  rw [List.mem_filter, decide_eq_true_iff]

/-- No two messages link to the same tag. -/
def LinksApart (q : SMq) : Prop :=
  ∀ x ∈ q.timeSortedList, ∀ y ∈ q.timeSortedList, x.linktag.isSome → x.linktag = y.linktag →
    x.id = y.id

theorem LinksApart.registrations (hl : q.LinksApart) (hd : q.Distinct) (tag : CString) :
    (q.registrations tag).length ≤ 1 := by
  have hids : ((q.registrations tag).map ShortMsgPending.id).Nodup := by
    have hsub : List.Sublist ((q.registrations tag).map ShortMsgPending.id)
        (q.timeSortedList.map ShortMsgPending.id) := List.filter_sublist.map _
    have hnodup := hd.nodup
    unfold Agenda.ids agenda at hnodup
    rw [List.map_map] at hnodup
    exact hsub.nodup hnodup
  cases hr : q.registrations tag with
  | nil => exact Nat.zero_le _
  | cons x l =>
    cases l with
    | nil => exact Nat.le_refl _
    | cons y l =>
      rw [hr] at hids
      obtain ⟨hx, hxt⟩ := mem_registrations.1 (hr ▸ List.mem_cons_self)
      obtain ⟨hy, hyt⟩ := mem_registrations.1 (hr ▸ List.mem_cons_of_mem x List.mem_cons_self)
      have hid : x.id = y.id := hl x hx y hy (hxt ▸ rfl) (hxt.trans hyt.symm)
      have hne := (List.nodup_cons.1 hids).1
      exact absurd (hid ▸ List.mem_cons_self) hne

/-- Every message of `q'` has the identity and the link of one of `q`. -/
def LinkedIn (q : SMq) (x' : ShortMsgPending) : Prop :=
  ∃ x ∈ q.timeSortedList, x'.id = x.id ∧ x'.linktag = x.linktag

theorem LinksApart.of_linkedIn (hl : q.LinksApart) (h : ∀ x' ∈ q'.timeSortedList, q.LinkedIn x') :
    q'.LinksApart := by
  intro x' hx' y' hy' hsome heq
  obtain ⟨x, hx, hxid, hxlink⟩ := h x' hx'
  obtain ⟨y, hy, hyid, hylink⟩ := h y' hy'
  rw [hxlink] at hsome
  rw [hxlink, hylink] at heq
  rw [hxid, hyid]
  exact hl x hx y hy hsome heq

/-- A message after a pass has the link of one before, or it is new. -/
theorem linkedIn_or_new {l l' : List ShortMsgPending} (hd : q.Distinct) (hh : h ∈ q.timeSortedList)
    (hl : ∀ x ∈ l, q.LinkedIn x)
    (he : Population.Evolves (q.Change lib env h) (q.Incoming lib env h) l l') (hm : m' ∈ l') :
    q.LinkedIn m' ∨ m'.id = q.nextId ∧
      (m'.linktag = none ∨ ∃ tag, q.Registers lib env h tag ∧ m'.linktag = some tag) := by
  obtain ⟨m, hfrom, hid, hlink⟩ := he.related
    (r := fun m m' : ShortMsgPending => m'.id = m.id ∧ m'.linktag = m.linktag)
    (fun _ => ⟨rfl, rfl⟩) (fun _ _ _ h1 h2 => ⟨h2.1.trans h1.1, h2.2.trans h1.2⟩)
    (fun _ _ hc => ⟨hc.same.1, hc.linktag⟩) hm
  rcases hfrom with hmem | hin
  · obtain ⟨x, hx, hxid, hxlink⟩ := hl m hmem
    exact .inl ⟨x, hx, hid.trans hxid, hlink.trans hxlink⟩
  · refine .inr ⟨hid.trans (hin.isNew hd hh).1, ?_⟩
    rw [hlink]
    cases hin with
    | inserted ho => exact ho.linktag

theorem processTimeout_links (hd : q.Distinct) (hl : q.LinksApart)
    (hq : q.processTimeout lib env = .ok q')
    (hg : ∀ h ∈ q.timeSortedList.head?, h.nextActionTime ≤ env.clock.entry →
      ∀ tag, q.Registers lib env h tag → q.registrations tag = []) : q'.LinksApart := by
  rcases processTimeout_outcome hd hq with rfl | ⟨h, hhead, hdue, -, ho⟩
  · exact hl
  · have hh := head_mem hhead
    have hrefl : ∀ x ∈ q.timeSortedList, q.LinkedIn x := fun x hx => ⟨x, hx, rfl, rfl⟩
    have hstems : ∀ x' ∈ q'.timeSortedList, q.LinkedIn x' ∨ x'.id = q.nextId ∧
        (x'.linktag = none ∨ ∃ tag, q.Registers lib env h tag ∧ x'.linktag = some tag) := by
      intro x' hx'
      cases ho with
      | quiet he => exact linkedIn_or_new hd hh hrefl he.messages hx'
      | attempt _ he _ =>
        refine linkedIn_or_new hd hh (fun x hx => ?_) he hx'
        rcases mem_attempted hx with rfl | ⟨hx, -⟩
        · exact ⟨h, hh, rfl, rfl⟩
        · exact hrefl x hx
    -- a new message has no link, or one that no old message has
    have hfresh : ∀ x' y' : ShortMsgPending, x'.linktag.isSome → x'.linktag = y'.linktag →
        (x'.linktag = none ∨ ∃ tag, q.Registers lib env h tag ∧ x'.linktag = some tag) →
        ¬ q.LinkedIn y' := by
      rintro x' y' hsome heq (hnone | ⟨tag, hr, hx⟩) ⟨y, hy, -, hlink⟩
      · rw [hnone] at hsome
        cases hsome
      · have hmem : y ∈ q.registrations tag :=
          mem_registrations.2 ⟨hy, hlink.symm.trans (heq.symm.trans hx)⟩
        rw [hg h hhead hdue tag hr] at hmem
        cases hmem
    intro x' hx' y' hy' hsome heq
    rcases hstems x' hx' with hx | ⟨hxid, hxlink⟩
    · rcases hstems y' hy' with hy | ⟨-, hylink⟩
      · obtain ⟨x, hx, hxid, hxlink⟩ := hx
        obtain ⟨y, hy, hyid, hylink⟩ := hy
        rw [hxlink] at hsome
        rw [hxlink, hylink] at heq
        rw [hxid, hyid]
        exact hl x hx y hy hsome heq
      · exact absurd hx (hfresh y' x' (heq ▸ hsome) heq.symm hylink)
    · rcases hstems y' hy' with hy | ⟨hyid, -⟩
      · exact absurd hy (hfresh x' y' hsome heq hxlink)
      · exact hxid.trans hyid.symm

end SMq

namespace Daemon

variable {d d' : Daemon}

/-- No two queued messages have the same link, and the message in the temporary list has none. -/
structure Linked (d : Daemon) : Prop extends Sound d where
  apart : d.queue.LinksApart
  held_unlinked : ∀ m ∈ d.reader.smpl, m.linktag = none

theorem Unlinked.linked (h : d.Unlinked) : d.Linked :=
  { Start.sound h.toStart with
    apart := fun x hx _ _ hsome _ => by
      rw [h.linktag x hx] at hsome
      cases hsome
    held_unlinked := fun m hm => by
      rw [h.reader] at hm
      cases hm }

theorem Linked.edited {r : ShortMsg → ShortMsg → Prop} (hl : d.Linked) (he : OnlyEdited r d d')
    (hsound : d'.Sound) : d'.Linked := by
  refine { hsound with apart := hl.apart.of_linkedIn fun x' hx' => ?_, held_unlinked := ?_ }
  · obtain ⟨x, hx, hxx⟩ := he.queue x' hx'
    exact ⟨x, hx, hxx.id, hxx.linktag⟩
  · intro x' hx'
    obtain ⟨x, hx, hxx⟩ := he.smpl x' hx'
    exact hxx.linktag.trans (hl.held_unlinked x hx)

theorem Linked.next {a : DaemonAct} (hl : d.Linked) (hg : d.RegistersOnce lib a)
    (hn : d.next lib a = some d') : d'.Linked := by
  have hsound : d'.Sound := hl.toSound.next hn
  cases next_happened hl.toSound hn with
  | passed ha hq hr =>
    subst ha
    refine { hsound with apart := SMq.processTimeout_links hl.distinct hl.apart hq hg
                         held_unlinked := ?_ }
    rw [hr]
    exact hl.held_unlinked
  | arrived ha hv hq hr =>
    refine { hsound with apart := ?_, held_unlinked := fun m hm => ?_ }
    · rw [hq]
      exact hl.apart
    · have hlink := (ShortMsgPending.validateShortMsg_same hv).linktag
      rw [hr] at hm
      split at hm <;> cases hm <;> exact hlink
  | spliced ha hr hq hr' =>
    have hsmp := hl.held_unlinked _ (congrArg Reader.smpl hr)
    refine { hsound with apart := ?_, held_unlinked := fun m hm => ?_ }
    · rw [hq]
      intro x hx y hy hsome heq
      rcases List.mem_cons.1 hx with rfl | hx
      · rw [show _ = none from hsmp] at hsome
        cases hsome
      · rcases List.mem_cons.1 hy with rfl | hy
        · rw [heq, show _ = none from hsmp] at hsome
          cases hsome
        · exact hl.apart x hx y hy hsome heq
    · rw [hr'] at hm
      cases hm
  | parsed he => exact hl.edited he hsound
  | dumped _ he => exact hl.edited he hsound

/-- In a run in which no sender is registered for a message while a registration for it is queued, at
most one registration is queued for every message that waits. -/
theorem run_registersEach (h : GuardedRun Unlinked (Step lib) (RegistersOnce lib) d) :
    d.queue.RegistersEach := by
  have hl : d.Linked := h.invariant Linked (fun _ h0 => h0.linked)
    fun _ _ _ hl hg hn => hl.next hg hn
  exact fun _ _ _ tag _ => hl.apart.registrations hl.distinct tag

/-! ## A registrar that never answers -/

/-- The address that the sender of the sample message is registered under. -/
def registeredName (params : List (CString × Option CString)) : NameAddr :=
  ⟨some (str "+15550001"), some (sampleUri (str "+15550001") (some (str "5064"))), params⟩

/-- The registrar. -/
def registrarUri : SipUri := ⟨some (str "sip"), none, some (str "127.0.0.1"), some (str "5064")⟩

/-- The registration of the sender of the sample message with a sequence number. -/
def sampleRegister (seq : CString) : SipMessage where
  sipMethod := some (str "REGISTER")
  reqUri := some registrarUri
  vias := sampleVias.map Prod.snd
  fromHeader := some (registeredName [(str "tag", some seq)])
  toHeader := some (registeredName [])
  callId := some ⟨some (str "1"), some (str "127.0.0.1")⟩
  cseq := some ⟨some seq, some (str "REGISTER")⟩
  contact := some (str "<sip:+15550001@>;expires=3600")

/-- The libraries that know the sample message and two registrations of its sender. -/
def registerLibs : Libs :=
  { addressLibs [sampleRequest, sampleRegister (str "1"), sampleRegister (str "2")]
      [(str "+15550001<sip:+15550001@127.0.0.1:5064>", registeredName []),
       (str "+15550001<sip:+15550001@127.0.0.1:5064>;tag=1",
        registeredName [(str "tag", some (str "1"))]),
       (str "+15550001<sip:+15550001@127.0.0.1:5064>;tag=2",
        registeredName [(str "tag", some (str "2"))])]
      [(str "sip:127.0.0.1:5064", registrarUri)] with
    callIdParse := fun s => if s = str "1@127.0.0.1" then
      some ⟨some (str "1"), some (str "127.0.0.1")⟩ else none }

/-- An environment in which the number of the sender is known. -/
def registryEnv (now : Time) : Env :=
  { sampleEnv now with hlr := { getCLIDLocal := fun _ => some (str "5550001") } }

/-- A message whose sender is to be registered. -/
def registerDaemon : Daemon where
  queue :=
    { settings := {}
      timeSortedList := [queuedMsg 0 .registerHandset 0 sampleRequest]
      nextId := 1 }
  events := []
  reader := .waiting
  writer := .waiting

theorem registerDaemon_unlinked : registerDaemon.Unlinked where
  distinct := by
    refine ⟨List.nodup_singleton 0, fun i hi => ?_⟩
    obtain rfl := List.mem_singleton.1 hi
    exact Nat.zero_lt_one
  reader := rfl
  writer := rfl
  events := fun _ he => (by cases he)
  fits := Nat.zero_le _
  linktag := fun m hm => by
    obtain rfl := List.mem_singleton.1 hm
    rfl

/-- The sender of the sample message is registered once. -/
theorem run_registersEach_one : ∃ d,
    registerDaemon.run registerLibs [.receive, .pass (registryEnv 0)] = some d ∧
      (d.queue.registrations (str "1--7")).length = 1 ∧ d.queue.RegistersEach := by
  have hone : (registerDaemon.run registerLibs [.receive, .pass (registryEnv 0)]).any
      (fun d => (d.queue.registrations (str "1--7")).length = 1) = true := by decide +kernel
  obtain ⟨d, hrun, hlength⟩ := (Option.any_eq_true _ _).1 hone
  have h0 : GuardedRun Unlinked (Step registerLibs) (RegistersOnce registerLibs) registerDaemon :=
    .start registerDaemon_unlinked
  obtain ⟨d1, hreceive, hrest⟩ := Option.bind_eq_some_iff.1 hrun
  obtain ⟨d2, hpass, hd⟩ := Option.bind_eq_some_iff.1 hrest
  cases hreceive
  cases hd
  have h1 := h0.next (a := DaemonAct.receive) trivial rfl
  exact ⟨d, hrun, of_decide_eq_true hlength,
    run_registersEach (h1.next (a := DaemonAct.pass (registryEnv 0)) (fun _ _ _ _ _ => rfl) hpass)⟩

/-- The steps until the sender is registered again: the registration is sent, and the message times
out twice. -/
def registerAgainSteps : List DaemonAct :=
  [.receive, .pass (registryEnv 0), .sendNested, .unlock, .tidy none, .receive,
    .pass (registryEnv 2000), .unlock, .receive, .pass (registryEnv 2000), .unlock, .tidy none,
    .receive, .pass (registryEnv 3000)]

/-- The head has been registered for twice while it waits. -/
theorem run_registerAgain : (registerDaemon.run registerLibs registerAgainSteps).any (fun d =>
    d.queue.timeSortedList.any fun m => SMq.underRegistration m.state && m.qtag = some (str "1--7") &&
      (d.queue.registrations (str "1--7")).length = 2) = true := by
  decide +kernel

/-- A message that waits for a registration times out and asks for another one, while the first is
still queued. -/
theorem not_run_registersEach : ¬ ∀ (lib : Libs) (d : Daemon),
    Runs.Reachable Unlinked (Step lib) d → d.queue.RegistersEach := by
  intro hall
  obtain ⟨d, hrun, hany⟩ := (Option.any_eq_true _ _).1 run_registerAgain
  obtain ⟨m, hm, hwaits⟩ := List.any_eq_true.1 hany
  simp only [Bool.and_eq_true, decide_eq_true_eq] at hwaits
  obtain ⟨⟨hstate, htag⟩, htwo⟩ := hwaits
  have hreach : Runs.Reachable Unlinked (Step registerLibs) d :=
    reachable_run (.start registerDaemon_unlinked) hrun
  have hone := hall registerLibs d hreach m hm hstate _ htag
  rw [htwo] at hone
  exact absurd hone (by decide)

end Daemon

end Smqueue

import Smqueue.Reprocessing
import Smqueue.Proofs.RestartProofs
import Smqueue.Proofs.TransitionsProofs

/-!
# Proofs: messages that are processed again

Only the command for the service centre has a message processed again, and it gives the message the
recipient that it reads off it. That recipient stays the same from then on.
-/

namespace Smqueue

variable {lib : Libs} {env : Env} {keys : ShortCodeKeys} {q q1 q' : SMq} {m m' : ShortMsgPending}
  {sm sm' : ShortMsg} {r : ShortCodeResult} {text number address : CString} {i : MsgId}

namespace SMq

open Daemon (submitSip submitMsg)

/-! ## The map of the commands -/

/-- The entry of the service centre is the last one that is made. -/
theorem shortCodeOf_smsc {s : Settings} (hk : s.shortCodeMap = initSmcommands keys) :
    shortCodeOf s number = some .smsc ↔ keys.smsc = some number := by
  have hother : ∀ e ∈ initSmcommands { keys with smsc := none }, e.2 ≠ ShortCode.smsc := by
    intro e he
    unfold initSmcommands at he
    obtain ⟨⟨key, code⟩, hmem, hkey⟩ := List.mem_filterMap.1 he
    obtain ⟨k, hk, rfl⟩ := Option.map_eq_some_iff.1 hkey
    simp only [List.mem_cons, List.not_mem_nil, or_false, Prod.mk.injEq] at hmem
    rcases hmem with ⟨rfl, -⟩ | ⟨-, rfl⟩ | ⟨-, rfl⟩ | ⟨-, rfl⟩ | ⟨-, rfl⟩ | ⟨-, rfl⟩ | ⟨-, rfl⟩ <;>
      first | cases hk; done | (intro h; cases h)
  have hrest : ∀ e, (initSmcommands { keys with smsc := none }).find? (·.1 = number) = some e →
      e.2 ≠ ShortCode.smsc := fun e he => hother e (List.mem_of_find?_eq_some he)
  unfold shortCodeOf
  rw [hk]
  cases hs : keys.smsc with
  | none =>
    have heq : initSmcommands keys = initSmcommands { keys with smsc := none } := by
      unfold initSmcommands
      rw [hs]
    rw [heq]
    refine ⟨fun h => ?_, fun h => by cases h⟩
    obtain ⟨e, he, hcode⟩ := Option.map_eq_some_iff.1 h
    exact absurd hcode (hrest e he)
  | some key =>
    have heq : initSmcommands keys =
        (key, .smsc) :: initSmcommands { keys with smsc := none } := by
      unfold initSmcommands
      rw [hs]
      rfl
    rw [heq, List.find?_cons]
    by_cases hkey : key = number
    · simp [hkey]
    · rw [decide_eq_false hkey]
      refine ⟨fun h => ?_, fun h => absurd (Option.some.inj h) hkey⟩
      obtain ⟨e, he, hcode⟩ := Option.map_eq_some_iff.1 h
      exact absurd hcode (hrest e he)

/-! ## The command that has a message processed again -/

theorem whiplashQuit_action (h : q.whiplashQuit lib env text = .ok r) :
    r.action ≠ .restartProcessing := by
  unfold whiplashQuit at h
  dsimp only at h
  split at h
  · cases h
    exact nofun
  · split at h
    · cases h
      exact nofun
    · split at h
      · cases h
        exact nofun
      · split at h
        · obtain ⟨q1, -, h⟩ := Except.bind_eq_ok.1 h
          cases h
          exact nofun
        · cases h
          exact nofun

theorem shortcodeFourOneOne_action (h : q.shortcodeFourOneOne lib env i text = .ok r) :
    r.action ≠ .restartProcessing := by
  unfold shortcodeFourOneOne at h
  obtain ⟨⟨c, l⟩, -, h⟩ := Except.bind_eq_ok.1 h
  obtain ⟨m, -, h⟩ := Except.bind_eq_ok.1 h
  obtain ⟨sip, -, h⟩ := Except.bind_eq_ok.1 h
  obtain ⟨from?, -, h⟩ := Except.bind_eq_ok.1 h
  obtain ⟨username, -, h⟩ := Except.bind_eq_ok.1 h
  dsimp only at h
  split at h <;> cases h <;> exact nofun

theorem shortcodeZapQueued_action (h : q.shortcodeZapQueued env text = .ok r) :
    r.action ≠ .restartProcessing := by
  have hreply : (if text.head? = some 45 then ShortCodeAction.done else .reply) ≠
      .restartProcessing := by
    split <;> exact nofun
  unfold shortcodeZapQueued at h
  dsimp only at h
  generalize (if text.head? = some 45 then text.drop 1 else text) = tag at h
  generalize (if text.head? = some 45 then ShortCodeAction.done else .reply) = action at h hreply
  split at h
  · split at h
    · cases h
    · cases h
      exact hreply
  · split at h <;> cases h <;> exact hreply

theorem shortcodeRegister_action (imsi : CString) :
    (q.shortcodeRegister env imsi text).action ≠ .restartProcessing := by
  unfold shortcodeRegister
  dsimp only
  split
  · exact nofun
  · split
    · split <;> exact nofun
    · split
      · exact nofun
      · split <;> exact nofun

/-- The service centre has the message processed again with the address that it reads off it. -/
theorem shortcodeSmsc_restarts (h : q.shortcodeSmsc env m text = .ok r)
    (ht : m.getText = .ok text) (ha : r.action = .restartProcessing) :
    ∃ address sm, SendsOn m.toShortMsg address ∧ sendSIP m.toShortMsg address = .ok sm ∧
      r.queue = q.store { m with toShortMsg := sm } := by
  unfold shortcodeSmsc at h
  split at h
  next =>
    obtain ⟨sm, hsm, -⟩ := Except.bind_eq_ok.1 h
    exact absurd hsm (sendSIPInitText_ne_ok m.toShortMsg sm)
  next submit hc htl =>
    obtain ⟨⟨action, sm⟩, hsubmit, h⟩ := Except.bind_eq_ok.1 h
    cases h
    have ha' : action = .restartProcessing := ha
    subst ha'
    have hnot : ∀ b : Bool,
        (if b then ShortCodeAction.done else .internalError) ≠ .restartProcessing := by decide
    unfold submitSMS at hsubmit
    dsimp only at hsubmit
    split at hsubmit
    · exact absurd (Prod.mk.inj (Except.ok.inj hsubmit)).1 (hnot _)
    · rename_i hemail
      split at hsubmit
      · exact absurd (Prod.mk.inj (Except.ok.inj hsubmit)).1 (hnot _)
      · obtain ⟨sm', hsm, hsubmit⟩ := Except.bind_eq_ok.1 hsubmit
        cases hsubmit
        exact ⟨_, sm, .submit hc htl ht (Bool.eq_false_iff.2 hemail) rfl, hsm, rfl⟩
  next =>
    cases h
    cases ha

theorem callShortCode_restarts (h : q.callShortCode lib env m = .ok (some r))
    (ha : r.action = .restartProcessing) :
    (∃ number, requestUser m.toShortMsg = some number ∧
      shortCodeOf q.settings number = some .smsc) ∧
    ∃ address sm, SendsOn m.toShortMsg address ∧ sendSIP m.toShortMsg address = .ok sm ∧
      r.queue = q.store { m with toShortMsg := sm } := by
  unfold callShortCode at h
  obtain ⟨sip, hsip, h⟩ := Except.bind_eq_ok.1 h
  obtain ⟨uri, huri, h⟩ := Except.bind_eq_ok.1 h
  obtain ⟨number, hnumber, h⟩ := Except.bind_eq_ok.1 h
  have huser : requestUser m.toShortMsg = some number := by
    unfold requestUser
    rw [deref_eq_ok hsip, Option.bind_some, deref_eq_ok huri, Option.bind_some,
      deref_eq_ok hnumber]
  split at h
  · cases h
  · rename_i code hcode
    obtain ⟨body, hbody, h⟩ := Except.bind_eq_ok.1 h
    obtain ⟨imsi, -, h⟩ := Except.bind_eq_ok.1 h
    obtain ⟨r', hrun, h⟩ := Except.bind_eq_ok.1 h
    cases h
    cases code with
    | whiplashQuit => exact absurd ha (whiplashQuit_action hrun)
    | debugDump =>
      obtain ⟨q1, -, hrun⟩ := Except.bind_eq_ok.1 hrun
      cases hrun
      cases ha
    | quickChk =>
      cases hrun
      cases ha
    | fourOneOne => exact absurd ha (shortcodeFourOneOne_action hrun)
    | zapQueued => exact absurd ha (shortcodeZapQueued_action hrun)
    | register =>
      obtain ⟨imsi, -, hrun⟩ := Except.bind_eq_ok.1 hrun
      cases hrun
      exact absurd ha (shortcodeRegister_action imsi)
    | smsc => exact ⟨⟨number, huser, hcode⟩, shortcodeSmsc_restarts hrun hbody ha⟩

/-- Only one action puts the message back into the initial state. -/
theorem finishShortCode_initial (h : finishShortCode lib env i r = .ok (some .initialState, q')) :
    r.action = .restartProcessing ∧ q' = r.queue := by
  unfold finishShortCode at h
  cases ha : r.action <;> rw [ha] at h <;> dsimp only at h
  case reply =>
    obtain ⟨x, -, h⟩ := Except.bind_eq_ok.1 h
    obtain ⟨addresses, -, h⟩ := Except.bind_eq_ok.1 h
    obtain ⟨⟨ok, q1⟩, -, h⟩ := Except.bind_eq_ok.1 h
    cases ok <;> cases h
  case register =>
    obtain ⟨x, -, h⟩ := Except.bind_eq_ok.1 h
    obtain ⟨⟨next, q1⟩, hreg, h⟩ := Except.bind_eq_ok.1 h
    cases h
    rcases registerHandset_next hreg with hnext | hnext <;> cases hnext
  case retryAfterDelay =>
    obtain ⟨x, -, h⟩ := Except.bind_eq_ok.1 h
    cases h
  case restartProcessing =>
    cases h
    exact ⟨rfl, rfl⟩
  all_goals cases h

/-! ## The new recipient -/

/-- What the service centre changes in a message: both recipients are the address. -/
structure Readdressed (address : CString) (sm sm' : ShortMsg) : Prop where
  content : ∃ p p', sm.parsed = some p ∧
    sm' = { sm with parsed := some p', parsedIsBetter := true } ∧ p'.statusCode = p.statusCode ∧
      p'.sipMethod = p.sipMethod ∧ p'.fromHeader = p.fromHeader
  user : requestUser sm' = some address
  recipient : ∃ p', sm'.parsed = some p' ∧ p'.toUsername = .ok (some address)

theorem sendSIP_readdressed (h : sendSIP sm address = .ok sm') : Readdressed address sm sm' := by
  unfold sendSIP at h
  obtain ⟨p, hp, h⟩ := Except.bind_eq_ok.1 h
  obtain ⟨p', hp', h⟩ := Except.bind_eq_ok.1 h
  cases h
  unfold setToForSmsc at hp'
  obtain ⟨toHeader, hto, hp'⟩ := Except.bind_eq_ok.1 hp'
  obtain ⟨url, hurl, hp'⟩ := Except.bind_eq_ok.1 hp'
  obtain ⟨uri, huri, hp'⟩ := Except.bind_eq_ok.1 hp'
  obtain ⟨user, huser, hp'⟩ := Except.bind_eq_ok.1 hp'
  cases hp'
  refine ⟨⟨p, _, deref_eq_ok hp, rfl, rfl, rfl, rfl⟩, ?_, _, rfl, rfl⟩
  have huri' := deref_eq_ok huri
  unfold ShortMsg.editUri at huri'
  obtain ⟨u, hu, rfl⟩ := Option.map_eq_some_iff.1 huri'
  change ((ShortMsg.editUri p _).reqUri).bind SipUri.username = some address
  unfold ShortMsg.editUri
  rw [hu]
  rfl

/-- A pass with a text message at its head calls `handle_short_code`. -/
theorem processTimeout_text (hh : q.timeSortedList.head? = some m)
    (hdue : m.nextActionTime ≤ env.clock.entry) (hs : m.state = .initialState)
    (ht : isTextMessage m.toShortMsg = true) :
    q.processTimeout lib env = (q.handleShortCode lib env m >>= fun (next, q1) =>
      q1.setState m.id (next.getD .requestFromAddressLookup) env.clock.final) := by
  obtain ⟨rest, hl⟩ : ∃ rest, q.timeSortedList = m :: rest := List.head?_eq_some_iff.1 hh
  unfold isTextMessage at ht
  obtain ⟨p, hp, ht⟩ := (Option.any_eq_true _ _).1 ht
  rw [Bool.and_eq_true, decide_eq_true_eq] at ht
  have hmethod : strcmpEq p.sipMethod (str "MESSAGE") = .ok true := by
    rw [ht.2]
    rfl
  have hdispatch : q.processTimeout lib env = q.dispatch lib env m := by
    unfold processTimeout
    rw [hl]
    exact if_neg (not_lt.2 hdue)
  rw [hdispatch]
  unfold dispatch
  rw [hs]
  change q.processInitial lib env m = _
  unfold processInitial
  rw [hp]
  change (if p.isRequest then _ else _) = _
  rw [if_pos ht.1, hmethod]
  rfl

/-- A text message is put into another state, unless `handle_short_code` gives the initial one. -/
theorem processTimeout_leaves (hh : q.timeSortedList.head? = some m)
    (hdue : m.nextActionTime ≤ env.clock.entry) (hs : m.state = .initialState)
    (ht : isTextMessage m.toShortMsg = true) (hq : q.processTimeout lib env = .ok q')
    (hc : ∀ q1, q.handleShortCode lib env m ≠ .ok (some .initialState, q1)) :
    ∃ s, q'.HasState m.id s ∧ s ≠ .initialState := by
  rw [processTimeout_text hh hdue hs ht] at hq
  obtain ⟨⟨next, q1⟩, hcode, hset⟩ := Except.bind_eq_ok.1 hq
  refine ⟨_, .setState hset, fun hnext => ?_⟩
  cases next with
  | none => cases hnext
  | some s =>
    obtain rfl : s = .initialState := hnext
    exact hc q1 hcode

theorem refreshed_tree (hv : sm.parsedIsValid = true)
    (h : Relation.ReflTransGen (ShortMsg.Refresh lib) sm sm') :
    sm'.parsedIsValid = true ∧ sm'.parsed = sm.parsed := by
  induction h with
  | refl => exact ⟨hv, rfl⟩
  | tail _ hr ih =>
    obtain ⟨hvalid, htree⟩ := ShortMsg.Refresh.tree ih.1 hr
    exact ⟨hvalid, htree.trans ih.2⟩

/-- A message that is processed again was for the service centre, and has the recipient that it was
sent on to. -/
theorem Reprocessed.readdressed (h : Reprocessed lib keys m m') (hv : m.parsedIsValid = true) :
    ∃ number address, keys.smsc = some number ∧ requestUser m.toShortMsg = some number ∧
      SendsOn m.toShortMsg address ∧ requestUser m'.toShortMsg = some address ∧
      m'.parsedIsValid = true := by
  obtain ⟨hk, hd, hh, hdue, hs, ht, hc, hq, hm, hid, hr⟩ := h
  rename_i env q q1 q' m1 sm t
  rw [processTimeout_text hh hdue hs ht, hc] at hq
  unfold handleShortCode at hc
  obtain ⟨res, hcall, hfinish⟩ := Except.bind_eq_ok.1 hc
  cases res with
  | none => cases hfinish
  | some r =>
    obtain ⟨haction, rfl⟩ := finishShortCode_initial hfinish
    obtain ⟨⟨number, huser, hcode⟩, address, sm1, hsends, hsip, hqueue⟩ :=
      callShortCode_restarts hcall haction
    refine ⟨number, address, (shortCodeOf_smsc hk).1 hcode, huser, hsends, ?_⟩
    have hmem := head_mem hh
    have hm2 : ({ m with toShortMsg := sm1 } : ShortMsgPending) ∈ r.queue.timeSortedList := by
      rw [hqueue]
      exact List.mem_map.2 ⟨m, hmem, if_pos rfl⟩
    have hstored : Moved q r.queue m.id := by
      rw [hqueue]
      exact Moved.store hd (.refl q m.id) hmem rfl
    have hset : r.queue.setState m.id .initialState env.clock.final = .ok q' := hq
    obtain ⟨-, hfind⟩ := setState_find (hstored.distinct hd) hm2 hset
    have hd' : q'.Distinct := (Moved.setState hd hstored hset).distinct hd
    have hsame : m1.toShortMsg = sm1 := by
      have hfind1 := find_mem hd'.nodup hm
      rw [hid, hfind] at hfind1
      exact (congrArg ShortMsgPending.toShortMsg (Option.some.inj hfind1)).symm
    have hsent := sendSIP_readdressed hsip
    obtain ⟨p, p', -, hcontent, -⟩ := hsent.content
    have hvalid : sm1.parsedIsValid = true := by
      rw [hcontent]
      exact hv
    obtain ⟨hvalid', htree⟩ := refreshed_tree hvalid (hsame ▸ hr)
    refine ⟨?_, hvalid'⟩
    unfold requestUser
    rw [htree]
    exact hsent.user

theorem Reprocessed.isTextMessage (h : Reprocessed lib keys m m') :
    SMq.isTextMessage m.toShortMsg = true := by
  obtain ⟨-, -, -, -, -, ht, -, -, -, -, -⟩ := h
  exact ht

/-! ## Chains of passes -/

/-- A message with the recipient that it was sent on to is sent on to it again. -/
theorem SendsOn.again (h : SendsOn sm address) (hr : Readdressed address sm sm') :
    SendsOn sm' address := by
  obtain ⟨p, p', hp, rfl, -⟩ := hr.content
  cases h with
  | submit hc ht hb he ha =>
    refine .submit hc ht ?_ he ha
    unfold ShortMsg.getText at hb ⊢
    rw [hc] at hb
    change (match sm.contentType with | _ => _) = _
    rw [hc]
    exact hb

theorem settles_of_not_circular (hv : m.parsedIsValid = true)
    (hn : ¬ Circular keys m.toShortMsg) : Settles lib keys m := by
  refine Acc.intro m fun m' h => Acc.intro m' fun m'' h' => ?_
  obtain ⟨number, address, hkey, hnumber, hsends, huser, hv'⟩ := h.readdressed hv
  obtain ⟨number', -, hkey', huser', -⟩ := h'.readdressed hv'
  have heq : address = number := by
    rw [← Option.some.inj (huser.symm.trans huser')] at hkey'
    exact Option.some.inj (hkey'.symm.trans hkey)
  exact absurd ⟨h.isTextMessage, number, hkey, hnumber, heq ▸ hsends⟩ hn

/-- A circular message in the initial state, with the headers that are read. -/
structure Cycling (keys : ShortCodeKeys) (m : ShortMsgPending) : Prop where
  state : m.state = .initialState
  circular : Circular keys m.toShortMsg
  headers : ∃ p, m.parsed = some p ∧ (p.fromHeader.bind NameAddr.url).isSome = true ∧
    (p.toHeader.bind NameAddr.url).isSome = true

/-- A queue with one message. -/
def alone (keys : ShortCodeKeys) (m : ShortMsgPending) : SMq where
  settings := { shortCodeMap := initSmcommands keys }
  timeSortedList := [m]
  nextId := m.id + 1

theorem alone_distinct (keys : ShortCodeKeys) (m : ShortMsgPending) : (alone keys m).Distinct := by
  refine ⟨List.nodup_singleton m.id, fun i hi => ?_⟩
  rw [List.mem_singleton.1 hi]
  exact Nat.lt_succ_self m.id

theorem alone_store (keys : ShortCodeKeys) (m : ShortMsgPending) (sm : ShortMsg) :
    (alone keys m).store { m with toShortMsg := sm } = alone keys { m with toShortMsg := sm } := by
  unfold store alone
  rw [List.map_singleton, if_pos rfl]

theorem alone_setState (keys : ShortCodeKeys) (m : ShortMsgPending) (s : SmState) (now : Time) :
    (alone keys m).setState m.id s now = .ok ((alone keys { m with
      state := s, nextActionTime := now + (alone keys m).settings.timeouts.get m.state s }).readTable
        m.state s) := by
  have hmem : m ∈ (alone keys m).timeSortedList := List.mem_singleton.2 rfl
  have hmsg : (alone keys m).msg m.id = .ok m := by
    unfold msg
    rw [find_mem (alone_distinct keys m).nodup hmem]
    rfl
  have hread : ((alone keys m).readTable m.state s).msg m.id = .ok m := hmsg
  have hrest : ((alone keys m).readTable m.state s).timeSortedList.filter (·.id ≠ m.id) = [] :=
    List.filter_eq_nil_iff.2 fun x hx => by simp [List.mem_singleton.1 hx]
  unfold setState
  rw [hmsg]
  change setStateAt _ _ _ _ = _
  unfold setStateAt
  rw [hread]
  change Except.ok _ = _
  rw [hrest]
  rfl

/-- An environment with a global relay. -/
def relayEnv (now : Time) : Env :=
  { sampleEnv now with config := { globalRelayIp := str "10.0.0.1" } }

/-- The message is sent on to any address. -/
theorem sendSIP_exists {p : SipMessage} (hp : sm.parsed = some p)
    (hu : requestUser sm = some number) (hto : (p.toHeader.bind NameAddr.url).isSome = true)
    (address : CString) : ∃ sm', sendSIP sm address = .ok sm' := by
  unfold requestUser at hu
  rw [hp, Option.bind_some] at hu
  obtain ⟨uri, huri, huser⟩ := Option.bind_eq_some_iff.1 hu
  obtain ⟨url, hurl⟩ := Option.isSome_iff_exists.1 hto
  obtain ⟨toHeader, hto', hurl⟩ := Option.bind_eq_some_iff.1 hurl
  unfold sendSIP setToForSmsc ShortMsg.editUri
  rw [hp]
  change ∃ sm', ((deref p.toHeader >>= fun _ => _) >>= fun _ => _) = Except.ok sm'
  rw [hto']
  change ∃ sm', ((deref toHeader.url >>= fun _ => _) >>= fun _ => _) = Except.ok sm'
  rw [hurl]
  change ∃ sm', ((deref (p.reqUri.map _) >>= fun _ => _) >>= fun _ => _) = Except.ok sm'
  rw [huri]
  exact ⟨_, rfl⟩

/-- With a global relay, the service centre has every message processed again that it can send on. -/
theorem shortcodeSmsc_sendsOn (hrelay : env.config.globalRelayIp.isEmpty = false)
    (h : SendsOn m.toShortMsg address) (hsm : sendSIP m.toShortMsg address = .ok sm) :
    ∃ text, m.getText = .ok text ∧ q.shortcodeSmsc env m text =
      .ok ⟨.restartProcessing, [], q.store { m with toShortMsg := sm }⟩ := by
  cases h with
  | submit hc ht hb he ha =>
    rename_i submit body
    refine ⟨body, hb, ?_⟩
    have hinit : sendSIPInit submit m.toShortMsg = .ok sm := by
      unfold sendSIPInit
      rw [ha]
      exact hsm
    have hsubmit : submitSMS env submit body m.toShortMsg = .ok (.restartProcessing, sm) := by
      unfold submitSMS
      dsimp only
      rw [he, hrelay, Bool.false_and, Bool.false_and, if_neg Bool.false_ne_true,
        if_neg Bool.false_ne_true, hinit]
      rfl
    unfold shortcodeSmsc
    rw [hc, ht]
    change (submitSMS env submit body m.toShortMsg >>= fun _ => _) = _
    rw [hsubmit]
    rfl

theorem handleShortCode_sendsOn {p : SipMessage} (hrelay : env.config.globalRelayIp.isEmpty = false)
    (hk : q.settings.shortCodeMap = initSmcommands keys) (hkey : keys.smsc = some number)
    (hu : requestUser m.toShortMsg = some number) (hp : m.parsed = some p)
    (hfrom : (p.fromHeader.bind NameAddr.url).isSome = true) (h : SendsOn m.toShortMsg address)
    (hsm : sendSIP m.toShortMsg address = .ok sm) :
    q.handleShortCode lib env m =
      .ok (some .initialState, q.store { m with toShortMsg := sm }) := by
  obtain ⟨text, htext, hsmsc⟩ := shortcodeSmsc_sendsOn (q := q) hrelay h hsm
  unfold requestUser at hu
  rw [hp, Option.bind_some] at hu
  obtain ⟨uri, huri, huser⟩ := Option.bind_eq_some_iff.1 hu
  obtain ⟨url, hurl⟩ := Option.isSome_iff_exists.1 hfrom
  obtain ⟨fromHeader, hfrom', hurl⟩ := Option.bind_eq_some_iff.1 hurl
  have husername : p.fromUsername = .ok url.username := by
    unfold SipMessage.fromUsername
    rw [hfrom']
    change (deref fromHeader.url >>= fun _ => _) = _
    rw [hurl]
    rfl
  have hcall : q.callShortCode lib env m =
      .ok (some ⟨.restartProcessing, [], q.store { m with toShortMsg := sm }⟩) := by
    unfold callShortCode
    rw [hp]
    change (deref p.reqUri >>= fun _ => _) = _
    rw [huri]
    change (deref uri.username >>= fun _ => _) = _
    rw [huser]
    rw [deref_some, Except.ok_bind, (shortCodeOf_smsc hk).2 hkey]
    change (m.getText >>= fun _ => _) = _
    rw [htext]
    change (p.fromUsername >>= fun _ => _) = _
    rw [husername]
    change (q.shortcodeSmsc env m text >>= fun _ => _) = _
    rw [hsmsc]
    rfl
  unfold handleShortCode
  rw [hcall]
  rfl

/-- The recipient was read off a To header with an address. -/
theorem toUrl_isSome {p : SipMessage} {user : Option CString} (h : p.toUsername = .ok user) :
    (p.toHeader.bind NameAddr.url).isSome = true := by
  unfold SipMessage.toUsername at h
  obtain ⟨toHeader, hto, h⟩ := Except.bind_eq_ok.1 h
  obtain ⟨url, hurl, -⟩ := Except.bind_eq_ok.1 h
  rw [deref_eq_ok hto, Option.bind_some, deref_eq_ok hurl]
  rfl

/-- A circular message is processed again, and is circular again. -/
theorem Cycling.again (hc : Cycling keys m) :
    ∃ m', Reprocessed lib keys m m' ∧ Cycling keys m' := by
  obtain ⟨ht, number, hkey, huser, hsends⟩ := hc.circular
  obtain ⟨p, hp, hfrom, hto⟩ := hc.headers
  obtain ⟨sm, hsm⟩ := sendSIP_exists hp huser hto number
  have hsent := sendSIP_readdressed hsm
  have hhandled : (alone keys m).handleShortCode lib (relayEnv m.nextActionTime) m =
      .ok (some .initialState, alone keys { m with toShortMsg := sm }) := by
    have hmap : (alone keys m).settings.shortCodeMap = initSmcommands keys := rfl
    rw [← alone_store keys m sm]
    exact handleShortCode_sendsOn rfl hmap hkey huser hp hfrom hsends hsm
  have hpass : (alone keys m).processTimeout lib (relayEnv m.nextActionTime) =
      (alone keys { m with toShortMsg := sm }).setState m.id .initialState m.nextActionTime := by
    rw [processTimeout_text rfl (Int.le_refl _) hc.state ht, hhandled]
    rfl
  have hset := hpass.trans
    (alone_setState keys { m with toShortMsg := sm } .initialState m.nextActionTime)
  refine ⟨_, .mk (t := m.nextActionTime) rfl (alone_distinct keys m) rfl (Int.le_refl _) hc.state ht
    hhandled hset (List.mem_singleton.2 rfl) rfl .refl, rfl, ?_, ?_⟩
  · obtain ⟨p1, p2, hp1, hcontent, hstatus, hmethod, -⟩ := hsent.content
    refine ⟨?_, number, hkey, hsent.user, hsends.again hsent⟩
    unfold isTextMessage SipMessage.isRequest SipMessage.isResponse at ht ⊢
    change sm.parsed.any _ = true
    rw [hp1] at ht
    rw [hcontent]
    change (!decide (p2.statusCode ≠ 0) && decide (p2.sipMethod = some (str "MESSAGE"))) = true
    rw [hstatus, hmethod]
    exact ht
  · obtain ⟨p1, p2, hp1, hcontent, -, -, hfromHeader⟩ := hsent.content
    obtain ⟨p3, hp3, huser3⟩ := hsent.recipient
    refine ⟨p3, hp3, ?_, toUrl_isSome huser3⟩
    rw [hcontent] at hp3
    cases hp3
    rw [hfromHeader]
    cases hp.symm.trans hp1
    exact hfrom

theorem not_settles_of_cycling (hc : Cycling keys m) : ¬ Settles lib keys m := by
  intro hs
  induction hs with
  | intro m _ ih =>
    obtain ⟨m', h, hc'⟩ : ∃ m', Reprocessed lib keys m m' ∧ Cycling keys m' := hc.again
    exact ih m' h hc'

/-- A message that enters the state machine is processed again only finitely often, exactly if it is
not for a service centre that sends it on to itself. -/
theorem settles_iff (he : Enters m) : Settles lib keys m ↔ ¬ Circular keys m.toShortMsg := by
  refine ⟨fun hs hcircular => ?_, settles_of_not_circular he.valid⟩
  refine not_settles_of_cycling ⟨he.state, hcircular, ?_⟩ hs
  obtain ⟨p, hp, htext⟩ := (Option.any_eq_true _ _).1 hcircular.1
  rw [Bool.and_eq_true] at htext
  obtain ⟨-, hfrom, -, hto⟩ := ShortMsgPending.checkCommon_eq_zero_iff.1
    (ShortMsgPending.checkCommon_of_checkParsed (he.checked p hp))
  refine ⟨p, hp, hfrom, ?_⟩
  unfold ShortMsgPending.toHeaderOk at hto
  obtain ⟨url, hurl, -⟩ := (Option.any_eq_true _ _).1 hto
  rw [hurl]
  rfl

/-! ## Messages to the service centre -/

/-- An SMS-SUBMIT to the given number, which is to be sent on to a phone. -/
def serviceSip (number : CString) : SipMessage :=
  { submitSip with reqUri := some (sampleUri number none) }

def serviceMsg (number : CString) : ShortMsgPending :=
  { submitMsg with
    state := .initialState
    text := some (SampleLibs.messageText (serviceSip number))
    textLength := (SampleLibs.messageText (serviceSip number)).length
    parsed := some (serviceSip number) }

theorem serviceMsg_sendsOn (number : CString) :
    SendsOn (serviceMsg number).toShortMsg (str "155500020002") := by
  have htext : submitMsg.getText = .ok (str "hi") := by decide +kernel
  exact .submit rfl rfl htext (by decide) rfl

/-- The message for the default number of the service centre, which is no phone number. -/
theorem settles_iff_centre : Enters (serviceMsg (str "smsc")) ∧
    SendsOn (serviceMsg (str "smsc")).toShortMsg (str "155500020002") ∧
    Settles (sampleLibs [serviceSip (str "smsc")] []) { smsc := some (str "smsc") }
      (serviceMsg (str "smsc")) := by
  have he : Enters (serviceMsg (str "smsc")) := by
    refine ⟨rfl, rfl, fun sip hsip => ?_⟩
    obtain rfl : serviceSip (str "smsc") = sip := Option.some.inj hsip
    decide
  refine ⟨he, serviceMsg_sendsOn _, (settles_iff he).2 ?_⟩
  rintro ⟨-, number, hkey, -, hsends⟩
  obtain rfl : str "smsc" = number := Option.some.inj hkey
  cases hsends with
  | submit _ ht _ _ ha =>
    cases ht
    exact absurd ha (by decide)

/-- The service centre has the number that the message is sent on to, and sends it on to itself for
ever. -/
theorem not_settles_circular : ¬ ∀ (lib : Libs) (keys : ShortCodeKeys) (m : ShortMsgPending),
    Enters m → Settles lib keys m := by
  intro hall
  have he : Enters (serviceMsg (str "155500020002")) := by
    refine ⟨rfl, rfl, fun sip hsip => ?_⟩
    obtain rfl : serviceSip (str "155500020002") = sip := Option.some.inj hsip
    decide
  have hc : Cycling { smsc := some (str "155500020002") } (serviceMsg (str "155500020002")) :=
    ⟨rfl, ⟨by decide, _, rfl, by decide, serviceMsg_sendsOn _⟩, serviceSip (str "155500020002"),
      rfl, rfl, rfl⟩
  exact not_settles_of_cycling hc (hall (sampleLibs [] []) _ _ he)

end SMq

end Smqueue

import Smqueue.Resumed
import Smqueue.Proofs.AddressesProofs
import Smqueue.Proofs.AnswersProofs
import Smqueue.Proofs.WellFormedProofs

/-!
# Proofs: the program goes on after a restart

The records of the file are well framed as long as their times fit, and each of them becomes the
message that it was made of; the first one whose time does not fit stops the stream for good.
-/

namespace Smqueue

open Runs (GuardedRun)

variable {lib : Libs} {env : Env} {ns : NameService} {s : Settings} {q q' : SMq}
  {m m' x : ShortMsgPending} {ms : List ShortMsgPending} {r : QueueRecord} {rs : List QueueRecord}

/-! ## Saving -/

theorem ShortMsg.makeTextValid_of_better {sm : ShortMsg} {p : SipMessage}
    (hv : sm.parsedIsValid = true) (hb : sm.parsedIsBetter = true) (hp : sm.parsed = some p)
    (hfit : (lib.messageToStr p).length < 2 ^ 16) : sm.makeTextValid lib = .ok { sm with
      textLength := (lib.messageToStr p).length, text := some (lib.messageToStr p)
      parsedIsValid := true, parsedIsBetter := false } := by
  have hmod : (lib.messageToStr p).length % 2 ^ 16 = (lib.messageToStr p).length :=
    Nat.mod_eq_of_lt hfit
  unfold makeTextValid
  rw [hb, hv, hp]
  change Except.ok { sm with
    textLength := (lib.messageToStr p).length % 2 ^ 16
    text := some ((lib.messageToStr p).take ((lib.messageToStr p).length % 2 ^ 16))
    parsed := some p, parsedIsValid := true, parsedIsBetter := false } = _
  rw [hmod, List.take_length]

/-- What is saved for a message that survives. -/
theorem Survives.saved (hl : lib.Lawful) (hm : Survives lib m.toShortMsg)
    (hr : isRequestMsg m.toShortMsg = true) : ∃ saved p,
    m.toShortMsg.makeTextValid lib = .ok saved ∧
      saved.text = some (m.toShortMsg.savedText lib) ∧ 0 ∉ m.toShortMsg.savedText lib ∧
      (m.toShortMsg.savedText lib).length < 2 ^ 16 ∧
      Acceptable lib (m.toShortMsg.savedText lib) p ∧
      (m.parsedIsBetter = true → m.parsed = some p) := by
  have hsturdy := hm.sturdy hr
  have hsaved : ∀ {saved : ShortMsg} {text : CString}, m.toShortMsg.makeTextValid lib = .ok saved →
      saved.text = some text → m.toShortMsg.savedText lib = text := by
    intro saved text hmake htext
    unfold ShortMsg.savedText
    rw [hmake]
    change (saved.text).getD [] = text
    rw [htext]
    rfl
  by_cases hb : m.parsedIsBetter = true
  · obtain ⟨p, hp, -⟩ := hsturdy.tree
    have hfit := hsturdy.fits hb p hp
    have hmake := ShortMsg.makeTextValid_of_better hm.valid hb hp hfit
    rw [hsaved hmake rfl]
    exact ⟨_, p, hmake, rfl, hl.toStr_noZero p, hfit, hsturdy.acceptable hl hb hp, fun _ => hp⟩
  · obtain ⟨text, p, htext, hzero, hfit, ha, -⟩ := hsturdy.text (Bool.eq_false_iff.2 hb)
    have hmake : m.toShortMsg.makeTextValid lib = .ok m.toShortMsg := by
      unfold ShortMsg.makeTextValid
      rw [if_neg (by simp [hb])]
      rfl
    rw [hsaved hmake htext]
    exact ⟨_, p, hmake, htext, hzero, hfit, ha, fun h => absurd h hb⟩

/-- The record that is saved for the message. -/
def savedAs (lib : Libs) (env : Env) (m : ShortMsgPending) : QueueRecord :=
  m.record env (m.toShortMsg.savedText lib)

theorem saveRecord_eq (env : Env) (m : ShortMsgPending) (text : CString) :
    saveRecord env m text = (m.record env text).bytes := rfl

/-- A queue of requests that survive is saved as their records, the last one first. -/
theorem saveQueueToFile_survives (hl : lib.Lawful)
    (hq : ∀ m ∈ q.timeSortedList, Survives lib m.toShortMsg ∧ isRequestMsg m.toShortMsg = true) :
    ∃ q', q.saveQueueToFile lib env =
      .ok (((q.timeSortedList.reverse.map (savedAs lib env)).map QueueRecord.bytes).flatten, q') := by
  let valid : ShortMsgPending → ShortMsgPending := fun m =>
    { m with toShortMsg := (m.toShortMsg.makeTextValid lib).toOption.getD m.toShortMsg }
  have hvalid : ∀ m ∈ q.timeSortedList, m.toShortMsg.makeTextValid lib =
      .ok (valid m).toShortMsg ∧ (valid m).text = some (m.toShortMsg.savedText lib) ∧
        (valid m).record env (m.toShortMsg.savedText lib) = savedAs lib env m := by
    intro m hm
    obtain ⟨hsurvives, hr⟩ := hq m hm
    obtain ⟨saved, p, hmake, htext, -⟩ := hsurvives.saved hl hr
    have hsame : valid m = { m with toShortMsg := saved } := by
      change ({ m with toShortMsg := (m.toShortMsg.makeTextValid lib).toOption.getD m.toShortMsg } :
        ShortMsgPending) = _
      rw [hmake]
      rfl
    rw [hsame]
    refine ⟨hmake, htext, ?_⟩
    rcases ShortMsg.makeTextValid_ok hmake with rfl | ⟨_, -, -, rfl⟩ <;> rfl
  have hdump : q.debugDump lib = .ok { q with timeSortedList := q.timeSortedList.map valid } := by
    unfold SMq.debugDump
    rw [Except.mapM_eq_ok (g := valid) fun m hm => by rw [(hvalid m hm).1]; rfl]
    rfl
  have hrecords : (q.timeSortedList.map valid).reverse.mapM (fun m => do
      return saveRecord env m (← deref m.text)) = Except.ok (ε := Fault)
        ((q.timeSortedList.map valid).reverse.map fun m => saveRecord env m (m.text.getD [])) := by
    refine Except.mapM_eq_ok fun m' hm' => ?_
    obtain ⟨m, hm, rfl⟩ := List.mem_map.1 (List.mem_reverse.1 hm')
    rw [(hvalid m hm).2.1]
    rfl
  refine ⟨{ q with timeSortedList := q.timeSortedList.map valid }, ?_⟩
  unfold SMq.saveQueueToFile
  rw [hdump, Except.ok_bind, hrecords, Except.ok_bind]
  have hbytes : (q.timeSortedList.map valid).reverse.map (fun m => saveRecord env m (m.text.getD [])) =
      (q.timeSortedList.reverse.map (savedAs lib env)).map QueueRecord.bytes := by
    rw [← List.map_reverse, List.map_map, List.map_map]
    refine List.map_congr_left fun m hm => ?_
    obtain ⟨-, htext, hsame⟩ := hvalid m (List.mem_reverse.1 hm)
    change saveRecord env (valid m) ((valid m).text.getD []) = (savedAs lib env m).bytes
    rw [htext, Option.getD_some, saveRecord_eq, hsame]
  rw [hbytes]
  rfl

/-! ## A time that does not fit -/

theorem unsignedMax_lt_toNat {z : Int} (h : 2 ^ 32 ≤ z) : unsignedMax < z.toNat := by
  unfold unsignedMax
  omega

/-- A number that is too large stops the stream. -/
theorem extractUnsigned_decimal_large {n : Nat} {c : UInt8} {t : List UInt8} (hn : unsignedMax < n)
    (hc : InputStream.isDigit c = false) :
    (InputStream.extractUnsigned isspace unsignedMax
      ⟨32 :: (decimal n ++ c :: t), false, false⟩).2.Stuck := by
  have hspace : (32 :: (decimal n ++ c :: t)).dropWhile isspace = decimal n ++ c :: t := by
    cases hd : decimal n with
    | nil => exact absurd hd (decimal_ne_nil n)
    | cons a ds =>
      have ha : isspace a = false :=
        isspace_of_isDigit a (isDigit_decimal n a (hd ▸ List.mem_cons_self ..))
      exact InputStream.dropWhile_ahead (w := [32]) (by decide +kernel) ha
  have hscan : Scan.unsigned isspace unsignedMax (32 :: (decimal n ++ c :: t)) = .malformed := by
    unfold Scan.unsigned
    rw [hspace, InputStream.scanNumber_ahead (isDigit_decimal n) (decimal_ne_nil n) hc]
    dsimp only
    rw [if_neg (List.cons_ne_nil _ _), valueOf_decimal, if_pos (.inr hn)]
  have hfollows := InputStream.extractUnsigned_follows isspace unsignedMax
    (32 :: (decimal n ++ c :: t))
  rw [hscan] at hfollows
  exact hfollows

namespace ReadLoop

variable {l l' : ReadLoop} {tail : CString}

/-- A record with a time that does not fit stops the stream. -/
theorem next_of_late (hs : r.state.toNat < 2 ^ 31) (ht : 2 ^ 32 ≤ r.nextActionTime)
    (hl : l.file = ⟨r.bytes ++ tail, false, false⟩) :
    ∃ l', l.next = some l' ∧ l'.file.Stuck ∧ l'.equals = str "===" := by
  have hmark : ∀ c ∈ str "===", isspace c = false := by decide +kernel
  have hword : l.file.extractWord isspace = (some (str "==="), ⟨32 :: (decimal r.state.toNat ++
      32 :: (decimal r.nextActionTime.toNat ++ fieldBytes r tail)), false, false⟩) := by
    rw [hl, bytes_append (Int.le_trans (by decide) ht)]
    exact InputStream.extractWord_ahead (s := []) (by simp) hmark (by decide) rfl
  have hstate : InputStream.extractUnsigned isspace unsignedMax ⟨32 :: (decimal r.state.toNat ++
      32 :: (decimal r.nextActionTime.toNat ++ fieldBytes r tail)), false, false⟩ =
        (some r.state.toNat,
          ⟨32 :: (decimal r.nextActionTime.toNat ++ fieldBytes r tail), false, false⟩) :=
    extractUnsigned_decimal (by unfold unsignedMax; omega) (by decide)
  have hstuck : (InputStream.extractUnsigned isspace unsignedMax
      ⟨32 :: (decimal r.nextActionTime.toNat ++ fieldBytes r tail), false, false⟩).2.Stuck :=
    extractUnsigned_decimal_large (unsignedMax_lt_toNat ht) (by decide)
  have hhead : l.readHead.file.Stuck ∧ l.readHead.equals = str "===" := by
    unfold readHead
    simp only [hword, hstate, Option.getD_some]
    exact ⟨hstuck, trivial⟩
  refine ⟨l.readHead, ?_, hhead⟩
  have hturn : l.turn = some (l.readHead, []) := by
    unfold turn
    rw [if_neg (by rw [hl]; simp)]
    dsimp only
    rw [if_neg (by rw [hhead.1.2]; simp [hhead.2]), readFields_of_stuck hhead.1,
      readText_of_stuck hhead.1]
  unfold next
  rw [hturn]
  rfl

/-- The loop over the records does not end if the time of one of them does not fit. -/
theorem not_ends_of_late (hr : ∀ r ∈ rs, r.state.toNat < 2 ^ 31 ∧ r.Framed ∧
      (r.nextActionTime < 2 ^ 32 → r.Savable)) (hlate : ∃ r ∈ rs, 2 ^ 32 ≤ r.nextActionTime)
    (hl : l.file = ⟨(rs.map QueueRecord.bytes).flatten, false, false⟩) : ¬ Runs.Ends next l := by
  induction rs generalizing l with
  | nil =>
    obtain ⟨r, hmem, -⟩ := hlate
    cases hmem
  | cons r rs ih =>
    obtain ⟨hstate, hframed, hsavable⟩ := hr r (List.mem_cons_self ..)
    intro hends
    by_cases hfits : r.nextActionTime < 2 ^ 32
    · -- the record is read, and the late one comes after it
      obtain ⟨l', hturn, -, -, hfile⟩ := turn_saved (hsavable hfits) hframed (flatten_head rs) hl
      have hnext : l.next = some l' := by
        unfold next
        rw [hturn]
        rfl
      have hrest : ∃ r ∈ rs, 2 ^ 32 ≤ r.nextActionTime := by
        obtain ⟨r', hmem, hr'⟩ := hlate
        rcases List.mem_cons.1 hmem with rfl | hmem
        · exact absurd hfits (Int.not_lt.2 hr')
        · exact ⟨r', hmem, hr'⟩
      have hne : ((rs.map QueueRecord.bytes).flatten).isEmpty = false := by
        obtain ⟨r', hmem, -⟩ := hrest
        cases rs with
        | nil => cases hmem
        | cons r rs => rfl
      rw [hne] at hfile
      cases hends with
      | stop hstop =>
        rw [hnext] at hstop
        cases hstop
      | turn hstep hends =>
        rw [hnext] at hstep
        cases hstep
        exact ih (fun r hmem => hr r (List.mem_cons_of_mem _ hmem)) hrest hfile hends
    · obtain ⟨l', hnext, hstuck, hmark⟩ := next_of_late hstate (Int.not_lt.1 hfits) hl
      cases hends with
      | stop hstop =>
        rw [hnext] at hstop
        cases hstop
      | turn hstep hends =>
        rw [hnext] at hstep
        cases hstep
        exact not_ends_of_stuck hstuck hmark hends

end ReadLoop

/-! ## Reading back -/

/-- The record of a message that can be saved, if its time fits. -/
theorem savedAs_savable (hl : lib.Lawful) (hn : ns.Lawful) (he : env.stringAddr = ns.stringAddr)
    (hm : Survives lib m.toShortMsg) (hs : m.Storable lib)
    (ha : NameService.Storable m.srcaddr) :
    (savedAs lib env m).state.toNat < 2 ^ 31 ∧ (savedAs lib env m).Framed ∧
      ((savedAs lib env m).nextActionTime < 2 ^ 32 → (savedAs lib env m).Savable) := by
  obtain ⟨-, -, -, -, hzero, hlength, -⟩ := hm.saved hl hs.request
  have hnamed : ∀ s ∈ SmState.named, SmState.ofNat s.toNat = s ∧ s.toNat < 2 ^ 31 := by decide
  have hstate := hnamed m.state hs.state
  have haddress : (savedAs lib env m).address = ns.stringAddr m.srcaddr true := by
    change env.stringAddr m.srcaddr true = _
    rw [he]
  refine ⟨hstate.2, ⟨?_, hs.text.2⟩, fun ht => ⟨hstate, ⟨hs.time, ht⟩, ?_, hs.text.1, hzero, hlength⟩⟩
  · rw [haddress]
    exact NameService.stringAddr_ne_nil hn ha
  · rw [haddress]
    exact NameService.isspace_stringAddr hn ha

/-- An acceptable text is accepted as a message, with its tree and its tag. -/
theorem validate_text {p : SipMessage} {srcaddr : List UInt8} {id : MsgId}
    (ha : Acceptable lib r.text p) : ∃ x sm,
      (r.message srcaddr id).validateShortMsg lib s env false = .ok (0, x) ∧
        ShortMsgPending.Validated lib (r.message srcaddr id) sm x ∧ x.parsed = some p ∧
        x.qtag = some (ShortMsgPending.tagOf p) := by
  obtain ⟨sm, hparse, hsm⟩ := parse_of_text (m := (r.message srcaddr id).toShortMsg) rfl rfl rfl
    ha.parse ha.content
  obtain ⟨x, hx, hxp⟩ : ∃ x, (r.message srcaddr id).validateShortMsg lib s env false = .ok (0, x) ∧
      x.parsed = some p := validate_of_parse ha.checked hparse hsm
  obtain ⟨sm', hvalid⟩ := ShortMsgPending.validated_of_ok hx
  obtain ⟨p', hp', -, htag, -⟩ := hvalid.tree
  obtain ⟨relay, tag, hash, hxe⟩ := hvalid.same
  have hp'' : x.parsed = some p' := by
    rw [hxe]
    exact hp'
  obtain rfl := Option.some.inj (hxp.symm.trans hp'')
  exact ⟨x, sm', hx, hvalid, hxp, htag⟩

namespace ReadLoop

variable {l l' : ReadLoop}

/-- The message of a record that was read. -/
theorem pending_eq {srcaddr : List UInt8} (hr : r.Savable) (hrecord : l.record r.text = r)
    (hn : l.alength = r.text.length) : l.pending q r.text srcaddr = r.message srcaddr q.nextId := by
  have hlength := hr.text.2.2
  have h1 : l.alength % 2 ^ 16 = r.text.length := by omega
  have h2 : cstr r.text = r.text := cstr_of_not_mem hr.text.2.1
  have h3 : decide (l.msToSc ≠ 0) = r.msToSc := congrArg QueueRecord.msToSc hrecord
  have h4 : decide (l.needRepack ≠ 0) = r.needRepack := congrArg QueueRecord.needRepack hrecord
  unfold pending message QueueRecord.message
  rw [h1, h2, h3, h4]

/-- A request that passes the checks is put on the front of the queue. -/
theorem load_request {msgtext : CString} {addr : Option (List UInt8)} {srcaddr : List UInt8}
    (ha : addr = some srcaddr)
    (hv : (l.pending q msgtext srcaddr).validateShortMsg lib q.settings env false = .ok (0, x))
    (hreq : isRequestMsg x.toShortMsg = true) (hx : x.parsedIsBetter = false)
    (hq : ∀ m ∈ q.timeSortedList, m.parsedIsBetter = false) :
    l.load lib env q msgtext addr = .ok { q with
      nextId := q.nextId + 1, posted := q.posted + 1
      timeSortedList := { x with state := .ofNat l.astate, nextActionTime := l.atime } ::
        q.timeSortedList } := by
  let q1 : SMq := { q with
    nextId := q.nextId + 1
    timeSortedList := { x with state := .ofNat l.astate, nextActionTime := l.atime } ::
      q.timeSortedList }
  have hdump : q1.debugDump lib = .ok q1 := by
    refine debugDump_of_not_better fun y hy => ?_
    rcases List.mem_cons.1 hy with rfl | hy
    · exact hx
    · exact hq y hy
  obtain ⟨p, hp, hpr⟩ : ∃ p, x.parsed = some p ∧ p.isRequest = true :=
    (Option.any_eq_true _ _).1 hreq
  have hv' : ({ l.message msgtext srcaddr with id := q.nextId } :
      ShortMsgPending).validateShortMsg lib q.settings env false = .ok (0, x) := hv
  unfold load
  rw [ha]
  dsimp only
  rw [hv', Except.ok_bind]
  dsimp only
  rw [if_pos rfl, hp]
  change (if p.isRequest = true then _ else _) = _
  rw [if_pos hpr]
  change (q1.debugDump lib >>= fun q => pure { q with posted := q.posted + 1 }) = _
  rw [hdump]
  rfl

end ReadLoop

/-- What is known of a message when it is saved. -/
structure Recorded (lib : Libs) (m : ShortMsgPending) : Prop where
  survives : Survives lib m.toShortMsg
  storable : m.Storable lib
  address : NameService.Storable m.srcaddr
  tag : ∀ p, lib.messageParse (m.toShortMsg.savedText lib) = some p →
    m.qtag = some (ShortMsgPending.tagOf p)

/-- The queue is made of the records of the messages, and the threads can start with it. -/
structure Rebuilt (lib : Libs) (ms : List ShortMsgPending) (q : SMq) : Prop where
  resumes : List.Forall₂ (ShortMsgPending.Resumes lib) ms q.timeSortedList
  distinct : q.Distinct
  clean : ∀ m ∈ q.timeSortedList, m.parsedIsBetter = false
  accepted : ∀ m ∈ q.timeSortedList, ∃ m', Accepted lib m' ∧ m.toShortMsg = m'.toShortMsg
  wellFormed : ∀ m ∈ q.timeSortedList, m.WellFormed
  storable : ∀ m ∈ q.timeSortedList, NameService.Storable m.srcaddr

theorem Rebuilt.nil (lib : Libs) (s : Settings) : Rebuilt lib [] { settings := s } where
  resumes := .nil
  distinct := ⟨List.nodup_nil, fun _ hi => absurd hi List.not_mem_nil⟩
  clean := fun _ hm => absurd hm List.not_mem_nil
  accepted := fun _ hm => absurd hm List.not_mem_nil
  wellFormed := fun _ hm => absurd hm List.not_mem_nil
  storable := fun _ hm => absurd hm List.not_mem_nil

namespace ReadLoop

variable {l l' : ReadLoop} {env' : Env}

/-- The record of a message becomes a message that goes on where it stopped. -/
theorem load_rebuilt (hl : lib.Lawful) (hn : ns.Lawful) (he : env.stringAddr = ns.stringAddr)
    (hq : Rebuilt lib ms q) (hm : Recorded lib m) (hr : (savedAs lib env m).Savable)
    (hrecord : l.record (savedAs lib env m).text = savedAs lib env m)
    (hlength : l.alength = (savedAs lib env m).text.length) :
    ∃ q', l.load lib env' q (savedAs lib env m).text (ns.parseAddr msgSrcaddrSize l.netaddrstr) =
        .ok q' ∧ q'.settings = q.settings ∧ Rebuilt lib (m :: ms) q' := by
  obtain ⟨saved, p, hmake, htext, hzero, hfit, ha, hbetter⟩ :=
    hm.survives.saved hl hm.storable.request
  obtain ⟨x, sm, hv, hvalid, hxp, hxtag⟩ : ∃ x sm,
      ((savedAs lib env m).message m.srcaddr q.nextId).validateShortMsg lib q.settings env' false =
        .ok (0, x) ∧
      ShortMsgPending.Validated lib ((savedAs lib env m).message m.srcaddr q.nextId) sm x ∧
      x.parsed = some p ∧ x.qtag = some (ShortMsgPending.tagOf p) := validate_text ha
  obtain ⟨hclean, hxtext, hms, hrepack, hsrc⟩ := cameBack_of_validated hvalid
  have hxid : x.id = q.nextId := congrArg Agenda.Entry.id (ShortMsgPending.validateShortMsg_same hv).entry
  have haddr : ns.parseAddr msgSrcaddrSize l.netaddrstr = some m.srcaddr := by
    rw [show l.netaddrstr = ns.stringAddr m.srcaddr true from
      (congrArg QueueRecord.address hrecord).trans (congrFun (congrFun he _) _)]
    exact NameService.parseAddr_stringAddr hn hm.address
  have hstate : SmState.ofNat l.astate = m.state := congrArg QueueRecord.state hrecord
  have htime : (l.atime : Time) = m.nextActionTime := congrArg QueueRecord.nextActionTime hrecord
  have hreq : isRequestMsg x.toShortMsg = true := by
    unfold isRequestMsg
    rw [hxp]
    exact ha.checked.request
  have hload := load_request (l := l) haddr (by rw [pending_eq hr hrecord hlength]; exact hv) hreq
    hclean hq.clean
  have hwell := hvalid.wellFormed
  refine ⟨_, hload, rfl, ?_, ?_, ?_, ?_, ?_, ?_⟩
  · refine .cons ⟨hstate, htime, hsrc, hms, hrepack, hxtext, fun hb => ?_, ?_⟩ hq.resumes
    · exact hxp.trans (hbetter hb).symm
    · exact hxtag.trans (hm.tag p ha.parse).symm
  · have hids : Agenda.ids (SMq.agenda { q with timeSortedList :=
        { x with state := .ofNat l.astate, nextActionTime := l.atime } :: q.timeSortedList }) =
          q.nextId :: Agenda.ids q.agenda := congrArg (· :: Agenda.ids q.agenda) hxid
    refine ⟨?_, fun i hi => ?_⟩
    · exact hids ▸ List.nodup_cons.2 ⟨SMq.nextId_not_mem hq.distinct, hq.distinct.nodup⟩
    · have hi' : i ∈ q.nextId :: Agenda.ids q.agenda := hids ▸ hi
      rcases List.mem_cons.1 hi' with rfl | hi'
      · exact Nat.lt_succ_self _
      · exact Nat.lt_succ_of_lt (hq.distinct.lt_nextId i hi')
  · exact List.forall_mem_cons.2 ⟨hclean, hq.clean⟩
  · refine List.forall_mem_cons.2 ⟨⟨x, ⟨_, _, _, _, false, ⟨rfl, hzero, rfl, hfit⟩, rfl, hv⟩, rfl⟩,
      hq.accepted⟩
  · exact List.forall_mem_cons.2 ⟨⟨hwell.valid, hwell.tree⟩, hq.wellFormed⟩
  · refine List.forall_mem_cons.2 ⟨?_, hq.storable⟩
    change NameService.Storable x.srcaddr
    rw [hsrc]
    exact hm.address

/-- A file of records whose times fit becomes the queue that was saved. -/
theorem rebuilds_saved {ms' : List ShortMsgPending} (hl : lib.Lawful) (hn : ns.Lawful)
    (he : env.stringAddr = ns.stringAddr) (hms : ∀ m ∈ ms', Recorded lib m ∧ m.TimeFits)
    (hq : Rebuilt lib ms q) (e : Bool) (hend : ms' ≠ [] → e = false)
    (hfile : l.file = ⟨((ms'.map (savedAs lib env)).map QueueRecord.bytes).flatten, e, false⟩) :
    ∃ q', Rebuilds lib env' (ns.parseAddr msgSrcaddrSize) l q q' ∧ q'.settings = q.settings ∧
      Rebuilt lib (ms'.reverse ++ ms) q' := by
  induction ms' generalizing l e q ms with
  | nil =>
    refine ⟨q, .done ?_, rfl, hq⟩
    unfold turnWith
    rw [turn_of_empty hfile]
  | cons m ms' ih =>
    obtain rfl := hend (List.cons_ne_nil _ _)
    obtain ⟨hm, hfits⟩ := hms m (List.mem_cons_self ..)
    obtain ⟨-, hframed, hsavable⟩ :=
      savedAs_savable hl hn he hm.survives hm.storable hm.address
    have hr := hsavable hfits
    obtain ⟨l', hturn, hrecord, hlength, hfile'⟩ := turn_saved hr hframed (flatten_head _) hfile
    obtain ⟨q1, hload, hset, hq1⟩ : ∃ q1,
        l'.load lib env' q (savedAs lib env m).text (ns.parseAddr msgSrcaddrSize l'.netaddrstr) =
          .ok q1 ∧ q1.settings = q.settings ∧ Rebuilt lib (m :: ms) q1 :=
      load_rebuilt hl hn he hq hm hr hrecord hlength
    have hstep : l.turnWith lib env' (ns.parseAddr msgSrcaddrSize) q = .ok (some (l', q1)) := by
      unfold turnWith
      rw [hturn]
      change (l'.load lib env' q (savedAs lib env m).text
        (ns.parseAddr msgSrcaddrSize l'.netaddrstr) >>= fun q => _) = _
      rw [hload]
      rfl
    have hempty : ms' ≠ [] →
        ((ms'.map (savedAs lib env)).map QueueRecord.bytes).flatten.isEmpty = false := by
      intro hne
      cases ms' with
      | nil => exact absurd rfl hne
      | cons m ms' => rfl
    obtain ⟨q', hrest, hset', hall⟩ := ih (fun m hmem => hms m (List.mem_cons_of_mem _ hmem)) hq1 _
      hempty hfile'
    refine ⟨q', .record hstep hrest, hset'.trans hset, ?_⟩
    rw [List.reverse_cons, List.append_assoc]
    exact hall

end ReadLoop

namespace ReadLoop

/-- A loop that makes a queue ends. -/
theorem Rebuilds.ends {l : ReadLoop} {parseAddr : CString → Option (List UInt8)}
    (h : Rebuilds lib env parseAddr l q q') : Runs.Ends next l := by
  induction h with
  | done h => exact .stop (turnWith_next h).symm
  | record ht _ ih => exact .turn (turnWith_next ht).symm ih

end ReadLoop

/-! ## The tag in the text -/

/-- The text of a request whose tree was not edited has the tag of the tree. -/
def TextTagged (lib : Libs) (m : ShortMsg) : Prop :=
  isRequestMsg m = true → m.parsedIsBetter = false → ∃ text p p', m.text = some text ∧
    lib.messageParse text = some p' ∧ m.parsed = some p ∧
    ShortMsgPending.tagOf p' = ShortMsgPending.tagOf p

theorem ShortMsgPending.Validated.textTagged {sm : ShortMsg} {text : CString}
    (h : Validated lib x sm m') (hv : x.parsedIsValid = false) (htext : x.text = some text)
    (hsame : lib.messageParse (ShortMsg.buffer text x.textLength) = lib.messageParse text) :
    TextTagged lib m'.toShortMsg := by
  have hvalid := ShortMsg.parse_valid h.parse
  obtain ⟨⟨sip, valid, ct, rp, tl, rfl⟩, htree⟩ := ShortMsg.parse_ok hv h.parse
  obtain ⟨text', p, htext', hparse, hp, -⟩ := htree hvalid
  obtain rfl := Option.some.inj (htext.symm.trans htext')
  obtain ⟨relay, tag, hash, rfl⟩ := h.same
  rw [hsame] at hparse
  exact fun _ _ => ⟨text, p, p, htext, hparse, hp, rfl⟩

theorem finishMsg_textTagged {x' : ShortMsgPending} (hv : x.parsedIsValid = true)
    (hb : x.parsedIsBetter = true) (hf : SMq.finishMsg lib env s x = .ok (0, x')) :
    TextTagged lib x'.toShortMsg := by
  unfold SMq.finishMsg at hf
  obtain ⟨sm, hsm, hf⟩ := Except.bind_eq_ok.1 hf
  obtain ⟨sm', hsm', hf⟩ := Except.bind_eq_ok.1 hf
  obtain ⟨sm'', hvalid⟩ := ShortMsgPending.validated_of_ok hf
  unfold ShortMsg.makeTextValid at hsm
  rw [hb, hv, if_pos (by rfl)] at hsm
  obtain ⟨p, -, hsm⟩ := Except.bind_eq_ok.1 hsm
  cases hsm
  unfold ShortMsg.unparse at hsm'
  dsimp only at hsm'
  rw [if_neg (by simp)] at hsm'
  cases hsm'
  let n := (lib.messageToStr p).length % 2 ^ 16
  have hlen : ((lib.messageToStr p).take n).length = n := by
    rw [List.length_take, Nat.min_eq_left (Nat.mod_le _ _)]
  refine hvalid.textTagged rfl rfl ?_
  change lib.messageParse (ShortMsg.buffer ((lib.messageToStr p).take n) n) = _
  have hbuffer := ShortMsg.buffer_self ((lib.messageToStr p).take n)
  rw [hlen] at hbuffer
  rw [hbuffer]

theorem TextTagged.prints {sm sm' : ShortMsg} (hl : lib.Lawful) (hm : TextTagged lib sm)
    (hfit : isRequestMsg sm = true → sm.TextFits lib) (h : sm.Prints lib sm') :
    TextTagged lib sm' := by
  rcases ShortMsg.makeTextValid_ok h with rfl | ⟨p, hv, hp, rfl⟩
  · exact hm
  · intro hr _
    have hmod : (lib.messageToStr p).length % 2 ^ 16 = (lib.messageToStr p).length :=
      Nat.mod_eq_of_lt (hfit hr p hp)
    refine ⟨lib.messageToStr p, p, p, ?_, hl.parse_toStr p, hp, rfl⟩
    change some ((lib.messageToStr p).take ((lib.messageToStr p).length % 2 ^ 16)) = _
    rw [hmod, List.take_length]

/-- No edit changes the tag. -/
theorem TextTagged.edited {sm : ShortMsg} (hs : Survives lib m.toShortMsg)
    (hm : TextTagged lib m.toShortMsg) (he : q.HeadEdit lib env m sm) : TextTagged lib sm := by
  have hedited := he.treeEdited hs.valid
  obtain ⟨p, hp⟩ := hs.tree
  obtain ⟨p', hp', hedits⟩ := hedited.tree p hp
  have htag := sameTag_of_edits hedits
  intro hr hb
  have hbefore : m.parsedIsBetter = false := by
    by_contra hne
    rw [hedited.better (by simpa using hne)] at hb
    cases hb
  have hreq : isRequestMsg m.toShortMsg = true := by
    unfold isRequestMsg at hr ⊢
    rw [hp', Option.any_some, htag.isRequest] at hr
    rw [hp]
    exact hr
  obtain ⟨text, p0, p1, htext, hparse, hp0, hsame⟩ := hm hreq hbefore
  obtain rfl := Option.some.inj (hp.symm.trans hp0)
  exact ⟨text, p', p1, hedited.text.trans htext, hparse, hp', hsame.trans htag.tag.symm⟩

/-- The message survives, and the text that is saved has its tag. -/
def SurvivesTagged (lib : Libs) (m : ShortMsg) : Prop := Survives lib m ∧ TextTagged lib m

theorem survivesTagged_kept (hl : lib.Lawful) : Kept lib (SurvivesTagged lib) where
  valid := fun _ hm => hm.1.valid
  prints := fun _ _ hm hfit h =>
    ⟨(survives_kept hl).prints _ _ hm.1 hfit h, hm.2.prints hl (fun _ => hfit) h⟩
  finished := fun env s x x' hv hb hf =>
    ⟨(survives_kept hl).finished env s x x' hv hb hf, finishMsg_textTagged hv hb hf⟩

/-- The tag of the tree that the saved text is parsed into. -/
theorem SurvivesTagged.savedTag (hl : lib.Lawful) (hm : SurvivesTagged lib m.toShortMsg)
    (hr : isRequestMsg m.toShortMsg = true) (hw : m.WellFormed) :
    ∀ p, lib.messageParse (m.toShortMsg.savedText lib) = some p →
      m.qtag = some (ShortMsgPending.tagOf p) := by
  intro p hparse
  obtain ⟨saved, p0, hmake, htext, -, -, ha, hbetter⟩ := hm.1.saved hl hr
  obtain rfl := Option.some.inj (hparse.symm.trans ha.parse)
  obtain ⟨p1, hp1, htag, -⟩ := hw.tree
  by_cases hb : m.parsedIsBetter = true
  · obtain rfl := Option.some.inj (hp1.symm.trans (hbetter hb))
    exact htag
  · have hb' : m.parsedIsBetter = false := Bool.eq_false_iff.2 hb
    obtain ⟨text, p2, p3, htext', hparse', hp2, hsame⟩ := hm.2 hr hb'
    obtain rfl := Option.some.inj (hp1.symm.trans hp2)
    have hself := Daemon.prints_self hb' hmake
    rw [hself, htext'] at htext
    rw [← Option.some.inj htext] at hparse
    obtain rfl := Option.some.inj (hparse.symm.trans hparse')
    rw [hsame]
    exact htag

/-! ## Runs -/

namespace Daemon

variable {d d' : Daemon}

/-- What holds of the threads while they run, so that their queue can be saved. -/
structure Storing (lib : Libs) (d : Daemon) : Prop where
  holds : d.Holds (SurvivesTagged lib)
  wellFormed : Program.Holding ShortMsgPending.WellFormed d
  storable : ∀ m ∈ d.messages, NameService.Storable m.srcaddr

theorem StartStorable.storing (h : d.StartStorable lib) : d.Storing lib := by
  have hnone : ∀ smp, d.reader ≠ .accepted smp := by
    intro smp hsmp
    rw [h.reader] at hsmp
    cases hsmp
  have hsurvives := h.toStartAccepted.holds
  refine ⟨{ h.sound with queue := fun m hm => ⟨hsurvives.queue m hm, ?_⟩, accepted := fun smp hsmp => ?_ },
    { h.sound with queue := h.wellFormed, accepted := fun smp hsmp => ?_ }, fun m hm => ?_⟩
  · obtain ⟨m', ⟨m0, text, s, env, early, ⟨htext, hzero, hlen, hfit⟩, hv, hvalid⟩, heq⟩ :=
      h.accepted m hm
    obtain ⟨sm, hvalid⟩ := ShortMsgPending.validated_of_ok hvalid
    rw [heq]
    refine hvalid.textTagged hv htext ?_
    rw [hlen, ShortMsg.buffer_self]
  · exact absurd hsmp (hnone smp)
  · exact absurd hsmp (hnone smp)
  · rcases mem_messages.1 hm with hm | hm
    · exact h.storable m hm
    · rw [h.reader] at hm
      cases hm

theorem arrive_survivesTagged {buffer srcaddr : List UInt8} {smp : ShortMsgPending}
    {id : MsgId} {early : Bool} (hlen : buffer.length ≤ bufferSize)
    (hsame : lib.messageParse (ShortMsg.buffer (cstr buffer) buffer.length) =
      lib.messageParse (cstr buffer))
    (hv : ({ datagram buffer srcaddr with id := id } : ShortMsgPending).validateShortMsg lib s env
      early = .ok (0, smp)) : SurvivesTagged lib smp.toShortMsg ∧ smp.parsedIsBetter = false := by
  obtain ⟨hsurvives, hbetter⟩ := arrive_survives hlen hsame hv
  refine ⟨⟨hsurvives, ?_⟩, hbetter⟩
  obtain ⟨sm, hvalid⟩ := ShortMsgPending.validated_of_ok hv
  have hmod : buffer.length % 2 ^ 16 = buffer.length := by
    unfold bufferSize at hlen
    omega
  have htext : ({ datagram buffer srcaddr with id := id } : ShortMsgPending).text =
      some (cstr buffer) := by
    change some (cstr (strncpy (cstr buffer) (buffer.length % 2 ^ 16))) = some (cstr buffer)
    rw [hmod, cstr_strncpy (zero_not_mem_cstr buffer) (length_cstr_le buffer)]
  refine hvalid.textTagged rfl htext ?_
  change lib.messageParse (ShortMsg.buffer (cstr buffer) (buffer.length % 2 ^ 16)) = _
  rw [hmod]
  exact hsame

theorem Storing.next {a : DaemonAct} (hl : lib.Lawful) (h : d.Storing lib)
    (hg : d.KeepsStorable lib a) (hn : d.next lib a = some d') : d'.Storing lib := by
  obtain ⟨hkeeps, haddr⟩ := hg
  refine ⟨?_, h.wellFormed.thread ShortMsgPending.wellFormed_lasting hn, fun m' hm' => ?_⟩
  · refine h.holds.next (survivesTagged_kept hl) hn (fun env buffer srcaddr smp ha hv => ?_)
      (fun env ha head hhead hdue => ?_) (fun ha m hm sm hs hp => ?_)
    · subst ha
      exact arrive_survivesTagged (arrive_fits hn) hkeeps hv
    · subst ha
      have htexts := hkeeps head hhead hdue
      exact ⟨fun sm he hs hfit => ⟨hs.1.edited hl htexts he hfit, hs.2.edited hs.1 he⟩, htexts.fits⟩
    · by_cases hb : m.parsedIsBetter = true
      · have hfits : isRequestMsg m.toShortMsg = true → m.toShortMsg.TextFits lib :=
          fun hr => (hs.1.sturdy hr).fits hb
        exact ⟨hs.1.prints hl hfits hp, hs.2.prints hl hfits hp⟩
      · rw [prints_self (by simpa using hb) hp]
        exact hs
  · rcases next_sender h.holds.toSound hn hm' with ⟨-, hnone | ⟨env, buffer, ha⟩⟩ | ⟨m, hm, hsame⟩
    · exact .inl hnone
    · exact haddr _ _ _ ha
    · rw [hsame.2]
      exact h.storable m hm

theorem Storing.recorded (hl : lib.Lawful) (h : d.Storing lib)
    (hm : ∀ m ∈ d.queue.timeSortedList, m.Storable lib) :
    ∀ m ∈ d.queue.timeSortedList, Recorded lib m := by
  intro m hmem
  have hs := h.holds.queue m hmem
  exact ⟨hs.1, hm m hmem, h.storable m (mem_messages.2 (.inl hmem)),
    hs.savedTag hl (hm m hmem).request (h.wellFormed.queue m hmem)⟩

/-- The program saves its queue at its end, and reading the file ends if and only if the times of all
messages fit into 32 bits; then the queue goes on where it stopped. -/
theorem run_resumes (lib : Libs) (hl : lib.Lawful) (ns : NameService) (hn : ns.Lawful)
    (env env' : Env) (he : env.stringAddr = ns.stringAddr) (s : Settings) {d : Daemon}
    (h : GuardedRun (StartStorable lib) (Step lib) (KeepsStorable lib) d)
    (hm : ∀ m ∈ d.queue.timeSortedList, m.Storable lib) :
    ∃ content q, d.queue.saveQueueToFile lib env = .ok (content, q) ∧
      ∀ astate atime alength msToSc needRepack,
        let l := ReadLoop.start content astate atime alength msToSc needRepack
        (Runs.Ends ReadLoop.next l ↔ ∀ m ∈ d.queue.timeSortedList, m.TimeFits) ∧
          ((∀ m ∈ d.queue.timeSortedList, m.TimeFits) → ∃ q',
            ReadLoop.Rebuilds lib env' (ns.parseAddr msgSrcaddrSize) l { settings := s } q' ∧
              d.ResumedBy lib q') := by
  have hstoring : d.Storing lib := h.invariant (Storing lib) (fun _ h0 => h0.storing)
    fun _ _ _ hi hg hn => hi.next hl hg hn
  have hrecorded := hstoring.recorded hl hm
  obtain ⟨q, hsave⟩ : ∃ q, d.queue.saveQueueToFile lib env =
      .ok (((d.queue.timeSortedList.reverse.map (savedAs lib env)).map QueueRecord.bytes).flatten,
        q) :=
    saveQueueToFile_survives hl fun m hmem => ⟨(hrecorded m hmem).survives, (hm m hmem).request⟩
  refine ⟨_, q, hsave, fun astate atime alength msToSc needRepack => ?_⟩
  intro l
  have hfile : l.file = ⟨((d.queue.timeSortedList.reverse.map (savedAs lib env)).map
      QueueRecord.bytes).flatten, false, false⟩ := rfl
  have hrebuilds : (∀ m ∈ d.queue.timeSortedList, m.TimeFits) → ∃ q',
      ReadLoop.Rebuilds lib env' (ns.parseAddr msgSrcaddrSize) l { settings := s } q' ∧
        Rebuilt lib d.queue.timeSortedList q' := by
    intro hfits
    have hreversed : ∀ m ∈ d.queue.timeSortedList.reverse, Recorded lib m ∧ m.TimeFits :=
      fun m hmem => ⟨hrecorded m (List.mem_reverse.1 hmem), hfits m (List.mem_reverse.1 hmem)⟩
    obtain ⟨q', hrebuilds, -, hq'⟩ := ReadLoop.rebuilds_saved hl hn he hreversed
      (Rebuilt.nil lib s) false (fun _ => rfl) hfile
    rw [List.reverse_reverse, List.append_nil] at hq'
    exact ⟨q', hrebuilds, hq'⟩
  refine ⟨⟨fun hends => ?_, fun hfits => ?_⟩, fun hfits => ?_⟩
  · -- the first message whose time does not fit would stop the loop
    by_contra hlate
    push Not at hlate
    obtain ⟨m, hmem, hlate⟩ := hlate
    refine ReadLoop.not_ends_of_late (fun r hr => ?_) ?_ hfile hends
    · obtain ⟨m, hmem, rfl⟩ := List.mem_map.1 hr
      have hm' := hrecorded m (List.mem_reverse.1 hmem)
      exact savedAs_savable hl hn he hm'.survives hm'.storable hm'.address
    · exact ⟨_, List.mem_map_of_mem (List.mem_reverse.2 hmem), Int.not_lt.1 hlate⟩
  · obtain ⟨q', hq', -⟩ := hrebuilds hfits
    exact hq'.ends
  · obtain ⟨q', hq', hrebuilt⟩ := hrebuilds hfits
    refine ⟨q', hq', hrebuilt.resumes, fun events he hlen => ?_⟩
    exact { distinct := hrebuilt.distinct, reader := rfl, writer := rfl, events := he, fits := hlen
            accepted := hrebuilt.accepted, wellFormed := hrebuilt.wellFormed
            storable := hrebuilt.storable }

/-! ## A restart -/

theorem relayDaemon_storable : relayDaemon.StartStorable restartLibs :=
  { relayDaemon_start with
    wellFormed := List.forall_mem_cons.2
      ⟨{ valid := rfl, tree := ⟨submitSip, rfl, by decide, by decide, fun _ => by decide⟩ },
        List.forall_mem_singleton.2
          { valid := rfl, tree := ⟨sampleRequest, rfl, by decide, by decide, fun _ => by decide⟩ }⟩
    storable := List.forall_mem_cons.2 ⟨.inl rfl,
      List.forall_mem_singleton.2 (.inr ⟨⟨127, 0, 0, 1, 19, 198⟩, rfl⟩)⟩ }

/-- The queue behind the passes can be written to the file. -/
theorem relay_storable : ((relayDaemon.run restartLibs relaySteps).any fun d =>
    d.queue.timeSortedList.all fun m => isRequestMsg m.toShortMsg &&
      decide (m.state ∈ SmState.named) && decide (0 ≤ m.nextActionTime) &&
      decide (m.toShortMsg.savedText restartLibs ≠ [] ∧
        (m.toShortMsg.savedText restartLibs).head? ≠ some 10) &&
      decide (m.nextActionTime < 2 ^ 32)) = true := by
  decide +kernel

theorem run_resumes_relayed : ∃ d content q q',
    relayDaemon.run restartLibs relaySteps = some d ∧
      shownQueue d = [⟨1, .requestDestinationSipurl, some sampleRequest⟩,
        ⟨0, .askedForMsgDelivery, some relayedSip⟩] ∧
      d.queue.saveQueueToFile restartLibs
        { sampleEnv 0 with stringAddr := NameService.numbers.stringAddr } = .ok (content, q) ∧
      ReadLoop.Rebuilds restartLibs (sampleEnv 1000)
        (NameService.numbers.parseAddr msgSrcaddrSize) (.start content 0 0 0 0 0)
        { settings := {} } q' ∧
      d.ResumedBy restartLibs q' := by
  obtain ⟨d, hrun, hshown⟩ := Option.map_eq_some_iff.1 relay_passed
  have hr : GuardedRun (StartStorable restartLibs) (Step restartLibs) (KeepsStorable restartLibs)
      d := (relay_run relayDaemon_storable hrun).mono fun _ _ hg =>
    ⟨hg.1, fun env buffer srcaddr ha => absurd ha (hg.2 env buffer srcaddr)⟩
  have hall := relay_storable
  rw [hrun, Option.any_some, List.all_eq_true] at hall
  simp only [Bool.and_eq_true, decide_eq_true_eq] at hall
  obtain ⟨content, q, hsave, hread⟩ := run_resumes restartLibs
    (SampleLibs.lawful known_restart []) NameService.numbers NameService.numbers_lawful
    { sampleEnv 0 with stringAddr := NameService.numbers.stringAddr } (sampleEnv 1000) rfl {} hr
    fun m hm => ⟨(hall m hm).1.1.1.1, (hall m hm).1.1.1.2, (hall m hm).1.1.2, (hall m hm).1.2⟩
  obtain ⟨q', hq', hresumed⟩ := (hread 0 0 0 0 0).2 fun m hm => (hall m hm).2
  exact ⟨d, content, q, q', hrun, hshown, hsave, hq', hresumed⟩

end Daemon

end Smqueue

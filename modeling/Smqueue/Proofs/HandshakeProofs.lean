import Smqueue.Handshake
import Smqueue.Proofs.WellFormedProofs

/-!
# Proofs: requests and answers between two programs

The answer that another program gives to a queued request passes the checks, whatever its code, and
carries the tag of the request.
-/

namespace Smqueue

open Relation (ReflTransGen)
open Runs (Reachable)
open SipMessage (Edit ReadBack AnsweredBy)
open ShortMsgPending (tagOf fromTag cseqNumberOf checkParsed checkCommon checkResponse)

variable {lib : Libs} {env : Env} {m m' : ShortMsg} {p sent answer back : SipMessage}
  {errcode : Int} {x : ShortMsgPending} {d : Daemon}

/-! ## The answer -/

/-- The answer is built from the tree that the other program holds. -/
theorem respondSipAck_ok (hv : m.parsedIsValid = true) (hp : m.parsed = some p)
    (h : respondSipAck lib errcode m = .ok (m', some answer)) : answer = ackSip errcode p := by
  unfold respondSipAck at h
  rw [ShortMsg.parse_of_valid hv] at h
  change (deref m.parsed >>= fun sip => _) = _ at h
  rw [hp] at h
  change Except.ok (m, if p.isResponse = true then none else some (ackSip errcode p)) = _ at h
  split at h
  · cases h
  · cases h
    rfl

/-- What the checks and the tag look at in an answer. -/
theorem ackSip_checkParsed {length : Option (Option CString)} (hc : Checked p) (hcode : 0 < errcode)
    (hlen : length = none ∨ length = some (some (str "0"))) :
    checkParsed { ackSip errcode p with contentLength := length } = 0 := by
  have hresponse : ({ ackSip errcode p with contentLength := length } : SipMessage).isResponse =
      true := decide_eq_true (Int.ne_of_gt hcode)
  have hcheck : checkResponse { ackSip errcode p with contentLength := length } = 0 := by
    have hpos : ¬ errcode < 0 := Int.not_lt.2 (Int.le_of_lt hcode)
    have hphrase : ({ ackSip errcode p with contentLength := length } : SipMessage).reasonPhrase =
        some (ackPhrase errcode) := rfl
    unfold checkResponse
    rw [if_neg (by simp [ackSip, hpos])]
    rcases hlen with rfl | rfl
    · rfl
    · rfl
  have hcommon : checkCommon { ackSip errcode p with contentLength := length } = 0 :=
    ShortMsgPending.checkCommon_eq_zero_iff.2 ⟨hc.callId, hc.from_url, rfl, hc.to_ok⟩
  unfold checkParsed
  dsimp only
  rw [hresponse, if_pos rfl, hcheck, hcommon]
  rfl

/-- A response without a content passes the checks, and can be given a tag. -/
structure Responds (p : SipMessage) : Prop where
  response : p.isResponse = true
  noContent : p.contentType = none
  checks : checkParsed p = 0
  number : (cseqNumberOf p).isSome = true
  tag : (fromTag p).isSome = true

/-- The answer is such a response, with the tag of what was sent. -/
theorem SipMessage.AnsweredBy.responds (ha : AnsweredBy lib errcode sent answer)
    (hb : ReadBack answer back) (hc : Checked sent) (hcode : 0 < errcode) :
    Responds back ∧ tagOf back = tagOf sent := by
  obtain ⟨he, hv, hp, hrespond⟩ := ha
  obtain ⟨length, hlen, rfl⟩ := hb
  obtain rfl := respondSipAck_ok hv hp hrespond
  have hheld := checked_of_edits he hc
  have hchecks := ackSip_checkParsed hheld hcode hlen
  exact ⟨⟨decide_eq_true (Int.ne_of_gt hcode), rfl, hchecks, hheld.number, hheld.tag⟩,
    (sameTag_of_edits he).tag⟩

/-- It is accepted with its tag, whoever sent it. -/
theorem validate_response {sm : ShortMsg} (s : Settings) (env : Env) (early : Bool)
    (hparse : x.toShortMsg.parse lib = .ok (true, sm)) (hp : sm.parsed = some p)
    (hr : Responds p) :
    ∃ x', x.validateShortMsg lib s env early = .ok (0, x') ∧ x'.id = x.id ∧
      x'.qtag = some (tagOf p) := by
  obtain ⟨hresponse, -, hchecks, hnumber, htag⟩ := hr
  obtain ⟨hid, ⟨f, u, hf, -⟩, -⟩ := ShortMsgPending.parts_of_checkParsed hchecks
  have hlog : ShortMsgPending.logsMissingFrom s p = false := by
    unfold ShortMsgPending.logsMissingFrom
    rw [hf]
    simp
  have hrelay : ShortMsgPending.arrivedFromRelay s env x p = false := by
    unfold ShortMsgPending.arrivedFromRelay
    rw [hresponse]
    rfl
  have hpass : ShortMsgPending.passesEarlyCheck s env x p early = true := by
    unfold ShortMsgPending.passesEarlyCheck
    rw [hrelay, Bool.and_false]
    rfl
  rw [ShortMsgPending.validateShortMsg_apply hparse hp hlog, if_neg (not_not.2 hchecks),
    if_pos hpass, ShortMsgPending.setQtag_apply (ShortMsg.parse_valid hparse :) hp hf hid]
  unfold tagOf
  unfold cseqNumberOf at hnumber ⊢
  unfold fromTag at htag ⊢
  rw [hf, Option.bind_some] at htag ⊢
  obtain ⟨tag, htag⟩ := Option.isSome_iff_exists.1 htag
  cases hcseq : p.cseq with
  | none => simp [hcseq] at hnumber
  | some cseq =>
    rw [hcseq, Option.bind_some] at hnumber
    obtain ⟨number, hnumber⟩ := Option.isSome_iff_exists.1 hnumber
    rw [Option.bind_some]
    dsimp only
    rw [hnumber, htag]
    exact ⟨_, rfl, rfl, rfl⟩

/-! ## The datagram -/

namespace Daemon

/-- A datagram whose message passes the checks is accepted. -/
theorem arrive_of_accepted {buffer srcaddr : List UInt8} {smp : ShortMsgPending}
    (hr : d.reader = .waiting) (hne : buffer ≠ []) (hfit : buffer.length ≤ bufferSize)
    (hv : ({ datagram buffer srcaddr with id := d.queue.nextId } : ShortMsgPending).validateShortMsg
      lib d.queue.settings env true = .ok (0, smp)) :
    d.arrive lib env buffer srcaddr = some { d with
      queue := { d.queue with nextId := d.queue.nextId + 1 }, reader := .accepted smp } := by
  unfold arrive
  rw [hr]
  dsimp only [SMq.newMessage]
  rw [if_neg (by simp [hne, hfit]), hv]
  rfl

/-- The text of such a response arrives, is accepted, and finds the request that has its tag. -/
theorem findsRequest_of_text {now : Time} {buffer srcaddr : List UInt8} {m : ShortMsgPending}
    (hd : d.queue.Distinct) (hr : d.reader = .waiting) (hne : buffer ≠ [])
    (hfit : buffer.length ≤ bufferSize) (hzero : 0 ∉ buffer)
    (hparse : lib.messageParse buffer = some back) (hback : Responds back)
    (hm : m ∈ d.queue.timeSortedList) (htagged : SMq.taggedRequest (tagOf back) m = true) :
    d.FindsRequest lib env now buffer srcaddr := by
  have hsmall : buffer.length % 2 ^ 16 = buffer.length := by
    refine Nat.mod_eq_of_lt ?_
    unfold bufferSize at hfit
    omega
  have htext : (datagram buffer srcaddr).text = some buffer := by
    change some (cstr (strncpy (cstr buffer) (buffer.length % 2 ^ 16))) = some buffer
    rw [ReadLoop.cstr_of_not_mem hzero, hsmall, cstr_strncpy hzero (Nat.le_refl _)]
  let x : ShortMsgPending := { datagram buffer srcaddr with id := d.queue.nextId }
  obtain ⟨sm, hsm, hsip⟩ : ∃ sm, x.toShortMsg.parse lib = .ok (true, sm) ∧ sm.parsed = some back :=
    parse_of_text rfl htext hsmall hparse
      ⟨_, ShortMsg.parseContent_iff.2 (.missing hback.noContent)⟩
  obtain ⟨smp, hvalid, hid, hqtag⟩ := validate_response d.queue.settings env true hsm hsip hback
  refine ⟨_, smp, arrive_of_accepted hr hne hfit hvalid, rfl, tagOf back, hqtag, m, ?_,
    htagged⟩
  refine List.mem_filter.2 ⟨List.mem_cons_of_mem _ hm, decide_eq_true fun h => ?_⟩
  have hlt := hd.lt_nextId m.id (Agenda.mem_ids.2 ⟨_, SMq.mem_agenda hm, rfl⟩)
  have hnew : m.id = d.queue.nextId := h.trans hid
  rw [hnew] at hlt
  exact Nat.lt_irrefl _ hlt

end Daemon

/-! ## The request of a run -/

namespace Program

variable {p : Program}

/-- In every run, and whatever the queue file held: the answer to a queued request is accepted,
whichever code it has, and is matched with a queued request that has its tag. -/
theorem run_findsRequest (lib : Libs) (env : Env) (now : Time) (srcaddr : List UInt8)
    (p : Program) (m : ShortMsgPending) (sent answer back : SipMessage) (errcode : Int)
    (h : Reachable Start (Step lib) p) (hr : p.daemon.reader = .waiting)
    (hm : m ∈ p.daemon.queue.timeSortedList) (hsent : m.parsed = some sent)
    (hreq : sent.isRequest = true) (hcode : 0 < errcode) (ha : AnsweredBy lib errcode sent answer)
    (hparse : lib.messageParse (lib.messageToStr answer) = some back) (hb : ReadBack answer back)
    (hne : lib.messageToStr answer ≠ []) (hzero : 0 ∉ lib.messageToStr answer)
    (hfit : (lib.messageToStr answer).length ≤ Daemon.bufferSize) :
    p.daemon.FindsRequest lib env now (lib.messageToStr answer) srcaddr := by
  have hall := holding_of_lasting ShortMsgPending.wellFormed_lasting h
  obtain ⟨sip, hsip, htag, hhash, hchecks⟩ := (hall.queue m hm).tree
  obtain rfl : sip = sent := Option.some.inj (hsip.symm.trans hsent)
  obtain ⟨hback, hsame⟩ := ha.responds hb (checked_iff.2 ⟨hreq, hchecks hreq⟩) hcode
  refine Daemon.findsRequest_of_text hall.distinct hr hne hfit hzero hparse hback hm ?_
  unfold SMq.taggedRequest SMq.hasTag isRequestMsg
  rw [hsame, hhash, htag, hsip, Option.any_some, hreq]
  simp

/-- The answer of another program that has queued the sample message. -/
def sampleAnswer : SipMessage := ackSip 202 sampleRequest

/-- The sample message is queued. -/
def HoldsSample (p : Program) : Bool :=
  p.daemon.queue.timeSortedList.map (·.parsed) = [some sampleRequest]

theorem answeredBy_sample (lib : Libs) : AnsweredBy lib 202 sampleRequest sampleAnswer :=
  .mk (m := { parsedIsValid := true, parsed := some sampleRequest }) .refl rfl rfl rfl

/-- The sample message is read from the queue file, and its answer finds it. -/
theorem run_findsRequest_sample : ∃ p,
    (recordStart 12).next (sampleLibs [sampleRequest, sampleAnswer] sampleVias)
      (.load (sampleEnv 0) fun _ => some []) = some p ∧ HoldsSample p = true ∧
      p.daemon.FindsRequest (sampleLibs [sampleRequest, sampleAnswer] sampleVias) (sampleEnv 0) 0
        (SampleLibs.messageText sampleAnswer) [] := by
  have hrun : ((recordStart 12).next (sampleLibs [sampleRequest, sampleAnswer] sampleVias)
      (.load (sampleEnv 0) fun _ => some [])).any HoldsSample = true := by
    decide +kernel
  obtain ⟨p, hp, hholds⟩ := (Option.any_eq_true _ _).1 hrun
  refine ⟨p, hp, hholds, ?_⟩
  have hstart := recordStart_start 12
  have hload : (recordStart 12).load (sampleLibs [sampleRequest, sampleAnswer] sampleVias)
      (sampleEnv 0) (fun _ => some []) = some p := hp
  have hreader : p.daemon.reader = .waiting := by
    rcases load_ok hload with hd | ⟨l, l', msgtext, -, -, -, hr⟩
    · rw [hd]
      exact hstart.threads.reader
    · rw [hr]
      exact hstart.threads.reader
  have htrees : p.daemon.queue.timeSortedList.map (·.parsed) = [some sampleRequest] :=
    of_decide_eq_true hholds
  obtain ⟨m, hm, hparsed⟩ : ∃ m ∈ p.daemon.queue.timeSortedList, m.parsed = some sampleRequest :=
    List.mem_map.1 (htrees ▸ List.mem_singleton_self _)
  exact run_findsRequest _ (sampleEnv 0) 0 [] p m sampleRequest sampleAnswer sampleAnswer 202
    ((Runs.GuardedRun.start hstart).next trivial hp) hreader hm hparsed rfl (by decide)
    (answeredBy_sample _) (by decide +kernel) ⟨none, .inl rfl, rfl⟩ (by decide +kernel)
    (by decide +kernel) (by decide +kernel)

end Program

end Smqueue

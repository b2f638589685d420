import Smqueue.Admission
import Smqueue.Proofs.AddressesProofs
import Smqueue.Proofs.DeparturesProofs
import Smqueue.Proofs.LifecycleProofs
import Smqueue.Proofs.RestartProofs

/-!
# Proofs: messages from the relay

The address that a message came from is the relay exactly if it is the same address, byte by byte.
With this the verdict of the reader is found, and what it refuses stays out of the queue in every
run.
-/

namespace Smqueue

open Agenda (ids)

variable {lib : Libs} {env : Env} {ns : NameService} {x y : InetAddr} {p : SipMessage}
  {s : Settings} {m m' : ShortMsgPending} {d d' : Daemon} {i : MsgId}

/-! ## The relay -/

theorem InetAddr.host_ne_nil (x : InetAddr) : x.host ≠ [] :=
  List.ne_nil_of_mem x.dot_mem_host

theorem InetAddr.sockaddr_inj : x.sockaddr = y.sockaddr ↔ x = y := by
  refine ⟨fun h => ?_, fun h => h ▸ rfl⟩
  cases x
  cases y
  unfold sockaddr at h
  simp only [List.cons_append, List.cons.injEq] at h
  simp [h]

theorem NameService.msgIsFromRelay_inet (hn : ns.Lawful) :
    ns.msgIsFromRelay y.sockaddr x.host x.port = true ↔ y = x := by
  obtain ⟨family, protocol, haddrs⟩ := hn.getaddrinfo_inet true x
  unfold msgIsFromRelay
  rw [if_neg x.host_ne_nil, haddrs]
  dsimp only
  simp only [List.any_cons, List.any_nil, Bool.or_false, InetAddr.sockaddr_length, Bool.and_eq_true,
    decide_eq_true_eq, true_and, InetAddr.sockaddr_inj]
  exact eq_comm

namespace ShortMsgPending

theorem arrivedFromRelay_iff (hn : ns.Lawful) (hat : RelayAt ns x s env)
    (hsrc : m.srcaddr = y.sockaddr) (hreq : p.isRequest = true)
    (hmethod : p.sipMethod = some (str "MESSAGE")) : arrivedFromRelay s env m p = true ↔ y = x := by
  have hres : p.isResponse = false := by simpa [SipMessage.isRequest] using hreq
  unfold arrivedFromRelay
  rw [hres, hmethod, hat.relaxedVerify, hat.msgIsFromRelay, hat.globalRelay, hat.globalRelayPort, hsrc]
  simp only [Bool.not_false, decide_true, Bool.true_and, Bool.false_and, Bool.or_false]
  exact NameService.msgIsFromRelay_inet hn

/-- A request from the relay passes the early check exactly if it can be delivered. -/
theorem passesEarlyCheck_iff (hn : ns.Lawful) (hat : RelayAt ns x s env)
    (hsrc : m.srcaddr = y.sockaddr) (hreq : p.isRequest = true)
    (hmethod : p.sipMethod = some (str "MESSAGE")) :
    passesEarlyCheck s env m p true = true ↔ (y = x → p.Deliverable s env) := by
  have hfrom := arrivedFromRelay_iff hn hat hsrc hreq hmethod
  unfold passesEarlyCheck SipMessage.Deliverable
  rw [Bool.true_and, Bool.or_eq_true, Bool.not_eq_true', Bool.eq_false_iff, Ne, hfrom]
  exact ⟨fun h hy => h.resolve_left fun hne => hne hy, fun h => or_iff_not_imp_left.2 fun hy =>
    h (not_not.1 hy)⟩

/-- A request that passes the checks has a CSeq header. -/
theorem cseq_of_checkParsed (hreq : p.isRequest = true) (hc : checkParsed p = 0) :
    p.cseq.isSome = true := by
  have hnames : ∀ method, cseqNames p method = true → p.cseq.isSome = true := by
    intro method hm
    obtain ⟨cseq, hcseq, -⟩ := (Option.any_eq_true _ _).1 hm
    rw [hcseq]
    rfl
  obtain ⟨-, hrequest, -⟩ := (checkParsed_eq_zero_iff hreq).1 hc
  obtain ⟨uri, -, -, -, ⟨-, -, -, -, hm⟩ | ⟨-, hm⟩⟩ := checkRequest_eq_zero_iff.1 hrequest
  · exact hnames _ hm
  · exact hnames _ hm

/-- A request that passes the checks is tagged, if no null pointer is followed. -/
theorem setQtag_accepts {code : Int} (hv : m.parsedIsValid = true) (hp : m.parsed = some p)
    (hreq : p.isRequest = true) (hc : checkParsed p = 0) (h : m.setQtag lib = .ok (code, m')) :
    code = 0 := by
  obtain ⟨hid, ⟨f, u, hf, -⟩, -⟩ := parts_of_checkParsed hc
  obtain ⟨cseq, hcseq⟩ := Option.isSome_iff_exists.1 (cseq_of_checkParsed hreq hc)
  unfold setQtag at h
  rw [ShortMsg.parse_of_valid hv] at h
  change (deref m.parsed >>= fun p => _) = _ at h
  obtain ⟨p', hp', h⟩ := Except.bind_eq_ok.1 h
  obtain rfl : p' = p := Option.some.inj ((deref_eq_ok hp').symm.trans hp)
  simp only [hf] at h
  rw [if_neg (by simp [Option.isSome_iff_ne_none.1 hid])] at h
  simp only [hcseq] at h
  obtain ⟨number, -, h⟩ := Except.bind_eq_ok.1 h
  obtain ⟨tag, -, h⟩ := Except.bind_eq_ok.1 h
  cases h
  rfl

/-- The verdict on a request that passes the checks, from an address of the internet. -/
theorem validate_relayed {code : Int} {sm : ShortMsg} (hn : ns.Lawful) (hat : RelayAt ns x s env)
    (hsrc : m.srcaddr = y.sockaddr) (hparse : m.toShortMsg.parse lib = .ok (true, sm))
    (hp : sm.parsed = some p) (hc : checkParsed p = 0) (hreq : p.isRequest = true)
    (hmethod : p.sipMethod = some (str "MESSAGE"))
    (h : m.validateShortMsg lib s env true = .ok (code, m')) :
    code = 0 ∧ (y = x → p.Deliverable s env) ∨ code = 404 ∧ y = x ∧ ¬ p.Deliverable s env := by
  have hlog : logsMissingFrom s p = false := by
    obtain ⟨-, ⟨f, u, hf, -⟩, -⟩ := parts_of_checkParsed hc
    unfold logsMissingFrom
    simp [hf]
  rw [validateShortMsg_apply hparse hp hlog, if_neg (not_not.2 hc)] at h
  have hpass := passesEarlyCheck_iff hn hat hsrc hreq hmethod
  by_cases hearly : passesEarlyCheck s env m p true = true
  · rw [if_pos hearly] at h
    exact .inl ⟨setQtag_accepts (ShortMsg.parse_valid hparse :) hp hreq hc h, hpass.1 hearly⟩
  · rw [if_neg hearly] at h
    cases h
    obtain ⟨hy, hd⟩ := Classical.not_imp.1 (mt hpass.2 hearly)
    exact .inr ⟨rfl, hy, hd⟩

end ShortMsgPending

/-! ## What is refused -/

namespace Daemon

/-- The reader does not have the message ready for the queue, and it is not queued. -/
structure KeptOut (d : Daemon) (i : MsgId) : Prop extends Sound d where
  given : i < d.queue.nextId
  reader : ∀ smp, d.reader = .accepted smp → smp.id ≠ i
  queue : ∀ m ∈ d.queue.timeSortedList, m.id ≠ i

/-- A pass queues no message but those that are queued and new ones. -/
theorem KeptOut.passed {q : SMq} (h : d.KeptOut i) (hq : d.queue.processTimeout lib env = .ok q) :
    ∀ m ∈ q.timeSortedList, m.id ≠ i := by
  rintro m hm rfl
  have hmem : m.id ∈ ids q.agenda := Agenda.mem_ids.2 ⟨_, SMq.mem_agenda hm, rfl⟩
  have hperm := SMq.processTimeout_balance h.distinct hq
  rcases List.mem_append.1 (hperm.mem_iff.1 (List.mem_append_left _ hmem)) with hold | hnew
  · obtain ⟨e, he, hid⟩ := Agenda.mem_ids.1 hold
    obtain ⟨m0, hm0, rfl⟩ := List.mem_map.1 he
    exact h.queue m0 hm0 hid
  · obtain ⟨origin, -, hid⟩ := Option.mem_map.1 (Option.mem_toList.1 hnew)
    exact absurd h.given (hid ▸ Nat.lt_irrefl _)

/-- An edit of the SIP messages queues nothing. -/
theorem KeptOut.edited {r : ShortMsg → ShortMsg → Prop} (h : d.KeptOut i) (he : OnlyEdited r d d') :
    (∀ smp, d'.reader = .accepted smp → smp.id ≠ i) ∧
      ∀ m ∈ d'.queue.timeSortedList, m.id ≠ i := by
  constructor
  · intro smp hsmp
    obtain ⟨x, hx, hedit⟩ := he.accepted smp hsmp
    rw [hedit.id]
    exact h.reader x hx
  · intro m hm
    obtain ⟨x, hx, hedit⟩ := he.queue m hm
    rw [hedit.id]
    exact h.queue x hx

theorem KeptOut.next {a : DaemonAct} (h : d.KeptOut i) (hn : d.next lib a = some d') :
    d'.KeptOut i := by
  have hs := h.toSound
  have hgiven : i < d'.queue.nextId := Nat.lt_of_lt_of_le h.given (next_nextId hs hn)
  have hout : (∀ smp, d'.reader = .accepted smp → smp.id ≠ i) ∧
      ∀ m ∈ d'.queue.timeSortedList, m.id ≠ i := by
    cases next_happened hs hn with
    | passed _ hq hr => exact ⟨fun smp hsmp => h.reader smp (hr ▸ hsmp), h.passed hq⟩
    | arrived _ hv hq hr =>
      refine ⟨fun smp hsmp hid => ?_, fun m hm => h.queue m (by rw [hq] at hm; exact hm)⟩
      have hheld : smp ∈ d'.reader.smpl := by
        rw [hsmp]
        rfl
      rw [(arrived_new hv hr hheld).1] at hid
      exact absurd h.given (hid ▸ Nat.lt_irrefl _)
    | spliced _ hr hq hr' =>
      refine ⟨fun smp hsmp => ?_, fun m hm => ?_⟩
      · rw [hr'] at hsmp
        cases hsmp
      · rw [hq] at hm
        have hne := h.reader _ hr
        rcases List.mem_cons.1 hm with rfl | hm
        · exact hne
        · exact h.queue m hm
    | parsed he => exact h.edited he
    | dumped _ he => exact h.edited he
  exact { hs.next hn with given := hgiven, reader := hout.1, queue := hout.2 }

theorem KeptOut.of_run {acts : List DaemonAct} (h : d.KeptOut i)
    (hrun : d.run lib acts = some d') : d'.KeptOut i := by
  have hstep : ∀ (d1 : Daemon) (a : DaemonAct) (d2 : Daemon), d1.KeptOut i →
      d1.next lib a = some d2 → d2.KeptOut i := fun _ _ _ h hn => h.next hn
  rw [run_eq] at hrun
  exact Runs.run_invariant hstep hrun h

/-- What the reader has refused is kept out. -/
theorem keptOut_of_rejected {errcode : Int} {smp : ShortMsgPending} (hs : d.Sound)
    (hr : d.reader = .rejected errcode smp) : d.KeptOut smp.id := by
  have hheld : d.held = some smp.id := by
    unfold held
    rw [hr]
    rfl
  obtain ⟨hgiven, hnot⟩ := hs.held_fresh _ hheld
  refine { hs with given := hgiven, reader := fun x hx => ?_, queue := fun m hm hid => hnot ?_ }
  · rw [hr] at hx
    cases hx
  · rw [← hid]
    exact Agenda.mem_ids.2 ⟨_, SMq.mem_agenda hm, rfl⟩

/-- A request that passes the checks is accepted unless the relay sent it and there is no one to
deliver it to; then it is refused with 404, and is not queued in any run. -/
theorem run_admits (lib : Libs) (ns : NameService) (hn : ns.Lawful) (x y : InetAddr) (env : Env)
    (buffer : List UInt8) (d d' : Daemon) (sm : ShortMsg) (p : SipMessage)
    (hr : Runs.Reachable Start (Step lib) d) (hat : RelayAt ns x d.queue.settings env)
    (ha : d.arrive lib env buffer y.sockaddr = some d')
    (hparse : (datagram buffer y.sockaddr).toShortMsg.parse lib = .ok (true, sm))
    (hp : sm.parsed = some p) (hc : ShortMsgPending.checkParsed p = 0) (hreq : p.isRequest = true)
    (hmethod : p.sipMethod = some (str "MESSAGE")) :
    ((∃ smp, d'.reader = .accepted smp) ↔ (y = x → p.Deliverable d.queue.settings env)) ∧
      ((∃ smp, d'.reader = .rejected 404 smp) ↔ y = x ∧ ¬ p.Deliverable d.queue.settings env) ∧
      (y = x → ¬ p.Deliverable d.queue.settings env → ∀ acts d2, d'.run lib acts = some d2 →
        ∀ m ∈ d2.queue.timeSortedList, m.id ≠ d.queue.nextId) := by
  have hs : d.Sound := Reachable.sound hr
  obtain ⟨-, errcode, smp, hv, hd'⟩ := arrive_validated ha
  have hid : smp.id = d.queue.nextId :=
    congrArg Agenda.Entry.id (ShortMsgPending.validateShortMsg_same hv).entry
  have hreader : d'.reader = if errcode = 0 then .accepted smp else .rejected errcode smp := by
    rw [hd']
  have hverdict := ShortMsgPending.validate_relayed
    (m := { datagram buffer y.sockaddr with id := d.queue.nextId }) hn hat rfl hparse hp hc hreq
    hmethod hv
  rcases hverdict with ⟨rfl, hpass⟩ | ⟨rfl, hy, hd⟩
  · rw [if_pos rfl] at hreader
    refine ⟨iff_of_true ⟨smp, hreader⟩ hpass, iff_of_false ?_ fun h => h.2 (hpass h.1),
      fun hy hd => absurd (hpass hy) hd⟩
    rintro ⟨x, hx⟩
    rw [hreader] at hx
    cases hx
  · rw [if_neg (by decide)] at hreader
    refine ⟨iff_of_false ?_ fun h => hd (h hy), iff_of_true ⟨smp, hreader⟩ ⟨hy, hd⟩,
      fun _ _ acts d2 hrun m hm => ?_⟩
    · rintro ⟨x, hx⟩
      rw [hreader] at hx
      cases hx
    · rw [← hid]
      have hnext : d.next lib (.arrive env buffer y.sockaddr) = some d' := ha
      exact ((keptOut_of_rejected (hs.next hnext) hreader).of_run hrun).queue m hm

/-- The relay of the sample settings. -/
def sampleRelay : InetAddr := ⟨127, 0, 0, 1, 19, 196⟩

def relaySettings : Settings := { globalRelay := sampleRelay.host, globalRelayPort := sampleRelay.port }

/-- The registry is empty, and addresses are looked up as numbers. -/
def relayEnv : Env := { sampleEnv 0 with msgIsFromRelay := NameService.numbers.msgIsFromRelay }

set_option maxRecDepth 100000 in
theorem parse_relayed :
    (datagram (SampleLibs.messageText sampleRequest) sampleRelay.sockaddr).toShortMsg.parse
      (sampleLibs [sampleRequest] []) = .ok (true, parsedMsg sampleRequest) := rfl

/-- The relay sends the sample message, whose user is not known. -/
theorem run_admits_relay : ∃ d',
    (idle relaySettings).arrive (sampleLibs [sampleRequest] []) relayEnv
      (SampleLibs.messageText sampleRequest) sampleRelay.sockaddr = some d' ∧
      (∃ smp, d'.reader = .rejected 404 smp) ∧
      ∀ acts d2, d'.run (sampleLibs [sampleRequest] []) acts = some d2 →
        ∀ m ∈ d2.queue.timeSortedList, m.id ≠ 0 := by
  have harrive : ((idle relaySettings).arrive (sampleLibs [sampleRequest] []) relayEnv
      (SampleLibs.messageText sampleRequest) sampleRelay.sockaddr).isSome = true := by decide +kernel
  obtain ⟨d', hd'⟩ := Option.isSome_iff_exists.1 harrive
  have hno : ¬ sampleRequest.Deliverable relaySettings relayEnv := by
    unfold SipMessage.Deliverable
    decide
  obtain ⟨-, hrejected, hout⟩ := run_admits (sampleLibs [sampleRequest] []) NameService.numbers
    NameService.numbers_lawful sampleRelay sampleRelay relayEnv
    (SampleLibs.messageText sampleRequest) (idle relaySettings) d' (parsedMsg sampleRequest)
    sampleRequest (.start (idle_start _)) ⟨rfl, rfl, rfl, rfl⟩ hd' parse_relayed rfl (by decide) rfl rfl
  exact ⟨d', hd', hrejected.2 ⟨rfl, hno⟩, hout rfl hno⟩

end Daemon

end Smqueue

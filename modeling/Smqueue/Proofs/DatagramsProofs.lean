import Smqueue.Datagrams
import Smqueue.Proofs.LifecycleProofs
import Smqueue.Proofs.PollingProofs
import Smqueue.Proofs.SmNetProofs

/-!
# Proofs: datagrams

No datagram is lost between the kernel and the threads, none is read twice, and the datagrams of one
socket stay in order; the sockets are served in the order in which they were opened.
-/

namespace Smqueue

variable {lib : Libs} {env : Env} {queues queues' : Queues} {net net' : Receiver} {len : Int}
  {buffer : List UInt8} {bufferlen : Nat} {n n' : Node}

/-! ## One call -/

namespace Receiver

/-- A datagram was taken out of the kernel, and the result tells what became of it. -/
structure Took (bufferlen : Nat) (queues : Queues) (fd : Int) (d : Datagram) (len : Int)
    (buffer : List UInt8) (queues' : Queues) (net' : Receiver) : Prop where
  oldest : (queues fd).head? = some d
  left : queues' = Function.update queues fd (queues fd).tail
  addr : net'.srcAddr.take net'.recvaddrlen = d.addr
  addrlen : net'.recvaddrlen = d.addr.length
  len_eq : len = d.result bufferlen
  buffer_eq : 0 < len → buffer = d.bytes

theorem readSocket_of_empty {fd : Int} (h : queues fd = []) (hb : bufferlen < 2 ^ 31) :
    readSocket bufferlen fd queues net =
      some ((-1, []), queues, { net with recvaddrlen := srcAddrSize }) := by
  have hsame : Function.update queues fd [] = queues := by
    rw [← h, Function.update_eq_self]
  unfold readSocket recvfrom
  rw [h, List.head?_nil, List.tail_nil, hsame]
  dsimp only [Option.elim]
  rw [if_neg (by decide), if_pos (by omega)]

theorem readSocket_of_cons (bufferlen : Nat) (net : Receiver) {fd : Int} {d : Datagram}
    (h : (queues fd).head? = some d)
    (haddr : d.addr.length ≤ srcAddrSize) :
    ∃ len buffer net', readSocket bufferlen fd queues net = some ((len, buffer),
        Function.update queues fd (queues fd).tail, net') ∧
      net'.fds = net.fds ∧ Took bufferlen queues fd d len buffer
        (Function.update queues fd (queues fd).tail) net' := by
  unfold readSocket recvfrom
  rw [h]
  dsimp only [Option.elim]
  rw [if_neg (by omega)]
  by_cases hlong : bufferlen < d.bytes.length
  · rw [if_pos hlong]
    refine ⟨_, _, _, rfl, rfl, h, rfl, List.take_left' rfl, rfl, ?_, fun hpos => absurd hpos (by decide)⟩
    unfold Datagram.result
    rw [if_pos hlong]
  · rw [if_neg hlong]
    refine ⟨_, _, _, rfl, rfl, h, rfl, List.take_left' rfl, rfl, ?_,
      fun _ => List.take_of_length_le (by omega)⟩
    unfold Datagram.result
    rw [if_neg hlong]

/-- Reading a socket takes its oldest datagram, or fails and takes nothing. -/
theorem readSocket_ok {fd : Int} (hb : bufferlen < 2 ^ 31)
    (h : readSocket bufferlen fd queues net = some ((len, buffer), queues', net')) :
    queues' = queues ∧ len ≤ 0 ∨ ∃ d, Took bufferlen queues fd d len buffer queues' net' := by
  cases hq : (queues fd).head? with
  | none =>
    rw [readSocket_of_empty (List.head?_eq_none_iff.1 hq) hb] at h
    cases h
    exact .inl ⟨rfl, by decide⟩
  | some d =>
    by_cases haddr : d.addr.length ≤ srcAddrSize
    · obtain ⟨len1, buffer1, net1, hread, -, htook⟩ := readSocket_of_cons bufferlen net hq haddr
      rw [hread] at h
      cases h
      exact .inr ⟨d, htook⟩
    · unfold readSocket recvfrom at h
      rw [hq] at h
      dsimp only [Option.elim] at h
      rw [if_pos (by omega)] at h
      cases h

/-- The loop reads at most one socket. -/
theorem walkSockets_ok {fds : List PollFd} (hb : bufferlen < 2 ^ 31)
    (h : walkSockets bufferlen queues net fds = some ((len, buffer), queues', net')) :
    queues' = queues ∧ len ≤ 0 ∨ ∃ fd d, Took bufferlen queues fd d len buffer queues' net' := by
  induction fds with
  | nil =>
    cases h
    exact .inl ⟨rfl, by decide⟩
  | cons p rest ih =>
    unfold walkSockets at h
    split at h
    · rcases readSocket_ok hb h with hnone | ⟨d, htook⟩
      · exact .inl hnone
      · exact .inr ⟨p.fd, d, htook⟩
    · split at h
      · cases h
        exact .inl ⟨rfl, le_refl _⟩
      · split at h
        · cases h
          exact .inl ⟨rfl, by decide⟩
        · exact ih h

theorem getNextDgram_ok {ready : Option Ready} {mstimeout : Int} (hb : bufferlen < 2 ^ 31)
    (h : net.getNextDgram ready bufferlen mstimeout queues = some ((len, buffer), queues', net')) :
    queues' = queues ∧ len ≤ 0 ∨ ∃ fd d, Took bufferlen queues fd d len buffer queues' net' := by
  unfold getNextDgram at h
  split at h
  · cases h
  · obtain ⟨⟨i, fds⟩, -, h⟩ := Option.bind_eq_some_iff.1 h
    dsimp only at h
    split at h
    · rename_i hi
      cases h
      exact .inl ⟨rfl, hi⟩
    · exact walkSockets_ok hb h

end Receiver

/-! ## Runs -/

theorem takenFrom_append (fd : Int) (l l' : List (Int × Datagram)) :
    takenFrom fd (l ++ l') = takenFrom fd l ++ takenFrom fd l' := by
  unfold takenFrom
  rw [List.filter_append, List.map_append]

theorem Receiver.Took.conserved {fd : Int} {d : Datagram}
    (h : Receiver.Took bufferlen queues fd d len buffer queues' net') (fd' : Int) :
    queues fd' = takenFrom fd' [(fd, d)] ++ queues' fd' := by
  rw [h.left]
  by_cases hfd : fd = fd'
  · subst hfd
    obtain ⟨rest, hq⟩ := List.head?_eq_some_iff.1 h.oldest
    simp [takenFrom, hq]
  · simp [takenFrom, hfd, Function.update_of_ne (Ne.symm hfd)]

namespace Datagram

theorem result_pos_iff {d : Datagram} : 0 < d.result bufferlen ↔ d.fits bufferlen = true := by
  unfold result fits
  have hne : d.bytes ≠ [] ↔ 0 < d.bytes.length := List.length_pos_iff.symm
  rw [Bool.and_eq_true, decide_eq_true_eq, decide_eq_true_eq, hne]
  split <;> omega

theorem result_of_fits {d : Datagram} (h : d.fits bufferlen = true) :
    d.result bufferlen = d.bytes.length := by
  unfold fits at h
  rw [Bool.and_eq_true, decide_eq_true_eq, decide_eq_true_eq] at h
  unfold result
  rw [if_neg (by omega)]

end Datagram

namespace Node

theorem Carries.refl (lib : Libs) (n : Node) : Carries lib n [] n :=
  ⟨[], [], rfl, rfl, fun fd => by simp [takenFrom]⟩

/-- What is carried along two sequences is carried along both. -/
theorem Carries.trans {n₁ n₂ n₃ : Node} {acts acts' : List NodeAct} (h : Carries lib n₁ acts n₂)
    (h' : Carries lib n₂ acts' n₃) : Carries lib n₁ (acts ++ acts') n₃ := by
  obtain ⟨taken, as, hrun, harr, hq⟩ := h
  obtain ⟨taken', as', hrun', harr', hq'⟩ := h'
  refine ⟨taken ++ taken', as ++ as', ?_, ?_, fun fd => ?_⟩
  · rw [Daemon.run_eq] at hrun hrun' ⊢
    rw [Runs.run_append, hrun]
    exact hrun'
  · rw [List.filterMap_append, harr, harr', List.map_append, List.filterMap_append]
  · rw [List.filterMap_append, takenFrom_append, ← List.append_assoc, hq, List.append_assoc, hq',
      List.append_assoc]

/-- Without a datagram the reader ends its loop, or takes no step. -/
theorem leave_run (lib : Libs) (d : Daemon) : ∃ as : List DaemonAct, d.run lib as = some (d.leave.getD d) ∧
    as.filterMap DaemonAct.arrival = [] := by
  cases h : d.leave with
  | none => exact ⟨[], rfl, rfl⟩
  | some d' => exact ⟨[.leave], Option.bind_eq_some_iff.2 ⟨d', h, rfl⟩, rfl⟩

/-- A step of `main_loop` takes at most one datagram, and hands it to the threads if it fits. -/
theorem mainLoop_carries {ready : Option Ready} (h : n.mainLoop lib env ready = some n') :
    Carries lib n [.mainLoop env ready] n' := by
  unfold mainLoop at h
  split at h
  · obtain ⟨⟨⟨len, buffer⟩, queues, net⟩, hnext, h⟩ := Option.bind_eq_some_iff.1 h
    dsimp only at h
    have htook := Receiver.getNextDgram_ok (by decide) hnext
    by_cases hlen : len ≤ 0
    · rw [if_pos hlen] at h
      cases h
      obtain ⟨as, hrun, has⟩ := leave_run lib n.daemon
      rcases htook with ⟨rfl, -⟩ | ⟨fd, d, htook⟩
      · exact ⟨[], as, hrun, has, fun fd => by simp [takenFrom, NodeAct.datagramFor]⟩
      · refine ⟨[(fd, d)], as, hrun, ?_, fun fd' => ?_⟩
        · rw [htook.len_eq, ← not_lt, Datagram.result_pos_iff] at hlen
          simp [hlen, has]
        · change n.queues fd' ++ [] = _
          rw [List.append_nil]
          exact htook.conserved fd'
    · rw [if_neg hlen] at h
      obtain ⟨daemon, harrive, h⟩ := Option.map_eq_some_iff.1 h
      subst h
      rcases htook with ⟨-, hle⟩ | ⟨fd, d, htook⟩
      · exact absurd hle hlen
      · have hpos : 0 < len := not_le.1 hlen
        have hfits : d.fits Daemon.bufferSize = true := by
          rw [htook.len_eq] at hpos
          exact Datagram.result_pos_iff.1 hpos
        refine ⟨[(fd, d)], [.arrive env d.bytes d.handed.2], ?_, ?_, fun fd' => ?_⟩
        · have hbytes : buffer.take len.toNat = d.bytes := by
            rw [htook.buffer_eq hpos, htook.len_eq, Datagram.result_of_fits hfits, Int.toNat_natCast,
              List.take_length]
          have haddr : srcaddr net = d.handed.2 := by
            unfold srcaddr Datagram.handed
            rw [htook.addrlen, ← htook.addrlen, htook.addr, htook.addrlen]
          rw [hbytes, haddr] at harrive
          rw [Daemon.run_eq]
          change (n.daemon.arrive lib env d.bytes d.handed.2).bind _ = _
          rw [harrive]
          rfl
        · simp [hfits, DaemonAct.arrival, Datagram.handed]
        · change n.queues fd' ++ [] = _
          rw [List.append_nil]
          exact htook.conserved fd'
  · cases h

/-- One step carries what it takes. -/
theorem next_carries {a : NodeAct} (h : n.next lib a = some n') : Carries lib n [a] n' := by
  cases a with
  | datagram fd d =>
    cases h
    refine ⟨[], [], rfl, rfl, fun fd' => ?_⟩
    by_cases hfd : fd = fd'
    · subst hfd
      simp [takenFrom, NodeAct.datagramFor]
    · simp [takenFrom, NodeAct.datagramFor, hfd, Function.update_of_ne (Ne.symm hfd)]
  | mainLoop env ready => exact mainLoop_carries h
  | thread a =>
    change (if a.isArrival then none else (n.daemon.next lib a).map fun d => { n with daemon := d }) =
      some n' at h
    split at h
    · cases h
    · rename_i harrival
      obtain ⟨daemon, hnext, rfl⟩ := Option.map_eq_some_iff.1 h
      refine ⟨[], [a], ?_, ?_, fun fd => by simp [takenFrom, NodeAct.datagramFor]⟩
      · rw [Daemon.run_eq]
        change (n.daemon.next lib a).bind _ = _
        rw [hnext]
        rfl
      · cases a <;> first | rfl | exact absurd rfl harrival

/-- Whatever the order of the steps: of what came for a descriptor the oldest part was taken out of the
kernel, the rest is still there, and what was taken and fits arrived in the threads once and in that
order. -/
theorem run_carries (lib : Libs) (n n' : Node) (acts : List NodeAct)
    (h : Runs.run (Node.next lib) n acts = some n') : Carries lib n acts n' := by
  induction acts generalizing n with
  | nil =>
    cases h
    exact .refl lib _
  | cons a acts ih =>
    obtain ⟨n₁, hstep, hrest⟩ := Option.bind_eq_some_iff.1 h
    exact (next_carries hstep).trans (ih n₁ hrest)

/-- A socket with no datagram yet, and threads that do nothing yet. -/
def sampleNode : Node where
  net := ⟨[⟨3, 3, 0⟩], [], 0⟩
  queues := fun _ => []
  daemon := Daemon.idle {}

/-- The sample message comes, and is read. -/
def sampleActs : List NodeAct :=
  [.datagram 3 ⟨SampleLibs.messageText sampleRequest, []⟩,
    .mainLoop (sampleEnv 0) (some ⟨fun fd => fd = 3, fun _ => true, fun _ => false⟩)]

theorem run_carries_sample :
    ∃ n', Runs.run (Node.next (sampleLibs [sampleRequest] [])) sampleNode sampleActs = some n' ∧
      n'.queues 3 = [] ∧ Carries (sampleLibs [sampleRequest] []) sampleNode sampleActs n' := by
  have hrun : (Runs.run (Node.next (sampleLibs [sampleRequest] [])) sampleNode sampleActs).any
      (fun n' => n'.queues 3 = []) = true := by
    decide +kernel
  obtain ⟨n', hn', hread⟩ := (Option.any_eq_true _ _).1 hrun
  exact ⟨n', hn', of_decide_eq_true hread, run_carries _ sampleNode n' sampleActs hn'⟩

end Node

/-! ## The order of the sockets -/

namespace Receiver

variable {write : Int → Bool} {mstimeout : Int} {fds : List PollFd}

/-- Each entry reports input exactly if its socket has a datagram, and nothing else. -/
def Marked (queues : Queues) (fds : List PollFd) : Prop :=
  ∀ p ∈ fds, ∀ f, PollFlag.isSet p.revents f = true ↔ f = .pollin ∧ queues p.fd ≠ []

theorem Listening.reports_iff (hl : net.Listening) {p : PollFd} (hp : p ∈ net.fds) (f : PollFlag) :
    p.Reports (readyOf queues write) f ↔ f = .pollin ∧ queues p.fd ≠ [] := by
  obtain ⟨hnonneg, -⟩ := hl.usable p hp
  obtain ⟨hin, hout⟩ := hl.events p hp
  unfold PollFd.Reports
  cases f <;> simp [readyOf, Ready.isReady, hnonneg, hin, hout]

/-- What `poll_sockets` leaves of listening sockets. -/
theorem Listening.poll (hl : net.Listening) (queues : Queues) (write : Int → Bool)
    (mstimeout : Int) :
    ∃ n fds, SocketTable.pollSockets (some (readyOf queues write)) net.fds mstimeout =
        some (n, fds) ∧ 0 ≤ n ∧
      (0 < n ↔ ∃ p ∈ net.fds, queues p.fd ≠ []) ∧ fds.map PollFd.fd = net.fds.map PollFd.fd ∧
      Marked queues fds ∧ Listening { net with fds := fds } := by
  have husable : ∀ p ∈ net.fds, p.Usable := fun p hp =>
    ⟨(hl.usable p hp).2, fun hneg => absurd (hl.usable p hp).1 (not_le.2 hneg)⟩
  have htimeout : -1 ≤ if mstimeout < 0 then -1 else mstimeout := by
    split <;> omega
  obtain ⟨n, sets, hpoll, hnonneg, hcount, hflags⟩ :=
    Poll.poll_flags (r := readyOf queues write) hl.distinct husable htimeout
  have hfds : (Poll.mapSelectResults sets net.fds).map PollFd.fd = net.fds.map PollFd.fd := by
    unfold Poll.mapSelectResults
    rw [List.map_map]
    exact List.map_congr_left fun p _ => (Poll.mapSelectResult_same sets p).1
  refine ⟨n, _, hpoll, hnonneg, hcount.trans ⟨?_, ?_⟩, hfds, ?_, ?_⟩
  · rintro ⟨p, hp, f, hreports⟩
    exact ⟨p, hp, ((hl.reports_iff hp f).1 hreports).2⟩
  · rintro ⟨p, hp, hne⟩
    exact ⟨p, hp, .pollin, (hl.reports_iff hp .pollin).2 ⟨rfl, hne⟩⟩
  · intro p' hp' f
    obtain ⟨p, hp, rfl⟩ := List.mem_map.1 hp'
    rw [hflags p hp f, hl.reports_iff hp, hl.reports_iff hp, (Poll.mapSelectResult_same sets p).1]
    exact ⟨fun h => h.1, fun h => ⟨h, fun hpri => by cases hpri.2.1⟩⟩
  · have hsame : ∀ p' ∈ Poll.mapSelectResults sets net.fds, ∃ p ∈ net.fds,
        p'.fd = p.fd ∧ p'.events = p.events := by
      intro p' hp'
      obtain ⟨p, hp, rfl⟩ := List.mem_map.1 hp'
      exact ⟨p, hp, Poll.mapSelectResult_same sets p⟩
    refine ⟨?_, hfds ▸ hl.distinct, fun p' hp' => ?_, fun p' hp' => ?_⟩
    · have hne := hl.nonempty
      change Poll.mapSelectResults sets net.fds ≠ []
      unfold Poll.mapSelectResults
      rwa [Ne, List.map_eq_nil_iff]
    · obtain ⟨p, hp, hfd, -⟩ := hsame p' hp'
      rw [hfd]
      exact hl.usable p hp
    · obtain ⟨p, hp, -, hevents⟩ := hsame p' hp'
      rw [hevents]
      exact hl.events p hp

/-- The loop reads the first socket that has a datagram. -/
theorem walkSockets_first {before after : List PollFd} {p : PollFd}
    (hm : Marked queues (before ++ p :: after)) (hbefore : ∀ b ∈ before, queues b.fd = [])
    (hp : queues p.fd ≠ []) :
    walkSockets bufferlen queues net (before ++ p :: after) =
      readSocket bufferlen p.fd queues net := by
  induction before with
  | nil =>
    have hin := (hm p (List.mem_cons_self ..) .pollin).2 ⟨rfl, hp⟩
    change walkSockets bufferlen queues net (p :: after) = _
    unfold walkSockets
    rw [hin, Bool.true_or, if_pos rfl]
  | cons b before ih =>
    have hclear : ∀ f, PollFlag.isSet b.revents f = false := by
      intro f
      have hiff := hm b (List.mem_cons_self ..) f
      have hempty := hbefore b (List.mem_cons_self ..)
      rw [Bool.eq_false_iff, Ne, hiff]
      exact fun h => h.2 hempty
    rw [List.cons_append]
    unfold walkSockets
    rw [hclear, hclear, hclear, hclear, hclear, hclear]
    exact ih (fun q hq => hm q (List.mem_cons_of_mem _ hq))
      fun q hq => hbefore q (List.mem_cons_of_mem _ hq)

/-- The first entry with a datagram, and what is read behind it. -/
theorem first_pending {d : Datagram} {rest : List Datagram}
    (h : fds.flatMap (fun p => queues p.fd) = d :: rest) :
    ∃ before p after left, fds = before ++ p :: after ∧ (∀ b ∈ before, queues b.fd = []) ∧
      queues p.fd = d :: left ∧ rest = left ++ after.flatMap fun p => queues p.fd := by
  induction fds with
  | nil => cases h
  | cons q fds ih =>
    rw [List.flatMap_cons] at h
    cases hq : queues q.fd with
    | nil =>
      rw [hq, List.nil_append] at h
      obtain ⟨before, p, after, left, rfl, hbefore, hp, hrest⟩ := ih h
      refine ⟨q :: before, p, after, left, rfl, fun b hb => ?_, hp, hrest⟩
      rcases List.mem_cons.1 hb with rfl | hb
      · exact hq
      · exact hbefore b hb
    | cons d' left =>
      rw [hq, List.cons_append] at h
      obtain ⟨rfl, rfl⟩ := List.cons.inj h
      exact ⟨[], q, fds, left, rfl, fun b hb => (by cases hb), hq, rfl⟩

/-- What is read when the first datagram was taken. -/
theorem pending_taken {before after : List PollFd} {p : PollFd} {left : List Datagram}
    (hd : ((before ++ p :: after).map PollFd.fd).Nodup) (hbefore : ∀ b ∈ before, queues b.fd = []) :
    (before ++ p :: after).flatMap (fun q => Function.update queues p.fd left q.fd) =
      left ++ after.flatMap fun q => queues q.fd := by
  rw [List.map_append, List.map_cons, List.nodup_append] at hd
  obtain ⟨-, hafter, hdisjoint⟩ := hd
  obtain ⟨hp, -⟩ := List.nodup_cons.1 hafter
  have hfront : before.flatMap (fun q => Function.update queues p.fd left q.fd) = [] := by
    refine List.flatMap_eq_nil_iff.2 fun b hb => ?_
    have hne : b.fd ≠ p.fd :=
      hdisjoint b.fd (List.mem_map_of_mem hb) p.fd (List.mem_cons_self ..)
    rw [Function.update_of_ne hne]
    exact hbefore b hb
  have hback : after.flatMap (fun q => Function.update queues p.fd left q.fd) =
      after.flatMap fun q => queues q.fd := by
    refine List.flatMap_congr fun q hq => ?_
    have hne : q.fd ≠ p.fd := fun h => hp (h ▸ List.mem_map_of_mem hq)
    rw [Function.update_of_ne hne]
  rw [List.flatMap_append, List.flatMap_cons, hfront, hback, Function.update_self, List.nil_append]

theorem pending_congr (h : net'.fds.map PollFd.fd = net.fds.map PollFd.fd) :
    net'.pending queues = net.pending queues := by
  unfold pending
  rw [← List.flatMap_map PollFd.fd queues, h, List.flatMap_map]

theorem Took.outcome_eq {fd : Int} {d : Datagram}
    (h : Took bufferlen queues fd d len buffer queues' net') :
    outcome len buffer net' = received bufferlen d := by
  unfold outcome received
  rw [h.addr, h.len_eq]
  by_cases hfits : d.fits bufferlen = true
  · have hpos := Datagram.result_pos_iff.2 hfits
    rw [if_pos hpos, if_pos hfits, h.buffer_eq (h.len_eq ▸ hpos)]
  · have hneg : ¬ 0 < d.result bufferlen := fun hpos => hfits (Datagram.result_pos_iff.1 hpos)
    rw [if_neg hneg, if_neg hfits]

theorem Listening.congr (hl : net.Listening) (h : net'.fds = net.fds) : net'.Listening :=
  ⟨h ▸ hl.nonempty, h ▸ hl.distinct, h ▸ hl.usable, h ▸ hl.events⟩

/-- A call reads the first pending datagram, and times out if there is none. -/
theorem Listening.next (hl : net.Listening) (write : Int → Bool) (bufferlen : Nat) (mstimeout : Int)
    (haddr : ∀ d ∈ net.pending queues, d.addr.length ≤ srcAddrSize) :
    ∃ len buffer queues' net', net.getNextDgram (some (readyOf queues write)) bufferlen mstimeout
        queues = some ((len, buffer), queues', net') ∧ net'.Listening ∧
      net'.pending queues' = (net.pending queues).tail ∧
      outcome len buffer net' = (net.pending queues).head?.elim (0, [], []) (received bufferlen) := by
  obtain ⟨n, fds, hpoll, hnonneg, hcount, hfds, hmarked, hl'⟩ :=
    hl.poll queues write mstimeout
  have hsame : pending { net with fds := fds } queues = net.pending queues := pending_congr hfds
  unfold getNextDgram
  rw [if_neg hl.nonempty, hpoll, Option.bind_some]
  dsimp only
  cases hpending : net.pending queues with
  | nil =>
    have hzero : n = 0 := by
      refine le_antisymm (not_lt.1 fun hpos => ?_) hnonneg
      obtain ⟨p, hp, hne⟩ := hcount.1 hpos
      exact hne (List.flatMap_eq_nil_iff.1 hpending p hp)
    subst hzero
    exact ⟨0, [], queues, _, if_pos (le_refl _), hl', hsame.trans hpending, rfl⟩
  | cons d rest =>
    obtain ⟨before, p, after, left, hsplit, hbefore, hp, hrest⟩ :=
      first_pending (hsame.trans hpending)
    have hsplit : fds = before ++ p :: after := hsplit
    have hne : queues p.fd ≠ [] := hp ▸ List.cons_ne_nil d left
    have hpos : 0 < n := hcount.2 (by
      have hmem : p.fd ∈ net.fds.map PollFd.fd := hfds ▸ List.mem_map_of_mem (by simp [hsplit])
      obtain ⟨p0, hp0, hfd⟩ := List.mem_map.1 hmem
      exact ⟨p0, hp0, hfd ▸ hne⟩)
    have hd : d.addr.length ≤ srcAddrSize := haddr d (hpending ▸ List.mem_cons_self ..)
    rw [if_neg (not_le.2 hpos), hsplit, walkSockets_first (hsplit ▸ hmarked) hbefore hne]
    obtain ⟨len, buffer, net', hread, hfds', htook⟩ := readSocket_of_cons bufferlen
      { net with fds := before ++ p :: after } (hp ▸ rfl : (queues p.fd).head? = some d) hd
    refine ⟨len, buffer, _, net', hread, ?_, ?_, htook.outcome_eq⟩
    · exact hl'.congr (hfds'.trans hsplit.symm)
    · have hleft : (queues p.fd).tail = left := by rw [hp, List.tail_cons]
      unfold pending
      rw [hfds', hleft, pending_taken (hsplit ▸ hl'.distinct) hbefore, List.tail_cons, hrest]

/-- While no datagram comes, the calls read what the kernel holds, socket by socket in the order of the
sockets and in each socket in the order in which it came, and then time out. -/
theorem receive_inOrder (write : Int → Bool) (bufferlen : Nat) (mstimeout : Int) (n : Nat)
    (queues : Queues) (net : Receiver) (hl : net.Listening)
    (haddr : ∀ d ∈ net.pending queues, d.addr.length ≤ srcAddrSize) :
    ∃ queues' net', receive write bufferlen mstimeout n queues net =
        some (((net.pending queues).take n).map (received bufferlen) ++
          List.replicate (n - (net.pending queues).length) (0, [], []), queues', net') ∧
      net'.pending queues' = (net.pending queues).drop n := by
  induction n generalizing queues net with
  | zero =>
    refine ⟨queues, net, ?_, rfl⟩
    rw [Nat.zero_sub]
    rfl
  | succ n ih =>
    obtain ⟨len, buffer, queues₁, net₁, hnext, hl₁, htail, houtcome⟩ :=
      hl.next write bufferlen mstimeout haddr
    have haddr₁ : ∀ d ∈ net₁.pending queues₁, d.addr.length ≤ srcAddrSize := fun d hd =>
      haddr d (List.mem_of_mem_tail (htail ▸ hd))
    obtain ⟨queues', net', hreceive, hdrop⟩ := ih queues₁ net₁ hl₁ haddr₁
    refine ⟨queues', net', ?_, ?_⟩
    · unfold receive
      rw [hnext, Option.bind_some]
      dsimp only
      rw [hreceive, Option.map_some, houtcome, htail]
      cases net.pending queues with
      | nil => simp [List.replicate_succ]
      | cons d rest => simp
    · rw [hdrop, htail, List.drop_tail]

end Receiver

/-! ## The sockets that are opened -/

namespace SocketTable

variable {t t' : SocketTable} {s : Socket} {events : Int} {opened : List Socket}

theorem grow_sockets (h : t.grow = some t') (ha : t.Allocated) :
    t'.sockets.take t.numsockets = t.sockets.take t.numsockets := by
  have hsockets := ha.sockets_size
  have hbounded := ha.bounded
  unfold grow at h
  split at h
  · dsimp only at h
    split at h
    · cases h
      exact take_realloc (t.allocsockets + 10) (by omega)
    · cases h
  · cases h
    rfl

theorem addSocket_pollFds (h : t.addSocket s events = some t') (ha : t.Allocated) :
    t'.pollFds = t.pollFds ++ [⟨s.fd, events, 0⟩] := by
  obtain ⟨t₁, hgrow, rfl⟩ := Option.map_eq_some_iff.1 h
  obtain ⟨⟨hsockets, -, -⟩, hnum, hroom, -, -⟩ := grow_ok hgrow ha
  unfold pollFds
  dsimp only
  rw [Compaction.take_set_succ _ (by omega), List.filterMap_append, hnum, grow_sockets hgrow ha]
  rfl

/-- The entry of a socket that `listen_on_port` opened. -/
def listenEntry (s : Socket) : PollFd := ⟨s.fd, listenEvents, 0⟩

/-- The table holds these sockets, as `listen_on_port` adds them. -/
structure Holds (t : SocketTable) (opened : List Socket) : Prop extends Allocated t where
  aligned : t.Aligned opened
  entries : t.pollFds = opened.map listenEntry

theorem holds_empty : Holds empty [] :=
  { toAllocated := consistent_start.1, aligned := ⟨Nat.le_refl 0, rfl, rfl⟩, entries := rfl }

theorem Holds.add (hh : t.Holds opened) (hs : s.addrlen ≤ sockaddrStorageSize)
    (h : t.addSocket s listenEvents = some t') : t'.Holds (opened ++ [s]) := by
  refine { toAllocated := (addSocket_ok h hh.toAllocated).1
           aligned := (aligned_add_iff hh.toAllocated hh.aligned h).2 hs, entries := ?_ }
  rw [addSocket_pollFds h hh.toAllocated, hh.entries, List.map_append]
  rfl

/-- The loop adds the sockets that are opened, and counts them. -/
theorem Holds.listenLoop {attempts : List Attempt} {gotasocket : Nat} (hh : t.Holds opened)
    (haddr : ∀ a ∈ attempts, a.ap.aiAddrlen ≤ sockaddrStorageSize)
    (h : t.listenLoop attempts = some (t', gotasocket)) :
    t'.Holds (opened ++ openedBy attempts) ∧ gotasocket = (openedBy attempts).length := by
  induction attempts generalizing t opened gotasocket with
  | nil =>
    cases h
    exact ⟨(List.append_nil opened).symm ▸ hh, rfl⟩
  | cons a rest ih =>
    have hrest := fun b hb => haddr b (List.mem_cons_of_mem a hb)
    unfold SocketTable.listenLoop at h
    by_cases hopened : a.opened = true
    · obtain ⟨hfd, hbound⟩ := Bool.and_eq_true_iff.1 hopened
      rw [decide_eq_true_eq] at hfd
      rw [if_neg (not_lt.2 hfd), if_neg (by simp [hbound])] at h
      obtain ⟨t₁, hadd, h⟩ := Option.bind_eq_some_iff.1 h
      obtain ⟨⟨t₂, n⟩, hloop, h⟩ := Option.map_eq_some_iff.1 h
      cases h
      obtain ⟨hh', hn⟩ := ih (hh.add (haddr a (List.mem_cons_self ..)) hadd) hrest hloop
      have hsplit : openedBy (a :: rest) = a.socket :: openedBy rest := by
        unfold openedBy
        rw [List.filter_cons_of_pos hopened, List.map_cons]
      rw [hsplit, List.length_cons, hn]
      exact ⟨List.append_cons opened a.socket (openedBy rest) ▸ hh', rfl⟩
    · have hsplit : openedBy (a :: rest) = openedBy rest := by
        unfold openedBy
        rw [List.filter_cons_of_neg hopened]
      have h : t.listenLoop rest = some (t', gotasocket) := by
        split at h
        · exact h
        · split at h
          · exact h
          · rename_i hfd hbound
            refine absurd ?_ hopened
            unfold Attempt.opened
            simp only [Bool.not_eq_true', Bool.not_eq_false] at hbound
            rw [hbound, decide_eq_true (not_lt.1 hfd)]
            rfl
      rw [hsplit]
      exact ih hh hrest h

theorem listenOnPort_holds {attempts : List Attempt} {ok : Bool}
    (haddr : ∀ a ∈ attempts, a.ap.aiAddrlen ≤ sockaddrStorageSize)
    (h : empty.listenOnPort (some attempts) = some (ok, t)) :
    t.Holds (openedBy attempts) ∧ (ok = true ↔ openedBy attempts ≠ []) := by
  obtain ⟨⟨t₁, gotasocket⟩, hloop, h⟩ := Option.map_eq_some_iff.1 h
  cases h
  obtain ⟨hh, hn⟩ := holds_empty.listenLoop haddr hloop
  refine ⟨hh, ?_⟩
  rw [hn, decide_eq_true_eq, Ne, List.length_eq_zero_iff]

theorem openedBy_nonneg {attempts : List Attempt} (hs : s ∈ openedBy attempts) : 0 ≤ s.fd := by
  obtain ⟨a, ha, rfl⟩ := List.mem_map.1 hs
  have hopened := (Bool.and_eq_true_iff.1 (List.mem_filter.1 ha).2).1
  exact of_decide_eq_true hopened

theorem Holds.listening {attempts : List Attempt} (hh : t.Holds (openedBy attempts))
    (hne : openedBy attempts ≠ []) (hd : ((openedBy attempts).map Socket.fd).Nodup)
    (hfit : ∀ s ∈ openedBy attempts, s.fd < fdSetSize) (srcAddr : List UInt8) (recvaddrlen : Nat) :
    Receiver.Listening ⟨t.pollFds, srcAddr, recvaddrlen⟩ := by
  have hentry : ∀ p ∈ t.pollFds, ∃ s ∈ openedBy attempts, listenEntry s = p := fun p hp =>
    List.mem_map.1 (hh.entries ▸ hp)
  refine ⟨?_, ?_, fun p hp => ?_, fun p hp => ?_⟩
  · change t.pollFds ≠ []
    rwa [hh.entries, Ne, List.map_eq_nil_iff]
  · change (t.pollFds.map PollFd.fd).Nodup
    rw [hh.entries, List.map_map]
    exact hd
  · obtain ⟨s, hs, rfl⟩ := hentry p hp
    exact ⟨openedBy_nonneg hs, hfit s hs⟩
  · obtain ⟨s, hs, rfl⟩ := hentry p hp
    unfold listenEntry listenEvents
    simp

/-- After `listen_on_port` the sending loops find the sockets that were opened. While no datagram comes,
the calls of `get_next_dgram` read what the kernel holds, socket by socket in the order of the addresses
and in each socket in the order in which it came, and then time out. -/
theorem listenOnPort_receives (attempts : List Attempt) (t : SocketTable) (write : Int → Bool)
    (bufferlen : Nat) (mstimeout : Int) (n : Nat) (queues : Queues) (srcAddr : List UInt8)
    (recvaddrlen : Nat) (h : empty.listenOnPort (some attempts) = some (true, t))
    (haddr : ∀ a ∈ attempts, a.ap.aiAddrlen ≤ sockaddrStorageSize)
    (hd : ((openedBy attempts).map Socket.fd).Nodup)
    (hfit : ∀ s ∈ openedBy attempts, s.fd < fdSetSize)
    (hsrc : ∀ s ∈ openedBy attempts, ∀ d ∈ queues s.fd, d.addr.length ≤ srcAddrSize) :
    t.net = ⟨openedBy attempts⟩ ∧ ∃ queues' net',
      Receiver.receive write bufferlen mstimeout n queues ⟨t.pollFds, srcAddr, recvaddrlen⟩ =
        some ((((openedBy attempts).flatMap fun s => queues s.fd).take n).map
            (Receiver.received bufferlen) ++
          List.replicate (n - ((openedBy attempts).flatMap fun s => queues s.fd).length) (0, [], []),
          queues', net') ∧
      net'.pending queues' = ((openedBy attempts).flatMap fun s => queues s.fd).drop n := by
  obtain ⟨hh, hok⟩ := listenOnPort_holds haddr h
  have hl := hh.listening (hok.1 rfl) hd hfit srcAddr recvaddrlen
  have hpending : Receiver.pending ⟨t.pollFds, srcAddr, recvaddrlen⟩ queues =
      (openedBy attempts).flatMap fun s => queues s.fd := by
    unfold Receiver.pending
    dsimp only
    rw [hh.entries, List.flatMap_map]
    rfl
  refine ⟨hh.aligned.net_eq, ?_⟩
  rw [← hpending]
  refine Receiver.receive_inOrder write bufferlen mstimeout n queues _ hl fun d hmem => ?_
  rw [hpending] at hmem
  obtain ⟨s, hs, hds⟩ := List.mem_flatMap.1 hmem
  exact hsrc s hs d hds

/-- Two sockets are opened, and the datagrams of the first one are read first. -/
theorem listenOnPort_receives_two : ∃ t queues' net',
    empty.listenOnPort (some [⟨⟨2, 2, 17, 16, []⟩, 3, true⟩, ⟨⟨10, 2, 17, 28, []⟩, 4, true⟩]) =
      some (true, t) ∧
    Receiver.receive (fun _ => true) 5000 60000 3
      (fun fd => if fd = 3 then [⟨[1], [7]⟩] else [⟨[2], [8]⟩]) ⟨t.pollFds, [], 0⟩ =
      some ([(1, [1], [7]), (1, [2], [8]), (0, [], [])], queues', net') := by
  have hopen : (empty.listenOnPort (some [⟨⟨2, 2, 17, 16, []⟩, 3, true⟩,
      ⟨⟨10, 2, 17, 28, []⟩, 4, true⟩])).any Prod.fst = true := by
    decide
  obtain ⟨⟨ok, t⟩, ht, rfl⟩ := (Option.any_eq_true _ _).1 hopen
  obtain ⟨-, queues', net', hreceive, -⟩ := listenOnPort_receives _ t (fun _ => true) 5000 60000 3
    (fun fd => if fd = 3 then [⟨[1], [7]⟩] else [⟨[2], [8]⟩]) [] 0 ht (by decide) (by decide)
    (by decide) (by decide)
  exact ⟨t, queues', net', ht, hreceive⟩

end SocketTable

/-! ## Answers -/

namespace SMnet

variable (sendto : Int → Option Nat) (buffsize : Nat) (toaddr : List UInt8) (sockets : List Socket)

theorem sendDgram_cons (s : Socket) (rest : List Socket) :
    sendDgram sendto buffsize toaddr (s :: rest) =
      if s.suits toaddr = true then
        (sendto s.fd).elim ((sendDgram sendto buffsize toaddr rest).1,
            ⟨s.fd, toaddr, false⟩ :: (sendDgram sendto buffsize toaddr rest).2)
          fun i => (decide (i = buffsize), [⟨s.fd, toaddr, i = buffsize⟩])
      else sendDgram sendto buffsize toaddr rest := by
  rw [sendDgram]
  change (if s.suits toaddr = true then _ else _) = _
  cases sendto s.fd <;> rfl

/-- The calls: those that fail, and the first that does not. -/
theorem sendDgram_calls :
    (sendDgram sendto buffsize toaddr sockets).2 =
      ((suited toaddr sockets).takeWhile fun s => (sendto s.fd).isNone).map
          (fun s => ⟨s.fd, toaddr, false⟩) ++
        (((suited toaddr sockets).find? fun s => (sendto s.fd).isSome).map fun s =>
          ⟨s.fd, toaddr, sendto s.fd = some buffsize⟩).toList := by
  induction sockets with
  | nil => rfl
  | cons s rest ih =>
    rw [sendDgram_cons]
    unfold suited at ih ⊢
    by_cases hs : s.suits toaddr = true
    · rw [if_pos hs, List.filter_cons_of_pos hs]
      cases hsend : sendto s.fd with
      | none => simp [hsend, ih]
      | some i => simp [hsend]
    · rw [if_neg hs, List.filter_cons_of_neg hs, ih]

theorem sendDgram_result :
    (sendDgram sendto buffsize toaddr sockets).1 = true ↔
      ∃ s, (suited toaddr sockets).find? (fun s => (sendto s.fd).isSome) = some s ∧
        sendto s.fd = some buffsize := by
  induction sockets with
  | nil => simp [sendDgram, suited]
  | cons s rest ih =>
    rw [sendDgram_cons]
    unfold suited at ih ⊢
    by_cases hs : s.suits toaddr = true
    · rw [if_pos hs, List.filter_cons_of_pos hs]
      cases hsend : sendto s.fd with
      | none => simp [hsend, ih]
      | some i => simp [hsend]
    · rw [if_neg hs, List.filter_cons_of_neg hs, ih]

theorem sendDgram_count :
    (sendDgram sendto buffsize toaddr sockets).2.countP (·.sent) =
      if (sendDgram sendto buffsize toaddr sockets).1 = true then 1 else 0 := by
  have hfailed : ∀ l : List Socket,
      (l.map fun s => (⟨s.fd, toaddr, false⟩ : SendTo)).countP (·.sent) = 0 := fun l => by
    rw [List.countP_map, List.countP_eq_zero]
    exact fun _ _ h => by cases h
  rw [sendDgram_calls, List.countP_append, hfailed, Nat.zero_add]
  have hresult := sendDgram_result sendto buffsize toaddr sockets
  cases hfind : (suited toaddr sockets).find? fun s => (sendto s.fd).isSome with
  | none =>
    rw [hfind] at hresult
    rw [if_neg fun h => by simpa using hresult.1 h]
    rfl
  | some s =>
    rw [hfind] at hresult
    by_cases hsend : sendto s.fd = some buffsize
    · rw [if_pos (hresult.2 ⟨s, rfl, hsend⟩)]
      simp [hsend]
    · have hnot : ¬ (sendDgram sendto buffsize toaddr sockets).1 = true := fun h => by
        obtain ⟨s', hs', hwhole⟩ := hresult.1 h
        obtain rfl := Option.some.inj hs'
        exact hsend hwhole
      rw [if_neg hnot]
      simp [hsend]

/-- An answer goes out at most once and to its own address only, and the result says whether it went out
whole; it does exactly if the first socket that takes it takes it whole. -/
theorem sendDgram_sentOnce :
    SentOnce (sendDgram sendto buffsize toaddr sockets).1
        (sendDgram sendto buffsize toaddr sockets).2 ∧
      (∀ c ∈ (sendDgram sendto buffsize toaddr sockets).2, c.addr = toaddr ∧
        ∃ s ∈ sockets, s.suits toaddr = true ∧ s.fd = c.fd) ∧
      ((sendDgram sendto buffsize toaddr sockets).1 = true ↔
        ∃ s, (suited toaddr sockets).find? (fun s => (sendto s.fd).isSome) = some s ∧
          sendto s.fd = some buffsize) := by
  have hcount := sendDgram_count sendto buffsize toaddr sockets
  refine ⟨⟨?_, ?_⟩, fun c hc => ?_, sendDgram_result sendto buffsize toaddr sockets⟩
  · rw [hcount]
    split <;> omega
  · rw [hcount]
    split <;> simp_all
  · have hsuited : ∀ s ∈ suited toaddr sockets, s ∈ sockets ∧ s.suits toaddr = true := fun s hs =>
      List.mem_filter.1 hs
    rw [sendDgram_calls] at hc
    rcases List.mem_append.1 hc with hc | hc
    · obtain ⟨s, hs, rfl⟩ := List.mem_map.1 hc
      obtain ⟨hmem, hsuits⟩ := hsuited s ((List.takeWhile_prefix _).subset hs)
      exact ⟨rfl, s, hmem, hsuits, rfl⟩
    · obtain ⟨s, hfind, rfl⟩ := Option.map_eq_some_iff.1 (Option.mem_toList.1 hc)
      obtain ⟨hmem, hsuits⟩ := hsuited s (List.mem_of_find?_eq_some hfind)
      exact ⟨rfl, s, hmem, hsuits, rfl⟩

/-- No socket suits the empty address. -/
theorem suited_nil {sockets : List Socket} (hpos : ∀ s ∈ sockets, 0 < s.addrlen) :
    suited [] sockets = [] := by
  refine List.filter_eq_nil_iff.2 fun s hs hsuits => ?_
  have hlen := (Bool.and_eq_true_iff.1 hsuits).2
  have hzero : s.addrlen = 0 := of_decide_eq_true hlen
  exact absurd (hpos s hs) (by omega)

/-- The answer to a datagram goes out at most once, to the address that the datagram came from, and the
result says whether it went out. It does exactly if there was room for the address in the message, and
the first socket that takes the answer takes it whole. -/
theorem answer_sentOnce (sendto : Int → Option Nat) (buffsize : Nat) (d : Datagram)
    (sockets : List Socket) (hpos : ∀ s ∈ sockets, 0 < s.addrlen) :
    SentOnce (sendDgram sendto buffsize d.handed.2 sockets).1
        (sendDgram sendto buffsize d.handed.2 sockets).2 ∧
      (∀ c ∈ (sendDgram sendto buffsize d.handed.2 sockets).2, c.addr = d.addr) ∧
      ((sendDgram sendto buffsize d.handed.2 sockets).1 = true ↔
        d.addr.length ≤ msgSrcaddrSize ∧
          ∃ s, (suited d.addr sockets).find? (fun s => (sendto s.fd).isSome) = some s ∧
            sendto s.fd = some buffsize) := by
  obtain ⟨honce, haddr, hresult⟩ := sendDgram_sentOnce sendto buffsize d.handed.2 sockets
  refine ⟨honce, fun c hc => ?_, hresult.trans ?_⟩
  · obtain ⟨hc, s, hs, hsuits, -⟩ := haddr c hc
    rw [hc]
    unfold Datagram.handed at hsuits ⊢
    split
    · rfl
    · rename_i hlong
      rw [if_neg hlong] at hsuits
      have hmem : s ∈ suited [] sockets := List.mem_filter.2 ⟨hs, hsuits⟩
      rw [suited_nil hpos] at hmem
      cases hmem
  · unfold Datagram.handed
    by_cases hroom : d.addr.length ≤ msgSrcaddrSize
    · rw [if_pos hroom]
      simp [hroom]
    · rw [if_neg hroom, suited_nil hpos]
      simp [hroom]

/-- A sender with an address of 28 bytes gets no answer. -/
theorem answer_sentOnce_long : (sendDgram (fun _ => some 5) 5
    (Datagram.handed ⟨[1], List.replicate 28 7⟩).2 [⟨3, 2, 2, 17, 16⟩, ⟨4, 10, 2, 17, 28⟩]).1 = false := by
  have hpos : ∀ s ∈ ([⟨3, 2, 2, 17, 16⟩, ⟨4, 10, 2, 17, 28⟩] : List Socket), 0 < s.addrlen := by
    decide
  have h := answer_sentOnce (fun _ => some 5) 5 ⟨[1], List.replicate 28 7⟩
    [⟨3, 2, 2, 17, 16⟩, ⟨4, 10, 2, 17, 28⟩] hpos
  rw [Bool.eq_false_iff]
  exact fun ht => absurd (h.2.2.1 ht).1 (by decide)

end SMnet

end Smqueue

import Smqueue.Polling
import Smqueue.Proofs.SocketTableProofs

/-!
# Proofs: polling

The emulation reports of every entry what `poll` has to report, but no input where there is an
exception.
-/

namespace Smqueue

open PollFlag

/-! ## Flags -/

namespace PollFlag

theorem testBit_value (f g : PollFlag) : f.value.testBit g.bit = decide (f = g) := by
  cases f <;> cases g <;> decide

@[simp] theorem isSet_zero (f : PollFlag) : isSet 0 f = false := by
  cases f <;> rfl

@[simp] theorem isSet_set (flags : Int) (f g : PollFlag) :
    isSet (set flags f) g = (isSet flags g || decide (f = g)) := by
  unfold isSet set
  rw [Int.testBit_lor, testBit_value]

@[simp] theorem isSet_clear (flags : Int) (f g : PollFlag) :
    isSet (clear flags f) g = (isSet flags g && !decide (f = g)) := by
  unfold isSet clear
  rw [Int.testBit_ldiff, testBit_value]

end PollFlag

/-! ## The sets -/

namespace FdSets

theorem mem_putIf {wanted : Bool} {fd x : Int} {set : List Int} :
    x ∈ putIf wanted fd set ↔ x ∈ set ∨ wanted = true ∧ x = fd := by
  unfold putIf
  cases wanted with
  | false => simp
  | true => rw [if_pos rfl, List.mem_insert_iff]; simp [or_comm]

/-- The entry asks for what the flag stands for. -/
def Asks (p : PollFd) (f : PollFlag) : Prop :=
  f.polled = true ∧ 0 ≤ p.fd ∧ isSet p.events f = true

/-- A turn puts the descriptor into the sets that its entry asks for. -/
theorem add_ok {s : FdSets × Int} {p : PollFd} (hfit : p.fd < fdSetSize) :
    ∃ s', add s p = some s' ∧ s.2 ≤ s'.2 ∧ (0 ≤ p.fd → p.fd ≤ s'.2) ∧
      ∀ f fd, fd ∈ s'.1.fdsOf f ↔ fd ∈ s.1.fdsOf f ∨ Asks p f ∧ fd = p.fd := by
  unfold add Asks
  by_cases hneg : p.fd < 0
  · rw [if_pos hneg]
    have hno : ¬ 0 ≤ p.fd := by omega
    refine ⟨s, rfl, le_refl _, fun h => absurd h hno, fun f fd => ?_⟩
    simp [hno]
  · have hnonneg : 0 ≤ p.fd := by omega
    have hroom : overflows p = false := by
      unfold overflows
      rw [decide_eq_false (by omega), Bool.false_and]
    rw [if_neg hneg, hroom, if_neg (by decide)]
    refine ⟨_, rfl, le_max_left .., fun _ => le_max_right .., fun f fd => ?_⟩
    cases f <;> simp [fdsOf, PollFlag.polled, mem_putIf, hnonneg]

end FdSets

namespace Poll

open FdSets (Asks)

/-- The loop puts every descriptor into the sets that its entries ask for. -/
theorem mapPollSpec_loop {fds : List PollFd} (hfit : ∀ p ∈ fds, p.fd < fdSetSize)
    (s : FdSets × Int) :
    ∃ s', fds.foldlM FdSets.add s = some s' ∧ s.2 ≤ s'.2 ∧ (∀ p ∈ fds, 0 ≤ p.fd → p.fd ≤ s'.2) ∧
      ∀ f fd, fd ∈ s'.1.fdsOf f ↔ fd ∈ s.1.fdsOf f ∨ ∃ p ∈ fds, Asks p f ∧ fd = p.fd := by
  induction fds generalizing s with
  | nil => exact ⟨s, rfl, le_refl _, fun p hp => (by cases hp), fun f fd => by simp⟩
  | cons p rest ih =>
    obtain ⟨s1, hadd, hle, hp, hmem⟩ := FdSets.add_ok (s := s) (hfit p (List.mem_cons_self ..))
    obtain ⟨s2, hrest, hle2, hall, hmem2⟩ := ih (fun q hq => hfit q (List.mem_cons_of_mem _ hq)) s1
    refine ⟨s2, ?_, le_trans hle hle2, fun q hq hnonneg => ?_, fun f fd => ?_⟩
    · rw [List.foldlM_cons, hadd]
      exact hrest
    · rcases List.mem_cons.1 hq with rfl | hq
      · exact le_trans (hp hnonneg) hle2
      · exact hall q hq hnonneg
    · rw [hmem2, hmem, List.exists_mem_cons_iff, or_assoc]

theorem mapPollSpec_ok {fds : List PollFd} (hfit : ∀ p ∈ fds, p.fd < fdSetSize) :
    ∃ sets maxFd, mapPollSpec fds = some (sets, maxFd) ∧
      (∀ p ∈ fds, 0 ≤ p.fd → p.fd < maxFd + 1) ∧
      ∀ f fd, fd ∈ sets.fdsOf f ↔ ∃ p ∈ fds, Asks p f ∧ fd = p.fd := by
  obtain ⟨⟨sets, maxFd⟩, hloop, -, hmax, hmem⟩ := mapPollSpec_loop hfit ({}, -1)
  refine ⟨sets, maxFd, hloop, fun p hp h0 => Int.lt_add_one_of_le (hmax p hp h0), fun f fd => ?_⟩
  rw [hmem]
  cases f <;> simp [FdSets.fdsOf]

/-- The time that `map_timeout` makes of milliseconds is valid, and as long. -/
theorem validTimeout_mapTimeout {timeout : Int} (h : -1 ≤ timeout) :
    validTimeout (mapTimeout timeout) = true := by
  unfold mapTimeout
  split
  · rfl
  · split
    · rfl
    · have hpos : 0 ≤ timeout := by omega
      have hsec : 0 ≤ timeout.tdiv 1000 := Int.tdiv_nonneg hpos (by decide)
      have hmod : 0 ≤ timeout.tmod 1000 := Int.tmod_nonneg 1000 hpos
      have hlt : timeout.tmod 1000 < 1000 := Int.tmod_lt_of_pos timeout (by decide)
      simp only [validTimeout, Bool.and_eq_true, decide_eq_true_eq]
      omega

theorem count_pos_iff (s : FdSets) :
    0 < (s.read.length + s.write.length + s.except.length : Int) ↔ ∃ f fd, fd ∈ s.fdsOf f := by
  constructor
  · intro h
    have hsome : 0 < s.read.length ∨ 0 < s.write.length ∨ 0 < s.except.length := by omega
    rcases hsome with h | h | h
    · exact ⟨pollin, List.exists_mem_of_length_pos h⟩
    · exact ⟨pollout, List.exists_mem_of_length_pos h⟩
    · exact ⟨pollpri, List.exists_mem_of_length_pos h⟩
  · rintro ⟨f, fd, hfd⟩
    have hpos := List.length_pos_of_mem hfd
    cases f <;> simp only [FdSets.fdsOf, List.length_nil] at hpos <;> omega

/-- `select` keeps what is ready, and its count is positive if there is any. -/
theorem select_ok (r : Ready) (nfds : Int) (sets : FdSets) {timeout : Option (Int × Int)}
    (ht : validTimeout timeout = true) :
    ∃ n sets', select (some r) nfds sets timeout = (n, sets') ∧ 0 ≤ n ∧
      (0 < n ↔ ∃ f fd, fd ∈ sets'.fdsOf f) ∧
      ∀ f fd, fd ∈ sets'.fdsOf f ↔ fd ∈ sets.fdsOf f ∧ fd < nfds ∧ r.isReady f fd = true := by
  unfold select
  rw [if_pos ht]
  refine ⟨_, _, rfl, by omega, ?_, fun f fd => ?_⟩
  · exact count_pos_iff _
  · cases f <;> simp [FdSets.fdsOf, Ready.isReady]

/-- The flags that an entry gets, with one that has no descriptor left alone. -/
theorem mapSelectResult_flags {sets : FdSets} {p : PollFd} (hunused : p.fd < 0 → p.revents = 0)
    (f : PollFlag) :
    isSet (mapSelectResult sets p).revents f = true ↔ 0 ≤ p.fd ∧ p.fd ∈ sets.fdsOf f ∧
      ¬ (f = pollin ∧ p.fd ∈ sets.fdsOf pollpri) := by
  unfold mapSelectResult
  by_cases hneg : p.fd < 0
  · rw [if_pos hneg, hunused hneg, isSet_zero]
    have hno : ¬ 0 ≤ p.fd := by omega
    simp [hno]
  · have hnonneg : 0 ≤ p.fd := by omega
    rw [if_neg hneg]
    by_cases he : p.fd ∈ sets.except <;> by_cases hr : p.fd ∈ sets.read <;>
      by_cases hw : p.fd ∈ sets.write <;> cases f <;>
      simp [he, hr, hw, hnonneg, FdSets.fdsOf]

/-- An entry that gets no flag gets zero. -/
theorem mapSelectResult_ne_zero {sets : FdSets} {p : PollFd} (hunused : p.fd < 0 → p.revents = 0) :
    (mapSelectResult sets p).revents ≠ 0 ↔ ∃ f, isSet (mapSelectResult sets p).revents f = true := by
  constructor
  · intro hne
    unfold mapSelectResult at hne ⊢
    by_cases hneg : p.fd < 0
    · rw [if_pos hneg] at hne
      exact absurd (hunused hneg) hne
    · rw [if_neg hneg] at hne ⊢
      by_cases he : p.fd ∈ sets.except
      · exact ⟨pollpri, by by_cases hw : p.fd ∈ sets.write <;> simp [he, hw]⟩
      · by_cases hr : p.fd ∈ sets.read
        · exact ⟨pollin, by by_cases hw : p.fd ∈ sets.write <;> simp [he, hr, hw]⟩
        · by_cases hw : p.fd ∈ sets.write
          · exact ⟨pollout, by simp [hw]⟩
          · exact absurd (by simp [he, hr, hw]) hne
  · rintro ⟨f, hf⟩ h0
    rw [h0, isSet_zero] at hf
    cases hf

theorem mapSelectResult_same (sets : FdSets) (p : PollFd) :
    (mapSelectResult sets p).fd = p.fd ∧ (mapSelectResult sets p).events = p.events := by
  unfold mapSelectResult
  split
  · exact ⟨rfl, rfl⟩
  · exact ⟨rfl, rfl⟩

theorem asks_of_reports {r : Ready} {p : PollFd} {f : PollFlag} (h : p.Reports r f) : Asks p f := by
  obtain ⟨hnonneg, hevents, hready⟩ := h
  refine ⟨?_, hnonneg, hevents⟩
  cases f <;> first | rfl | cases hready

/-- What is left in the sets is what the entries report. -/
theorem poll_ok {r : Ready} {fds : List PollFd} {timeout : Int} (hfit : ∀ p ∈ fds, p.fd < fdSetSize)
    (ht : -1 ≤ timeout) :
    ∃ n sets, poll (some r) fds timeout = some (n, mapSelectResults sets fds) ∧ 0 ≤ n ∧
      (0 < n ↔ ∃ p ∈ fds, ∃ f, p.Reports r f) ∧
      ∀ f fd, fd ∈ sets.fdsOf f ↔ ∃ p ∈ fds, p.Reports r f ∧ fd = p.fd := by
  obtain ⟨sets, maxFd, hspec, hmax, hmem⟩ := mapPollSpec_ok hfit
  obtain ⟨n, sets', hselect, hnonneg, hcount, hmem'⟩ :=
    select_ok r (maxFd + 1) sets (validTimeout_mapTimeout ht)
  have hkept : ∀ f fd, fd ∈ sets'.fdsOf f ↔ ∃ p ∈ fds, p.Reports r f ∧ fd = p.fd := by
    intro f fd
    rw [hmem', hmem]
    constructor
    · rintro ⟨⟨p, hp, ⟨-, h0, hevents⟩, rfl⟩, -, hready⟩
      exact ⟨p, hp, ⟨h0, hevents, hready⟩, rfl⟩
    · rintro ⟨p, hp, hreports, rfl⟩
      exact ⟨⟨p, hp, asks_of_reports hreports, rfl⟩, hmax p hp hreports.1, hreports.2.2⟩
  refine ⟨n, sets', ?_, hnonneg, hcount.trans ⟨?_, ?_⟩, hkept⟩
  · unfold poll
    rw [hspec]
    change some ((select (some r) (maxFd + 1) sets (mapTimeout timeout)).1, if
      0 ≤ (select (some r) (maxFd + 1) sets (mapTimeout timeout)).1 then
        mapSelectResults (select (some r) (maxFd + 1) sets (mapTimeout timeout)).2 fds else fds) = _
    rw [hselect, if_pos hnonneg]
  · rintro ⟨f, fd, hfd⟩
    obtain ⟨p, hp, hreports, -⟩ := (hkept f fd).1 hfd
    exact ⟨p, hp, f, hreports⟩
  · rintro ⟨p, hp, f, hreports⟩
    exact ⟨f, p.fd, (hkept f p.fd).2 ⟨p, hp, hreports, rfl⟩⟩

/-- Two entries of one descriptor are the same one. -/
theorem eq_of_fd_eq {fds : List PollFd} (hd : (fds.map PollFd.fd).Nodup) {p q : PollFd}
    (hp : p ∈ fds) (hq : q ∈ fds) (h : p.fd = q.fd) : p = q :=
  List.inj_on_of_nodup_map hd hp hq h

/-- Where no two entries have one descriptor, each of them gets what it reports. -/
theorem poll_flags {r : Ready} {fds : List PollFd} {timeout : Int}
    (hd : (fds.map PollFd.fd).Nodup) (hu : ∀ p ∈ fds, p.Usable) (ht : -1 ≤ timeout) :
    ∃ n sets, poll (some r) fds timeout = some (n, mapSelectResults sets fds) ∧ 0 ≤ n ∧
      (0 < n ↔ ∃ p ∈ fds, ∃ f, p.Reports r f) ∧
      ∀ p ∈ fds, ∀ f, isSet (mapSelectResult sets p).revents f = true ↔
        p.Reports r f ∧ ¬ (f = pollin ∧ p.Reports r pollpri) := by
  obtain ⟨n, sets, hpoll, hnonneg, hcount, hmem⟩ := poll_ok (r := r) (fun p hp => (hu p hp).fits) ht
  have hentry : ∀ p ∈ fds, ∀ f, p.fd ∈ sets.fdsOf f ↔ p.Reports r f := by
    intro p hp f
    rw [hmem]
    constructor
    · rintro ⟨q, hq, hreports, hfd⟩
      rw [eq_of_fd_eq hd hp hq hfd]
      exact hreports
    · intro hreports
      exact ⟨p, hp, hreports, rfl⟩
  refine ⟨n, sets, hpoll, hnonneg, hcount, fun p hp f => ?_⟩
  rw [mapSelectResult_flags (hu p hp).unused, hentry p hp, hentry p hp]
  exact ⟨fun h => h.2, fun h => ⟨h.1.1, h⟩⟩

/-- The emulation of `poll`: the array keeps its descriptors and what they are polled for, and of each
entry what is asked for and ready is reported, but no input where there is an exception; the result is
positive exactly if anything is reported. -/
theorem poll_reports (r : Ready) (fds : List PollFd) (timeout : Int)
    (hd : (fds.map PollFd.fd).Nodup) (hu : ∀ p ∈ fds, p.Usable) (ht : -1 ≤ timeout) :
    ∃ n fds', poll (some r) fds timeout = some (n, fds') ∧ 0 ≤ n ∧
      (0 < n ↔ ∃ p' ∈ fds', p'.revents ≠ 0) ∧
      List.Forall₂ (fun p p' => p'.fd = p.fd ∧ p'.events = p.events ∧
        ∀ f, isSet p'.revents f = true ↔
          p.Reports r f ∧ ¬ (f = pollin ∧ p.Reports r pollpri)) fds fds' := by
  obtain ⟨n, sets, hpoll, hnonneg, hcount, hflags⟩ := poll_flags (r := r) hd hu ht
  refine ⟨n, _, hpoll, hnonneg, hcount.trans ⟨?_, ?_⟩, ?_⟩
  · rintro ⟨p, hp, f, hreports⟩
    refine ⟨_, List.mem_map_of_mem hp, (mapSelectResult_ne_zero (hu p hp).unused).2 ?_⟩
    by_cases hpri : p.Reports r pollpri
    · exact ⟨pollpri, (hflags p hp pollpri).2 ⟨hpri, fun h => by cases h.1⟩⟩
    · exact ⟨f, (hflags p hp f).2 ⟨hreports, fun h => hpri h.2⟩⟩
  · rintro ⟨p', hp', hne⟩
    obtain ⟨p, hp, rfl⟩ := List.mem_map.1 hp'
    obtain ⟨f, hf⟩ := (mapSelectResult_ne_zero (hu p hp).unused).1 hne
    exact ⟨p, hp, f, ((hflags p hp f).1 hf).1⟩
  · unfold mapSelectResults
    rw [List.forall₂_map_right_iff, List.forall₂_same]
    intro p hp
    exact ⟨(mapSelectResult_same sets p).1, (mapSelectResult_same sets p).2, hflags p hp⟩

/-- Two sockets, one of them polled for output, of which everything is ready. -/
theorem poll_reports_two : ∃ n fds', poll (some ⟨fun _ => true, fun _ => true, fun _ => false⟩)
    [⟨3, 3, 0⟩, ⟨4, 5, 0⟩] 60000 = some (n, fds') ∧ 0 < n := by
  have hu : ∀ p ∈ ([⟨3, 3, 0⟩, ⟨4, 5, 0⟩] : List PollFd), p.Usable := by
    intro p hp
    rcases List.mem_cons.1 hp with rfl | hp
    · exact ⟨by decide, fun _ => rfl⟩
    · rw [List.mem_singleton.1 hp]
      exact ⟨by decide, fun _ => rfl⟩
  obtain ⟨n, fds', hpoll, -, hpos, hentries⟩ := poll_reports
    ⟨fun _ => true, fun _ => true, fun _ => false⟩ [⟨3, 3, 0⟩, ⟨4, 5, 0⟩] 60000 (by decide) hu
    (by decide)
  refine ⟨n, fds', hpoll, hpos.2 ?_⟩
  cases hentries with
  | cons hfirst hrest =>
    refine ⟨_, List.mem_cons_self .., fun h0 => ?_⟩
    have hin := (hfirst.2.2 pollin).2 ⟨⟨by decide, by decide, rfl⟩, fun h => by cases h.2.2.2⟩
    rw [h0, isSet_zero] at hin
    cases hin

end Poll

/-! ## Asking for writes -/

namespace SocketTable

/-- `care_about_writes` finds the socket exactly if there is an entry for it, and changes whether this
entry is polled for output, and nothing else. -/
theorem careAboutWrites_entries (socket : Int) (icare : Bool) (fds : List PollFd)
    (hd : (fds.map PollFd.fd).Nodup) :
    ((careAboutWrites socket icare fds).1 = true ↔ socket ∈ fds.map PollFd.fd) ∧
      List.Forall₂ (fun p p' => p'.fd = p.fd ∧ p'.revents = p.revents ∧ ∀ f, isSet p'.events f =
        if p.fd = socket ∧ f = pollout then icare else isSet p.events f)
        fds (careAboutWrites socket icare fds).2 := by
  induction fds with
  | nil => exact ⟨by simp [careAboutWrites], .nil⟩
  | cons p rest ih =>
    obtain ⟨hnot, hd⟩ := List.nodup_cons.1 hd
    obtain ⟨hfound, hentries⟩ := ih hd
    unfold careAboutWrites
    by_cases hp : p.fd = socket
    · rw [if_pos hp]
      refine ⟨iff_of_true rfl (by simp [hp]), .cons ⟨rfl, rfl, fun f => ?_⟩ ?_⟩
      · cases icare
        · by_cases hf : f = pollout
          · simp [hp, hf]
          · simp [hf, Ne.symm hf]
        · by_cases hf : f = pollout
          · simp [hp, hf]
          · simp [hf, Ne.symm hf]
      · -- no other entry has the descriptor
        refine List.forall₂_same.2 fun x hx => ⟨rfl, rfl, fun f => ?_⟩
        have hne : x.fd ≠ socket := fun h => hnot (List.mem_map.2 ⟨x, hx, h.trans hp.symm⟩)
        simp [hne]
    · rw [if_neg hp]
      refine ⟨?_, .cons ⟨rfl, rfl, fun f => by simp [hp]⟩ hentries⟩
      rw [List.map_cons, List.mem_cons]
      exact hfound.trans ⟨Or.inr, fun h => h.resolve_left fun h => hp h.symm⟩

end SocketTable

end Smqueue

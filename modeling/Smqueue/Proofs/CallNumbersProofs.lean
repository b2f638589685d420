import Smqueue.CallNumbers
import Smqueue.Proofs.RoutingProofs
import Mathlib.Data.Nat.Digits.Lemmas

/-!
# Proofs: numbers of calls

The printed number of a call reads as the random number that was drawn for it, so that the numbers of
two calls are the same just if the random numbers are. Without a random device they are counted.
-/

namespace Smqueue

open Runs (Reachable)

/-! ## `l64a` and `a64l` -/

theorem l64aDigit_spec : ∀ d < 64, a64lValue (l64aDigit d) = d ∧ l64aDigit d ≠ 0 := by decide

theorem length_l64a_le (n : Nat) : (l64a n).length ≤ 6 := by
  unfold l64a
  rw [List.length_map, Nat.digits_length_le_iff (by decide)]
  exact Nat.lt_trans (Nat.mod_lt _ (by decide)) (by decide)

theorem zero_not_mem_l64a (n : Nat) : 0 ∉ l64a n := by
  intro h
  obtain ⟨d, hd, hzero⟩ := List.mem_map.1 h
  exact (l64aDigit_spec d (Nat.digits_lt_base (by decide) hd)).2 hzero

/-- The printed digits read as the number. -/
theorem a64l_l64a (n : Nat) : a64l (l64a n) = n % 2 ^ 32 := by
  have hvalues : (l64a n).map a64lValue = Nat.digits 64 (n % 2 ^ 32) := by
    unfold l64a
    rw [List.map_map]
    refine (List.map_congr_left fun d hd => ?_).trans (List.map_id _)
    exact (l64aDigit_spec d (Nat.digits_lt_base (by decide) hd)).1
  unfold a64l
  rw [List.take_of_length_le (length_l64a_le n), hvalues]
  exact Nat.ofDigits_digits 64 _

theorem l64a_ne_nil {n : Nat} (hpos : 0 < n) (hlt : n < 2 ^ 32) : l64a n ≠ [] := by
  unfold l64a
  rw [Nat.mod_eq_of_lt hlt, ne_eq, List.map_eq_nil_iff]
  exact Nat.digits_ne_nil_iff_ne_zero.2 (Nat.ne_of_gt hpos)

namespace RandomSource

variable {r r' : RandomSource} {o : Randomness} {n : Nat} {s : CString} {α β : Type}

/-! ## One call -/

theorem slt_zero {x : BitVec 32} (hx : x.toNat < 2 ^ 31) : x.slt 0 = false := by
  have htoInt : x.toInt = x.toNat := BitVec.toInt_eq_toNat_of_lt (by omega)
  have hnot : ¬ x.slt 0 = true := fun h => by
    have hlt : x.toInt < 0 := BitVec.slt_iff_toInt_lt.1 h
    omega
  exact Bool.eq_false_iff.2 hnot

theorem sle_zero {x : BitVec 32} : x.sle 0 = false ↔ 0 < x.toNat ∧ x.toNat < 2 ^ 31 := by
  have hle : x.sle 0 = true ↔ x.toInt ≤ 0 := BitVec.sle_iff_toInt_le
  have htoInt := BitVec.toInt_eq_toNat_cond x
  have hlt := x.isLt
  rw [Bool.eq_false_iff, ne_eq, hle, htoInt]
  split <;> omega

theorem toNat_succ {x : BitVec 32} (hx : x.toNat + 1 < 2 ^ 31) : (x + 1).toNat = x.toNat + 1 := by
  rw [BitVec.toNat_add]
  exact Nat.mod_eq_of_lt (Nat.lt_trans hx (by decide))

/-- A number that the loop ends with is positive. -/
theorem loop_pos {reads : List (Option (BitVec 32))} (h : r.loop reads = some (n, r')) :
    0 < n ∧ n < 2 ^ 31 := by
  induction reads generalizing r with
  | nil => cases h
  | cons randbuf reads ih =>
    unfold loop at h
    dsimp only at h
    split at h
    · exact ih h
    · rename_i hpos
      cases h
      exact sle_zero.1 (Bool.eq_false_iff.2 hpos)

theorem newRandomNumber_pos (h : r.newRandomNumber o = some (n, r')) : 0 < n ∧ n < 2 ^ 31 :=
  loop_pos h

theorem newCallNumber_eq (r : RandomSource) (o : Randomness) :
    r.newCallNumber o = (r.newRandomNumber o).map fun x => (l64a x.1, x.2) := by
  unfold newCallNumber
  cases r.newRandomNumber o with
  | none => rfl
  | some x =>
    have hstring : cstr (strncpy (l64a x.1) 6) = l64a x.1 :=
      cstr_strncpy (zero_not_mem_l64a x.1) (length_l64a_le x.1)
    change some (cstr (strncpy (l64a x.1) 6), x.2) = _
    rw [hstring]
    rfl

/-- Without a device the call counts on. -/
theorem newRandomNumber_fallback (hr : r.randomFd ≤ 0) (ho : o.opened ≤ 0)
    (hf : r.fallback.toNat + 1 < 2 ^ 31) (h : r.newRandomNumber o = some (n, r')) :
    n = r.fallback.toNat + 1 ∧ r' = ⟨o.opened, r.fallback + 1⟩ := by
  unfold newRandomNumber at h
  rw [if_pos hr] at h
  cases hreads : o.reads with
  | nil =>
    rw [hreads] at h
    cases h
  | cons randbuf reads =>
    have hnext := toNat_succ hf
    have hround : round { r with randomFd := o.opened } randbuf =
        (r.fallback + 1, ⟨o.opened, r.fallback + 1⟩) := by
      unfold round
      dsimp only
      rw [if_neg (not_lt.2 ho)]
      dsimp only
      rw [if_neg (Bool.eq_false_iff.1 (slt_zero (hnext ▸ hf)))]
    have hpos : (r.fallback + 1).sle 0 = false :=
      sle_zero.2 ⟨hnext ▸ Nat.succ_pos _, hnext ▸ hf⟩
    rw [hreads] at h
    unfold loop at h
    rw [hround] at h
    dsimp only at h
    rw [if_neg (Bool.eq_false_iff.1 hpos)] at h
    cases h
    exact ⟨hnext, rfl⟩

/-! ## Several calls -/

theorem calls_map {f : RandomSource → Randomness → Option (α × RandomSource)}
    {f' : RandomSource → Randomness → Option (β × RandomSource)} {g : α → β}
    (hf : ∀ r o, f' r o = (f r o).map fun x => (g x.1, x.2)) (r : RandomSource)
    (os : List Randomness) : calls f' r os = (calls f r os).map fun x => (x.1.map g, x.2) := by
  induction os generalizing r with
  | nil => rfl
  | cons o os ih =>
    unfold calls
    rw [hf r o]
    cases f r o with
    | none => rfl
    | some x =>
      change (calls f' x.2 os >>= _) = Option.map _ (calls f x.2 os >>= _)
      rw [ih x.2]
      cases calls f x.2 os <;> rfl

theorem calls_all {f : RandomSource → Randomness → Option (α × RandomSource)} {p : α → Prop}
    {as : List α} {os : List Randomness} (hf : ∀ r o a r', f r o = some (a, r') → p a)
    (h : calls f r os = some (as, r')) : ∀ a ∈ as, p a := by
  induction os generalizing r as with
  | nil =>
    cases h
    rintro a ⟨⟩
  | cons o os ih =>
    obtain ⟨x, hx, h⟩ := Option.bind_eq_some_iff.1 h
    obtain ⟨y, hy, h⟩ := Option.bind_eq_some_iff.1 h
    cases h
    intro a ha
    rcases List.mem_cons.1 ha with rfl | ha
    · exact hf _ _ _ _ hx
    · exact ih hy a ha

/-- Without a device the calls count on. -/
theorem calls_fallback {os : List Randomness} {ns : List Nat} (hr : r.randomFd ≤ 0)
    (ho : ∀ o ∈ os, o.opened ≤ 0) (hf : r.fallback.toNat + os.length < 2 ^ 31)
    (h : calls newRandomNumber r os = some (ns, r')) :
    ns = List.range' (r.fallback.toNat + 1) os.length := by
  induction os generalizing r ns with
  | nil =>
    cases h
    rfl
  | cons o os ih =>
    obtain ⟨⟨n, r1⟩, hn, h⟩ := Option.bind_eq_some_iff.1 h
    obtain ⟨⟨ns', r2⟩, hns, h⟩ := Option.bind_eq_some_iff.1 h
    cases h
    rw [List.length_cons] at hf
    obtain ⟨rfl, rfl⟩ := newRandomNumber_fallback hr (ho o List.mem_cons_self) (by omega) hn
    have hnext := toNat_succ (x := r.fallback) (by omega)
    have hrest := ih (ho o List.mem_cons_self) (fun x hx => ho x (List.mem_cons_of_mem o hx))
      (by dsimp only; omega) hns
    rw [hrest, List.length_cons, List.range'_succ]
    dsimp only
    rw [hnext]

/-- The numbers of the calls print the random numbers, and are different just if those are. -/
theorem calls_printed {os : List Randomness} {ss : List CString} {ns : List Nat}
    {r1 r2 : RandomSource} (hns : calls newRandomNumber r os = some (ns, r1))
    (hss : calls newCallNumber r os = some (ss, r2)) :
    r2 = r1 ∧ ss = ns.map l64a ∧ (∀ n ∈ ns, 0 < n ∧ n < 2 ^ 31 ∧ a64l (l64a n) = n) ∧
      (ss.Nodup ↔ ns.Nodup) := by
  rw [calls_map newCallNumber_eq, hns] at hss
  cases hss
  have hpos : ∀ n ∈ ns, 0 < n ∧ n < 2 ^ 31 := calls_all (fun _ _ _ _ => newRandomNumber_pos) hns
  have hread : ∀ n ∈ ns, a64l (l64a n) = n := fun n hn => by
    rw [a64l_l64a]
    exact Nat.mod_eq_of_lt (Nat.lt_trans (hpos n hn).2 (by decide))
  refine ⟨rfl, rfl, fun n hn => ⟨(hpos n hn).1, (hpos n hn).2, hread n hn⟩, List.Nodup.of_map _,
    fun hn => List.Nodup.map_on (fun x hx y hy hxy => ?_) hn⟩
  rw [← hread x hx, hxy, hread y hy]

/-- Each number of a call has one to six digits, which read as the random number that was drawn for it;
so the numbers of the calls are different just if the random numbers are. Without a random device they
are, as long as their number is an `int`. -/
theorem calls_newCallNumber (r r' : RandomSource) (os : List Randomness) (ss : List CString)
    (h : calls newCallNumber r os = some (ss, r')) :
    ∃ ns, calls newRandomNumber r os = some (ns, r') ∧ ss.map a64l = ns ∧
      (∀ s ∈ ss, s ≠ [] ∧ s.length ≤ 6) ∧ (ss.Nodup ↔ ns.Nodup) ∧
      (r.randomFd ≤ 0 → (∀ o ∈ os, o.opened ≤ 0) → r.fallback.toNat + os.length < 2 ^ 31 →
        ss.Nodup) := by
  have hmap := h
  rw [calls_map newCallNumber_eq] at hmap
  obtain ⟨⟨ns, r1⟩, hns, -⟩ := Option.map_eq_some_iff.1 hmap
  obtain ⟨rfl, rfl, hread, hnodup⟩ := calls_printed hns h
  refine ⟨ns, hns, ?_, ?_, hnodup, fun hr ho hf => hnodup.2 ?_⟩
  · rw [List.map_map]
    exact (List.map_congr_left fun n hn => (hread n hn).2.2).trans (List.map_id _)
  · intro s hs
    obtain ⟨n, hn, rfl⟩ := List.mem_map.1 hs
    obtain ⟨hpos, hlt, -⟩ := hread n hn
    exact ⟨l64a_ne_nil hpos (Nat.lt_trans hlt (by decide)), length_l64a_le n⟩
  · rw [calls_fallback hr ho hf hns]
    exact List.nodup_range'

/-- Three numbers are counted. -/
theorem calls_newCallNumber_three : ∃ ns,
    calls newRandomNumber ⟨0, 62⟩ [⟨-1, [none]⟩, ⟨-1, [none]⟩, ⟨-1, [none]⟩] = some (ns, ⟨-1, 65⟩) ∧
      [str "z", str "./", str "//"].map a64l = ns ∧
      (∀ s ∈ [str "z", str "./", str "//"], s ≠ [] ∧ s.length ≤ 6) ∧
      ([str "z", str "./", str "//"].Nodup ↔ ns.Nodup) ∧
      ((0 : Int) ≤ 0 → (∀ o ∈ ([⟨-1, [none]⟩, ⟨-1, [none]⟩, ⟨-1, [none]⟩] : List Randomness),
        o.opened ≤ 0) → 62 + 3 < 2 ^ 31 → [str "z", str "./", str "//"].Nodup) :=
  calls_newCallNumber ⟨0, 62⟩ ⟨-1, 65⟩ [⟨-1, [none]⟩, ⟨-1, [none]⟩, ⟨-1, [none]⟩]
    [str "z", str "./", str "//"] (by decide +kernel)

end RandomSource

/-! ## The calls of the messages -/

namespace Daemon

variable {i : MsgId} {l : List Lookup}

theorem mem_of_lastLookup {x : Env × Settings} (h : lastLookup i l = some x) : (i, x) ∈ l := by
  obtain ⟨⟨j, y⟩, hfind, rfl⟩ := Option.map_eq_some_iff.1 h
  have hid : j = i := of_decide_eq_true (List.find?_some hfind :)
  rw [← hid]
  exact List.mem_of_find?_eq_some hfind

/-- The message was put under delivery by a lookup, which drew the number of its call. -/
theorem Addressed.callNumber {q : SMq} {m : ShortMsgPending} (ha : Addressed q l m)
    (hl : ∃ x ∈ l, x.1 = m.id) : ∃ x ∈ l, x.1 = m.id ∧ m.callNumber = some x.2.1.callNumber := by
  have hsome : lastLookup m.id l ≠ none := by
    unfold lastLookup
    rw [ne_eq, Option.map_eq_none_iff, List.find?_eq_none]
    intro hnone
    obtain ⟨x, hx, hid⟩ := hl
    exact hnone x hx (decide_eq_true hid)
  cases ha with
  | lookedUp hlast _ hc => exact ⟨_, mem_of_lastLookup hlast, rfl, hc⟩
  | registration hnone _ _ => exact absurd hnone hsome
  | before hnone _ _ _ _ _ _ => exact absurd hnone hsome

end Daemon

namespace Program

/-- If the numbers of the calls are those that `new_call_number` draws in the order of the lookups, and
no random number comes twice, any two messages under delivery whose addresses were looked up in the run
have different calls. -/
theorem run_callNumbers (lib : Libs) (p : Program) (d' : Daemon) (acts : List DaemonAct)
    (r r' : RandomSource) (os : List Randomness) (ns : List Nat) (ss : List CString)
    (m m' : ShortMsgPending) (hr : Reachable Start (Step lib) p)
    (h : p.daemon.run lib acts = some d')
    (hns : RandomSource.calls RandomSource.newRandomNumber r os = some (ns, r'))
    (hss : RandomSource.calls RandomSource.newCallNumber r os = some (ss, r')) (hnodup : ns.Nodup)
    (hdrawn : List.Sublist ((p.daemon.lookups lib acts).reverse.map fun x => x.2.1.callNumber) ss)
    (hm : m ∈ d'.queue.timeSortedList) (hm' : m' ∈ d'.queue.timeSortedList)
    (hu : m.state.isUnderDelivery = true) (hu' : m'.state.isUnderDelivery = true)
    (hl : ∃ x ∈ p.daemon.lookups lib acts, x.1 = m.id)
    (hl' : ∃ x ∈ p.daemon.lookups lib acts, x.1 = m'.id) (hne : m.id ≠ m'.id) :
    m.callNumber ≠ m'.callNumber := by
  have hall := holding_of_lasting ShortMsgPending.wellFormed_lasting hr
  obtain ⟨x, hx, hid, hc⟩ := (Daemon.addressed_of_run hall h hm hu).callNumber hl
  obtain ⟨x', hx', hid', hc'⟩ := (Daemon.addressed_of_run hall h hm' hu').callNumber hl'
  have hdifferent : ((p.daemon.lookups lib acts).reverse.map fun x => x.2.1.callNumber).Nodup :=
    hdrawn.nodup ((RandomSource.calls_printed hns hss).2.2.2.2 hnodup)
  intro hsame
  rw [hc, hc'] at hsame
  have heq := List.inj_on_of_nodup_map hdifferent (List.mem_reverse.2 hx) (List.mem_reverse.2 hx')
    (Option.some.inj hsame)
  exact hne (hid.symm.trans ((congrArg Prod.fst heq).trans hid'))

/-- The program before it reads a file with two records, whose messages are to be sent. -/
def twoRecords : Program :=
  { recordStart 8 with loop := some (.start (sampleRecord 8 ++ sampleRecord 8) 0 0 0 0 0) }

/-- An environment in which the number of the next call is given. -/
def callEnv (callNumber : CString) : Env := { sampleEnv 1 with callNumber := callNumber }

/-- The addresses of both messages are looked up. -/
def twoLookups : List DaemonAct :=
  [.receive, .pass (callEnv (str "/")), .unlock, .receive, .pass (callEnv (str "0"))]

/-- The sample message is read twice, and is put under delivery twice. -/
theorem twoRecords_looked : ((twoRecords.next (sampleLibs [sampleRequest] sampleVias)
      (.load (sampleEnv 1) fun _ => some [])).bind fun p =>
        p.next (sampleLibs [sampleRequest] sampleVias) (.load (sampleEnv 1) fun _ => some [])).any
    (fun p => (p.daemon.run (sampleLibs [sampleRequest] sampleVias) twoLookups).any fun d' =>
      d'.queue.timeSortedList.map (fun m => (m.id, m.state)) =
        [(0, .requestMsgDelivery), (1, .requestMsgDelivery)] ∧
      (p.daemon.lookups (sampleLibs [sampleRequest] sampleVias) twoLookups).map
        (fun x => (x.1, x.2.1.callNumber)) = [(0, str "0"), (1, str "/")]) = true := by
  decide +kernel

/-- Without a random device the calls of the two messages are numbered one and two. -/
theorem run_callNumbers_two : ∃ (p : Program) (d' : Daemon) (m m' : ShortMsgPending),
    p.daemon.run (sampleLibs [sampleRequest] sampleVias) twoLookups = some d' ∧
    m ∈ d'.queue.timeSortedList ∧ m' ∈ d'.queue.timeSortedList ∧ m.id ≠ m'.id ∧
    m.callNumber ≠ m'.callNumber := by
  obtain ⟨p, hp, hrun⟩ := (Option.any_eq_true _ _).1 twoRecords_looked
  obtain ⟨p0, hp0, hp⟩ := Option.bind_eq_some_iff.1 hp
  obtain ⟨d', hd', hlooked⟩ := (Option.any_eq_true _ _).1 hrun
  obtain ⟨hstates, hcalls⟩ := of_decide_eq_true hlooked
  have hstart : twoRecords.Start := by
    obtain ⟨hthreads, hempty, -⟩ := recordStart_start 8
    exact ⟨hthreads, hempty, _, _, _, _, _, _, rfl⟩
  have hr : Reachable Start (Step (sampleLibs [sampleRequest] sampleVias)) p :=
    ((Runs.GuardedRun.start hstart).next trivial hp0).next trivial hp
  obtain ⟨m, l, hq, hm, hl⟩ := List.map_eq_cons_iff.1 hstates
  obtain ⟨m', l', rfl, hm', -⟩ := List.map_eq_cons_iff.1 hl
  have hmem : m ∈ d'.queue.timeSortedList := hq ▸ List.mem_cons_self
  have hmem' : m' ∈ d'.queue.timeSortedList := hq ▸ List.mem_cons_of_mem m List.mem_cons_self
  obtain ⟨x, ls, hlooks, hx, hls⟩ := List.map_eq_cons_iff.1 hcalls
  obtain ⟨x', ls', rfl, hx', -⟩ := List.map_eq_cons_iff.1 hls
  have hne : m.id ≠ m'.id := by
    rw [(Prod.mk.inj hm).1, (Prod.mk.inj hm').1]
    decide
  refine ⟨p, d', m, m', hd', hmem, hmem', hne, ?_⟩
  refine run_callNumbers _ p d' twoLookups ⟨0, 0⟩ ⟨-1, 2⟩ [⟨-1, [none]⟩, ⟨-1, [none]⟩] [1, 2]
    [str "/", str "0"] m m' hr hd' (by decide +kernel) (by decide +kernel) (by decide) ?_ hmem hmem'
    (by rw [(Prod.mk.inj hm).2]; rfl) (by rw [(Prod.mk.inj hm').2]; rfl) ?_ ?_ hne
  · have hnumbers : (p.daemon.lookups (sampleLibs [sampleRequest] sampleVias) twoLookups).reverse.map
        (fun x => x.2.1.callNumber) = [str "/", str "0"] := by
      rw [List.map_reverse]
      have hsecond := congrArg (List.map Prod.snd) hcalls
      rw [List.map_map] at hsecond
      exact congrArg List.reverse hsecond
    rw [hnumbers]
  · refine ⟨x, hlooks ▸ List.mem_cons_self, ?_⟩
    exact (Prod.mk.inj hx).1.trans (Prod.mk.inj hm).1.symm
  · refine ⟨x', hlooks ▸ List.mem_cons_of_mem x List.mem_cons_self, ?_⟩
    exact (Prod.mk.inj hx').1.trans (Prod.mk.inj hm').1.symm

end Program

end Smqueue

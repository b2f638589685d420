import Smqueue.SocketTable

/-!
# Proofs: the socket table

The descriptors in use are always those added and not removed. What is remembered of the sockets is cut
off by a removal, and not compacted.
-/

namespace Smqueue

namespace SocketTable

open Runs (run Always EachStep)

variable {t t' : SocketTable} {s : Socket} {events socket : Int}

/-! ## The arrays -/

/-- Both arrays have the allocated size, and no more of it is in use. -/
structure Allocated (t : SocketTable) : Prop where
  sockets_size : t.sockets.length = t.allocsockets
  sockinfo_size : t.sockinfo.length = t.allocsockets
  bounded : t.numsockets ≤ t.allocsockets

theorem realloc_length {α : Type} {l : List (Option α)} {n newalloc : Nat} (hl : n ≤ l.length)
    (hn : n ≤ newalloc) : (realloc l n newalloc).length = newalloc := by
  simp only [realloc, List.length_append, List.length_take, List.length_replicate]
  omega

theorem take_realloc {α : Type} {l : List (Option α)} {n : Nat} (newalloc : Nat)
    (hl : n ≤ l.length) : (realloc l n newalloc).take n = l.take n := by
  unfold realloc
  rw [List.take_append_of_le_length (by rw [List.length_take]; omega), List.take_take, Nat.min_self]

/-- Growing makes room and keeps the entries in use. -/
theorem grow_ok (h : t.grow = some t') (ha : t.Allocated) :
    t'.Allocated ∧ t'.numsockets = t.numsockets ∧ t.numsockets < t'.allocsockets ∧
      t'.fds = t.fds ∧ t'.infos = t.infos := by
  obtain ⟨hsockets, hsockinfo, hbounded⟩ := ha
  unfold grow at h
  split at h
  · dsimp only at h
    split at h
    · cases h
      have hfds : (realloc t.sockets t.numsockets (t.allocsockets + 10)).take t.numsockets = _ :=
        take_realloc (t.allocsockets + 10) (by omega)
      have hinfos : (realloc t.sockinfo t.numsockets (t.allocsockets + 10)).take t.numsockets = _ :=
        take_realloc (t.allocsockets + 10) (by omega)
      refine ⟨⟨?_, ?_, ?_⟩, rfl, ?_, congrArg (List.map _) hfds, hinfos⟩
      · exact realloc_length (by omega) (by omega)
      · exact realloc_length (by omega) (by omega)
      · dsimp only
        omega
      · dsimp only
        omega
    · cases h
  · cases h
    exact ⟨⟨hsockets, hsockinfo, hbounded⟩, rfl, by omega, rfl, rfl⟩

/-- An added socket is the last one in both arrays. -/
theorem addSocket_ok (h : t.addSocket s events = some t') (ha : t.Allocated) :
    t'.Allocated ∧ t'.fds = t.fds ++ [some s.fd] ∧
      t'.infos = t.infos ++ [some { s.info with
        addrlen := if s.addrlen ≤ sockaddrStorageSize then s.addrlen else 0 }] := by
  obtain ⟨t₁, hgrow, rfl⟩ := Option.map_eq_some_iff.1 h
  obtain ⟨⟨hsockets, hsockinfo, -⟩, hnum, hroom, hfds, hinfos⟩ := grow_ok hgrow ha
  refine ⟨⟨?_, ?_, ?_⟩, ?_, ?_⟩
  · dsimp only
    rw [List.length_set, hsockets]
  · dsimp only
    rw [List.length_set, hsockinfo]
  · dsimp only
    omega
  · rw [← hfds]
    unfold fds
    dsimp only
    rw [Compaction.take_set_succ _ (by omega), List.map_append]
    rfl
  · rw [← hinfos]
    unfold infos
    dsimp only
    rw [Compaction.take_set_succ _ (by omega)]
    rfl

/-- A removal compacts the descriptors and cuts off what is remembered of the sockets. -/
theorem removeSocket_ok (ha : t.Allocated) :
    (t.removeSocket socket).Allocated ∧
      (t.removeSocket socket).fds = t.fds.filter (fun d => d != some socket) ∧
      (t.removeSocket socket).infos =
        t.infos.take (t.fds.filter fun d => d != some socket).length := by
  obtain ⟨hsockets, hsockinfo, hbounded⟩ := ha
  have hn : t.numsockets ≤ t.sockets.length := by omega
  have hkept : t.fds.filter (fun d => d != some socket) =
      ((t.sockets.take t.numsockets).filter (isOther socket)).map (Option.map PollFd.fd) := by
    unfold fds
    rw [List.filter_map]
    rfl
  have hnum : (t.removeSocket socket).numsockets =
      (t.fds.filter fun d => d != some socket).length := by
    rw [hkept, List.length_map]
    exact Compaction.compacted_length (isOther socket) hn
  have hle : (t.removeSocket socket).numsockets ≤ t.numsockets := by
    have h := Compaction.loop_le (isOther socket) t.numsockets 0 0 t.sockets (Nat.le_refl 0)
    rw [Nat.zero_add] at h
    exact h
  refine ⟨⟨?_, hsockinfo, Nat.le_trans hle hbounded⟩, ?_, ?_⟩
  · exact (Compaction.loop_length (isOther socket) t.numsockets 0 0 t.sockets).trans hsockets
  · rw [hkept]
    exact congrArg (List.map _) (Compaction.take_compacted (isOther socket) hn)
  · rw [← hnum]
    unfold infos
    rw [List.take_take, Nat.min_eq_left hle]
    rfl

/-! ## Calls -/

/-- What holds of every table: the descriptors in use are those that were added and not removed. -/
def Consistent (s : SocketTable × List Socket) : Prop :=
  s.1.Allocated ∧ s.1.fds = s.2.map fun o => some o.fd

theorem consistent_start : Consistent start := ⟨⟨rfl, rfl, Nat.le_refl 0⟩, rfl⟩

theorem kept_descriptors (opened : List Socket) (socket : Int) :
    (opened.map fun o => some o.fd).filter (fun d => d != some socket) =
      (opened.filter fun o => o.fd != socket).map fun o => some o.fd := by
  rw [List.filter_map]
  rfl

theorem Consistent.next {s s' : SocketTable × List Socket} {c : SocketCall} (hs : Consistent s)
    (h : next s c = some s') : Consistent s' := by
  obtain ⟨ha, hfds⟩ := hs
  obtain ⟨t, hcall, rfl⟩ := Option.map_eq_some_iff.1 h
  cases c with
  | add sock events =>
    obtain ⟨ha', hfds', -⟩ := addSocket_ok hcall ha
    refine ⟨ha', ?_⟩
    rw [hfds', hfds]
    simp [openSockets]
  | remove socket =>
    cases hcall
    obtain ⟨ha', hfds', -⟩ := @removeSocket_ok s.1 socket ha
    refine ⟨ha', ?_⟩
    rw [hfds', hfds]
    exact kept_descriptors s.2 socket

/-- After any sequence of calls, no more sockets are in use than allocated, and the descriptors in use
are those added and not removed, in order of addition. -/
theorem run_descriptors {calls : List SocketCall} {opened : List Socket}
    (h : run SocketTable.next start calls = some (t, opened)) :
    t.numsockets ≤ t.allocsockets ∧ t.fds = opened.map fun o => some o.fd := by
  obtain ⟨ha, hfds⟩ := Runs.run_invariant (fun s c s' hs hn => Consistent.next hs hn) h consistent_start
  exact ⟨ha.bounded, hfds⟩

/-! ## What is remembered -/

theorem Aligned.entries_eq {opened : List Socket} (h : t.Aligned opened) :
    t.entries = opened.map fun o => (some o.fd, some o.info) := by
  unfold entries
  rw [h.descriptors, h.remembered, List.zip_map']

/-- An added socket is remembered as it was given if its address is. -/
theorem aligned_add_iff {opened : List Socket} (ha : t.Allocated) (hal : t.Aligned opened)
    (h : t.addSocket s events = some t') :
    t'.Aligned (opened ++ [s]) ↔ s.addrlen ≤ sockaddrStorageSize := by
  obtain ⟨ha', hfds, hinfos⟩ := addSocket_ok h ha
  rw [hal.descriptors] at hfds
  rw [hal.remembered] at hinfos
  constructor
  · intro hal'
    have hlast := hal'.remembered
    rw [hinfos, List.map_append, List.append_cancel_left_eq] at hlast
    injection hlast with hlast
    injection hlast with hlast
    have hlen : (if s.addrlen ≤ sockaddrStorageSize then s.addrlen else 0) = s.addrlen :=
      congrArg ExtraSockinfo.addrlen hlast
    split at hlen
    · assumption
    · omega
  · intro hfits
    rw [if_pos hfits] at hinfos
    refine ⟨ha'.bounded, ?_, ?_⟩
    · rw [hfds, List.map_append]
      rfl
    · rw [hinfos, List.map_append]
      rfl

/-- The sockets that stay, next to those at the places where they go. -/
theorem keepsInfo_remove_iff {opened : List Socket} (hal : t.Aligned opened) :
    t.KeepsInfo (.remove socket) ↔
      (opened.filter fun o => o.fd != socket).map (fun o => some o.info) =
        (opened.take (opened.filter fun o => o.fd != socket).length).map fun o => some o.info := by
  have hkept : t.entries.filter (fun e => e.1 != some socket) =
      (opened.filter fun o => o.fd != socket).map fun o => (some o.fd, some o.info) := by
    rw [hal.entries_eq, List.filter_map]
    rfl
  unfold KeepsInfo
  dsimp only
  rw [hkept, hal.entries_eq, List.length_map, ← List.map_take, List.map_map, List.map_map]
  exact Iff.rfl

/-- The last sockets can be removed. -/
theorem keepsInfo_of_last {kept gone : List Socket} (hal : t.Aligned (kept ++ gone))
    (hkept : ∀ o ∈ kept, o.fd ≠ socket) (hgone : ∀ o ∈ gone, o.fd = socket) :
    t.KeepsInfo (.remove socket) := by
  have hfilter : (kept ++ gone).filter (fun o => o.fd != socket) = kept := by
    rw [List.filter_append, List.filter_eq_self.2 (by simpa using hkept),
      List.filter_eq_nil_iff.2 (by simpa using hgone), List.append_nil]
  rw [keepsInfo_remove_iff hal, hfilter, List.take_left]

/-- What is remembered after a removal is right if each socket that stays goes to the place of one of its
kind. -/
theorem aligned_remove_iff {opened : List Socket} (ha : t.Allocated) (hal : t.Aligned opened) :
    (t.removeSocket socket).Aligned (opened.filter fun o => o.fd != socket) ↔
      t.KeepsInfo (.remove socket) := by
  obtain ⟨ha', hfds, hinfos⟩ := @removeSocket_ok t socket ha
  rw [hal.descriptors, kept_descriptors] at hfds hinfos
  rw [hal.remembered, List.length_map, ← List.map_take] at hinfos
  rw [keepsInfo_remove_iff hal]
  constructor
  · intro h
    have hremembered := h.remembered
    rw [hinfos] at hremembered
    exact hremembered.symm
  · intro h
    exact ⟨ha'.bounded, hfds, hinfos.trans h.symm⟩

/-- In each state that a sequence of calls reaches the arrays are aligned, exactly if each call of the
sequence keeps what is remembered of the sockets. -/
theorem aligned_iff (calls : List SocketCall) :
    Always next (fun s => s.1.Aligned s.2) start calls ↔
      EachStep next (fun s c => s.1.KeepsInfo c) start calls := by
  refine Runs.always_iff_eachStep (fun s c s' hs hn => Consistent.next hs hn) ?_ calls
    consistent_start ⟨Nat.le_refl 0, rfl, rfl⟩
  intro s c s' hs hal h
  obtain ⟨t, hcall, rfl⟩ := Option.map_eq_some_iff.1 h
  cases c with
  | add sock events => exact aligned_add_iff hs.1 hal hcall
  | remove socket =>
    cases hcall
    exact aligned_remove_iff hs.1 hal

/-- An IPv4 and an IPv6 socket, and the removal of the first one: the second one is remembered as an
IPv4 socket. -/
theorem not_aligned : ¬ ∀ (calls : List SocketCall) (t : SocketTable) (opened : List Socket),
    run next start calls = some (t, opened) → t.Aligned opened := by
  intro hall
  have hrun : (run next start [.add ⟨3, 2, 2, 17, 16⟩ 3, .add ⟨4, 10, 2, 17, 28⟩ 3, .remove 3]).map
      (fun s => (s.1.infos, s.2)) =
        some ([some ⟨2, 2, 17, 16⟩], [⟨4, 10, 2, 17, 28⟩]) := by decide
  obtain ⟨⟨t, opened⟩, h, hend⟩ := Option.map_eq_some_iff.1 hrun
  obtain ⟨hinfos, rfl⟩ := Prod.mk.inj hend
  have hremembered := (hall _ _ _ h).remembered
  rw [hinfos] at hremembered
  cases hremembered

/-! ## The sending loops -/

/-- As long as the arrays are aligned, the sending loops find the sockets as they were added. -/
theorem Aligned.net_eq {opened : List Socket} (h : t.Aligned opened) : t.net = ⟨opened⟩ := by
  unfold net
  rw [h.entries_eq, List.filterMap_map]
  congr 1
  exact List.filterMap_some

end SocketTable

end Smqueue

import Mathlib.Data.List.TakeWhile
import Smqueue.Lib.Proofs.ExceptProofs
import Smqueue.SampleLibs
import Smqueue.SmNet

/-!
# Sending: proofs
-/

namespace Smqueue

namespace SMnet

variable {net : SMnet} {textLength : Nat} {takes : Outcomes}

/-! ## One address -/

theorem sendLoop_cons (takes : Nat → Bool) (ap : AddrInfo) (s : Socket × Nat)
    (rest : List (Socket × Nat)) (i : Int) :
    sendLoop textLength takes ap (s :: rest) i =
      if s.1.fits ap = true then
        if takes s.2 = true then
          ((sendLoop textLength takes ap rest textLength).1,
            ⟨s.1.fd, ap.aiAddr, true⟩ :: (sendLoop textLength takes ap rest textLength).2)
        else (-1, [⟨s.1.fd, ap.aiAddr, false⟩])
      else sendLoop textLength takes ap rest i := by
  obtain ⟨s, j⟩ := s
  rw [sendLoop]
  cases ht : takes j with
  | false => rfl
  | true =>
    have hi : ¬ ((textLength : Int) < 0) := by omega
    simp only [if_true, if_neg hi]

/-- The datagram is sent until a socket does not take it. -/
theorem sendLoop_count {takes : Nat → Bool} {ap : AddrInfo} (l : List (Socket × Nat)) (i : Int) :
    (sendLoop textLength takes ap l i).2.countP (·.sent) =
      ((l.filter (·.1.fits ap)).takeWhile fun s => takes s.2).length := by
  induction l generalizing i with
  | nil => rfl
  | cons s rest ih =>
    rw [sendLoop_cons]
    by_cases hfits : s.1.fits ap = true
    · rw [if_pos hfits, List.filter_cons_of_pos (by exact hfits)]
      by_cases ht : takes s.2 = true
      · rw [if_pos ht, List.countP_cons_of_pos (by rfl), ih,
          List.takeWhile_cons_of_pos (by exact ht)]
        rfl
      · rw [if_neg ht, List.takeWhile_cons_of_neg (by exact ht)]
        rfl
    · rw [if_neg hfits, List.filter_cons_of_neg (by exact hfits)]
      exact ih i

/-- The status is positive at the end if all sockets took the datagram; with no socket it is the one
before. -/
theorem sendLoop_status {takes : Nat → Bool} {ap : AddrInfo} (l : List (Socket × Nat)) (i : Int) :
    0 < (sendLoop textLength takes ap l i).1 ↔
      (∀ s ∈ l.filter (·.1.fits ap), takes s.2 = true) ∧
        (l.filter (·.1.fits ap) = [] ∧ 0 < i ∨
          l.filter (·.1.fits ap) ≠ [] ∧ 0 < textLength) := by
  induction l generalizing i with
  | nil => simp [sendLoop]
  | cons s rest ih =>
    rw [sendLoop_cons]
    by_cases hfits : s.1.fits ap = true
    · rw [if_pos hfits, List.filter_cons_of_pos (by exact hfits), List.forall_mem_cons]
      by_cases ht : takes s.2 = true
      · rw [if_pos ht]
        dsimp only
        rw [ih]
        have hpos : 0 < (textLength : Int) ↔ 0 < textLength := by omega
        rw [hpos, ← or_and_right, and_iff_right (Decidable.em _)]
        simp [ht]
      · rw [if_neg ht]
        exact iff_of_false (show ¬ (0 : Int) < -1 by decide) fun h => ht h.1.1
    · rw [if_neg hfits, List.filter_cons_of_neg (by exact hfits)]
      exact ih i

/-- How often the datagram is sent to one address. -/
def sentTo (net : SMnet) (takes : Outcomes) (a : AddrInfo × Nat) : Nat :=
  ((net.fitting a.1).takeWhile fun s => takes a.2 s.2).length

theorem sentTo_eq_zero {a : AddrInfo × Nat} :
    net.sentTo takes a = 0 ↔ ∀ s ∈ (net.fitting a.1).head?, takes a.2 s.2 = false := by
  unfold sentTo
  cases net.fitting a.1 with
  | nil => simp
  | cons s rest =>
    cases ht : takes a.2 s.2 <;> simp [ht]

theorem sentTo_of_reaches {a : AddrInfo × Nat} (h : net.Reaches textLength takes a) :
    net.sentTo takes a = (net.fitting a.1).length := by
  unfold sentTo
  rw [List.takeWhile_eq_self_iff.2 h.2.2]

/-- An address that is not reached fails at its first socket, or got the datagram in vain. -/
theorem failsOrSingle_of_not_reaches {a : AddrInfo × Nat} (h : ¬ net.Reaches textLength takes a) :
    net.FailsOrSingle textLength takes a ↔ net.sentTo takes a = 0 := by
  rw [sentTo_eq_zero]
  refine or_iff_left_of_imp ?_
  rintro ⟨hlen, hone⟩ s hs
  obtain ⟨t, ht⟩ := List.length_eq_one_iff.1 hone
  rw [ht] at hs
  obtain rfl := Option.some.inj hs
  cases htake : takes a.2 t.2 with
  | false => rfl
  | true =>
    refine absurd ⟨hlen, by simp [ht], ?_⟩ h
    intro x hx
    rw [ht, List.mem_singleton] at hx
    rw [hx, htake]

theorem failsOrSingle_of_reaches {a : AddrInfo × Nat} (h : net.Reaches textLength takes a) :
    net.FailsOrSingle textLength takes a ↔ net.sentTo takes a ≤ 1 := by
  have hpos : 0 < (net.fitting a.1).length := List.length_pos_iff.2 h.2.1
  have hsent := sentTo_of_reaches h
  unfold FailsOrSingle
  rw [← sentTo_eq_zero, hsent]
  constructor
  · rintro (h0 | ⟨-, h1⟩) <;> omega
  · intro hle
    exact .inr ⟨h.1, by omega⟩

/-! ## The addresses in turn -/

theorem addressLoop_cons (ap : AddrInfo) (k : Nat) (rest : List (AddrInfo × Nat)) :
    net.addressLoop textLength takes ((ap, k) :: rest) =
      if (sendLoop textLength (takes k) ap net.sockets.zipIdx 0).1 ≤ 0 then
        ((net.addressLoop textLength takes rest).1,
          (sendLoop textLength (takes k) ap net.sockets.zipIdx 0).2 ++
            (net.addressLoop textLength takes rest).2)
      else (true, (sendLoop textLength (takes k) ap net.sockets.zipIdx 0).2) := rfl

/-- The loop stops at an address that is reached. -/
theorem status_pos_iff (ap : AddrInfo) (k : Nat) :
    0 < (sendLoop textLength (takes k) ap net.sockets.zipIdx 0).1 ↔
      net.Reaches textLength takes (ap, k) := by
  rw [sendLoop_status]
  constructor
  · rintro ⟨hall, ⟨-, h⟩ | ⟨hne, hlen⟩⟩
    · exact absurd h (lt_irrefl 0)
    · exact ⟨hlen, hne, hall⟩
  · rintro ⟨hlen, hne, hall⟩
    exact ⟨hall, .inr ⟨hne, hlen⟩⟩

theorem addressLoop_of_reaches {a : AddrInfo × Nat} (rest : List (AddrInfo × Nat))
    (h : net.Reaches textLength takes a) :
    (net.addressLoop textLength takes (a :: rest)).1 = true ∧
      (net.addressLoop textLength takes (a :: rest)).2.countP (·.sent) = net.sentTo takes a := by
  have hstatus := (status_pos_iff a.1 a.2).2 h
  rw [addressLoop_cons, if_neg (by omega)]
  exact ⟨rfl, sendLoop_count net.sockets.zipIdx 0⟩

theorem addressLoop_of_not_reaches {a : AddrInfo × Nat} (rest : List (AddrInfo × Nat))
    (h : ¬ net.Reaches textLength takes a) :
    (net.addressLoop textLength takes (a :: rest)).1 = (net.addressLoop textLength takes rest).1 ∧
      (net.addressLoop textLength takes (a :: rest)).2.countP (·.sent) =
        net.sentTo takes a + (net.addressLoop textLength takes rest).2.countP (·.sent) := by
  have hstatus := (not_congr (status_pos_iff a.1 a.2)).2 h
  rw [addressLoop_cons, if_pos (by omega)]
  refine ⟨rfl, ?_⟩
  rw [List.countP_append, sendLoop_count]
  rfl

/-- A loop that stops early has sent the datagram. -/
theorem sent_of_stopped (addrs : List (AddrInfo × Nat))
    (h : (net.addressLoop textLength takes addrs).1 = true) :
    0 < (net.addressLoop textLength takes addrs).2.countP (·.sent) := by
  induction addrs with
  | nil => cases h
  | cons a rest ih =>
    by_cases hr : net.Reaches textLength takes a
    · obtain ⟨-, hcount⟩ := addressLoop_of_reaches rest hr
      rw [hcount, sentTo_of_reaches hr]
      exact List.length_pos_iff.2 hr.2.1
    · obtain ⟨hresult, hcount⟩ := addressLoop_of_not_reaches rest hr
      rw [hcount]
      have := ih (hresult ▸ h)
      omega

theorem noSecondSocket_cons {a : AddrInfo × Nat} {rest : List (AddrInfo × Nat)} :
    net.NoSecondSocket textLength takes (a :: rest) ↔
      net.FailsOrSingle textLength takes a ∧
        (¬ net.Reaches textLength takes a → net.NoSecondSocket textLength takes rest) := by
  constructor
  · intro h
    refine ⟨h [] a rest rfl (by simp), ?_⟩
    intro hr before b after hsplit hbefore
    refine h (a :: before) b after (by rw [hsplit]; rfl) ?_
    exact List.forall_mem_cons.2 ⟨hr, hbefore⟩
  · rintro ⟨ha, hrest⟩ before b after hsplit hbefore
    cases before with
    | nil =>
      cases hsplit
      exact ha
    | cons c before =>
      cases hsplit
      obtain ⟨hr, hbefore⟩ := List.forall_mem_cons.1 hbefore
      exact hrest hr before b after rfl hbefore

theorem addressLoop_sentOnce_iff (addrs : List (AddrInfo × Nat)) :
    SentOnce (net.addressLoop textLength takes addrs).1
        (net.addressLoop textLength takes addrs).2 ↔
      net.NoSecondSocket textLength takes addrs := by
  induction addrs with
  | nil =>
    refine iff_of_true ⟨Nat.zero_le _, by simp [addressLoop]⟩ ?_
    intro before a after h
    simp at h
  | cons a rest ih =>
    rw [noSecondSocket_cons]
    by_cases hr : net.Reaches textLength takes a
    · obtain ⟨hresult, hcount⟩ := addressLoop_of_reaches rest hr
      have hpos := List.length_pos_iff.2 hr.2.1
      rw [← sentTo_of_reaches hr] at hpos
      rw [failsOrSingle_of_reaches hr]
      unfold SentOnce
      rw [hresult, hcount]
      constructor
      · rintro ⟨hle, -⟩
        exact ⟨hle, fun h => absurd hr h⟩
      · rintro ⟨hle, -⟩
        exact ⟨hle, iff_of_true rfl hpos⟩
    · obtain ⟨hresult, hcount⟩ := addressLoop_of_not_reaches rest hr
      have hsent : (net.addressLoop textLength takes rest).1 = true → _ := sent_of_stopped rest
      rw [failsOrSingle_of_not_reaches hr, ← ih]
      unfold SentOnce
      rw [hresult, hcount]
      constructor
      · rintro ⟨hle, hiff⟩
        have hzero : net.sentTo takes a = 0 := by
          by_contra hne
          have := hsent (hiff.2 (by omega))
          omega
        rw [hzero, Nat.zero_add] at hle hiff
        exact ⟨hzero, fun _ => ⟨hle, hiff⟩⟩
      · rintro ⟨hzero, hrest⟩
        rw [hzero, Nat.zero_add]
        exact hrest hr

/-! ## The whole call -/

theorem sentOnce_nothing : SentOnce false [] := ⟨Nat.zero_le _, by simp⟩

theorem noSecondSocket_of_no_socket (h : net.sockets = []) (addrs : List (AddrInfo × Nat)) :
    net.NoSecondSocket textLength takes addrs := by
  intro before a after _ _
  have hnone : net.fitting a.1 = [] := by
    unfold fitting
    rw [h]
    rfl
  refine .inl ?_
  rw [hnone]
  simp

/-- Where the message leads to one list of addresses, or to none, the condition is about these. -/
theorem canSendOnce_iff {lib : Libs}
    {getaddrinfo : Option CString → CString → Option (List AddrInfo)} {m m₁ m₂ : ShortMsg} {ok : Bool}
    (hvalid : m.makeTextValid lib = .ok m₁) (hparse : m₁.parse lib = .ok (ok, m₂)) :
    net.CanSendOnce lib getaddrinfo takes m ↔
      ∀ host port addrs, ok = true → destination m₂ = .ok (host, port) →
        getaddrinfo host port = some addrs →
        net.NoSecondSocket m₂.textLength takes addrs.zipIdx := by
  constructor
  · intro h host port addrs hok hdest haddrs
    subst hok
    exact h m₁ m₂ host port addrs hvalid hparse hdest haddrs
  · intro h n₁ n₂ host port addrs hn₁ hn₂ hdest haddrs
    obtain rfl := Except.ok.inj (hvalid.symm.trans hn₁)
    obtain ⟨rfl, rfl⟩ := Prod.mk.inj (Except.ok.inj (hparse.symm.trans hn₂))
    exact h host port addrs rfl hdest haddrs

/-- The datagram is sent at most once, and the result says whether it was, if and only if no address
that is tried has a second socket behind one that takes the datagram. -/
theorem deliverMsgDatagram_sentOnce_iff (net : SMnet) (lib : Libs)
    (getaddrinfo : Option CString → CString → Option (List AddrInfo)) (takes : Outcomes)
    (m m' : ShortMsg) (result : Bool) (calls : List SendTo)
    (h : net.deliverMsgDatagram lib getaddrinfo takes m = .ok (result, calls, m')) :
    SentOnce result calls ↔ net.CanSendOnce lib getaddrinfo takes m := by
  unfold deliverMsgDatagram at h
  obtain ⟨m₁, hvalid, h⟩ := Except.bind_eq_ok.1 h
  by_cases hnone : net.sockets = []
  · rw [if_pos hnone] at h
    cases h
    refine iff_of_true sentOnce_nothing ?_
    intro _ _ _ _ _ _ _ _ _
    exact noSecondSocket_of_no_socket hnone _
  rw [if_neg hnone] at h
  obtain ⟨⟨ok, m₂⟩, hparse, h⟩ := Except.bind_eq_ok.1 h
  rw [canSendOnce_iff hvalid hparse]
  cases ok with
  | false =>
    cases h
    exact iff_of_true sentOnce_nothing (by simp)
  | true =>
    obtain ⟨⟨host, port⟩, hdest, h⟩ := Except.bind_eq_ok.1 h
    dsimp only at h
    cases haddrs : getaddrinfo host port with
    | none =>
      rw [haddrs] at h
      cases h
      refine iff_of_true sentOnce_nothing ?_
      intro host' port' addrs _ hd ha
      obtain ⟨rfl, rfl⟩ := Prod.mk.inj (Except.ok.inj (hdest.symm.trans hd))
      rw [haddrs] at ha
      cases ha
    | some addrs =>
      rw [haddrs] at h
      cases h
      rw [addressLoop_sentOnce_iff]
      constructor
      · intro hone host' port' addrs' _ hd ha
        obtain ⟨rfl, rfl⟩ := Prod.mk.inj (Except.ok.inj (hdest.symm.trans hd))
        obtain rfl := Option.some.inj (haddrs.symm.trans ha)
        exact hone
      · intro hall
        exact hall host port addrs rfl hdest haddrs

/-- A socket of IPv4 for datagrams. -/
def sampleSocket (fd : Int) : Socket := ⟨fd, 2, 2, 17, 16⟩

/-- A port of this host. -/
def sampleAddr : AddrInfo := ⟨2, 2, 17, 16, [2, 0, 19, 198, 127, 0, 0, 1, 0, 0, 0, 0, 0, 0, 0, 0]⟩

theorem deliverMsgDatagram_sentOnce_iff_sample :
    (⟨[sampleSocket 3]⟩ : SMnet).deliverMsgDatagram (sampleLibs [] []) (fun _ _ => some [sampleAddr])
        (fun _ _ => true) (parsedMsg sampleRequest) =
      .ok (true, [⟨3, sampleAddr.aiAddr, true⟩], parsedMsg sampleRequest) ∧
    (SentOnce true [⟨3, sampleAddr.aiAddr, true⟩] ↔
      (⟨[sampleSocket 3]⟩ : SMnet).CanSendOnce (sampleLibs [] []) (fun _ _ => some [sampleAddr])
        (fun _ _ => true) (parsedMsg sampleRequest)) :=
  ⟨by decide +kernel, deliverMsgDatagram_sentOnce_iff ⟨[sampleSocket 3]⟩ (sampleLibs [] [])
    (fun _ _ => some [sampleAddr]) (fun _ _ => true) (parsedMsg sampleRequest)
    (parsedMsg sampleRequest) true [⟨3, sampleAddr.aiAddr, true⟩] (by decide +kernel)⟩

/-- Two sockets of one kind both send. -/
theorem not_sentOnce : ¬ ∀ (net : SMnet) (lib : Libs)
    (getaddrinfo : Option CString → CString → Option (List AddrInfo)) (takes : Outcomes)
    (m m' : ShortMsg) (result : Bool) (calls : List SendTo),
    net.deliverMsgDatagram lib getaddrinfo takes m = .ok (result, calls, m') →
    SentOnce result calls := by
  intro h
  have hsent := h ⟨[sampleSocket 3, sampleSocket 4]⟩ (sampleLibs [] [])
    (fun _ _ => some [sampleAddr]) (fun _ _ => true) (parsedMsg sampleRequest)
    (parsedMsg sampleRequest) true
    [⟨3, sampleAddr.aiAddr, true⟩, ⟨4, sampleAddr.aiAddr, true⟩] (by decide +kernel)
  exact absurd hsent.1 (by decide)

/-! ## The message -/

/-- With an open socket the message is left as the queue has it after a delivery. -/
theorem deliverMsgDatagram_message {lib : Libs}
    {getaddrinfo : Option CString → CString → Option (List AddrInfo)} {m m' : ShortMsg}
    {result : Bool} {calls : List SendTo} (hopen : net.sockets ≠ [])
    (h : net.deliverMsgDatagram lib getaddrinfo takes m = .ok (result, calls, m')) :
    SMq.deliverMsgDatagram lib m = .ok m' := by
  unfold deliverMsgDatagram at h
  obtain ⟨m₁, hvalid, h⟩ := Except.bind_eq_ok.1 h
  rw [if_neg hopen] at h
  obtain ⟨⟨ok, m₂⟩, hparse, h⟩ := Except.bind_eq_ok.1 h
  have hm : m' = m₂ := by
    cases ok with
    | false =>
      cases h
      rfl
    | true =>
      obtain ⟨⟨host, port⟩, -, h⟩ := Except.bind_eq_ok.1 h
      dsimp only at h
      cases haddrs : getaddrinfo host port with
      | none =>
        rw [haddrs] at h
        cases h
        rfl
      | some addrs =>
        rw [haddrs] at h
        cases h
        rfl
  unfold SMq.deliverMsgDatagram
  refine Except.bind_eq_ok.2 ⟨m₁, hvalid, Except.bind_eq_ok.2 ⟨(ok, m₂), hparse, ?_⟩⟩
  rw [hm]
  rfl

end SMnet

end Smqueue

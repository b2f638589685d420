import Smqueue.Coherence
import Smqueue.Proofs.AttemptsProofs

/-!
# Proofs: what holds of every message

A property of messages holds of every queued message if it holds of those that pass the checks, and
is kept when a text is made valid and when the state machine edits the head.
-/

namespace Smqueue

open Relation (ReflTransGen)

variable {lib : Libs} {env : Env} {d d' : Daemon} {q q' : SMq} {h m m' : ShortMsgPending}
  {P : ShortMsg → Prop}

/-- The property is one of messages with a tree. It holds of what the program originates, and making a
text valid keeps it. -/
structure Kept (lib : Libs) (P : ShortMsg → Prop) : Prop where
  valid : ∀ sm, P sm → sm.parsedIsValid = true
  prints : ∀ sm sm', P sm → sm.TextFits lib → sm.Prints lib sm' → P sm'
  finished : ∀ env s x x', x.parsedIsValid = true → x.parsedIsBetter = true →
    SMq.finishMsg lib env s x = .ok (0, x') → P x'.toShortMsg

/-- A message with a tree is not parsed again. -/
theorem ShortMsg.Parses.eq_self {sm sm' : ShortMsg} (hv : sm.parsedIsValid = true)
    (h : sm.Parses lib sm') : sm' = sm := by
  obtain ⟨ok, h⟩ := h
  rw [parse_of_valid hv] at h
  cases h
  rfl

namespace SMq

/-! ## One pass -/

theorem Originated.kept (hP : Kept lib P) (ho : q.Originated lib env h m) : P m.toShortMsg := by
  obtain ⟨s, x, hv, hb, hf⟩ := ho.finished
  exact hP.finished env s x m hv hb hf

theorem Incoming.kept (hP : Kept lib P) (hi : q.Incoming lib env h m) : P m.toShortMsg := by
  cases hi with
  | inserted ho =>
    have hm := ho.kept hP
    exact hm

theorem Change.kept (hP : Kept lib P)
    (hedit : ∀ sm, q.HeadEdit lib env h sm → P h.toShortMsg → sm.TextFits lib → P sm)
    (hc : q.Change lib env h m m') (hfit : m.toShortMsg.TextFits lib)
    (hfit' : m'.toShortMsg.TextFits lib) (hm : P m.toShortMsg) : P m'.toShortMsg := by
  cases hc with
  | refresh hr =>
    rcases hr with hp | hp
    · exact hP.prints _ _ hm hfit hp
    · rw [show (_ : ShortMsg) = m.toShortMsg from hp.eq_self (hP.valid _ hm)]
      exact hm
  | edit _ hsm he =>
    rw [hsm] at hm
    exact hedit _ he hm hfit'
  | tag _ ht =>
    obtain ⟨⟨tag, hash, rfl⟩, -⟩ := ShortMsgPending.setQtag_ok (hP.valid _ hm) ht
    exact hm
  | move _ => exact hm

/-- A pass keeps the property if the edits of its head do, and the texts that it makes fit. -/
theorem processTimeout_kept (hP : Kept lib P) (hd : q.Distinct)
    (hall : ∀ m ∈ q.timeSortedList, P m.toShortMsg) (hq : q.processTimeout lib env = .ok q')
    (hg : ∀ h ∈ q.timeSortedList.head?, h.nextActionTime ≤ env.clock.entry →
      (∀ sm, q.HeadEdit lib env h sm → P h.toShortMsg → sm.TextFits lib → P sm) ∧
        ∀ m', q.Makes lib env h m' → m'.toShortMsg.TextFits lib) :
    ∀ m ∈ q'.timeSortedList, P m.toShortMsg := by
  rcases processTimeout_outcome hd hq with heq | ⟨h, hhead, hdue, -, ho⟩
  · rw [heq]
    exact hall
  · obtain ⟨hedit, hfits⟩ := hg h hhead hdue
    -- by induction on the changes of a message, each of which the pass makes
    have of_changes : ∀ {x x' : ShortMsgPending}, (x ∈ q.timeSortedList ∨
        x ∈ (q.attempted h).timeSortedList ∨ q.Incoming lib env h x) → P x.toShortMsg →
        ReflTransGen (q.Change lib env h) x x' → P x'.toShortMsg := by
      intro x x' hfrom hx hchanges
      induction hchanges with
      | refl => exact hx
      | tail hy hchange ih =>
        exact hchange.kept hP hedit (hfits _ ⟨x, hfrom, hy⟩) (hfits _ ⟨x, hfrom, hy.tail hchange⟩) ih
    have of_evolves : ∀ {l : List ShortMsgPending},
        (∀ x ∈ l, x ∈ q.timeSortedList ∨ x ∈ (q.attempted h).timeSortedList) →
        (∀ x ∈ l, P x.toShortMsg) →
        Population.Evolves (q.Change lib env h) (q.Incoming lib env h) l q'.timeSortedList →
        ∀ m ∈ q'.timeSortedList, P m.toShortMsg := by
      intro l hl hPl he m hm
      obtain ⟨x, hx | hin, hchanges⟩ := he m hm
      · exact of_changes ((hl x hx).imp_right .inl) (hPl x hx) hchanges
      · exact of_changes (.inr (.inr hin)) (hin.kept hP) hchanges
    cases ho with
    | quiet he => exact of_evolves (fun x hx => .inl hx) hall he.messages
    | attempt _ he _ =>
      refine of_evolves (fun x hx => .inr hx) (fun x hx => ?_) he
      rcases mem_attempted hx with rfl | ⟨hx, -⟩
      · exact hall h (head_mem hhead)
      · exact hall x hx

end SMq

/-! ## Steps -/

namespace Daemon

/-- The property holds of every queued message, and of one that is to be inserted, whose text is
valid. -/
structure Holds (P : ShortMsg → Prop) (d : Daemon) : Prop extends Sound d where
  queue : ∀ m ∈ d.queue.timeSortedList, P m.toShortMsg
  accepted : ∀ smp, d.reader = .accepted smp → P smp.toShortMsg ∧ smp.parsedIsBetter = false

/-- A valid text is not made again. -/
theorem prints_self {sm sm' : ShortMsg} (hb : sm.parsedIsBetter = false) (h : sm.Prints lib sm') :
    sm' = sm := by
  unfold ShortMsg.Prints ShortMsg.makeTextValid at h
  rw [hb, Bool.false_and] at h
  cases h
  rfl

theorem Holds.next {a : DaemonAct} (hP : Kept lib P) (h : d.Holds P) (hn : d.next lib a = some d')
    (harrive : ∀ env buffer srcaddr smp, a = .arrive env buffer srcaddr →
      ({ datagram buffer srcaddr with id := d.queue.nextId } : ShortMsgPending).validateShortMsg lib
        d.queue.settings env true = .ok (0, smp) → P smp.toShortMsg ∧ smp.parsedIsBetter = false)
    (hpass : ∀ env, a = .pass env → ∀ h ∈ d.queue.timeSortedList.head?,
      h.nextActionTime ≤ env.clock.entry →
      (∀ sm, d.queue.HeadEdit lib env h sm → P h.toShortMsg → sm.TextFits lib → P sm) ∧
        ∀ m', d.queue.Makes lib env h m' → m'.toShortMsg.TextFits lib)
    (hdump : (a = .dump ∨ ∃ s, a = .tidy (some s)) → ∀ m ∈ d.queue.timeSortedList, ∀ sm,
      P m.toShortMsg → m.toShortMsg.Prints lib sm → P sm) : d'.Holds P := by
  have hsound : d'.Sound := h.toSound.next hn
  cases next_happened h.toSound hn with
  | @passed env ha hq hr =>
    refine { hsound with
      queue := SMq.processTimeout_kept hP h.distinct h.queue hq (hpass env ha)
      accepted := fun smp hsmp => ?_ }
    rw [hr] at hsmp
    exact h.accepted smp hsmp
  | @arrived env buffer srcaddr errcode smp ha hv hq hr =>
    refine { hsound with queue := ?_, accepted := fun x hx => ?_ }
    · rw [hq]
      exact h.queue
    · rw [hr] at hx
      by_cases hc : errcode = 0
      · rw [if_pos hc] at hx
        obtain rfl := Reader.accepted.inj hx
        subst hc
        exact harrive env buffer srcaddr smp ha hv
      · rw [if_neg hc] at hx
        cases hx
  | @spliced now smp ha hr hq hr' =>
    refine { hsound with queue := ?_, accepted := fun x hx => ?_ }
    · rw [hq]
      intro x hx
      rcases List.mem_cons.1 hx with rfl | hx
      · exact (h.accepted smp hr).1
      · exact h.queue x hx
    · rw [hr'] at hx
      cases hx
  | parsed he =>
    refine { hsound with queue := fun x hx => ?_, accepted := fun x hx => ?_ }
    · obtain ⟨y, hy, hxy⟩ := he.queue x hx
      have hPy := h.queue y hy
      rcases hxy with rfl | ⟨sm, hsm, rfl⟩
      · exact hPy
      · rw [show (_ : ShortMsg) = y.toShortMsg from hsm.eq_self (hP.valid _ hPy)]
        exact hPy
    · obtain ⟨y, hy, hxy⟩ := he.accepted x hx
      have hPy := h.accepted y hy
      rcases hxy with rfl | ⟨sm, hsm, rfl⟩
      · exact hPy
      · rw [hsm.eq_self (hP.valid _ hPy.1)]
        exact hPy
  | dumped ha he =>
    refine { hsound with queue := fun x hx => ?_, accepted := fun x hx => ?_ }
    · obtain ⟨y, hy, hxy⟩ := he.queue x hx
      rcases hxy with rfl | ⟨sm, hsm, rfl⟩
      · exact h.queue x hy
      · exact hdump ha y hy sm (h.queue y hy) hsm
    · obtain ⟨y, hy, hxy⟩ := he.accepted x hx
      have hPy := h.accepted y hy
      rcases hxy with rfl | ⟨sm, hsm, rfl⟩
      · exact hPy
      · rw [prints_self hPy.2 hsm]
        exact hPy

end Daemon

end Smqueue

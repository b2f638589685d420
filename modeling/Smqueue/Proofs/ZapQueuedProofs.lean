import Mathlib.Data.List.TakeWhile
import Smqueue.ZapQueued
import Smqueue.Proofs.OrderProofs
import Smqueue.Proofs.ShortCodeProofs

/-!
# Proofs: deleting messages by a command
-/

namespace Smqueue

namespace SMq

variable {lib : Libs} {env : Env} {q : SMq} {m : ShortMsgPending} {text : CString}
  {a b l : List ShortMsgPending}

/-! ## Iterators -/

/-- The place of a message in a list without two of one identity. -/
theorem place_of_mem (hd : (l.map ShortMsgPending.id).Nodup) (hm : m ∈ l) :
    ∃ a b, l = a ++ m :: b ∧ ∀ x ∈ a, x.id ≠ m.id := by
  obtain ⟨a, b, rfl⟩ := List.append_of_mem hm
  refine ⟨a, b, rfl, fun x hx heq => ?_⟩
  rw [List.map_append, List.map_cons] at hd
  exact (List.nodup_append.1 hd).2.2 x.id (List.mem_map_of_mem hx) m.id List.mem_cons_self heq

theorem takeWhile_place (h : ∀ x ∈ a, x.id ≠ m.id) :
    (a ++ m :: b).takeWhile (fun x => decide (x.id ≠ m.id)) = a := by
  rw [List.takeWhile_append_of_pos fun x hx => decide_eq_true (h x hx),
    List.takeWhile_cons_of_neg (by simp), List.append_nil]

theorem dropWhile_place (h : ∀ x ∈ a, x.id ≠ m.id) :
    (a ++ m :: b).dropWhile (fun x => decide (x.id ≠ m.id)) = m :: b := by
  rw [List.dropWhile_append_of_pos fun x hx => decide_eq_true (h x hx),
    List.dropWhile_cons_of_neg (by simp)]

theorem find?_place (h : ∀ x ∈ a, x.id ≠ m.id) :
    (a ++ m :: b).find? (fun x => decide (x.id = m.id)) = some m := by
  rw [List.find?_append, List.find?_eq_none.2 (by simpa using h), Option.none_or,
    List.find?_cons_of_pos (by simp)]

/-! ## By tag -/

/-- The command takes the message out exactly if the text names it. -/
theorem zapped_eq_some_iff (hd : (Agenda.ids q.agenda).Nodup) (hm : m ∈ q.timeSortedList) :
    q.zapped env text = some m.id ↔ q.NamesItself env m text := by
  rw [ids_agenda] at hd
  obtain ⟨a, b, hl, ha⟩ := place_of_mem hd hm
  have hzapped : q.zapped env text = if env.config.zapQueuedPassword = zapTag text then none
      else (q.findQueuedMsgByTag (zapTag text)).map ShortMsgPending.id := rfl
  unfold NamesItself
  rw [hzapped]
  by_cases hp : env.config.zapQueuedPassword = zapTag text
  · rw [if_pos hp]
    exact iff_of_false (by simp) fun h => h.1 hp.symm
  rw [if_neg hp, and_iff_right (Ne.symm hp), hl, takeWhile_place ha]
  unfold findQueuedMsgByTag
  rw [hl]
  constructor
  · intro h
    obtain ⟨y, hy, hid⟩ := Option.map_eq_some_iff.1 h
    have hmem := List.mem_of_find?_eq_some hy
    obtain rfl : y = m := by
      rw [← hl] at hmem
      exact List.inj_on_of_nodup_map hd hmem hm hid
    refine ⟨List.find?_some hy, fun x hx => ?_⟩
    rw [List.find?_append] at hy
    cases hfound : a.find? (hasTag (zapTag text)) with
    | none => simpa using List.find?_eq_none.1 hfound x hx
    | some z =>
      rw [hfound, Option.some_or] at hy
      obtain rfl := Option.some.inj hy
      exact absurd rfl (ha z (List.mem_of_find?_eq_some hfound))
  · rintro ⟨htag, hbefore⟩
    rw [List.find?_append, List.find?_eq_none.2 (by simpa using hbefore), Option.none_or,
      List.find?_cons_of_pos htag]
    rfl

theorem find_isSome_iff {i : MsgId} : (q.find i).isSome ↔ i ∈ Agenda.ids q.agenda := by
  unfold find
  rw [List.find?_isSome, ids_agenda, List.mem_map]
  simp

/-- When a command returns, the message that carries it is still queued, unless the command deletes
messages and the text names this one. -/
theorem runShortCode_keeps_iff (lib : Libs) (env : Env) (q : SMq) (m : ShortMsgPending)
    (imsi : Option CString) (text : CString) (code : ShortCode) (r : ShortCodeResult)
    (hd : (Agenda.ids q.agenda).Nodup) (hm : m ∈ q.timeSortedList)
    (h : q.runShortCode lib env m imsi text code = .ok r) :
    (r.queue.find m.id).isSome ↔ ¬ (code = .zapQueued ∧ q.NamesItself env m text) := by
  have hin : m.id ∈ Agenda.ids q.agenda := Agenda.mem_ids.2 ⟨m.entry, mem_agenda hm, rfl⟩
  rw [find_isSome_iff]
  by_cases hcode : code = .zapQueued
  · subst hcode
    rw [(shortcodeZapQueued_ok h).agenda, ← zapped_eq_some_iff hd hm]
    cases hz : q.zapped env text with
    | none => simpa using hin
    | some i =>
      rw [Option.elim_some, Agenda.ids_erase, List.mem_filter, and_iff_right hin, decide_eq_true_eq,
        Option.some.injEq, and_iff_right rfl]
      exact not_congr eq_comm
  · obtain ⟨gone, hran, hgone⟩ := runShortCode_ok hd hm h
    have hnone : gone = none := by
      by_contra hne
      exact hcode (hgone hne).1
    rw [hran.agenda, hnone]
    exact iff_of_true hin fun hand => hcode hand.1

/-- A request that carries a command, with the tag of the sample message. -/
def zapQueue : SMq := QueueAt.sampleQueue [(0, 0)] 1

/-- The tag of another message is given. -/
theorem runShortCode_keeps_other : ∃ r, zapQueue.runShortCode (sampleLibs [] []) (sampleEnv 0)
      (queuedMsg 0 .initialState 0 sampleRequest) none (str "1--8") .zapQueued = .ok r ∧
    ((r.queue.find 0).isSome ↔ ¬ (ShortCode.zapQueued = .zapQueued ∧ zapQueue.NamesItself
      (sampleEnv 0) (queuedMsg 0 .initialState 0 sampleRequest) (str "1--8"))) :=
  ⟨_, rfl, runShortCode_keeps_iff (sampleLibs [] []) (sampleEnv 0) zapQueue
    (queuedMsg 0 .initialState 0 sampleRequest) none (str "1--8") .zapQueued _ (by decide)
    List.mem_cons_self rfl⟩

/-- The message whose text is its own tag is gone. -/
theorem not_runShortCode_keeps : ¬ ∀ (lib : Libs) (env : Env) (q : SMq) (m : ShortMsgPending)
    (imsi : Option CString) (text : CString) (code : ShortCode) (r : ShortCodeResult),
    (Agenda.ids q.agenda).Nodup → m ∈ q.timeSortedList → m.state = .initialState →
    q.runShortCode lib env m imsi text code = .ok r → (r.queue.find m.id).isSome := by
  intro h
  have hfind := h (sampleLibs [] []) (sampleEnv 0) zapQueue
    (queuedMsg 0 .initialState 0 sampleRequest) none (str "1--7") .zapQueued _ (by decide)
    List.mem_cons_self rfl rfl
  exact absurd hfind (by decide +kernel)

/-- The pass that called the command goes on with the message that the command took out. -/
theorem processInitial_freed {sip : SipMessage} {r : ShortCodeResult} (hsip : m.parsed = some sip)
    (hrequest : sip.isRequest = true) (hmethod : sip.sipMethod = some (str "MESSAGE"))
    (hcall : q.callShortCode lib env m = .ok (some r)) (haction : r.action = .done ∨ r.action = .reply)
    (hgone : r.queue.find m.id = none) : q.processInitial lib env m = .error .freedMessage := by
  have hmsg : r.queue.msg m.id = .error .freedMessage := by
    unfold msg
    rw [hgone]
    rfl
  have hset : ∀ (s : SmState) (now : Time), r.queue.setState m.id s now = .error .freedMessage := by
    intro s now
    unfold setState
    rw [hmsg]
    rfl
  have hmessage : strcmpEq sip.sipMethod (str "MESSAGE") = .ok true := by
    rw [hmethod]
    rfl
  have hhandle : q.handleShortCode lib env m = finishShortCode lib env m.id r := by
    unfold handleShortCode
    rw [hcall]
    rfl
  unfold processInitial
  rw [hsip]
  change (if sip.isRequest = true then _ else _) = _
  rw [if_pos hrequest, hmessage]
  change (q.handleShortCode lib env m >>= _) = _
  rw [hhandle]
  unfold finishShortCode
  obtain hdone | hreply := haction
  · rw [hdone]
    exact hset .deleteMeState env.clock.final
  · rw [hreply]
    dsimp only
    rw [hmsg]
    rfl

/-! ## By password -/

/-- A message that is not to be deleted is passed; from one that was deleted the loop cannot go on. -/
theorem zapTurn_eq (x : Option MsgId) (n : Nat) (examined : List MsgId) (ha : ∀ x ∈ a, x.id ≠ m.id) :
    zapTurn env ⟨a ++ m :: b, x, n, examined⟩ m.id =
      if doomed env m then .error .freedMessage
      else .ok ⟨a ++ m :: b, beginOf b, n, examined ++ [m.id]⟩ := by
  unfold zapTurn
  rw [find?_place ha]
  dsimp only
  by_cases hm : doomed env m = true
  · have hfreed : increment ((a ++ m :: b).filter fun x : ShortMsgPending => x.id ≠ m.id) m.id =
        .error .freedMessage := by
      unfold increment
      rw [List.dropWhile_eq_nil_iff.2 fun x hx => (List.mem_filter.1 hx).2]
    rw [if_pos hm, if_pos hm, if_pos hm, hfreed]
    rfl
  · have hnext : increment (a ++ m :: b) m.id = .ok (beginOf b) := by
      unfold increment
      rw [dropWhile_place ha]
    rw [if_neg hm, if_neg hm, if_neg hm, hnext]
    rfl

/-- The loop from the messages `b` on. -/
theorem zapTurns_eq (k n : Nat) (examined : List MsgId)
    (hd : ((a ++ b).map ShortMsgPending.id).Nodup) (hk : b.length < k) :
    zapTurns env k ⟨a ++ b, beginOf b, n, examined⟩ =
      some (if b.any (doomed env) then .error .freedMessage
        else .ok ⟨a ++ b, none, n, examined ++ b.map ShortMsgPending.id⟩) := by
  induction b generalizing k a examined with
  | nil =>
    cases k with
    | zero => exact absurd hk (by decide)
    | succ k =>
      rw [List.map_nil, List.append_nil examined]
      rfl
  | cons m b ih =>
    cases k with
    | zero => exact absurd hk (by simp)
    | succ k =>
      have ha : ∀ x ∈ a, x.id ≠ m.id := by
        intro x hx heq
        rw [List.map_append, List.map_cons] at hd
        exact (List.nodup_append.1 hd).2.2 x.id (List.mem_map_of_mem hx) m.id List.mem_cons_self heq
      have hbegin : beginOf (m :: b) = some m.id := rfl
      rw [zapTurns, hbegin]
      dsimp only
      rw [zapTurn_eq _ _ _ ha]
      by_cases hm : doomed env m = true
      · rw [if_pos hm, List.any_cons, hm, Bool.true_or]
        rfl
      · have hrest := ih (a := a ++ [m]) k (examined ++ [m.id])
          (by rw [List.append_assoc]; exact hd) (Nat.lt_of_succ_lt_succ hk)
        rw [List.append_assoc, List.append_assoc] at hrest
        rw [if_neg hm, List.any_cons, Bool.eq_false_of_not_eq_true hm, Bool.false_or]
        exact hrest

/-- How the loop ends. -/
def zapResult (env : Env) (q : SMq) : Except Fault ZapLoop :=
  if q.timeSortedList.any (doomed env) then .error .freedMessage
  else .ok ⟨q.timeSortedList, none, 0, q.timeSortedList.map ShortMsgPending.id⟩

/-- The command goes by its loop, which ends. -/
theorem shortcodeZapQueued_loop (hd : (Agenda.ids q.agenda).Nodup)
    (hp : zapTag text = env.config.zapQueuedPassword) :
    zapTurns env (q.timeSortedList.length + 1) q.zapStart = some (zapResult env q) ∧
      q.shortcodeZapQueued env text = (zapResult env q).map (q.zapAnswer text) := by
  rw [ids_agenda] at hd
  refine ⟨zapTurns_eq (a := []) _ 0 [] hd (Nat.lt_succ_self _), ?_⟩
  have hp' : env.config.zapQueuedPassword =
      if text.head? = some 45 then text.drop 1 else text := hp.symm
  unfold shortcodeZapQueued zapResult
  rw [if_pos hp']
  change (if q.timeSortedList.any (doomed env) = true then _ else _) = _
  by_cases hany : q.timeSortedList.any (doomed env) = true
  · rw [if_pos hany, if_pos hany]
    rfl
  · have hanswer : str "Removed 0 messages." = str "Removed " ++ decimal 0 ++ str " messages." := by
      decide +kernel
    rw [if_neg hany, if_neg hany, hanswer]
    rfl

/-- With the password as its text the command does what it is for exactly if there is nothing to be
deleted. -/
theorem zapsDoomed_iff (env : Env) (q : SMq) (text : CString) (hd : (Agenda.ids q.agenda).Nodup)
    (hp : zapTag text = env.config.zapQueuedPassword) :
    q.ZapsDoomed env text ↔ ∀ x ∈ q.timeSortedList, doomed env x = false := by
  obtain ⟨hrun, hanswer⟩ := shortcodeZapQueued_loop hd hp
  unfold zapResult at hrun hanswer
  constructor
  · rintro ⟨-, st, -, -, -, -, hst⟩ x hx
    by_contra hdoomed
    rw [if_pos (List.any_eq_true.2 ⟨x, hx, Bool.eq_true_of_not_eq_false hdoomed⟩)] at hanswer
    rw [hanswer] at hst
    cases hst
  · intro hnone
    have hany : ¬ q.timeSortedList.any (doomed env) = true := by
      intro hany
      obtain ⟨x, hx, hdoomed⟩ := List.any_eq_true.1 hany
      rw [hnone x hx] at hdoomed
      cases hdoomed
    rw [if_neg hany] at hrun hanswer
    refine ⟨_, _, hrun, rfl, ?_, ?_, hanswer⟩
    · exact (List.filter_eq_self.2 fun x hx => by rw [hnone x hx]; rfl).symm
    · exact (List.countP_eq_zero.2 fun x hx => by rw [hnone x hx]; decide).symm

/-- Nothing is to be deleted. -/
theorem zapsDoomed_iff_nothing : zapQueue.ZapsDoomed (sampleEnv 0) (str "6000") :=
  (zapsDoomed_iff (sampleEnv 0) zapQueue (str "6000") (by decide) rfl).2 (by decide +kernel)

/-- A message in `NO_STATE` is deleted, and the iterator goes on from it. -/
theorem not_zapsDoomed : ¬ ∀ (env : Env) (q : SMq) (text : CString), (Agenda.ids q.agenda).Nodup →
    zapTag text = env.config.zapQueuedPassword → q.ZapsDoomed env text := by
  intro h
  obtain ⟨k, st, -, -, -, -, hanswer⟩ := h (sampleEnv 0)
    { settings := {}, timeSortedList := [queuedMsg 0 .noState 0 sampleRequest] } (str "6000")
    (by decide) rfl
  cases hanswer

end SMq

end Smqueue

import Smqueue.TagSearch
import Smqueue.SampleLibs
import Smqueue.Proofs.ResponseProofs

/-!
# Proofs: which message a response is matched with

The first message with a tag is a request exactly when no response with the tag stands before the
first such request.
-/

namespace Smqueue

open Agenda (ids)

variable {lib : Libs} {env : Env} {q q' : SMq} {m sent : ShortMsgPending} {tag : CString}
  {l : List ShortMsgPending}

namespace SMq

/-- Searching a list that has a request with the tag. -/
theorem find?_hasTag_isRequest_iff (h : ∃ x ∈ l, taggedRequest tag x) :
    (∃ x, l.find? (hasTag tag) = some x ∧ isRequestMsg x.toShortMsg) ↔
      ∀ x ∈ ahead tag l, ¬ hasTag tag x := by
  induction l with
  | nil =>
    obtain ⟨x, hx, -⟩ := h
    cases hx
  | cons y l ih =>
    unfold ahead at ih ⊢
    by_cases htag : hasTag tag y = true
    · rw [List.find?_cons_of_pos htag]
      by_cases hreq : isRequestMsg y.toShortMsg = true
      · have hy : taggedRequest tag y = true := by simp [taggedRequest, htag, hreq]
        rw [List.takeWhile_cons_of_neg (by simp [hy])]
        exact iff_of_true ⟨y, rfl, hreq⟩ fun x hx => nomatch hx
      · have hy : taggedRequest tag y = false := by simp [taggedRequest, hreq]
        rw [List.takeWhile_cons_of_pos (by simp [hy])]
        refine iff_of_false ?_ fun hall => hall y List.mem_cons_self htag
        rintro ⟨x, hx, hxr⟩
        obtain rfl := Option.some.inj hx
        exact hreq hxr
    · have hy : taggedRequest tag y = false := by simp [taggedRequest, htag]
      have hrest : ∃ x ∈ l, taggedRequest tag x := by
        obtain ⟨x, hx, hxt⟩ := h
        rcases List.mem_cons.1 hx with rfl | hx
        · rw [hy] at hxt
          cases hxt
        · exact ⟨x, hx, hxt⟩
      rw [List.find?_cons_of_neg htag, List.takeWhile_cons_of_pos (by simp [hy]), ih hrest]
      exact ⟨fun hall x hx => (List.mem_cons.1 hx).elim (fun hxy => hxy ▸ htag) (hall x),
        fun hall x hx => hall x (List.mem_cons_of_mem _ hx)⟩

/-- A success response takes the message that it selects out of the queue. -/
theorem handleResponse_success (hd : q.Distinct) (hsel : q.selected m = some sent)
    (hcode : isSuccess m.toShortMsg) (h : q.handleResponse lib env m = .ok q') :
    sent.id ∉ ids q'.agenda := by
  have hd1 : (q.remove m.id).Distinct := (Effect.removed hd).distinct
  unfold handleResponse at h
  obtain ⟨tag, htag, h⟩ := Except.bind_eq_ok.1 h
  unfold selected at hsel
  rw [deref_eq_ok htag, Option.bind_some] at hsel
  rw [hsel] at h
  obtain ⟨response, hresp, h⟩ := Except.bind_eq_ok.1 h
  have h2 : response.statusCode.tdiv 100 = 2 := by
    unfold isSuccess at hcode
    rw [deref_eq_ok hresp] at hcode
    exact of_decide_eq_true hcode
  have hs : (q.remove m.id).handleSuccess lib env sent = .ok q' := by
    unfold handleStatus at h
    dsimp only at h
    rw [h2] at h
    exact h
  have ha := handleSuccess_ok hd1 (findQueuedMsgByTag_some hsel).1 hs
  have hids : ids q'.agenda = (ids (q.remove m.id).agenda).filter (· ∉ [sent.id]) := ha.kept
  rw [hids]
  simp

/-- For a response whose request is queued, `handle_response` selects a request, and takes it out if
the response is a success, exactly when no other response with the tag stands before the first
request with the tag. -/
theorem selectsRequest_iff (lib : Libs) (env : Env) (q : SMq) (m : ShortMsgPending)
    (hd : q.Distinct) (hr : q.HasRequest m) :
    q.SelectsRequest lib env m ↔ q.NoResponseAhead m := by
  obtain ⟨tag, htag, hreq⟩ := hr
  have htag' : m.qtag = some tag := htag
  have hsel : q.selected m = (q.remove m.id).timeSortedList.find? (hasTag tag) := by
    unfold selected
    rw [htag']
    rfl
  have hahead : q.NoResponseAhead m ↔
      ∀ x ∈ ahead tag (q.remove m.id).timeSortedList, ¬ hasTag tag x := by
    constructor
    · exact fun h => h tag htag
    · intro h tag' ht'
      obtain rfl : tag = tag' := Option.some.inj (htag'.symm.trans ht')
      exact h
  rw [hahead, ← find?_hasTag_isRequest_iff hreq, ← hsel]
  constructor
  · rintro ⟨x, hx, hxr, -⟩
    exact ⟨x, hx, hxr⟩
  · rintro ⟨x, hx, hxr⟩
    exact ⟨x, hx, hxr, fun q' hcode h => handleResponse_success hd hx hcode h⟩

/-- A queue with a sent message and the responses to it that arrived, the latest first. -/
def responsesQueue (responses : List ShortMsgPending) : SMq where
  settings := {}
  timeSortedList := responses ++ [queuedMsg 0 .askedForMsgDelivery 15000 sampleRequest]
  nextId := 3

/-- The response with the given status code to the sample message. -/
def arrived (id : MsgId) (code : Int) (reason : CString) : ShortMsgPending :=
  queuedMsg id .initialState 0 (sampleResponse code reason)

/-- A single success response selects the request. -/
theorem selectsRequest_iff_single :
    (responsesQueue [arrived 1 200 (str "OK")]).SelectsRequest (sampleLibs [] []) (sampleEnv 0)
      (arrived 1 200 (str "OK")) := by
  refine (selectsRequest_iff _ _ _ _ ⟨by decide, by decide⟩ ?_).2 ?_
  · exact ⟨_, rfl, _, List.mem_cons_self, rfl⟩
  · rintro tag ⟨⟩
    decide

/-- Of two responses that arrived one after the other, the later one selects the earlier one. -/
theorem not_selectsRequest_two :
    ¬ ∀ (lib : Libs) (env : Env) (q : SMq) (m : ShortMsgPending), q.Distinct →
      q.HasRequest m → q.SelectsRequest lib env m := by
  intro hall
  have hsel := hall (sampleLibs [] []) (sampleEnv 0)
    (responsesQueue [arrived 2 200 (str "OK"), arrived 1 100 (str "Trying")])
    (arrived 2 200 (str "OK")) ⟨by decide, by decide⟩
    ⟨_, rfl, _, List.mem_cons_of_mem _ List.mem_cons_self, rfl⟩
  obtain ⟨x, hx, hreq, -⟩ := hsel
  obtain rfl : arrived 1 100 (str "Trying") = x := Option.some.inj hx
  exact absurd hreq (by decide)

end SMq

end Smqueue

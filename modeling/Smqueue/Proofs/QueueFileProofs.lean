import Smqueue.QueueFile
import Smqueue.SampleLibs
import Smqueue.Lib.Runs
import Smqueue.Lib.Proofs.InputStreamProofs
import Smqueue.Lib.Proofs.ExceptProofs

/-!
# Proofs: when the record loop ends

A turn of the record loop on a good stream does what scanning a record says. A malformed record makes
the stream fail before its end; then nothing changes any more, the marker of the last record
included, and the loop goes on for ever.
-/

namespace Smqueue

namespace ReadLoop

open InputStream (Stuck Follows)

variable {l l' : ReadLoop} {s rest : List UInt8}

/-! ## At the end of the file, and after a failure -/

theorem readText_of_eof (h : l.file.eof = true) : l.readText.1.file.eof = true :=
  InputStream.skipChar_of_eof (InputStream.takeText_of_eof (InputStream.skipChar_of_eof h))

theorem readHead_of_stuck (h : l.file.Stuck) : l.readHead = l := by
  unfold readHead
  simp only [InputStream.extractWord_of_stuck h, InputStream.extractUnsigned_of_stuck h,
    Option.getD_none]

theorem readFields_of_stuck (h : l.file.Stuck) : l.readFields = l := by
  unfold readFields
  simp only [InputStream.extractWord_of_stuck h, InputStream.extractUnsigned_of_stuck h,
    Option.getD_none]

theorem readText_of_stuck (h : l.file.Stuck) : l.readText = (l, []) := by
  unfold readText
  simp only [InputStream.skipChar_of_stuck h, InputStream.takeText_of_stuck h]

/-- A turn after a failure changes nothing. -/
theorem turn_of_stuck (h : l.file.Stuck) (he : l.equals = str "===") : l.turn = some (l, []) := by
  unfold turn
  rw [if_neg (by simp [h.2]), readHead_of_stuck h]
  dsimp only
  rw [if_neg (by simp [he, h.2]), readFields_of_stuck h, readText_of_stuck h]

theorem turn_of_eof (h : l.file.eof = true) : l.turn = none := if_pos h

/-! ## On a good stream -/

/-- The stream of `l` is as scanning says. -/
def Agrees (x : Scan Unit) (l : ReadLoop) : Prop := Follows x (some ()) l.file

theorem word_ne_malformed (space : UInt8 → Bool) (s : List UInt8) :
    Scan.word space s ≠ .malformed := by
  unfold Scan.word
  dsimp only
  split <;> exact fun h => nomatch h

theorem chars_ne_malformed (c : UInt8) (s : List UInt8) : Scan.chars c s ≠ .malformed := by
  unfold Scan.chars
  dsimp only
  split <;> exact fun h => nomatch h

theorem readText_agrees {alength : Nat} (ha : l.alength = alength)
    (hl : l.file = ⟨s, false, false⟩) : Agrees (scanText alength s) l.readText.1 := by
  subst ha
  unfold readText scanText
  have h1 := InputStream.skipChar_follows 10 s
  rw [← hl] at h1
  cases hx : Scan.chars 10 s with
  | malformed => exact absurd hx (chars_ne_malformed 10 s)
  | ended =>
    rw [hx] at h1
    exact InputStream.skipChar_of_eof (InputStream.takeText_of_eof h1)
  | found u s1 =>
    rw [hx] at h1
    have h2 := InputStream.takeText_follows ((l.alength + 1) % 2 ^ 32 - 1) 0 s1
    rw [← h1.2] at h2
    dsimp only [Scan.bind]
    cases hy : Scan.text ((l.alength + 1) % 2 ^ 32 - 1) 0 s1 with
    | ended =>
      rw [hy] at h2
      exact InputStream.skipChar_of_eof h2
    | malformed =>
      rw [hy] at h2
      have h3 := InputStream.skipChar_of_stuck (c := 10) h2
      change InputStream.Stuck _
      rw [h3]
      exact h2
    | found text s2 =>
      rw [hy] at h2
      have h3 := InputStream.skipChar_follows 10 s2
      rw [← h2.2] at h3
      exact h3

theorem readText_stuck (h : l.file.Stuck) : l.readText.1.file.Stuck := by
  rw [readText_of_stuck h]
  exact h

theorem readFields_agrees (hl : l.file = ⟨s, false, false⟩) :
    Agrees (scanFields s) l.readFields.readText.1 := by
  unfold scanFields readFields
  dsimp only
  have h1 := InputStream.extractWord_follows isspace s
  rw [← hl] at h1
  cases hx1 : Scan.word isspace s with
  | malformed => exact absurd hx1 (word_ne_malformed isspace s)
  | ended =>
    rw [hx1] at h1
    exact readText_of_eof (InputStream.extractUnsigned_of_eof
      (InputStream.extractUnsigned_of_eof (InputStream.extractUnsigned_of_eof h1)))
  | found word s1 =>
    rw [hx1] at h1
    have h2 := InputStream.extractUnsigned_follows isspace unsignedMax s1
    rw [h1.2]
    dsimp only [Scan.bind]
    cases hx2 : Scan.unsigned isspace unsignedMax s1 with
    | ended =>
      rw [hx2] at h2
      exact readText_of_eof (InputStream.extractUnsigned_of_eof
        (InputStream.extractUnsigned_of_eof h2))
    | malformed =>
      rw [hx2] at h2
      rw [InputStream.extractUnsigned_of_stuck h2, InputStream.extractUnsigned_of_stuck h2]
      exact readText_stuck h2
    | found alength s2 =>
      rw [hx2] at h2
      have h3 := InputStream.extractUnsigned_follows isspace unsignedMax s2
      rw [h2.1, h2.2]
      dsimp only
      cases hx3 : Scan.unsigned isspace unsignedMax s2 with
      | ended =>
        rw [hx3] at h3
        exact readText_of_eof (InputStream.extractUnsigned_of_eof h3)
      | malformed =>
        rw [hx3] at h3
        rw [InputStream.extractUnsigned_of_stuck h3]
        exact readText_stuck h3
      | found dir s3 =>
        rw [hx3] at h3
        have h4 := InputStream.extractUnsigned_follows isspace unsignedMax s3
        rw [h3.2]
        dsimp only
        cases hx4 : Scan.unsigned isspace unsignedMax s3 with
        | ended =>
          rw [hx4] at h4
          exact readText_of_eof h4
        | malformed =>
          rw [hx4] at h4
          exact readText_stuck h4
        | found repack s4 =>
          rw [hx4] at h4
          exact readText_agrees rfl h4.2

/-- What a turn does on a good stream: the loop is left in this turn or before the next one, or it
is stuck with the marker of a record, or it goes on behind the record. -/
theorem turn_agrees (hl : l.file = ⟨s, false, false⟩) :
    match scanRecord s with
    | .ended => l.turn = none ∨ ∃ l' text, l.turn = some (l', text) ∧ l'.file.eof = true
    | .malformed => ∃ l' text, l.turn = some (l', text) ∧ l'.file.Stuck ∧ l'.equals = str "==="
    | .found _ rest => ∃ l' text, l.turn = some (l', text) ∧ l'.file = ⟨rest, false, false⟩ := by
  have h1 := InputStream.extractWord_follows isspace s
  rw [← hl] at h1
  have hturn : ∀ h, l.readHead = h → l.turn = if h.equals ≠ str "===" || h.file.eof then none
      else some h.readFields.readText := by
    rintro h rfl
    unfold turn
    rw [hl]
    rfl
  have hleft : ∀ h, l.readHead = h → h.file.eof = true → l.turn = none := by
    intro h hh he
    rw [hturn h hh, if_pos (by simp [he])]
  unfold scanRecord
  cases hx1 : Scan.word isspace s with
  | malformed => exact absurd hx1 (word_ne_malformed isspace s)
  | ended =>
    rw [hx1] at h1
    exact .inl (hleft _ rfl
      (InputStream.extractUnsigned_of_eof (InputStream.extractUnsigned_of_eof h1)))
  | found equals s1 =>
    rw [hx1] at h1
    dsimp only [Scan.bind]
    have heq : l.readHead.equals = equals := by
      unfold readHead
      dsimp only
      rw [h1.1]
      rfl
    by_cases hm : equals = str "==="
    · rw [if_neg (not_not.2 hm)]
      have hgo : l.readHead.file.eof = false → l.turn = some l.readHead.readFields.readText := by
        intro he
        rw [hturn _ rfl, if_neg (by simp [heq, hm, he])]
      have hstuck : l.readHead.file.Stuck → ∃ l' text, l.turn = some (l', text) ∧
          l'.file.Stuck ∧ l'.equals = str "===" := by
        intro hs
        refine ⟨l.readHead, [], ?_, hs, heq.trans hm⟩
        rw [hgo hs.2, readFields_of_stuck hs, readText_of_stuck hs]
      have h2 := InputStream.extractUnsigned_follows isspace unsignedMax s1
      rw [← h1.2] at h2
      cases hx2 : Scan.unsigned isspace unsignedMax s1 with
      | ended =>
        rw [hx2] at h2
        exact .inl (hleft _ rfl (InputStream.extractUnsigned_of_eof h2))
      | malformed =>
        rw [hx2] at h2
        refine hstuck ?_
        unfold readHead
        dsimp only
        rw [InputStream.extractUnsigned_of_stuck h2]
        exact h2
      | found astate s2 =>
        rw [hx2] at h2
        have h3 := InputStream.extractUnsigned_follows isspace unsignedMax s2
        rw [← h2.2] at h3
        dsimp only
        cases hx3 : Scan.unsigned isspace unsignedMax s2 with
        | ended =>
          rw [hx3] at h3
          exact .inl (hleft _ rfl h3)
        | malformed =>
          rw [hx3] at h3
          exact hstuck h3
        | found atime s3 =>
          rw [hx3] at h3
          have hfile : l.readHead.file = ⟨s3, false, false⟩ := h3.2
          have hfields : Agrees (scanFields s3) _ := readFields_agrees hfile
          have ht := hgo (by rw [hfile])
          dsimp only
          cases hx : scanFields s3 with
          | ended =>
            rw [hx] at hfields
            exact .inr ⟨_, _, ht, hfields⟩
          | malformed =>
            rw [hx] at hfields
            refine ⟨_, _, ht, hfields, ?_⟩
            exact heq.trans hm
          | found u rest =>
            rw [hx] at hfields
            exact ⟨_, _, ht, hfields.2⟩
    · rw [if_pos hm]
      refine .inl ?_
      rw [hturn _ rfl, if_pos (by simp [heq, hm])]

/-! ## Ending -/

theorem scanText_length {n : Nat} (h : scanText n s = .found () rest) :
    rest.length ≤ s.length := by
  obtain ⟨_, s1, h1, h⟩ := Scan.bind_eq_found.1 h
  obtain ⟨_, s2, h2, h⟩ := Scan.bind_eq_found.1 h
  have hl1 := Scan.chars_length h1
  have hl2 := Scan.text_length h2
  have hl3 := Scan.chars_length h
  omega

theorem scanFields_length (h : scanFields s = .found () rest) : rest.length ≤ s.length := by
  obtain ⟨w, s1, h1, h⟩ := Scan.bind_eq_found.1 h
  obtain ⟨n, s2, h2, h⟩ := Scan.bind_eq_found.1 h
  obtain ⟨_, s3, h3, h⟩ := Scan.bind_eq_found.1 h
  obtain ⟨_, s4, h4, h⟩ := Scan.bind_eq_found.1 h
  have hl1 := Scan.word_length h1
  have hl2 := Scan.unsigned_length h2
  have hl3 := Scan.unsigned_length h3
  have hl4 := Scan.unsigned_length h4
  have hl5 := scanText_length h
  omega

/-- A record takes up at least its marker. -/
theorem scanRecord_length (h : scanRecord s = .found () rest) : rest.length < s.length := by
  obtain ⟨w, s1, h1, h⟩ := Scan.bind_eq_found.1 h
  by_cases hw : w = str "==="
  · rw [if_neg (not_not.2 hw)] at h
    obtain ⟨_, s2, h2, h⟩ := Scan.bind_eq_found.1 h
    obtain ⟨_, s3, h3, h⟩ := Scan.bind_eq_found.1 h
    have hl1 := Scan.word_length h1
    have hl2 := Scan.unsigned_length h2
    have hl3 := Scan.unsigned_length h3
    have hl4 := scanFields_length h
    have hmark : w.length = 3 := by
      rw [hw]
      rfl
    omega
  · rw [if_pos hw] at h
    cases h

/-- What is done with the records has no influence on the loop. -/
theorem turnWith_next {lib : Libs} {env : Env} {parseAddr : CString → Option (List UInt8)}
    {q : SMq} {r : Option (ReadLoop × SMq)} (h : turnWith lib env parseAddr l q = .ok r) :
    r.map Prod.fst = l.next := by
  unfold turnWith at h
  unfold next
  cases ht : l.turn with
  | none =>
    rw [ht] at h
    cases h
    rfl
  | some p =>
    rw [ht] at h
    obtain ⟨q', -, h⟩ := Except.bind_eq_ok.1 h
    cases h
    rfl

theorem not_ends_of_stuck (h : l.file.Stuck) (he : l.equals = str "===") :
    ¬ Runs.Ends next l := by
  refine Runs.not_ends_of_kept (fun l => l.file.Stuck ∧ l.equals = str "===") ?_ ⟨h, he⟩
  rintro k ⟨hk, hke⟩
  refine ⟨k, ?_, hk, hke⟩
  unfold next
  rw [turn_of_stuck hk hke]
  rfl

theorem ends_of_eof (h : l.file.eof = true) : Runs.Ends next l := by
  refine .stop ?_
  unfold next
  rw [turn_of_eof h]
  rfl

theorem not_ends_of_malformed (h : HasMalformedRecord s) (hl : l.file = ⟨s, false, false⟩) :
    ¬ Runs.Ends next l := by
  induction h generalizing l with
  | here h =>
    have hturn := turn_agrees hl
    rw [h] at hturn
    obtain ⟨l', text, ht, hs, he⟩ := hturn
    intro hends
    cases hends with
    | stop h0 => simp [next, ht] at h0
    | turn h1 hends =>
      simp only [next, ht, Option.map_some, Option.some.injEq] at h1
      subst h1
      exact not_ends_of_stuck hs he hends
  | later h _ ih =>
    have hturn := turn_agrees hl
    rw [h] at hturn
    obtain ⟨l', text, ht, hfile⟩ := hturn
    intro hends
    cases hends with
    | stop h0 => simp [next, ht] at h0
    | turn h1 hends =>
      simp only [next, ht, Option.map_some, Option.some.injEq] at h1
      subst h1
      exact ih hfile hends

theorem ends_of_not_malformed (h : ¬ HasMalformedRecord s) (hl : l.file = ⟨s, false, false⟩) :
    Runs.Ends next l := by
  -- every record that is read makes the rest of the file shorter
  induction hn : s.length using Nat.strong_induction_on generalizing s l with
  | _ n ih =>
    subst hn
    have hturn := turn_agrees hl
    cases hx : scanRecord s with
    | ended =>
      rw [hx] at hturn
      rcases hturn with ht | ⟨l', text, ht, he⟩
      · refine .stop ?_
        unfold next
        rw [ht]
        rfl
      · refine .turn (t := l') ?_ (ends_of_eof he)
        unfold next
        rw [ht]
        rfl
    | malformed => exact absurd (.here hx) h
    | found u rest =>
      rw [hx] at hturn
      obtain ⟨l', text, ht, hfile⟩ := hturn
      refine .turn (t := l') ?_ ?_
      · unfold next
        rw [ht]
        rfl
      · exact ih rest.length (scanRecord_length hx) (fun hr => h (.later hx hr)) hfile rfl

/-- The record loop ends after finitely many turns exactly when no record of the file is malformed
in front of more input. -/
theorem readLoop_ends_iff (content : List UInt8) (astate atime alength msToSc needRepack : Nat) :
    Runs.Ends next (start content astate atime alength msToSc needRepack) ↔
      ¬ HasMalformedRecord content :=
  ⟨fun hends h => not_ends_of_malformed h rfl hends, fun h => ends_of_not_malformed h rfl⟩

/-- A queue with one message that is due at a time that a clock shows today. -/
def dueToday : SMq where
  settings := {}
  timeSortedList := [queuedMsg 0 .initialState 1700000000000 sampleRequest]
  nextId := 1

/-- An environment with a printable address. -/
def addressEnv : Env := { sampleEnv 0 with stringAddr := fun _ _ => str "127.0.0.1:5062" }

/-- The record loop does not end on the file that is saved for that queue. -/
theorem not_readLoop_ends_saved :
    ∃ content q', dueToday.saveQueueToFile (sampleLibs [] []) addressEnv = .ok (content, q') ∧
      ¬ Runs.Ends next (start content 0 0 0 0 0) := by
  refine ⟨_, _, rfl, fun hends => ?_⟩
  have hscan : scanRecord (saveRecord addressEnv
      (queuedMsg 0 .initialState 1700000000000 sampleRequest)
      (SampleLibs.messageText sampleRequest) ++ []) = .malformed := by decide +kernel
  exact (readLoop_ends_iff _ 0 0 0 0 0).1 hends (.here hscan)

end ReadLoop

end Smqueue

import Smqueue.ShortMsg
import Smqueue.Lib.Proofs.ExceptProofs

/-!
# Proofs: short messages

What parsing a message and making its text valid do to its fields.
-/

namespace Smqueue

theorem deref_some {α : Type} (a : α) : deref (some a) = .ok a := rfl

theorem deref_eq_ok {α : Type} {x : Option α} {a : α} (h : deref x = .ok a) : x = some a := by
  cases x with
  | none => cases h
  | some b =>
    cases h
    rfl

/-- A content type is compared, unless a null pointer is met. -/
theorem mediaType_is (ct : MediaType) (t s : CString) :
    ct.is t s = .error .nullPointer ∨ ct.is t s = .ok (decide (ct = ⟨some t, some s⟩)) := by
  obtain ⟨type, subtype⟩ := ct
  cases type with
  | none => exact .inl rfl
  | some type =>
    by_cases ht : type = t
    · subst ht
      cases subtype with
      | none => left; simp [MediaType.is, strcmpEq, deref, Bind.bind, Except.bind, Pure.pure,
          Except.pure]
      | some subtype => right; simp [MediaType.is, strcmpEq, deref, Bind.bind, Except.bind,
          Pure.pure, Except.pure]
    · right
      simp [MediaType.is, strcmpEq, deref, Bind.bind, Except.bind, Pure.pure, Except.pure, ht]

/-- A comparison that comes to an end. -/
theorem mediaType_is_ok {ct : MediaType} {t s : CString} {b : Bool} (h : ct.is t s = .ok b) :
    b = decide (ct = ⟨some t, some s⟩) := by
  rcases mediaType_is ct t s with he | he
  · rw [he] at h
    cases h
  · rw [he] at h
    injection h with h
    exact h.symm

namespace ShortMsg

variable {lib : Libs} {m m' : ShortMsg} {text : CString} {sip : SipMessage}

/-- Taking a message apart leaves its text as it is unless the tree is the newer one. -/
theorem unparse_of_not_valid (h : m.parsedIsValid = false) :
    m.unparse lib = .ok { m with rpData := none, tlMessage := none, contentType := .unsupportedContent,
                                 parsed := none, parsedIsValid := false, parsedIsBetter := false } := by
  unfold ShortMsg.unparse ShortMsg.makeTextValid
  cases hb : m.parsedIsBetter <;> simp [h, Bind.bind, Except.bind, Pure.pure, Except.pure]

/-- The content type, the RP-DATA and the TPDU may have changed. -/
def SameContentBut (m m' : ShortMsg) : Prop :=
  ∃ ct rp tl, m' = { m with contentType := ct, rpData := rp, tlMessage := tl }

/-- The content type of plain text. -/
def plainType : MediaType := ⟨some (str "text"), some (str "plain")⟩

/-- The content type of an encoded SMS. -/
def encodedType : MediaType := ⟨some (str "application"), some (str "vnd.3gpp.sms")⟩

/-- What the content of a text can be, the result of parsing it, and what becomes of the message. -/
inductive ContentOf (lib : Libs) (text : CString) (sip : SipMessage) (m : ShortMsg) :
    Bool → ShortMsg → Prop where
  | missing (hct : sip.contentType = none) :
    ContentOf lib text sip m true { m with contentType := .unsupportedContent }
  | plain (hct : sip.contentType = some plainType) :
    ContentOf lib text sip m true { m with contentType := .textPlain }
  | noRPData (hct : sip.contentType = some encodedType)
      (hrp : decodeRPData lib text sip = .ok none) :
    ContentOf lib text sip m true { m with contentType := .vnd3gppSms, rpData := none }
  | noTPDU {rp : RPData} (hct : sip.contentType = some encodedType)
      (hrp : decodeRPData lib text sip = .ok (some rp))
      (htl : parseTPDU (Frame.develop (fun _ => false) rp.tpdu) = .ok none) :
    ContentOf lib text sip m false
      { m with contentType := .vnd3gppSms, rpData := some rp, tlMessage := none }
  | encoded {rp : RPData} {tl : TLMessage} (hct : sip.contentType = some encodedType)
      (hrp : decodeRPData lib text sip = .ok (some rp))
      (htl : parseTPDU (Frame.develop (fun _ => false) rp.tpdu) = .ok (some tl)) :
    ContentOf lib text sip m true
      { m with contentType := .vnd3gppSms, rpData := some rp, tlMessage := some tl }
  | other {ct : MediaType} (hct : sip.contentType = some ct)
      (hplain : ct.is (str "text") (str "plain") = .ok false)
      (hencoded : ct.is (str "application") (str "vnd.3gpp.sms") = .ok false) :
    ContentOf lib text sip m true m

theorem plainType_is_plain : plainType.is (str "text") (str "plain") = .ok true := by decide

theorem encodedType_is_plain : encodedType.is (str "text") (str "plain") = .ok false := by decide

theorem encodedType_is_encoded :
    encodedType.is (str "application") (str "vnd.3gpp.sms") = .ok true := by decide

/-- Everything that parsing the content of a text can do, unless it ends in an exception. -/
theorem parseContent_iff {ok : Bool} :
    parseContent lib m text sip = .ok (ok, m') ↔ ContentOf lib text sip m ok m' := by
  constructor
  · intro h
    unfold parseContent at h
    cases hct : sip.contentType with
    | none =>
      rw [hct] at h
      cases h
      exact .missing hct
    | some ct =>
      rw [hct] at h
      obtain ⟨b1, h1, h⟩ := Except.bind_eq_ok.1 h
      cases b1 with
      | true =>
        cases h
        exact .plain (hct.trans (congrArg some (of_decide_eq_true (mediaType_is_ok h1).symm)))
      | false =>
        obtain ⟨b2, h2, h⟩ := Except.bind_eq_ok.1 h
        cases b2 with
        | false =>
          cases h
          exact .other hct h1 h2
        | true =>
          have hencoded : sip.contentType = some encodedType :=
            hct.trans (congrArg some (of_decide_eq_true (mediaType_is_ok h2).symm))
          obtain ⟨rp, hrp, h⟩ := Except.bind_eq_ok.1 h
          cases rp with
          | none =>
            cases h
            exact .noRPData hencoded hrp
          | some rp =>
            obtain ⟨tl, htl, h⟩ := Except.bind_eq_ok.1 h
            cases tl with
            | none =>
              cases h
              exact .noTPDU hencoded hrp htl
            | some tl =>
              cases h
              exact .encoded hencoded hrp htl
  · intro h
    unfold parseContent
    cases h with
    | missing hct =>
      rw [hct]
      rfl
    | plain hct =>
      rw [hct]
      dsimp only
      rw [plainType_is_plain]
      rfl
    | noRPData hct hrp =>
      rw [hct]
      dsimp only
      rw [encodedType_is_plain, Except.ok_bind, if_neg (by simp), encodedType_is_encoded,
        Except.ok_bind, if_pos rfl, hrp]
      rfl
    | noTPDU hct hrp htl =>
      rw [hct]
      dsimp only
      rw [encodedType_is_plain, Except.ok_bind, if_neg (by simp), encodedType_is_encoded,
        Except.ok_bind, if_pos rfl, hrp, Except.ok_bind]
      dsimp only
      rw [htl]
      rfl
    | encoded hct hrp htl =>
      rw [hct]
      dsimp only
      rw [encodedType_is_plain, Except.ok_bind, if_neg (by simp), encodedType_is_encoded,
        Except.ok_bind, if_pos rfl, hrp, Except.ok_bind]
      dsimp only
      rw [htl]
      rfl
    | other hct hplain hencoded =>
      rw [hct]
      dsimp only
      rw [hplain, Except.ok_bind, if_neg (by simp), hencoded, Except.ok_bind, if_neg (by simp)]
      rfl

/-- The content of a text is parsed without regard to the message. -/
theorem parseContent_ok {b : Bool} (h : parseContent lib m text sip = .ok (b, m')) :
    SameContentBut m m' ∧ ∀ m0, ∃ m1, parseContent lib m0 text sip = .ok (b, m1) := by
  cases parseContent_iff.1 h with
  | missing hct => exact ⟨⟨_, _, _, rfl⟩, fun m0 => ⟨_, parseContent_iff.2 (.missing hct)⟩⟩
  | plain hct => exact ⟨⟨_, _, _, rfl⟩, fun m0 => ⟨_, parseContent_iff.2 (.plain hct)⟩⟩
  | noRPData hct hrp =>
    exact ⟨⟨_, _, _, rfl⟩, fun m0 => ⟨_, parseContent_iff.2 (.noRPData hct hrp)⟩⟩
  | noTPDU hct hrp htl =>
    exact ⟨⟨_, _, _, rfl⟩, fun m0 => ⟨_, parseContent_iff.2 (.noTPDU hct hrp htl)⟩⟩
  | encoded hct hrp htl =>
    exact ⟨⟨_, _, _, rfl⟩, fun m0 => ⟨_, parseContent_iff.2 (.encoded hct hrp htl)⟩⟩
  | other hct hplain hencoded =>
    exact ⟨⟨_, _, _, rfl⟩, fun m0 => ⟨_, parseContent_iff.2 (.other hct hplain hencoded)⟩⟩

/-- Parsing changes the tree and what is read off it, and leaves the text alone. -/
def SameTextBut (m m' : ShortMsg) : Prop :=
  ∃ sip valid ct rp tl, m' = { m with
    parsed := sip, parsedIsValid := valid, parsedIsBetter := false, contentType := ct, rpData := rp,
    tlMessage := tl }

theorem parse_of_no_text (hv : m.parsedIsValid = false) (ht : m.text = none) :
    m.parse lib = .ok (false, { m with
      rpData := none, tlMessage := none, contentType := .unsupportedContent, parsed := none,
      parsedIsValid := false, parsedIsBetter := false }) := by
  unfold ShortMsg.parse
  rw [if_neg (by simp [hv]), unparse_of_not_valid hv, Except.ok_bind, ht]
  rfl

/-- A text that is no SIP message leaves the message without a tree. -/
theorem parse_of_rejected (hv : m.parsedIsValid = false) (ht : m.text = some text)
    (hp : lib.messageParse (buffer text m.textLength) = none) :
    m.parse lib = .ok (false, { m with
      rpData := none, tlMessage := none, contentType := .unsupportedContent, parsed := none,
      parsedIsValid := false, parsedIsBetter := false }) := by
  unfold ShortMsg.parse
  rw [if_neg (by simp [hv]), unparse_of_not_valid hv, Except.ok_bind]
  dsimp only
  rw [ht]
  dsimp only
  rw [hp]
  rfl

/-- The content of a text that is a SIP message is parsed, too. -/
theorem parse_of_accepted (hv : m.parsedIsValid = false) (ht : m.text = some text)
    (hp : lib.messageParse (buffer text m.textLength) = some sip) :
    m.parse lib = parseContent lib { m with
      rpData := none, tlMessage := none, contentType := .unsupportedContent, parsed := some sip,
      parsedIsValid := true, parsedIsBetter := false } text sip := by
  unfold ShortMsg.parse
  rw [if_neg (by simp [hv]), unparse_of_not_valid hv, Except.ok_bind]
  dsimp only
  rw [ht]
  dsimp only
  rw [hp]

/-- The content is parsed only when the tree is marked as valid. -/
theorem parse_accepted_valid {ok : Bool} (hv : m.parsedIsValid = false) (ht : m.text = some text)
    (hp : lib.messageParse (buffer text m.textLength) = some sip)
    (h : m.parse lib = .ok (ok, m')) : m'.parsedIsValid = true := by
  rw [parse_of_accepted hv ht hp] at h
  obtain ⟨⟨ct, rp, tl, rfl⟩, -⟩ := parseContent_ok h
  rfl

/-- A message that was parsed is not parsed again. -/
theorem parse_of_valid (h : m.parsedIsValid = true) : m.parse lib = .ok (true, m) := by
  unfold ShortMsg.parse
  rw [if_pos h]
  rfl

/-- A message that could be parsed holds its tree. -/
theorem parse_valid (h : m.parse lib = .ok (true, m')) : m'.parsedIsValid = true := by
  cases hv : m.parsedIsValid with
  | true =>
    rw [parse_of_valid hv] at h
    cases h
    exact hv
  | false =>
    cases ht : m.text with
    | none =>
      rw [parse_of_no_text hv ht] at h
      cases h
    | some text =>
      cases hp : lib.messageParse (buffer text m.textLength) with
      | none =>
        rw [parse_of_rejected hv ht hp] at h
        cases h
      | some sip => exact parse_accepted_valid hv ht hp h

/-- The outcome of parsing a message without a tree. -/
theorem parse_ok {b : Bool} (hv : m.parsedIsValid = false) (h : m.parse lib = .ok (b, m')) :
    SameTextBut m m' ∧ (m'.parsedIsValid = true → ∃ text sip, m.text = some text ∧
      lib.messageParse (buffer text m.textLength) = some sip ∧ m'.parsed = some sip ∧
        ∃ m1, parseContent lib {} text sip = .ok (b, m1)) := by
  cases ht : m.text with
  | none =>
    rw [parse_of_no_text hv ht] at h
    cases h
    refine ⟨⟨_, _, _, _, _, rfl⟩, fun h => ?_⟩
    cases h
  | some text =>
    cases hp : lib.messageParse (buffer text m.textLength) with
    | none =>
      rw [parse_of_rejected hv ht hp] at h
      cases h
      refine ⟨⟨_, _, _, _, _, rfl⟩, fun h => ?_⟩
      cases h
    | some sip =>
      rw [parse_of_accepted hv ht hp] at h
      obtain ⟨⟨ct, rp, tl, rfl⟩, hcontent⟩ := parseContent_ok h
      exact ⟨⟨_, _, _, _, _, rfl⟩, fun _ => ⟨text, sip, rfl, hp, rfl, hcontent {}⟩⟩

end ShortMsg

end Smqueue

import Smqueue.ParseFailures
import Smqueue.Proofs.ReadErrorsProofs

/-!
# Proofs: parses that fail

`parse` fails in three places. In the first two there is no text or no SIP message in it, and the
message stays without a tree; the third one is behind the SIP parser.
-/

namespace Smqueue

/-- Only a whole first octet of another type gives no message. -/
theorem parseTPDU_none_iff {tpdu : List Bool} :
    parseTPDU tpdu = .ok none ↔ ShortMsg.OtherTpdu tpdu := by
  constructor
  · intro h
    by_cases h8 : 8 ≤ tpdu.length
    · refine ⟨h8, fun hmti => ?_⟩
      rw [parseTPDU_submit h8 hmti] at h
      cases hs : TLSubmit.parse tpdu with
      | error e =>
        rw [hs] at h
        cases h
      | ok s =>
        rw [hs] at h
        cases h
    · rw [parseTPDU_short h8] at h
      cases h
  · rintro ⟨h8, hmti⟩
    exact parseTPDU_other h8 hmti

namespace ShortMsg

variable {lib : Libs} {m m' : ShortMsg} {text : CString} {sip : SipMessage}

/-! ## The content of a message -/

/-- A TPDU of another type is the only content that fails to parse without an exception. -/
theorem parseContent_false_iff : (∃ m', parseContent lib m text sip = .ok (false, m')) ↔
    sip.contentType = some encodedType ∧ ∃ rp, decodeRPData lib text sip = .ok (some rp) ∧
      OtherTpdu (Frame.develop (fun _ => false) rp.tpdu) := by
  constructor
  · rintro ⟨m', h⟩
    cases parseContent_iff.1 h with
    | @noTPDU rp hct hrp htl => exact ⟨hct, rp, hrp, parseTPDU_none_iff.1 htl⟩
  · rintro ⟨hct, rp, hrp, hother⟩
    exact ⟨_, parseContent_iff.2 (.noTPDU hct hrp (parseTPDU_none_iff.2 hother))⟩

/-! ## The message -/

/-- A parse that fails in front of the content can be repeated: the text is still there. -/
theorem parse_repeats_rejected (hv : m.parsedIsValid = false)
    (hreject : ∀ text, m.text = some text → lib.messageParse (buffer text m.textLength) = none)
    (h : m.parse lib = .ok (false, m')) :
    m'.parsedIsValid = false ∧ m'.parse lib = .ok (false, m') := by
  cases ht : m.text with
  | none =>
    rw [parse_of_no_text hv ht] at h
    cases h
    exact ⟨rfl, parse_of_no_text rfl ht⟩
  | some text =>
    rw [parse_of_rejected hv ht (hreject text ht)] at h
    cases h
    exact ⟨rfl, parse_of_rejected rfl ht (hreject text ht)⟩

/-- A parse that fails behind the SIP parser leaves a message that parses. -/
theorem parse_of_otherTpdu {tpdu : List Bool} (hc : m.CarriesTpdu lib tpdu) (ho : OtherTpdu tpdu) :
    ∃ m', m.parse lib = .ok (false, m') ∧ m'.parsedIsValid = true ∧
      m'.parse lib = .ok (true, m') := by
  obtain ⟨hv, text, sip, rp, ht, hp, hct, hrp, rfl⟩ := hc
  have hfalse : ∃ m', m.parse lib = .ok (false, m') := by
    rw [parse_of_accepted hv ht hp, parseContent_false_iff]
    exact ⟨hct, rp, hrp, ho⟩
  obtain ⟨m', h⟩ := hfalse
  have hv' := parse_accepted_valid hv ht hp h
  exact ⟨m', h, hv', parse_of_valid hv'⟩

/-- A failed parse leaves the message without a tree, and a parse has the same result again, exactly
unless the message carries a TPDU of another type than SMS-SUBMIT. -/
theorem parseIsRepeatable_iff (lib : Libs) (m : ShortMsg) :
    m.ParseIsRepeatable lib ↔ ¬ ∃ tpdu, m.CarriesTpdu lib tpdu ∧ OtherTpdu tpdu := by
  constructor
  · rintro hrep ⟨tpdu, hc, ho⟩
    obtain ⟨m', h, hv', -⟩ := parse_of_otherTpdu hc ho
    have hvalid := (hrep false m' h).1 rfl
    rw [hv'] at hvalid
    cases hvalid
  · intro hno ok m' h
    cases ok with
    | true =>
      -- there is a tree then, which is not parsed again
      refine ⟨fun hfalse => ?_, m', parse_of_valid (parse_valid h)⟩
      cases hfalse
    | false =>
      have hv : m.parsedIsValid = false := by
        by_contra hv
        rw [parse_of_valid (by simpa using hv)] at h
        cases h
      have hreject : ∀ text, m.text = some text →
          lib.messageParse (buffer text m.textLength) = none := by
        intro text ht
        by_contra hp
        obtain ⟨sip, hp⟩ := Option.ne_none_iff_exists'.1 hp
        have hcontent := h
        rw [parse_of_accepted hv ht hp] at hcontent
        obtain ⟨hct, rp, hrp, ho⟩ := parseContent_false_iff.1 ⟨m', hcontent⟩
        exact hno ⟨_, ⟨hv, text, sip, rp, ht, hp, hct, hrp, rfl⟩, ho⟩
      obtain ⟨hv', hagain⟩ := parse_repeats_rejected hv hreject h
      exact ⟨fun _ => hv', m', hagain⟩

/-- An encoded message whose TPDU is an SMS-COMMAND. -/
def commandTpduSip : SipMessage :=
  { sampleRequest with
    contentType := some ⟨some (str "application"), some (str "vnd.3gpp.sms")⟩
    contentLength := some (some (str "16")), bodies := [str "0001000003020000"] }

/-- The parse of an SMS-COMMAND fails, and the message is taken for a parsed one. -/
theorem not_parseIsRepeatable :
    ¬ ∀ (lib : Libs) (m : ShortMsg) (ok : Bool) (m' : ShortMsg), m.parse lib = .ok (ok, m') →
      (ok = false → m'.parsedIsValid = false) ∧ ∃ m'', m'.parse lib = .ok (ok, m'') := by
  intro hall
  have hrun : ((receivedMsg commandTpduSip).parse (sampleLibs [commandTpduSip] [])).map
      (fun r => (r.1, r.2.parsedIsValid)) = .ok (false, true) := by decide +kernel
  obtain ⟨⟨ok, m'⟩, h, hflags⟩ := Except.map_eq_ok.1 hrun
  obtain ⟨rfl, hv'⟩ := Prod.mk.inj hflags
  have hvalid := (hall _ _ _ _ h).1 rfl
  dsimp only at hv'
  rw [hv'] at hvalid
  cases hvalid

end ShortMsg

end Smqueue

import Smqueue.Validation
import Smqueue.SampleLibs
import Smqueue.Proofs.ShortMsgProofs

/-!
# Proofs: validation and missing parts

The tag of a message is the only thing that is made of unchecked parts of its tree.
-/

namespace Smqueue

variable {lib : Libs} {env : Env} {s : Settings} {m m' : ShortMsgPending} {p : SipMessage}

namespace ShortMsgPending

/-! ## The checks -/

theorem isCode_ite {c : Prop} [Decidable c] {a b : Int} (ha : IsCode a) (hb : IsCode b) :
    IsCode (if c then a else b) := by
  split
  · exact ha
  · exact hb

theorem checkResponse_isCode (p : SipMessage) : IsCode (checkResponse p) := by
  have h0 : IsCode 0 := .inl rfl
  have h400 : IsCode 400 := .inr ⟨by omega, by omega⟩
  unfold checkResponse
  refine isCode_ite h400 ?_
  split
  · exact isCode_ite h400 (isCode_ite h400 (isCode_ite h400 h0))
  · exact isCode_ite h400 h0

theorem checkRequest_isCode (p : SipMessage) : IsCode (checkRequest p) := by
  have h0 : IsCode 0 := .inl rfl
  have hcode : ∀ c : Int, 400 ≤ c → c < 700 → IsCode c := fun c h h' => .inr ⟨h, h'⟩
  unfold checkRequest
  split
  · exact hcode _ (by omega) (by omega)
  · refine isCode_ite (hcode _ (by omega) (by omega)) ?_
    refine isCode_ite (hcode _ (by omega) (by omega)) ?_
    refine isCode_ite (hcode _ (by omega) (by omega)) ?_
    refine isCode_ite (hcode _ (by omega) (by omega)) ?_
    refine isCode_ite ?_ (isCode_ite (isCode_ite (hcode _ (by omega) (by omega)) h0)
      (hcode _ (by omega) (by omega)))
    refine isCode_ite (hcode _ (by omega) (by omega)) ?_
    refine isCode_ite (hcode _ (by omega) (by omega)) ?_
    refine isCode_ite (hcode _ (by omega) (by omega)) ?_
    exact isCode_ite (hcode _ (by omega) (by omega)) h0

theorem checkCommon_isCode (p : SipMessage) : IsCode (checkCommon p) := by
  have h0 : IsCode 0 := .inl rfl
  have h400 : IsCode 400 := .inr ⟨by omega, by omega⟩
  have h415 : IsCode 415 := .inr ⟨by omega, by omega⟩
  unfold checkCommon
  exact isCode_ite h400 (isCode_ite h400 (isCode_ite h415 (isCode_ite h400 h0)))

theorem checkParsed_isCode (p : SipMessage) : IsCode (checkParsed p) := by
  have h400 : IsCode 400 := .inr ⟨by omega, by omega⟩
  unfold checkParsed
  refine isCode_ite h400 (isCode_ite (isCode_ite ?_ ?_) (checkCommon_isCode p))
  · exact checkResponse_isCode p
  · exact checkRequest_isCode p

theorem checkCommon_eq_zero_iff : checkCommon p = 0 ↔
    p.callId.isSome = true ∧ (p.fromHeader.bind NameAddr.url).isSome = true ∧
      p.mimeVersion.any (· ≠ some (str "1.0")) = false ∧ toHeaderOk p = true := by
  unfold checkCommon
  rw [Option.isSome_iff_ne_none, Option.isSome_iff_ne_none, Ne, Ne, ← Option.isNone_iff_eq_none,
    ← Option.isNone_iff_eq_none]
  constructor
  · intro h
    split at h
    · cases h
    · split at h
      · cases h
      · split at h
        · cases h
        · rename_i hmime
          split at h
          · cases h
          · rename_i hid hfrom hto
            exact ⟨hid, hfrom, Bool.eq_false_iff.2 hmime, by simpa using hto⟩
  · rintro ⟨hid, hfrom, hmime, hto⟩
    rw [if_neg hid, if_neg hfrom, hmime, hto]
    rfl

theorem checkCommon_of_checkParsed (h : checkParsed p = 0) : checkCommon p = 0 := by
  unfold checkParsed at h
  dsimp only at h
  by_cases hversion : p.sipVersion ≠ some (str "SIP/2.0")
  · rw [if_pos hversion] at h
    cases h
  · rw [if_neg hversion] at h
    by_cases hkind : (if p.isResponse = true then checkResponse p else checkRequest p) ≠ 0
    · rw [if_pos hkind] at h
      exact absurd h hkind
    · rw [if_neg hkind] at h
      exact h

/-- A message that passes all checks has a Call-ID, a From header with an address and a To header with
a user. -/
theorem parts_of_checkParsed (h : checkParsed p = 0) :
    p.callId.isSome = true ∧ (∃ f u, p.fromHeader = some f ∧ f.url = some u) ∧
      ∃ t u user, p.toHeader = some t ∧ t.url = some u ∧ u.username = some user := by
  obtain ⟨hid, hfrom, -, hto⟩ := checkCommon_eq_zero_iff.1 (checkCommon_of_checkParsed h)
  obtain ⟨u, hfu⟩ := Option.isSome_iff_exists.1 hfrom
  obtain ⟨f, hf, hu⟩ := Option.bind_eq_some_iff.1 hfu
  unfold toHeaderOk at hto
  obtain ⟨url, htu, hurl⟩ := (Option.any_eq_true _ _).1 hto
  obtain ⟨t, ht, hurl'⟩ := Option.bind_eq_some_iff.1 htu
  simp only [Bool.and_eq_true] at hurl
  obtain ⟨user, huser⟩ := Option.isSome_iff_exists.1 hurl.2
  exact ⟨hid, ⟨f, u, hf, hu⟩, t, url, user, ht, hurl', huser⟩

/-! ## The tag -/

/-- `set_qtag` of a message whose Call-ID and From header are there. -/
theorem setQtag_apply {f : NameAddr} (hv : m.parsedIsValid = true) (hp : m.parsed = some p)
    (hf : p.fromHeader = some f) (hid : p.callId.isSome = true) :
    m.setQtag lib =
      match p.cseq with
      | none => .ok (402, m)
      | some cseq => do
        let number ← deref cseq.number
        let tag ← deref (tagParam f.params)
        let qtag := number ++ str "--" ++ tag
        return (0, { m with qtag := some qtag, qtaghash := taghashOf qtag }) := by
  have hnone : ¬ p.callId.isNone = true := by
    cases hc : p.callId with
    | none => simp [hc] at hid
    | some c => simp
  unfold setQtag
  rw [ShortMsg.parse_of_valid hv]
  change (deref m.parsed >>= fun p => _) = _
  rw [hp, deref_some, Except.ok_bind, hf]
  dsimp only
  rw [if_neg hnone]
  cases p.cseq <;> rfl

/-- The parts that `set_qtag` follows are there exactly if it returns. -/
theorem setQtag_safe_iff {f : NameAddr} (hv : m.parsedIsValid = true) (hp : m.parsed = some p)
    (hf : p.fromHeader = some f) (hid : p.callId.isSome = true) :
    (∃ code m', m.setQtag lib = .ok (code, m') ∧ IsCode code ∧
        (code = 0 → m'.qtag = some (tagOf p))) ↔
      (p.cseq.isSome = true → (cseqNumberOf p).isSome = true ∧ (fromTag p).isSome = true) := by
  rw [setQtag_apply hv hp hf hid]
  have htag : fromTag p = tagParam f.params := by
    unfold fromTag
    rw [hf]
    rfl
  unfold tagOf
  rw [htag]
  unfold cseqNumberOf
  cases hc : p.cseq with
  | none =>
    refine iff_of_true ⟨402, m, rfl, .inr ⟨by omega, by omega⟩, fun h => ?_⟩ fun h => ?_
    · cases h
    · cases h
  | some cseq =>
    dsimp only [Option.bind_some]
    cases hn : cseq.number with
    | none =>
      refine iff_of_false ?_ fun h => ?_
      · rintro ⟨code, m', h, -⟩
        cases h
      · cases (h rfl).1
    | some number =>
      cases ht : tagParam f.params with
      | none =>
        refine iff_of_false ?_ fun h => ?_
        · rintro ⟨code, m', h, -⟩
          cases h
        · cases (h rfl).2
      | some tag => exact iff_of_true ⟨_, _, rfl, .inl rfl, fun _ => rfl⟩ fun _ => ⟨rfl, rfl⟩

/-! ## The whole validation -/

/-- The validation of a message whose tree was parsed. -/
theorem validateShortMsg_apply {early : Bool} {sm : ShortMsg}
    (hparse : m.toShortMsg.parse lib = .ok (true, sm)) (hp : sm.parsed = some p)
    (hlog : logsMissingFrom s p = false) :
    m.validateShortMsg lib s env early =
      if checkParsed p ≠ 0 then .ok (checkParsed p, { m with toShortMsg := sm })
      else if passesEarlyCheck s env m p early = true then
        ({ m with toShortMsg := { sm with
            fromRelay := early && arrivedFromRelay s env m p || sm.fromRelay } } :
          ShortMsgPending).setQtag lib
      else .ok (404, { m with toShortMsg := sm }) := by
  obtain ⟨text, textLength, valid, better, parsed, ct, convert, rp, tl, msToSc, repack, relay⟩ := sm
  dsimp only at hp
  subst hp
  have hrelay : ∀ sm, arrivedFromRelay s env { m with toShortMsg := sm } p =
      arrivedFromRelay s env m p := fun _ => rfl
  unfold validateShortMsg
  rw [hparse]
  dsimp only [Bind.bind, Except.bind]
  rw [hlog, if_neg (by decide), if_neg (by decide), hrelay]
  by_cases hc : checkParsed p ≠ 0
  · rw [if_pos hc, if_pos hc]
    rfl
  · rw [if_neg hc, if_neg hc]
    obtain ⟨-, -, t, u, user, ht, hu, hn⟩ := parts_of_checkParsed (not_not.1 hc)
    unfold passesEarlyCheck
    rw [ht, Option.bind_some, hu, Option.bind_some, hn]
    by_cases hearly : (early && arrivedFromRelay s env m p) = true
    · rw [if_pos hearly, hearly]
      have huser : p.toUsername = .ok (some user) := by
        unfold SipMessage.toUsername
        rw [ht]
        change (deref t.url >>= fun u => pure u.username) = _
        rw [hu]
        exact congrArg Except.ok hn
      rw [huser]
      dsimp only [deref, Option.elim]
      cases htd : toIsDeliverable s env.hlr user with
      | false => simp [htd, Pure.pure, Except.pure]
      | true => simp [htd]
    · have hfalse : (early && arrivedFromRelay s env m p) = false := by simpa using hearly
      rw [if_neg hearly, hfalse]
      simp

/-- The outcome of `set_qtag` for a message whose tree is there. -/
theorem setQtag_ok {code : Int} (hv : m.parsedIsValid = true) (h : m.setQtag lib = .ok (code, m')) :
    (∃ tag hash, m' = { m with qtag := tag, qtaghash := hash }) ∧ (code ≠ 0 → m' = m) ∧
      (code = 0 → ∃ p, m.parsed = some p ∧ m'.qtag = some (tagOf p) ∧
        m'.qtaghash = taghashOf (tagOf p) ∧ (cseqNumberOf p).isSome = true ∧
          (fromTag p).isSome = true) := by
  unfold setQtag at h
  rw [ShortMsg.parse_of_valid hv] at h
  change (deref m.parsed >>= fun p => _) = _ at h
  obtain ⟨p, hp, h⟩ := Except.bind_eq_ok.1 h
  have hp' : m.parsed = some p := deref_eq_ok hp
  have hsame : ∃ tag hash, m = { m with qtag := tag, qtaghash := hash } := ⟨m.qtag, m.qtaghash, rfl⟩
  cases hf : p.fromHeader with
  | none =>
    simp only [hf] at h
    cases h
    exact ⟨hsame, fun _ => rfl, fun h => nomatch h⟩
  | some f =>
    simp only [hf] at h
    by_cases hid : p.callId.isNone = true
    · rw [if_pos hid] at h
      cases h
      exact ⟨hsame, fun _ => rfl, fun h => nomatch h⟩
    · rw [if_neg hid] at h
      cases hc : p.cseq with
      | none =>
        simp only [hc] at h
        cases h
        exact ⟨hsame, fun _ => rfl, fun h => nomatch h⟩
      | some cseq =>
        simp only [hc] at h
        obtain ⟨number, hn, h⟩ := Except.bind_eq_ok.1 h
        obtain ⟨tag, ht, h⟩ := Except.bind_eq_ok.1 h
        cases h
        have hnumber : cseqNumberOf p = some number := by
          unfold cseqNumberOf
          rw [hc, Option.bind_some, deref_eq_ok hn]
        have hfrom : fromTag p = some tag := by
          unfold fromTag
          rw [hf, Option.bind_some, deref_eq_ok ht]
        have htag : tagOf p = number ++ str "--" ++ tag := by
          unfold tagOf
          rw [hnumber, hfrom]
          rfl
        refine ⟨⟨_, _, rfl⟩, fun h => absurd rfl h, fun _ => ⟨p, hp', ?_, ?_, ?_, ?_⟩⟩
        · rw [htag]
        · rw [htag]
        · rw [hnumber]
          rfl
        · rw [hfrom]
          rfl

/-- What a message that passed validation is like. -/
structure Validated (lib : Libs) (m : ShortMsgPending) (sm : ShortMsg) (m' : ShortMsgPending) :
    Prop where
  parse : m.toShortMsg.parse lib = .ok (true, sm)
  tree : ∃ p, sm.parsed = some p ∧ checkParsed p = 0 ∧ m'.qtag = some (tagOf p) ∧
    m'.qtaghash = taghashOf (tagOf p) ∧ (cseqNumberOf p).isSome = true ∧ (fromTag p).isSome = true
  same : ∃ relay tag hash, m' = { m with
    toShortMsg := { sm with fromRelay := relay }, qtag := tag, qtaghash := hash }

theorem validated_of_ok {early : Bool} (h : m.validateShortMsg lib s env early = .ok (0, m')) :
    ∃ sm, Validated lib m sm m' := by
  have h0 := h
  unfold validateShortMsg at h
  obtain ⟨⟨ok, sm⟩, hparse, h⟩ := Except.bind_eq_ok.1 h
  cases ok with
  | false => cases h
  | true =>
    dsimp only at h
    rw [if_neg (by decide)] at h
    cases hp : sm.parsed with
    | none =>
      simp only [hp] at h
      cases h
    | some p =>
      simp only [hp] at h
      by_cases hlog : logsMissingFrom s p = true
      · rw [if_pos hlog] at h
        cases h
      · have hlog' : logsMissingFrom s p = false := by simpa using hlog
        rw [validateShortMsg_apply hparse hp hlog'] at h0
        by_cases hc : checkParsed p ≠ 0
        · rw [if_pos hc] at h0
          have hcode := (Prod.mk.inj (Except.ok.inj h0)).1
          exact absurd hcode hc
        · rw [if_neg hc] at h0
          by_cases hearly : passesEarlyCheck s env m p early = true
          · rw [if_pos hearly] at h0
            obtain ⟨⟨tag, hash, hm'⟩, -, htree⟩ := setQtag_ok (ShortMsg.parse_valid hparse :) h0
            obtain ⟨p', hp', hparts⟩ := htree rfl
            have hpp : p' = p := by
              rw [show sm.parsed = some p' from hp'] at hp
              exact Option.some.inj hp
            subst hpp
            exact ⟨sm, hparse, ⟨p', hp, not_not.1 hc, hparts⟩, ⟨_, tag, hash, hm'⟩⟩
          · rw [if_neg hearly] at h0
            cases h0

theorem validatesSafely_parsed_iff {shouldEarlyCheck : Bool} {sm : ShortMsg}
    (hparse : m.toShortMsg.parse lib = .ok (true, sm)) (hp : sm.parsed = some p) :
    ValidatesSafely lib s env m shouldEarlyCheck p ↔ PartsPresent s env m shouldEarlyCheck p := by
  by_cases hlog : logsMissingFrom s p = true
  · refine iff_of_false ?_ fun h => ?_
    · rintro ⟨code, m', h, -⟩
      unfold validateShortMsg at h
      rw [hparse, Except.ok_bind] at h
      dsimp only at h
      rw [hp] at h
      dsimp only at h
      rw [if_pos hlog] at h
      cases h
    · rw [h.logged] at hlog
      cases hlog
  · have hlog' : logsMissingFrom s p = false := by simpa using hlog
    have hparts : PartsPresent s env m shouldEarlyCheck p ↔
        (checkParsed p = 0 → passesEarlyCheck s env m p shouldEarlyCheck = true →
          p.cseq.isSome = true → (cseqNumberOf p).isSome = true ∧ (fromTag p).isSome = true) :=
      ⟨fun h => h.tagged, fun h => ⟨hlog', h⟩⟩
    rw [hparts]
    unfold ValidatesSafely
    rw [validateShortMsg_apply hparse hp hlog']
    by_cases hc : checkParsed p ≠ 0
    · rw [if_pos hc]
      exact iff_of_true ⟨_, _, rfl, checkParsed_isCode p, fun h => absurd h hc⟩
        fun h => absurd h hc
    · rw [if_neg hc]
      have hc0 := not_not.1 hc
      by_cases hearly : passesEarlyCheck s env m p shouldEarlyCheck = true
      · rw [if_pos hearly]
        obtain ⟨hid, ⟨f, -, hf, -⟩, -⟩ := parts_of_checkParsed hc0
        refine (setQtag_safe_iff (ShortMsg.parse_valid hparse :) hp hf hid).trans ?_
        exact ⟨fun h _ _ => h, fun h => h hc0 hearly⟩
      · rw [if_neg hearly]
        refine iff_of_true ⟨404, _, rfl, .inr ⟨by omega, by omega⟩, fun h => ?_⟩
          fun _ h => absurd h hearly
        cases h

/-- A message with the tree `p` is validated without following a null pointer exactly if the parser of
the content fails or the parts of the tree that are read unchecked are there. -/
theorem validatesSafely_iff (lib : Libs) (s : Settings) (env : Env) (m : ShortMsgPending)
    (shouldEarlyCheck : Bool) (ok : Bool) (sm : ShortMsg) (p : SipMessage)
    (hparse : m.toShortMsg.parse lib = .ok (ok, sm)) (hp : sm.parsed = some p) :
    ValidatesSafely lib s env m shouldEarlyCheck p ↔
      (ok = true → PartsPresent s env m shouldEarlyCheck p) := by
  cases ok with
  | true =>
    rw [validatesSafely_parsed_iff hparse hp]
    exact ⟨fun h _ => h, fun h => h rfl⟩
  | false =>
    have hrun : m.validateShortMsg lib s env shouldEarlyCheck =
        .ok (400, { m with toShortMsg := sm }) := by
      unfold validateShortMsg
      rw [hparse]
      rfl
    refine iff_of_true ⟨400, _, hrun, .inr ⟨by omega, by omega⟩, fun h => ?_⟩ fun h => ?_
    · cases h
    · cases h

/-- A request without a From tag. -/
def untaggedSip : SipMessage :=
  { sampleRequest with fromHeader := some ⟨none, some (sampleUri (str "+15550001") none), []⟩ }

/-- A message that was parsed to a tree. -/
def treeMsg (sip : SipMessage) : ShortMsgPending where
  parsedIsValid := true
  parsed := some sip
  id := 0

/-- A request with a From tag has the parts that are read. -/
theorem validatesSafely_sample :
    ValidatesSafely (sampleLibs [] []) {} (sampleEnv 0) (treeMsg sampleRequest) true sampleRequest :=
  (validatesSafely_iff (sampleLibs [] []) {} (sampleEnv 0) (treeMsg sampleRequest) true true
    (treeMsg sampleRequest).toShortMsg sampleRequest rfl rfl).2
      fun _ => ⟨by decide, fun _ _ _ => by decide⟩

/-- The missing From tag of a message that passes all checks is followed. -/
theorem not_validatesSafely_untagged : ¬ ∀ (lib : Libs) (s : Settings) (env : Env)
    (m : ShortMsgPending) (shouldEarlyCheck : Bool) (ok : Bool) (sm : ShortMsg) (p : SipMessage),
    m.toShortMsg.parse lib = .ok (ok, sm) → sm.parsed = some p →
      ValidatesSafely lib s env m shouldEarlyCheck p := by
  intro hall
  obtain ⟨code, m', h, -⟩ := hall (sampleLibs [] []) {} (sampleEnv 0) (treeMsg untaggedSip) true true
    (treeMsg untaggedSip).toShortMsg untaggedSip rfl rfl
  have hrun : (treeMsg untaggedSip).validateShortMsg (sampleLibs [] []) {} (sampleEnv 0) true =
      .error .nullPointer := by decide +kernel
  rw [hrun] at h
  cases h

end ShortMsgPending

end Smqueue

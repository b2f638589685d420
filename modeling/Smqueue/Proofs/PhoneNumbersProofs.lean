import Smqueue.PhoneNumbers
import Smqueue.SampleLibs

/-!
# Proofs: phone numbers
-/

namespace Smqueue

namespace SMq

variable {env : Env} {imsi text number : CString} {st : NumberScan} {c : UInt8}

/-! ## Characters -/

theorem not_separator (h : isdigit c = true ∨ c = 43) : c ∉ separators := by
  intro hc
  simp only [separators, List.mem_cons, List.not_mem_nil, or_false] at hc
  rcases hc with rfl | rfl | rfl | rfl | rfl | rfl <;> revert h <;> decide

theorem numberText_cons_separator (h : c ∈ separators) (cs : CString) :
    numberText (c :: cs) = numberText cs := by
  unfold numberText
  rw [List.filter_cons_of_neg (by simpa using h)]

theorem numberText_cons (h : c ∉ separators) (cs : CString) :
    numberText (c :: cs) = c :: numberText cs := by
  unfold numberText
  rw [List.filter_cons_of_pos (by simpa using h)]

/-! ## The loop -/

/-- Nothing of the number was read. -/
def atStart (st : NumberScan) : Bool := st.seendig = 0 && !st.seenplus

/-- What may follow what was read. -/
def continues (st : NumberScan) (number : CString) : Bool :=
  if atStart st then isNumberText number else number.all isdigit

theorem scanNumber_of_bad (h : st.bad ≠ none) (cs : CString) : (scanNumber st cs).bad ≠ none := by
  cases cs with
  | nil => exact h
  | cons c cs =>
    rw [scanNumber, if_pos (Option.isSome_iff_ne_none.2 h)]
    exact h

/-- One turn of the loop for each kind of character. -/
theorem scanNumberChar_digit (h : isdigit c = true) : scanNumberChar st c =
    { st with phonenum := st.phonenum ++ [c], seendig := st.seendig + 1 } := by
  unfold scanNumberChar
  rw [if_pos h]

theorem scanNumberChar_plus (h : atStart st = true) : scanNumberChar st 43 =
    { st with phonenum := st.phonenum ++ [43], seenplus := true } := by
  unfold scanNumberChar
  rw [if_neg (by decide), if_pos rfl]
  exact if_pos h

theorem scanNumberChar_separator (h : c ∈ separators) : scanNumberChar st c =
    { st with exclaim := st.exclaim + if c = 33 then 1 else 0 } := by
  simp only [separators, List.mem_cons, List.not_mem_nil, or_false] at h
  rcases h with rfl | rfl | rfl | rfl | rfl | rfl <;> rfl

theorem scanNumberChar_bad (hdigit : isdigit c = false) (hplus : c = 43 → atStart st = false)
    (hsep : c ∉ separators) : (scanNumberChar st c).bad ≠ none := by
  unfold scanNumberChar
  rw [if_neg (by simp [hdigit])]
  by_cases hc : c = 43
  · rw [if_pos hc]
    have := hplus hc
    unfold atStart at this
    rw [if_neg (by simp [this])]
    exact Option.some_ne_none _
  · have hin : c ∉ [32, 40, 41, 13, 10] := fun h => hsep (List.mem_append_left [33] h)
    have hmark : c ≠ 33 := fun h => hsep (h ▸ by decide)
    rw [if_neg hc, if_neg hin, if_neg hmark]
    exact Option.some_ne_none _

/-- What the loop has read of a text with which nothing is wrong. -/
structure Scanned (st st' : NumberScan) (text : CString) : Prop where
  bad : st'.bad = none
  phonenum : st'.phonenum = st.phonenum ++ numberText text
  seendig : st'.seendig = st.seendig + (numberText text).countP isdigit
  exclaim : st'.exclaim = st.exclaim + text.count 33

theorem continues_digit (h : isdigit c = true) (number : CString) :
    continues st (c :: number) = continues { st with
      phonenum := st.phonenum ++ [c], seendig := st.seendig + 1 } number := by
  have hne : c ≠ 43 := by
    rintro rfl
    exact absurd h (by decide)
  have hdrop : dropPlus (c :: number) = c :: number := by
    unfold dropPlus
    split
    · rename_i heq
      exact absurd (List.cons.inj heq).1 hne
    · rfl
  have hall : (c :: number).all isdigit = number.all isdigit := by
    rw [List.all_cons, h, Bool.true_and]
  have hstart : atStart { st with phonenum := st.phonenum ++ [c], seendig := st.seendig + 1 } = false :=
    rfl
  unfold continues
  rw [hstart, if_neg Bool.false_ne_true]
  unfold isNumberText
  rw [hdrop, hall, ite_self]

theorem continues_plus (h : atStart st = true) (number : CString) :
    continues st (43 :: number) = continues { st with
      phonenum := st.phonenum ++ [43], seenplus := true } number := by
  have hstart : atStart { st with phonenum := st.phonenum ++ [43], seenplus := true } = false :=
    Bool.and_false _
  unfold continues
  rw [hstart, if_neg Bool.false_ne_true, if_pos h]
  rfl

theorem continues_bad (hdigit : isdigit c = false) (hplus : c = 43 → atStart st = false)
    (number : CString) : continues st (c :: number) = false := by
  have hall : (c :: number).all isdigit = false := by
    rw [List.all_cons, hdigit, Bool.false_and]
  unfold continues
  by_cases hs : atStart st = true
  · have hdrop : dropPlus (c :: number) = c :: number := by
      unfold dropPlus
      split
      · rename_i heq
        rw [hplus (List.cons.inj heq).1] at hs
        cases hs
      · rfl
    rw [if_pos hs]
    unfold isNumberText
    rw [hdrop, hall]
  · rw [if_neg hs, hall]

/-- The loop finds nothing wrong exactly with a text that goes on as a number, and reads the number. -/
theorem scanNumber_spec (text : CString) (st : NumberScan) (h : st.bad = none) :
    (continues st (numberText text) = true → Scanned st (scanNumber st text) text) ∧
      (continues st (numberText text) = false → (scanNumber st text).bad ≠ none) := by
  induction text generalizing st with
  | nil =>
    refine ⟨fun _ => ⟨h, (List.append_nil _).symm, rfl, rfl⟩, fun hfalse => ?_⟩
    unfold continues at hfalse
    split at hfalse <;> cases hfalse
  | cons c cs ih =>
    rw [scanNumber, if_neg (by rw [h]; decide)]
    by_cases hsep : c ∈ separators
    · rw [scanNumberChar_separator hsep, numberText_cons_separator hsep]
      obtain ⟨hgood, hbad⟩ := ih { st with exclaim := st.exclaim + if c = 33 then 1 else 0 } h
      refine ⟨fun hc => ?_, hbad⟩
      obtain ⟨h1, h2, h3, h4⟩ := hgood hc
      refine ⟨h1, ?_, ?_, ?_⟩
      · rw [h2, numberText_cons_separator hsep]
      · rw [h3, numberText_cons_separator hsep]
      · rw [h4, List.count_cons]
        simp only [beq_iff_eq]
        omega
    rw [numberText_cons hsep]
    have hmark : (c :: cs).count 33 = cs.count 33 := by
      rw [List.count_cons, if_neg]
      · rfl
      · simp only [beq_iff_eq]
        rintro rfl
        exact hsep (by decide)
    by_cases hdigit : isdigit c = true
    · rw [scanNumberChar_digit hdigit, continues_digit hdigit]
      obtain ⟨hgood, hbad⟩ := ih { st with
        phonenum := st.phonenum ++ [c], seendig := st.seendig + 1 } h
      refine ⟨fun hc => ?_, hbad⟩
      obtain ⟨h1, h2, h3, h4⟩ := hgood hc
      refine ⟨h1, ?_, ?_, by rw [h4, hmark]⟩
      · rw [h2, numberText_cons hsep, List.append_assoc, List.singleton_append]
      · rw [h3, numberText_cons hsep, List.countP_cons_of_pos hdigit]
        dsimp only
        omega
    by_cases hplus : c = 43 ∧ atStart st = true
    · obtain ⟨rfl, hstart⟩ := hplus
      rw [scanNumberChar_plus hstart, continues_plus hstart]
      obtain ⟨hgood, hbad⟩ := ih { st with phonenum := st.phonenum ++ [43], seenplus := true } h
      refine ⟨fun hc => ?_, hbad⟩
      obtain ⟨h1, h2, h3, h4⟩ := hgood hc
      refine ⟨h1, ?_, ?_, by rw [h4, hmark]⟩
      · rw [h2, numberText_cons hsep, List.append_assoc, List.singleton_append]
      · rw [h3, numberText_cons hsep, List.countP_cons_of_neg hdigit]
    · have hdigit' : isdigit c = false := Bool.eq_false_of_not_eq_true hdigit
      have hplus' : c = 43 → atStart st = false := fun hc =>
        Bool.eq_false_of_not_eq_true fun hs => hplus ⟨hc, hs⟩
      rw [continues_bad hdigit' hplus']
      exact ⟨nofun, fun _ => scanNumber_of_bad (scanNumberChar_bad hdigit' hplus' hsep) cs⟩

/-! ## The number that is registered -/

theorem digitsComplaint_eq_none {cfg : Config} : digitsComplaint cfg st = none ↔
    cfg.digitsOverride = true ∧ st.exclaim = 3 ∨
      cfg.digitsMin ≤ (st.seendig : Int) ∧ (st.seendig : Int) ≤ cfg.digitsMax := by
  have hguard : ((cfg.digitsOverride && st.exclaim = 3) ||
      !(st.seendig > cfg.digitsMax || st.seendig < cfg.digitsMin)) = true ↔
        cfg.digitsOverride = true ∧ st.exclaim = 3 ∨
          cfg.digitsMin ≤ (st.seendig : Int) ∧ (st.seendig : Int) ≤ cfg.digitsMax := by
    rw [Bool.or_eq_true, Bool.and_eq_true, decide_eq_true_eq, Bool.not_eq_true',
      Bool.or_eq_false_iff, decide_eq_false_iff_not, decide_eq_false_iff_not, not_lt, not_lt]
    exact or_congr_right And.comm
  unfold digitsComplaint
  rw [← hguard]
  split
  · rename_i h
    exact iff_of_true rfl h
  · rename_i h
    exact iff_of_false (Option.some_ne_none _) h

/-- When `addUser` is called, and with which number. -/
theorem registerCall_eq_some : registerCall env imsi text = some number ↔
    number = numberText text ∧ isNumberText number = true ∧
      (env.config.digitsOverride = true ∧ text.count 33 = 3 ∨
        env.config.digitsMin ≤ (number.countP isdigit : Int) ∧
          (number.countP isdigit : Int) ≤ env.config.digitsMax) ∧
      env.hlr.getCLIDLocal imsi = none ∧ env.hlr.getIMSI2 number = none := by
  obtain ⟨hgood, hbad⟩ := scanNumber_spec text {} rfl
  have hcontinues : continues {} (numberText text) = isNumberText (numberText text) := rfl
  rw [hcontinues] at hgood hbad
  unfold registerCall
  dsimp only
  by_cases hnum : isNumberText (numberText text) = true
  · obtain ⟨hb, hp, hs, he⟩ := hgood hnum
    have hp' : (scanNumber {} text).phonenum = numberText text := hp
    have hs' : (scanNumber {} text).seendig = (numberText text).countP isdigit :=
      hs.trans (Nat.zero_add _)
    have he' : (scanNumber {} text).exclaim = text.count 33 := he.trans (Nat.zero_add _)
    have hcomplaint : digitsComplaint env.config (scanNumber {} text) = none ↔ _ :=
      digitsComplaint_eq_none
    rw [hs', he'] at hcomplaint
    rw [hb, Option.none_or, hp']
    constructor
    · intro h
      split at h
      · rename_i hd hclid himsi
        obtain rfl := Option.some.inj h
        exact ⟨rfl, hnum, hcomplaint.1 hd, hclid, himsi⟩
      · cases h
    · rintro ⟨rfl, -, hlen, hclid, himsi⟩
      rw [hcomplaint.2 hlen, hclid, himsi]
  · have hfalse := hbad (Bool.eq_false_of_not_eq_true hnum)
    refine iff_of_false ?_ fun h => hnum (h.1 ▸ h.2.1)
    obtain ⟨complaint, hb⟩ := Option.ne_none_iff_exists'.1 hfalse
    rw [hb]
    simp

/-! ## Calls of `addUser` -/

/-- The command returns by what `addUser` answers for that number. -/
theorem shortcodeRegister_call (q : SMq) (h : registerCall env imsi text = some number) :
    q.shortcodeRegister env imsi text =
      registerAnswer env q imsi number (env.hlr.addUser imsi number) := by
  unfold registerCall at h
  dsimp only at h
  split at h
  · rename_i hbad hclid himsi
    obtain rfl := Option.some.inj h
    unfold shortcodeRegister registerAnswer
    dsimp only
    rw [hbad, hclid]
    dsimp only
    rw [himsi]
    cases env.hlr.addUser imsi (scanNumber {} text).phonenum <;> rfl
  · cases h

/-- Where `addUser` is not called its answer does not matter. -/
theorem shortcodeRegister_no_call (q : SMq) (h : registerCall env imsi text = none)
    (addUser : CString → CString → HlrStatus) :
    q.shortcodeRegister { env with hlr := { env.hlr with addUser := addUser } } imsi text =
      q.shortcodeRegister env imsi text := by
  unfold registerCall at h
  unfold shortcodeRegister
  dsimp only at h ⊢
  cases hbad : (scanNumber {} text).bad.or (digitsComplaint env.config (scanNumber {} text)) with
  | some complaint => rfl
  | none =>
    cases hclid : env.hlr.getCLIDLocal imsi with
    | some existing => rfl
    | none =>
      cases himsi : env.hlr.getIMSI2 (scanNumber {} text).phonenum with
      | some existing => rfl
      | none =>
        rw [hbad, hclid, himsi] at h
        cases h

/-! ## Good numbers -/

theorem mem_numberText : c ∈ numberText text ↔ c ∈ text ∧ c ∉ separators := by
  unfold numberText
  rw [List.mem_filter, decide_eq_true_eq]

theorem isNumberText_iff : isNumberText number = true ↔ ∃ digits : CString,
    (∀ c ∈ digits, isdigit c = true) ∧ (number = digits ∨ number = 43 :: digits) := by
  unfold isNumberText dropPlus
  constructor
  · intro h
    split at h
    · rename_i digits
      exact ⟨digits, List.all_eq_true.1 h, .inr rfl⟩
    · exact ⟨number, List.all_eq_true.1 h, .inl rfl⟩
  · rintro ⟨digits, hall, rfl | rfl⟩
    · split
      · exact absurd (hall 43 List.mem_cons_self) (by decide)
      · exact List.all_eq_true.2 hall
    · exact List.all_eq_true.2 hall

/-- Digits that are counted as none are none. -/
theorem digits_eq_nil {digits : CString} (hall : ∀ c ∈ digits, isdigit c = true)
    (h : digits.countP isdigit = 0) : digits = [] := by
  refine List.eq_nil_iff_forall_not_mem.2 fun c hc => ?_
  exact List.countP_eq_zero.1 h c hc (hall c hc)

/-- A number without digits is nothing or a plus. -/
theorem nil_or_plus (h : isNumberText number = true) (hzero : number.countP isdigit = 0) :
    number = [] ∨ number = [43] := by
  obtain ⟨digits, hall, rfl | rfl⟩ := isNumberText_iff.1 h
  · exact .inl (digits_eq_nil hall hzero)
  · rw [List.countP_cons_of_neg (by decide)] at hzero
    rw [digits_eq_nil hall hzero]
    exact .inr rfl

/-- Before a plus there are separators only. -/
theorem separators_before_plus {before after : CString}
    (h : isNumberText (numberText (before ++ 43 :: after)) = true) : ∀ c ∈ before, c ∈ separators := by
  have hsplit : numberText (before ++ 43 :: after) = numberText before ++ 43 :: numberText after := by
    unfold numberText
    rw [List.filter_append, List.filter_cons_of_pos (by decide)]
  rw [hsplit] at h
  obtain ⟨digits, hall, hnum⟩ := isNumberText_iff.1 h
  have hnil : numberText before = [] := by
    cases hb : numberText before with
    | nil => rfl
    | cons c cs =>
      rw [hb] at hnum
      have hplus : (43 : UInt8) ∈ digits := by
        rcases hnum with hnum | hnum
        · rw [← hnum]
          simp
        · rw [← (List.cons.inj hnum).2]
          simp
      exact absurd (hall 43 hplus) (by decide)
  intro c hc
  by_contra hsep
  have := mem_numberText.2 ⟨hc, hsep⟩
  rw [hnil] at this
  cases this

/-- A number with digits, of a length that is asked for, is good. -/
theorem goodNumber_of_digits {cfg : Config} (hnum : isNumberText (numberText text) = true)
    (hpos : (numberText text).countP isdigit ≠ 0)
    (hlen : cfg.digitsOverride = true ∧ text.count 33 = 3 ∨
      cfg.digitsMin ≤ ((numberText text).countP isdigit : Int) ∧
        ((numberText text).countP isdigit : Int) ≤ cfg.digitsMax) :
    GoodNumber cfg text (numberText text) := by
  obtain ⟨digits, hall, hform⟩ := isNumberText_iff.1 hnum
  refine ⟨⟨digits, ?_, hall, hform⟩, rfl, hlen, ?_, ?_⟩
  · rintro rfl
    rcases hform with hform | hform
    · exact hpos (by rw [hform]; rfl)
    · exact hpos (by rw [hform]; decide)
  · intro c hc
    by_cases hsep : c ∈ separators
    · exact .inr (.inr hsep)
    have hmem := mem_numberText.2 ⟨hc, hsep⟩
    rcases hform with hform | hform
    · rw [hform] at hmem
      exact .inl (hall c hmem)
    · rw [hform] at hmem
      rcases List.mem_cons.1 hmem with hplus | hmem
      · exact .inr (.inl hplus)
      · exact .inl (hall c hmem)
  · rintro before after rfl c hc
    have hsep := separators_before_plus hnum c hc
    constructor
    · exact Bool.eq_false_of_not_eq_true fun h => not_separator (.inl h) hsep
    · exact fun h => not_separator (.inr h) hsep

/-- The text of a number without digits. -/
theorem chars_of_no_digits (h : numberText text = [] ∨ numberText text = [43]) :
    (∀ c ∈ text, c = 43 ∨ c ∈ separators) ∧ text.count 43 ≤ 1 := by
  constructor
  · intro c hc
    by_cases hsep : c ∈ separators
    · exact .inr hsep
    have hmem := mem_numberText.2 ⟨hc, hsep⟩
    rcases h with h | h
    · rw [h] at hmem
      cases hmem
    · rw [h] at hmem
      exact .inl (List.mem_singleton.1 hmem)
  · have hcount : (numberText text).count 43 = text.count 43 := List.count_filter (by decide)
    rw [← hcount]
    rcases h with h | h
    · rw [h]
      decide
    · rw [h]
      decide

/-- What is left of such a text. -/
theorem no_digits_of_chars (hchars : ∀ c ∈ text, c = 43 ∨ c ∈ separators)
    (hplus : text.count 43 ≤ 1) : numberText text = [] ∨ numberText text = [43] := by
  have hall : ∀ c ∈ numberText text, c = 43 := by
    intro c hc
    obtain ⟨hmem, hsep⟩ := mem_numberText.1 hc
    exact (hchars c hmem).resolve_right hsep
  have hcount : (numberText text).count 43 = text.count 43 := List.count_filter (by decide)
  have hlen : (numberText text).length ≤ 1 := by
    rw [← List.count_eq_length.2 fun c hc => (hall c hc).symm, hcount]
    exact hplus
  cases hn : numberText text with
  | nil => exact .inl rfl
  | cons c cs =>
    rw [hn] at hlen hall
    obtain rfl : cs = [] := List.eq_nil_of_length_eq_zero (by simpa using hlen)
    rw [hall c List.mem_cons_self]
    exact .inr rfl

/-! ## The main result -/

/-- Only good numbers are registered, unless a text without digits overrides the check of their
number. -/
theorem registersGoodNumber_iff (env : Env) (imsi text : CString) (hmin : 1 ≤ env.config.digitsMin) :
    RegistersGoodNumber env imsi text ↔ ¬ OverridesNoDigits env imsi text := by
  constructor
  · rintro hgood ⟨hover, hmarks, hchars, hplus, hclid, himsi⟩
    have hnone := no_digits_of_chars hchars hplus
    have hnum : isNumberText (numberText text) = true := by
      rcases hnone with h | h <;> rw [h] <;> rfl
    have hcall := registerCall_eq_some.2 ⟨rfl, hnum, .inl ⟨hover, hmarks⟩, hclid, himsi⟩
    obtain ⟨digits, hne, hall, hform⟩ := (hgood _ hcall).form
    obtain ⟨d, hd⟩ := List.exists_mem_of_ne_nil digits hne
    have hdigit := hall d hd
    have hmem : d ∈ numberText text := by
      rcases hform with hform | hform
      · rw [hform]
        exact hd
      · rw [hform]
        exact List.mem_cons_of_mem 43 hd
    obtain ⟨hin, hsep⟩ := mem_numberText.1 hmem
    rcases hchars d hin with rfl | h
    · exact absurd hdigit (by decide)
    · exact hsep h
  · intro hnot number hcall
    obtain ⟨rfl, hnum, hlen, hclid, himsi⟩ := registerCall_eq_some.1 hcall
    refine goodNumber_of_digits hnum ?_ hlen
    intro hzero
    obtain ⟨hchars, hplus⟩ := chars_of_no_digits (nil_or_plus hnum hzero)
    rcases hlen with ⟨hover, hmarks⟩ | ⟨hle, -⟩
    · exact hnot ⟨hover, hmarks, hchars, hplus, hclid, himsi⟩
    · rw [hzero] at hle
      omega

/-- A number with blanks and parentheses is registered without them. -/
theorem registersGoodNumber_iff_sample :
    RegistersGoodNumber (sampleEnv 0) (str "IMSI001010000000001") (str "555 0001 (7)") ∧
      registerCall (sampleEnv 0) (str "IMSI001010000000001") (str "555 0001 (7)") =
        some (str "55500017") :=
  ⟨(registersGoodNumber_iff (sampleEnv 0) (str "IMSI001010000000001") (str "555 0001 (7)")
    (by decide)).2 fun h => absurd h.1 (by decide), by decide +kernel⟩

/-- Settings that allow the override. -/
def overrideEnv : Env := { sampleEnv 0 with config := { digitsOverride := true } }

/-- Three exclamation marks register the empty number. -/
theorem not_registersGoodNumber : ¬ ∀ (env : Env) (imsi text : CString), 1 ≤ env.config.digitsMin →
    RegistersGoodNumber env imsi text := by
  intro h
  have hcall : registerCall overrideEnv (str "IMSI001010000000001") (str "!!!") = some [] := by
    decide +kernel
  obtain ⟨digits, hne, -, hform | hform⟩ :=
    (h overrideEnv (str "IMSI001010000000001") (str "!!!") (by decide) [] hcall).form
  · exact hne hform.symm
  · cases hform

end SMq

end Smqueue

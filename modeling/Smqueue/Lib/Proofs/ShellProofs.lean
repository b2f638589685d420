import Smqueue.Lib.Shell

/-!
# Proofs: shell command lines

A text stands for itself exactly if the shell drops none of its characters. The weight of a reader is
the number of the characters and of the ended words that it has; a backslash that may still be dropped
counts as well.
-/

namespace Shell

variable {c : UInt8} {s t u a : List UInt8} {w : List Piece} {ws : List (List Piece)}

namespace Reader

variable {r r1 r2 r' : Reader}

theorem run_append : r.run (s ++ t) = (r.run s).bind (·.run t) := List.foldlM_append

theorem run_cons : r.run (c :: s) = (r.next c).bind (·.run s) := rfl

theorem run_cons_some (h : r.run (c :: s) = some r') :
    ∃ r1, r.next c = some r1 ∧ r1.run s = some r' :=
  Option.bind_eq_some_iff.1 h

theorem run_append_some (h : r.run (s ++ t) = some r') :
    ∃ r1, r.run s = some r1 ∧ r1.run t = some r' := by
  rw [run_append] at h
  exact Option.bind_eq_some_iff.1 h

/-! ## One character -/

theorem isOrdinary_iff : isOrdinary c = true ↔ isBlank c = false ∧ isOperator c = false ∧
    isExpansion c = false ∧ c ≠ 34 ∧ c ≠ 39 ∧ c ≠ 92 := by
  unfold isOrdinary isQuote
  simp only [Bool.not_eq_true', Bool.or_eq_false_iff, decide_eq_false_iff_not, List.mem_cons,
    List.not_mem_nil, or_false, not_or]
  tauto

theorem next_plain (hm : r.mode = .plain) (h : r.next c = some r') :
    isBlank c = true ∧ r' = r.endWord ∨ c = 34 ∧ r' = r.quote .double ∨
      c = 39 ∧ r' = r.quote .single ∨ c = 92 ∧ r' = { r with mode := .escaped } ∨
        isOrdinary c = true ∧ (c = 35 → r.word ≠ none) ∧ r' = r.push c false := by
  unfold next at h
  rw [hm] at h
  dsimp only at h
  split at h
  · rename_i hblank
    exact .inl ⟨hblank, (Option.some.inj h).symm⟩
  · rename_i hblank
    split at h
    · cases h
    · rename_i hother
      split at h
      · rename_i hc
        exact .inr (.inl ⟨hc, (Option.some.inj h).symm⟩)
      · rename_i hdouble
        split at h
        · rename_i hc
          exact .inr (.inr (.inl ⟨hc, (Option.some.inj h).symm⟩))
        · rename_i hsingle
          split at h
          · rename_i hc
            exact .inr (.inr (.inr (.inl ⟨hc, (Option.some.inj h).symm⟩)))
          · rename_i hescape
            split at h
            · cases h
            · rename_i hcomment
              rw [Bool.not_eq_true, Bool.or_eq_false_iff] at hother
              refine .inr (.inr (.inr (.inr ⟨?_, ?_, (Option.some.inj h).symm⟩)))
              · exact isOrdinary_iff.2 ⟨Bool.eq_false_iff.2 hblank, hother.1, hother.2, hdouble,
                  hsingle, hescape⟩
              · rintro rfl hnone
                exact hcomment (by rw [hnone]; rfl)

theorem next_of_ordinary (hm : r.mode = .plain) (hc : isOrdinary c = true)
    (hcomment : c = 35 → r.word ≠ none) : r.next c = some (r.push c false) := by
  obtain ⟨hblank, hoperator, hexpansion, hdouble, hsingle, hescape⟩ := isOrdinary_iff.1 hc
  have hword : ¬ (decide (c = 35) && r.word.isNone) = true := by
    rw [Bool.and_eq_true, decide_eq_true_eq, Option.isNone_iff_eq_none]
    exact fun h => hcomment h.1 h.2
  unfold next
  rw [hm]
  dsimp only
  rw [hblank, hoperator, hexpansion, if_neg Bool.false_ne_true, Bool.or_false,
    if_neg Bool.false_ne_true, if_neg hdouble, if_neg hsingle, if_neg hescape, if_neg hword]

theorem next_double (hm : r.mode = .double) (h : r.next c = some r') :
    c = 34 ∧ r' = { r with mode := .plain } ∨ c = 92 ∧ r' = { r with mode := .doubleEscaped } ∨
      (isExpansion c = false ∧ c ≠ 34 ∧ c ≠ 92) ∧ r' = r.push c true := by
  unfold next at h
  rw [hm] at h
  dsimp only at h
  split at h
  · cases h
  · rename_i hexpansion
    split at h
    · rename_i hc
      exact .inl ⟨hc, (Option.some.inj h).symm⟩
    · rename_i hdouble
      split at h
      · rename_i hc
        exact .inr (.inl ⟨hc, (Option.some.inj h).symm⟩)
      · rename_i hescape
        exact .inr (.inr ⟨⟨Bool.eq_false_iff.2 hexpansion, hdouble, hescape⟩,
          (Option.some.inj h).symm⟩)

theorem next_doubleEscaped (hm : r.mode = .doubleEscaped) (h : r.next c = some r') :
    isEscapable c = true ∧
        (r' = { r with mode := .double } ∨ r' = { r with mode := .double }.push c true) ∨
      isEscapable c = false ∧ r' = ({ r with mode := .double }.push 92 true).push c true := by
  unfold next at h
  rw [hm] at h
  have hr := (Option.some.inj h).symm
  by_cases hc : c = 10
  · rw [if_pos hc] at hr
    subst hc
    exact .inl ⟨rfl, .inl hr⟩
  · rw [if_neg hc] at hr
    by_cases he : isEscapable c = true
    · rw [if_pos he] at hr
      exact .inl ⟨he, .inr hr⟩
    · rw [if_neg he] at hr
      exact .inr ⟨Bool.eq_false_iff.2 he, hr⟩

theorem next_of_double (hm : r.mode = .double) (hquote : c ≠ 34) (hc : isExpansion c = false) :
    r.next c = some (if c = 92 then { r with mode := .doubleEscaped } else r.push c true) := by
  unfold next
  rw [hm]
  dsimp only
  rw [hc, if_neg Bool.false_ne_true, if_neg hquote]
  split <;> rfl

theorem next_of_doubleEscaped (hm : r.mode = .doubleEscaped) (hc : isEscapable c = false) :
    r.next c = some (({ r with mode := .double }.push 92 true).push c true) := by
  have hnewline : c ≠ 10 := by
    rintro rfl
    cases hc
  unfold next
  rw [hm]
  dsimp only
  rw [if_neg hnewline, hc, if_neg Bool.false_ne_true]

theorem next_single (hm : r.mode = .single) (h : r.next c = some r') :
    c = 39 ∧ r' = { r with mode := .plain } ∨ c ≠ 39 ∧ r' = r.push c true := by
  unfold next at h
  rw [hm] at h
  have hr := (Option.some.inj h).symm
  by_cases hc : c = 39
  · rw [if_pos hc] at hr
    exact .inl ⟨hc, hr⟩
  · rw [if_neg hc] at hr
    exact .inr ⟨hc, hr⟩

theorem next_escaped (hm : r.mode = .escaped) (h : r.next c = some r') :
    r' = { r with mode := .plain } ∨ r' = { r with mode := .plain }.push c true := by
  unfold next at h
  rw [hm] at h
  have hr := (Option.some.inj h).symm
  by_cases hc : c = 10
  · rw [if_pos hc] at hr
    exact .inl hr
  · rw [if_neg hc] at hr
    exact .inr hr

end Reader

/-! ## Weights -/

/-- The backslash of an escaped character counts as long as the character is not read. -/
def Mode.pending : Mode → Nat
  | .escaped | .doubleEscaped => 1
  | _ => 0

namespace Reader

variable {r r1 r2 r' : Reader}

/-- The number of the characters of all words. -/
def chars (r : Reader) : Nat := (r.words.map List.length).sum + (r.word.getD []).length

def weight (r : Reader) : Nat := r.chars + r.words.length + r.mode.pending

theorem weight_push (r : Reader) (c : UInt8) (quoted : Bool) :
    (r.push c quoted).weight = r.weight + 1 := by
  unfold weight push chars
  simp only [Option.getD_some, List.length_append, List.length_singleton]
  omega

theorem weight_mode (hm : r.mode.pending = 0) {k : Mode} :
    ({ r with mode := k } : Reader).weight = r.weight + k.pending := by
  unfold weight chars
  dsimp only
  omega

/-- An escaped character is left alone, apart from its backslash. -/
theorem weight_unescape (hm : r.mode.pending = 1) {k : Mode} (hk : k.pending = 0) :
    ({ r with mode := k } : Reader).weight + 1 = r.weight := by
  unfold weight chars
  dsimp only
  omega

theorem weight_quote {mode : Mode} (hm : r.mode.pending = 0) (hmode : mode.pending = 0) :
    (r.quote mode).weight = r.weight := by
  unfold weight quote chars
  dsimp only
  rw [hm, hmode]
  rfl

theorem weight_endWord : r.endWord.weight ≤ r.weight + 1 := by
  unfold weight endWord chars
  cases r.word with
  | none =>
    simp only [Option.toList_none, List.append_nil]
    omega
  | some w =>
    simp only [Option.toList_some, List.map_append, List.sum_append, List.length_append,
      Option.getD_some, Option.getD_none, List.map_cons, List.map_nil, List.sum_cons, List.sum_nil,
      List.length_singleton, List.length_nil]
    omega

/-- A character adds at most one to the weight. -/
theorem next_weight (h : r.next c = some r') : r'.weight ≤ r.weight + 1 := by
  cases hm : r.mode with
  | plain =>
    have hpending : r.mode.pending = 0 := by rw [hm]; rfl
    rcases next_plain hm h with ⟨-, rfl⟩ | ⟨-, rfl⟩ | ⟨-, rfl⟩ | ⟨-, rfl⟩ | ⟨-, -, rfl⟩
    · exact weight_endWord
    · rw [weight_quote hpending rfl]
      exact Nat.le_succ _
    · rw [weight_quote hpending rfl]
      exact Nat.le_succ _
    · exact Nat.le_of_eq (weight_mode hpending)
    · exact Nat.le_of_eq (weight_push r c false)
  | escaped =>
    have hplain := weight_unescape (k := .plain) (r := r) (by rw [hm]; rfl) rfl
    rcases next_escaped hm h with rfl | rfl
    · omega
    · rw [weight_push]
      omega
  | single =>
    rcases next_single hm h with ⟨-, rfl⟩ | ⟨-, rfl⟩
    · rw [weight_mode (by rw [hm]; rfl)]
      exact Nat.le_succ _
    · exact Nat.le_of_eq (weight_push r c true)
  | double =>
    have hpending : r.mode.pending = 0 := by rw [hm]; rfl
    rcases next_double hm h with ⟨-, rfl⟩ | ⟨-, rfl⟩ | ⟨-, rfl⟩
    · rw [weight_mode hpending]
      exact Nat.le_succ _
    · exact Nat.le_of_eq (weight_mode hpending)
    · exact Nat.le_of_eq (weight_push r c true)
  | doubleEscaped =>
    have hdouble := weight_unescape (k := .double) (r := r) (by rw [hm]; rfl) rfl
    rcases next_doubleEscaped hm h with ⟨-, rfl | rfl⟩ | ⟨-, rfl⟩
    · omega
    · rw [weight_push]
      omega
    · rw [weight_push, weight_push]
      omega

theorem run_weight (h : r.run s = some r') : r'.weight ≤ r.weight + s.length := by
  induction s generalizing r with
  | nil =>
    cases h
    exact Nat.le_refl _
  | cons c s ih =>
    obtain ⟨r1, h1, h⟩ := run_cons_some h
    have hnext := next_weight h1
    have hrest := ih h
    rw [List.length_cons]
    omega

/-! ## Open quotes -/

/-- Single quotes are dropped when they are closed. -/
theorem run_single (hm : r.mode = .single) (h : r.run s = some r') (hm' : r'.mode = .plain) :
    r'.weight + 1 ≤ r.weight + s.length := by
  induction s generalizing r with
  | nil =>
    cases h
    rw [hm] at hm'
    cases hm'
  | cons c s ih =>
    obtain ⟨r1, h1, h⟩ := run_cons_some h
    rw [List.length_cons]
    rcases next_single hm h1 with ⟨-, rfl⟩ | ⟨-, rfl⟩
    · have hrest := run_weight h
      have hclose := weight_mode (k := .plain) (r := r) (by rw [hm]; rfl)
      rw [hclose] at hrest
      simp only [Mode.pending] at hrest
      omega
    · have hmode : (r.push c true).mode = .single := hm
      have hrest := ih hmode h
      rw [weight_push] at hrest
      omega

/-- Double quotes are dropped when they are closed. -/
theorem run_double (hm : r.mode = .double ∨ r.mode = .doubleEscaped) (h : r.run s = some r')
    (hm' : r'.mode = .plain) : r'.weight + 1 ≤ r.weight + s.length := by
  induction s generalizing r with
  | nil =>
    cases h
    rcases hm with hm | hm <;> rw [hm] at hm' <;> cases hm'
  | cons c s ih =>
    obtain ⟨r1, h1, h⟩ := run_cons_some h
    have hweight := next_weight h1
    rw [List.length_cons]
    rcases hm with hm | hm
    · rcases next_double hm h1 with ⟨-, rfl⟩ | ⟨-, rfl⟩ | ⟨-, rfl⟩
      · have hrest := run_weight h
        have hclose := weight_mode (k := .plain) (r := r) (by rw [hm]; rfl)
        rw [hclose] at hrest
        simp only [Mode.pending] at hrest
        omega
      · have hrest := ih (.inr rfl) h
        omega
      · have hmode : (r.push c true).mode = .double := hm
        have hrest := ih (.inl hmode) h
        omega
    · have hdouble : r1.mode = .double := by
        rcases next_doubleEscaped hm h1 with ⟨-, rfl | rfl⟩ | ⟨-, rfl⟩ <;> rfl
      have hrest := ih (.inl hdouble) h
      omega

/-- A double quote is dropped, or something else is. -/
theorem run_mem_quote (hs : 34 ∈ s) (h : r.run s = some r') (hm' : r'.mode = .plain) :
    r'.weight + 1 ≤ r.weight + s.length := by
  obtain ⟨b, u, rfl⟩ := List.append_of_mem hs
  obtain ⟨r1, hb, h⟩ := run_append_some h
  obtain ⟨r2, h2, hu⟩ := run_cons_some h
  have hbefore := run_weight hb
  have hafter := run_weight hu
  rw [List.length_append, List.length_cons]
  cases hm : r1.mode with
  | plain =>
    have hquote : r2.weight = r1.weight := by
      rcases next_plain hm h2 with ⟨hc, -⟩ | ⟨-, rfl⟩ | ⟨hc, -⟩ | ⟨hc, -⟩ | ⟨hc, -⟩
      · exact absurd hc (by decide)
      · exact weight_quote (by rw [hm]; rfl) rfl
      · exact absurd hc (by decide)
      · exact absurd hc (by decide)
      · exact absurd hc (by decide)
    omega
  | escaped =>
    have hplain := weight_unescape (k := .plain) (r := r1) (by rw [hm]; rfl) rfl
    have hquote : r2.weight ≤ r1.weight := by
      rcases next_escaped hm h2 with rfl | rfl
      · omega
      · rw [weight_push]
        omega
    omega
  | single =>
    have hrest := run_single hm h hm'
    rw [List.length_cons] at hrest
    omega
  | double =>
    have hrest := run_double (.inl hm) h hm'
    rw [List.length_cons] at hrest
    omega
  | doubleEscaped =>
    have hrest := run_double (.inr hm) h hm'
    rw [List.length_cons] at hrest
    omega

/-! ## Texts in double quotes -/

theorem verbatim_cons : verbatim (c :: s) = true ↔ c ≠ 34 ∧ isExpansion c = false ∧
    (c = 92 → ∃ d ∈ s.head?, isEscapable d = false) ∧ verbatim s = true := by
  have hhead : s.head?.any (fun d => !isEscapable d) = true ↔ ∃ d ∈ s.head?, isEscapable d = false := by
    rw [Option.any_eq_true]
    simp only [Bool.not_eq_true', Option.mem_def]
  have hcons : verbatim (c :: s) = (decide (c ≠ 34) && !isExpansion c &&
      (decide (c ≠ 92) || s.head?.any (fun d => !isEscapable d)) && verbatim s) := rfl
  rw [hcons]
  simp only [Bool.and_eq_true, Bool.or_eq_true, decide_eq_true_eq, Bool.not_eq_true', hhead]
  tauto

/-- A text that does not stand for itself loses at least two characters with the quote that closes
it. -/
theorem run_not_verbatim (hm' : r'.mode = .plain) :
    (r.mode = .double → verbatim s = false → r.run (s ++ 34 :: u) = some r' →
      r'.weight + 2 ≤ r.weight + (s ++ 34 :: u).length) ∧
    (r.mode = .doubleEscaped → ¬ ((∃ d ∈ s.head?, isEscapable d = false) ∧ verbatim s = true) →
      r.run (s ++ 34 :: u) = some r' → r'.weight + 2 ≤ r.weight + (s ++ 34 :: u).length) := by
  induction s generalizing r with
  | nil =>
    refine ⟨fun _ hs _ => absurd hs (by decide), fun hm _ h => ?_⟩
    -- the quote is escaped, and the quotes are closed later
    obtain ⟨r1, h1, h⟩ := run_cons_some h
    have hdouble := weight_unescape (k := .double) (r := r) (by rw [hm]; rfl) rfl
    rcases next_doubleEscaped hm h1 with ⟨-, rfl | rfl⟩ | ⟨hc, -⟩
    · have hrest := run_double (.inl rfl) h hm'
      simp only [List.nil_append, List.length_cons]
      omega
    · have hrest := run_double (.inl rfl) h hm'
      rw [weight_push] at hrest
      simp only [List.nil_append, List.length_cons]
      omega
    · exact absurd hc (by decide)
  | cons c s ih =>
    have hmem : (34 : UInt8) ∈ s ++ 34 :: u := List.mem_append_right _ List.mem_cons_self
    constructor
    · intro hm hs h
      rw [List.cons_append] at h
      obtain ⟨r1, h1, h⟩ := run_cons_some h
      have hweight := next_weight h1
      rw [List.cons_append, List.length_cons]
      rcases next_double hm h1 with ⟨-, rfl⟩ | ⟨rfl, rfl⟩ | ⟨⟨hexp, hquote, hescape⟩, rfl⟩
      · have hrest := run_mem_quote hmem h hm'
        have hclose := weight_mode (k := .plain) (r := r) (by rw [hm]; rfl)
        rw [hclose] at hrest
        simp only [Mode.pending] at hrest
        omega
      · have hrest := ih.2 rfl (fun hgood => ?_) h
        · omega
        · have hall : verbatim (92 :: s) = true :=
            verbatim_cons.2 ⟨by decide, by decide, fun _ => hgood.1, hgood.2⟩
          rw [hs] at hall
          cases hall
      · have hs' : verbatim s = false := by
          refine Bool.eq_false_iff.2 fun hgood => ?_
          have hall := verbatim_cons.2 ⟨hquote, hexp, fun hc => absurd hc hescape, hgood⟩
          rw [hs] at hall
          cases hall
        have hmode : (r.push c true).mode = .double := hm
        have hrest := ih.1 hmode hs' h
        omega
    · intro hm hs h
      rw [List.cons_append] at h
      obtain ⟨r1, h1, h⟩ := run_cons_some h
      have hweight := next_weight h1
      have hdouble := weight_unescape (k := .double) (r := r) (by rw [hm]; rfl) rfl
      rw [List.cons_append, List.length_cons]
      rcases next_doubleEscaped hm h1 with ⟨-, rfl | rfl⟩ | ⟨hc, rfl⟩
      · have hrest := run_double (.inl rfl) h hm'
        omega
      · have hrest := run_double (.inl rfl) h hm'
        rw [weight_push] at hrest
        omega
      · have hs' : verbatim s = false := by
          refine Bool.eq_false_iff.2 fun hgood => hs ⟨⟨c, rfl, hc⟩, ?_⟩
          unfold isEscapable at hc
          simp only [decide_eq_false_iff_not, List.mem_cons, List.not_mem_nil, or_false, not_or] at hc
          obtain ⟨-, hquote, hdollar, hescape, hback⟩ := hc
          refine verbatim_cons.2 ⟨hquote, ?_, fun h => absurd h hescape, hgood⟩
          unfold isExpansion
          simp only [Bool.or_eq_false_iff, decide_eq_false_iff_not]
          exact ⟨hdollar, hback⟩
        have hrest := ih.1 rfl hs' h
        omega

/-- A text that stands for itself is read as it is. -/
theorem run_verbatim :
    (r.mode = .double → r.word = some w → verbatim s = true →
      r.run s = some { r with word := some (w ++ s.map (⟨·, true⟩)) }) ∧
    (r.mode = .doubleEscaped → r.word = some w → (∃ d ∈ s.head?, isEscapable d = false) →
      verbatim s = true →
        r.run s = some ⟨.double, r.words, some (w ++ ⟨92, true⟩ :: s.map (⟨·, true⟩))⟩) := by
  induction s generalizing r w with
  | nil =>
    refine ⟨fun _ hw _ => ?_, fun _ _ hhead _ => ?_⟩
    · rw [List.map_nil, List.append_nil, ← hw]
      rfl
    · obtain ⟨d, hd, -⟩ := hhead
      cases hd
  | cons c s ih =>
    constructor
    · intro hm hw hs
      obtain ⟨hquote, hexp, hescape, htail⟩ := verbatim_cons.1 hs
      rw [run_cons, next_of_double hm hquote hexp, Option.bind_some]
      by_cases hc : c = 92
      · rw [if_pos hc]
        subst hc
        have hrest := (ih (r := { r with mode := .doubleEscaped })).2 rfl hw (hescape rfl) htail
        rw [hm]
        exact hrest
      · rw [if_neg hc]
        have hword : (r.push c true).word = some (w ++ [⟨c, true⟩]) := by
          unfold push
          rw [hw]
          rfl
        have hrest := (ih (r := r.push c true)).1 hm hword htail
        rw [List.append_assoc] at hrest
        exact hrest
    · intro hm hw hhead hs
      obtain ⟨d, hd, hd'⟩ := hhead
      cases hd
      rw [run_cons, next_of_doubleEscaped hm hd', Option.bind_some]
      have hword : (({ r with mode := .double }.push 92 true).push c true).word =
          some (w ++ [⟨92, true⟩] ++ [⟨c, true⟩]) := by
        unfold push
        rw [hw]
        rfl
      have hrest := (ih (r := ({ r with mode := .double }.push 92 true).push c true)).1 rfl hword
        (verbatim_cons.1 hs).2.2.2
      rw [List.append_assoc, List.append_assoc] at hrest
      exact hrest

/-! ## Texts without quotes -/

/-- Ordinary characters are read as they are. -/
theorem run_ordinary (hm : r.mode = .plain) (hs : ∀ c ∈ s, isOrdinary c = true)
    (hfirst : r.word = none → s.head? ≠ some 35) (hne : s ≠ []) :
    r.run s = some { r with word := some (r.word.getD [] ++ s.map (⟨·, false⟩)) } := by
  have hsome : ∀ {s : List UInt8} {r : Reader} {w : List Piece}, r.mode = .plain →
      (∀ c ∈ s, isOrdinary c = true) → r.word = some w →
        r.run s = some { r with word := some (w ++ s.map (⟨·, false⟩)) } := by
    intro s
    induction s with
    | nil =>
      intro r w _ _ hw
      rw [List.map_nil, List.append_nil, ← hw]
      rfl
    | cons c s ih =>
      intro r w hm hs hw
      have hnext : r.next c = some (r.push c false) :=
        next_of_ordinary hm (hs c List.mem_cons_self) fun _ => by rw [hw]; exact nofun
      have hword : (r.push c false).word = some (w ++ [⟨c, false⟩]) := by
        unfold push
        rw [hw]
        rfl
      have hrest := ih (r := r.push c false) hm (fun d hd => hs d (List.mem_cons_of_mem c hd)) hword
      rw [List.append_assoc] at hrest
      rw [run_cons, hnext]
      exact hrest
  cases s with
  | nil => exact absurd rfl hne
  | cons c s =>
    have hnext : r.next c = some (r.push c false) :=
      next_of_ordinary hm (hs c List.mem_cons_self) fun hc hnone => hfirst hnone (congrArg some hc)
    have hrest := hsome (r := r.push c false) hm (fun d hd => hs d (List.mem_cons_of_mem c hd)) rfl
    rw [List.append_assoc] at hrest
    rw [run_cons, hnext]
    exact hrest

/-- A text without blanks of which nothing is dropped is ordinary. -/
theorem ordinary_of_run (hm : r.mode = .plain) (hblank : ∀ c ∈ s, isBlank c = false)
    (h : r.run s = some r') (hm' : r'.mode = .plain) (hkept : r.weight + s.length ≤ r'.weight) :
    (∀ c ∈ s, isOrdinary c = true) ∧ (r.word = none → s.head? ≠ some 35) := by
  induction s generalizing r with
  | nil => exact ⟨fun c hc => (by cases hc), fun _ => nofun⟩
  | cons c s ih =>
    obtain ⟨r1, h1, h⟩ := run_cons_some h
    have hrest := run_weight h
    rw [List.length_cons] at hkept
    rcases next_plain hm h1 with ⟨hc, -⟩ | ⟨-, rfl⟩ | ⟨-, rfl⟩ | ⟨-, rfl⟩ | ⟨hc, hcomment, rfl⟩
    · rw [hblank c List.mem_cons_self] at hc
      cases hc
    · rw [weight_quote (by rw [hm]; rfl) rfl] at hrest
      omega
    · rw [weight_quote (by rw [hm]; rfl) rfl] at hrest
      omega
    · -- the backslash is dropped when the next character is read
      cases s with
      | nil =>
        cases h
        cases hm'
      | cons d s =>
        obtain ⟨r2, h2, h⟩ := run_cons_some h
        have hlast := run_weight h
        have hstart := weight_mode (k := .escaped) (r := r) (by rw [hm]; rfl)
        have hplain := weight_unescape (k := .plain) (r := { r with mode := .escaped }) rfl rfl
        simp only [Mode.pending] at hstart
        rw [List.length_cons] at hkept
        rcases next_escaped rfl h2 with rfl | rfl
        · omega
        · rw [weight_push] at hlast
          omega
    · rw [weight_push] at hrest
      have hmode : (r.push c false).mode = .plain := hm
      have hall := ih hmode (fun d hd => hblank d (List.mem_cons_of_mem c hd)) h
        (by rw [weight_push]; omega)
      refine ⟨fun d hd => ?_, fun hnone hfirst => ?_⟩
      · rcases List.mem_cons.1 hd with rfl | hd
        · exact hc
        · exact hall.1 d hd
      · exact hcomment (Option.some.inj hfirst) hnone

end Reader

/-! ## Words at the end of the line -/

theorem text_map (s : List UInt8) (quoted : Bool) : text (s.map (⟨·, quoted⟩)) = s := by
  unfold text
  rw [List.map_map]
  exact List.map_id s

theorem length_text (w : List Piece) : (text w).length = w.length := List.length_map _

/-- The number of the characters of the texts, and of the texts. -/
def size (l : List (List UInt8)) : Nat := (l.map List.length).sum + l.length

theorem size_append (l l' : List (List UInt8)) : size (l ++ l') = size l + size l' := by
  unfold size
  rw [List.map_append, List.sum_append, List.length_append]
  omega

theorem size_cons (s : List UInt8) (l : List (List UInt8)) : size (s :: l) = s.length + 1 + size l := by
  unfold size
  rw [List.map_cons, List.sum_cons, List.length_cons]
  omega

theorem size_text (ws : List (List Piece)) :
    size (ws.map text) = (ws.map List.length).sum + ws.length := by
  unfold size
  rw [List.map_map, List.length_map]
  exact congrArg (·.sum + ws.length) (List.map_congr_left fun w _ => length_text w)

theorem close_size {r : Reader} (h : r.close = some ws) :
    r.mode = .plain ∧ ws = r.words ++ r.word.toList ∧ size (ws.map text) ≤ r.weight + 1 := by
  unfold Reader.close at h
  split at h
  · rename_i hm
    cases h
    refine ⟨hm, rfl, ?_⟩
    rw [size_text]
    unfold Reader.weight Reader.chars Reader.endWord
    cases r.word with
    | none =>
      simp only [Option.toList_none, List.append_nil]
      omega
    | some w =>
      simp only [Option.toList_some, List.map_append, List.sum_append, List.length_append,
        List.map_cons, List.map_nil, List.sum_cons, List.sum_nil, List.length_singleton,
        Option.getD_some]
      omega
  · cases h

theorem expands_quoted (s : List UInt8) : expands (s.map (⟨·, true⟩)) = false := by
  have hpattern : isPattern (s.map (⟨·, true⟩)) = false := by
    induction s with
    | nil => rfl
    | cons c s ih =>
      rw [List.map_cons]
      unfold isPattern
      rw [ih]
      rfl
  have htilde : hasTilde (s.map (⟨·, true⟩)) = false := by
    cases s with
    | nil => rfl
    | cons c s => simp [hasTilde]
  unfold expands
  rw [hpattern, htilde]
  rfl

theorem isCommand_append (hws : isCommand ws = true) (l : List (List Piece)) :
    isCommand (ws ++ l) = l.all (!expands ·) := by
  unfold isCommand at hws ⊢
  rw [Bool.and_eq_true] at hws
  cases ws with
  | nil => exact absurd hws.1 (by decide)
  | cons w ws =>
    rw [List.all_append, hws.2, Bool.true_and]
    change ((some w).any _ && _) = _
    rw [show (some w).any _ = true from hws.1, Bool.true_and]

/-! ## Commands of names and options -/

/-- The text has characters of names and hyphens only. -/
def isPlainWord (s : List UInt8) : Bool := !s.isEmpty && s.all fun c => isNameChar c || c = 45

/-- The words as they are read. -/
def unquoted (l : List (List UInt8)) : List (List Piece) := l.map fun s => s.map (⟨·, false⟩)

theorem isPlainWord_iff : isPlainWord s = true ↔
    s ≠ [] ∧ ∀ c ∈ s, isNameChar c = true ∨ c = 45 := by
  unfold isPlainWord
  simp only [Bool.and_eq_true, Bool.not_eq_true', List.isEmpty_eq_false_iff, List.all_eq_true,
    Bool.or_eq_true, decide_eq_true_eq]

theorem ordinary_of_plain (h : isNameChar c = true ∨ c = 45) :
    isOrdinary c = true ∧ c ≠ 35 ∧ c ≠ 42 ∧ c ≠ 63 ∧ c ≠ 91 ∧ c ≠ 126 := by
  have hne : ∀ d, ¬ (isNameChar d = true ∨ d = 45) → c ≠ d := by
    rintro d hd rfl
    exact hd h
  refine ⟨?_, hne 35 (by decide), hne 42 (by decide), hne 63 (by decide), hne 91 (by decide),
    hne 126 (by decide)⟩
  have hspecial : ∀ d ∈ [32, 9, 10, 38, 40, 41, 59, 60, 62, 124, 36, 96, 34, 39, 92], c ≠ d := by
    intro d hd
    refine hne d ?_
    revert d
    decide +kernel
  simp only [List.forall_mem_cons] at hspecial
  simp [isOrdinary, isBlank, isOperator, isExpansion, isQuote, hspecial]

theorem expands_plain (h : isPlainWord s = true) : expands (s.map (⟨·, false⟩)) = false := by
  obtain ⟨-, hs⟩ := isPlainWord_iff.1 h
  have hpattern : ∀ t : List UInt8, (∀ c ∈ t, isNameChar c = true ∨ c = 45) →
      isPattern (t.map (⟨·, false⟩)) = false := by
    intro t
    induction t with
    | nil => exact fun _ => rfl
    | cons c t ih =>
      intro ht
      obtain ⟨-, -, hstar, hmark, hbracket, -⟩ := ordinary_of_plain (ht c List.mem_cons_self)
      rw [List.map_cons]
      unfold isPattern
      rw [ih fun d hd => ht d (List.mem_cons_of_mem c hd), decide_eq_false hstar,
        decide_eq_false hmark, decide_eq_false hbracket]
      rfl
  have htilde : hasTilde (s.map (⟨·, false⟩)) = false := by
    cases s with
    | nil => rfl
    | cons c s =>
      have hc := (ordinary_of_plain (hs c List.mem_cons_self)).2.2.2.2.2
      simp [hasTilde, hc]
  unfold expands
  rw [hpattern s hs, htilde]
  rfl

/-- Words that are each followed by a blank. -/
theorem run_words {l : List (List UInt8)} (hl : ∀ s ∈ l, isPlainWord s = true) :
    Reader.run ⟨.plain, ws, none⟩ (l.flatMap (· ++ [32])) =
      some ⟨.plain, ws ++ unquoted l, none⟩ := by
  induction l generalizing ws with
  | nil =>
    rw [unquoted, List.map_nil, List.append_nil]
    rfl
  | cons s l ih =>
    obtain ⟨hne, hs⟩ := isPlainWord_iff.1 (hl s List.mem_cons_self)
    have hfirst : s.head? ≠ some 35 := by
      intro h
      exact (ordinary_of_plain (hs 35 (List.mem_of_mem_head? h))).2.1 rfl
    have hrest : Reader.run ⟨.plain, ws ++ [s.map (⟨·, false⟩)], none⟩ (l.flatMap (· ++ [32])) = _ :=
      ih fun t ht => hl t (List.mem_cons_of_mem s ht)
    rw [List.flatMap_cons, List.append_assoc, Reader.run_append,
      Reader.run_ordinary rfl (fun c hc => (ordinary_of_plain (hs c hc)).1) (fun _ => hfirst) hne]
    rw [List.append_assoc] at hrest
    exact hrest

theorem text_unquoted (l : List (List UInt8)) : (unquoted l).map text = l := by
  unfold unquoted
  rw [List.map_map]
  exact (List.map_congr_left fun s _ => text_map s false).trans (List.map_id l)

theorem isCommand_words {name : List UInt8} {l : List (List UInt8)}
    (hname : isCommand (unquoted [name]) = true) (hl : ∀ s ∈ l, isPlainWord s = true) :
    isCommand (unquoted (name :: l)) = true := by
  have happend := isCommand_append hname (unquoted l)
  rw [show unquoted (name :: l) = unquoted [name] ++ unquoted l from rfl, happend,
    List.all_eq_true]
  intro w hw
  obtain ⟨s, hs, rfl⟩ := List.mem_map.1 hw
  rw [expands_plain (hl s hs)]
  rfl

theorem simpleCommand_eq_some {line : List UInt8} {l : List (List UInt8)} :
    simpleCommand line = some l ↔
      ∃ ws, read line = some ws ∧ isCommand ws = true ∧ ws.map text = l := by
  unfold simpleCommand
  rw [Option.bind_eq_some_iff]
  refine exists_congr fun ws => and_congr_right fun _ => ?_
  split
  · rename_i hc
    rw [Option.some.injEq]
    exact ⟨fun h => ⟨hc, h⟩, fun h => h.2⟩
  · rename_i hc
    exact ⟨fun h => (by cases h), fun h => absurd h.1 hc⟩

/-! ## Commands that end in a quoted text -/

variable {p : List UInt8} {l : List (List UInt8)}

/-- The reader behind a quote that follows the words `ws`. -/
def inQuotes (ws : List (List Piece)) : Reader := ⟨.double, ws, some []⟩

theorem weight_inQuotes (ws : List (List Piece)) : (inQuotes ws).weight = size (ws.map text) := by
  rw [size_text]
  rfl

theorem read_quoted (hp : Reader.run {} p = some ⟨.plain, ws, none⟩) :
    read (p ++ 34 :: s) = ((inQuotes ws).run s).bind Reader.close := by
  unfold read
  rw [Reader.run_append, hp]
  rfl

/-- A quoted text that is one of the words, with room for the words behind it only, stands for
itself. -/
theorem verbatim_of_words {ws' : List (List Piece)} {r' : Reader}
    (h : (inQuotes ws).run (s ++ 34 :: u) = some r') (hclose : r'.close = some ws')
    (htext : ws'.map text = ws.map text ++ s :: l) (hu : u.length ≤ size l) :
    verbatim s = true := by
  obtain ⟨hm', -, hsize⟩ := close_size hclose
  rw [htext, size_append, size_cons] at hsize
  rw [← Bool.not_eq_false]
  intro hs
  have hlost := (Reader.run_not_verbatim hm').1 rfl hs h
  rw [weight_inQuotes, List.length_append, List.length_cons] at hlost
  omega

theorem run_inQuotes (hs : verbatim s = true) :
    (inQuotes ws).run (s ++ 34 :: u) =
      Reader.run ⟨.plain, ws, some (s.map (⟨·, true⟩))⟩ u := by
  have hread := (Reader.run_verbatim (r := inQuotes ws) (w := [])).1 rfl rfl hs
  rw [Reader.run_append, hread]
  rfl

/-- The last word of the command is the quoted text exactly if the text stands for itself. -/
theorem simpleCommand_quoted (hp : Reader.run {} p = some ⟨.plain, ws, none⟩)
    (hws : isCommand ws = true) :
    simpleCommand (p ++ 34 :: (s ++ [34])) = some (ws.map text ++ [s]) ↔ verbatim s = true := by
  rw [simpleCommand_eq_some, read_quoted hp]
  constructor
  · rintro ⟨ws', hread, -, htext⟩
    obtain ⟨r', hrun, hclose⟩ := Option.bind_eq_some_iff.1 hread
    exact verbatim_of_words hrun hclose htext (Nat.zero_le _)
  · intro hs
    refine ⟨ws ++ [s.map (⟨·, true⟩)], ?_, ?_, ?_⟩
    · rw [run_inQuotes hs]
      rfl
    · rw [isCommand_append hws, List.all_cons, expands_quoted]
      rfl
    · rw [List.map_append, List.map_singleton, text_map]

/-- The last two words of the command are the quoted text and the text behind it exactly if both stand
for themselves. -/
theorem simpleCommand_quoted_bare (hp : Reader.run {} p = some ⟨.plain, ws, none⟩)
    (hws : isCommand ws = true) (ha : ∀ c ∈ a, isBlank c = false) :
    simpleCommand (p ++ 34 :: (s ++ 34 :: 32 :: a)) = some (ws.map text ++ [s, a]) ↔
      verbatim s = true ∧ bare a = true := by
  rw [simpleCommand_eq_some, read_quoted hp]
  -- the reader behind the blank
  let r : Reader := ⟨.plain, ws ++ [s.map (⟨·, true⟩)], none⟩
  have hstart : verbatim s = true → (inQuotes ws).run (s ++ 34 :: 32 :: a) = r.run a :=
    fun hs => run_inQuotes hs
  have hweight : r.weight = size (ws.map text) + s.length + 1 := by
    have hr : r.weight = size (r.words.map text) := (size_text r.words).symm
    change _ = size ((ws ++ [s.map (Piece.mk · true)]).map text) at hr
    rw [List.map_append, size_append, List.map_singleton, text_map, size_cons] at hr
    exact hr
  constructor
  · rintro ⟨ws', hread, hcommand, htext⟩
    obtain ⟨r', hrun, hclose⟩ := Option.bind_eq_some_iff.1 hread
    have hs : verbatim s = true := by
      refine verbatim_of_words hrun hclose htext ?_
      rw [size_cons]
      exact Nat.le_refl _
    obtain ⟨hm', hwords, hsize⟩ := close_size hclose
    rw [htext, size_append, size_cons, size_cons] at hsize
    rw [hstart hs] at hrun
    have hkept : r.weight + a.length ≤ r'.weight := by
      change _ + (_ + 1 + (_ + 1 + 0)) ≤ _ at hsize
      omega
    obtain ⟨hordinary, hfirst⟩ := Reader.ordinary_of_run rfl ha hrun hm' hkept
    have hne : a ≠ [] := by
      rintro rfl
      cases hrun
      have hlength := congrArg List.length htext
      rw [hwords] at hlength
      simp [r] at hlength
    rw [Reader.run_ordinary rfl hordinary hfirst hne] at hrun
    cases hrun
    refine ⟨hs, ?_⟩
    subst hwords
    have hfixed : expands (a.map (⟨·, false⟩)) = false := by
      rw [List.append_assoc, isCommand_append hws] at hcommand
      simpa [expands_quoted, r] using hcommand
    unfold bare
    rw [hfixed, List.all_eq_true.2 hordinary, List.isEmpty_eq_false_iff.2 hne,
      decide_eq_true (hfirst rfl)]
    rfl
  · rintro ⟨hs, hbare⟩
    unfold bare at hbare
    simp only [Bool.and_eq_true, Bool.not_eq_true', decide_eq_true_eq] at hbare
    obtain ⟨⟨⟨hne, hordinary⟩, hfirst⟩, hfixed⟩ := hbare
    refine ⟨ws ++ [s.map (⟨·, true⟩)] ++ [a.map (⟨·, false⟩)], ?_, ?_, ?_⟩
    · rw [hstart hs, Reader.run_ordinary rfl (List.all_eq_true.1 hordinary) (fun _ => hfirst)
        (List.isEmpty_eq_false_iff.1 hne)]
      rfl
    · rw [List.append_assoc, isCommand_append hws]
      simp [expands_quoted, hfixed]
    · rw [List.append_assoc, List.map_append, List.map_append, List.map_singleton,
        List.map_singleton, text_map, text_map]
      rfl

end Shell

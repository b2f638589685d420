import Smqueue.SampleLibs

/-!
# Proofs: the concrete libraries obey the laws

A list of known messages has to be such that their texts differ and their bodies can be found.
-/

namespace Smqueue

namespace SampleLibs

open ShortMsg (bodyOf encodingOf)

/-- The texts of the known messages can be told apart, and their content is what follows their
headers. -/
structure Known (known : List SipMessage) : Prop where
  inj : ∀ a ∈ known, ∀ b ∈ known, messageText a = messageText b → a = b
  start : ∀ m ∈ known, (messageText m).head? ≠ some 1
  noZero : ∀ m ∈ known, 0 ∉ messageText m
  body : ∀ m ∈ known, bodyOf (messageText m) = bodyOf (contentText m)
  encoding : ∀ m ∈ known, encodingOf (messageText m) = encodingOf (contentText m)

/-! ## Searching -/

theorem strstr_replicate (n : Nat) (s : CString) :
    strstr (List.replicate n 97 ++ s) (str "\r\n\r\n") = strstr s (str "\r\n\r\n") := by
  induction n with
  | zero => rfl
  | succ n ih =>
    rw [List.replicate_succ, List.cons_append, strstr, if_neg, ih]
    exact fun h => nomatch h

theorem strcasestr_replicate (n : Nat) (s : CString) :
    strcasestr (List.replicate n 97 ++ s) (str "\r\nContent-Transfer-Encoding") =
      strcasestr s (str "\r\nContent-Transfer-Encoding") := by
  induction n with
  | zero => rfl
  | succ n ih =>
    rw [List.replicate_succ, List.cons_append, strcasestr, if_neg, ih]
    exact fun h => nomatch h

theorem bodyOf_numberText (m : SipMessage) : bodyOf (numberText m) = bodyOf (contentText m) := by
  unfold bodyOf numberText
  rw [List.cons_append, strstr, if_neg, strstr_replicate]
  exact fun h => nomatch h

theorem encodingOf_numberText (m : SipMessage) :
    encodingOf (numberText m) = encodingOf (contentText m) := by
  unfold encodingOf numberText
  rw [List.cons_append, strcasestr, if_neg, strcasestr_replicate]
  exact fun h => nomatch h

/-! ## Numbers -/

theorem contentText_start (m : SipMessage) : ∃ s, contentText m = 13 :: s := by
  unfold contentText
  cases m.headers with
  | nil => exact ⟨_, rfl⟩
  | cons h hs => exact ⟨_, rfl⟩

theorem textNumber_numberText (m : SipMessage) :
    textNumber (numberText m) = Encodable.encode m := by
  obtain ⟨s, hs⟩ := contentText_start m
  unfold textNumber numberText
  rw [hs, List.cons_append, List.tail_cons, List.takeWhile_append]
  simp

theorem contentText_noZero (m : SipMessage) : 0 ∉ contentText m := by
  unfold contentText
  simp

theorem numberText_noZero (m : SipMessage) : 0 ∉ numberText m := by
  unfold numberText
  have := contentText_noZero m
  simp [this, List.mem_replicate]

/-! ## Hexadecimal coding -/

theorem hexValue_hexDigit : ∀ n < 16, hexValue (hexDigit n) = n := by decide

theorem ofHex_toHex (bytes : List UInt8) : ofHex (toHex bytes) = bytes := by
  induction bytes with
  | nil => rfl
  | cons b bytes ih =>
    have hb : b.toNat < 256 := b.toNat_lt
    have h1 := hexValue_hexDigit (b.toNat / 16) (by omega)
    have h2 := hexValue_hexDigit (b.toNat % 16) (by omega)
    have hsum : 16 * (b.toNat / 16) + b.toNat % 16 = b.toNat := Nat.div_add_mod _ _
    unfold toHex at ih ⊢
    rw [List.flatMap_cons, List.cons_append, List.cons_append, List.nil_append, ofHex, ih, h1, h2,
      hsum, UInt8.ofNat_toNat]

/-! ## Laws -/

variable {known : List SipMessage}

theorem parse_toStr (hk : Known known) (m : SipMessage) : parse known (toStr known m) = some m := by
  unfold parse toStr
  by_cases hm : m ∈ known
  · have hfind : (known.find? fun x => messageText x = messageText m) = some m := by
      cases hf : known.find? fun x => messageText x = messageText m with
      | none =>
        have := List.find?_eq_none.1 hf m hm
        simp at this
      | some x =>
        have hx : messageText x = messageText m := by simpa using List.find?_some hf
        rw [hk.inj x (List.mem_of_find?_eq_some hf) m hm hx]
    rw [if_pos hm, hfind]
    rfl
  · have hfind : (known.find? fun x => messageText x = numberText m) = none := by
      refine List.find?_eq_none.2 fun x hx heq => hk.start x hx ?_
      rw [of_decide_eq_true heq]
      rfl
    rw [if_neg hm, hfind, textNumber_numberText, Encodable.encodek, Option.none_or]
    simp [hm]

/-- A text that neither is that of a known message nor starts like a numbered one is refused. -/
theorem parse_eq_none {s : CString} (hs : ∀ m ∈ known, messageText m ≠ s) (h1 : s.head? ≠ some 1) :
    parse known s = none := by
  have hfind : (known.find? fun x => messageText x = s) = none :=
    List.find?_eq_none.2 fun x hx heq => hs x hx (of_decide_eq_true heq)
  have hnumber : ∀ m : SipMessage, numberText m ≠ s := by
    rintro m rfl
    exact h1 rfl
  unfold parse
  rw [hfind, Option.none_or]
  refine Option.filter_eq_none_iff.2 fun m _ => ?_
  simp [hnumber m]

/-- A text that is parsed has the body and the encoding of the content of its tree. -/
theorem content_of_parse (hk : Known known) {s : CString} {m : SipMessage}
    (h : parse known s = some m) :
    bodyOf s = bodyOf (contentText m) ∧ encodingOf s = encodingOf (contentText m) := by
  unfold parse at h
  rcases Option.or_eq_some_iff.1 h with hf | ⟨-, hd⟩
  · have hm := List.mem_of_find?_eq_some hf
    have hs : messageText m = s := by simpa using List.find?_some hf
    rw [← hs]
    exact ⟨hk.body m hm, hk.encoding m hm⟩
  · obtain ⟨-, hp⟩ := Option.filter_eq_some_iff.1 hd
    have hs : numberText m = s := (of_decide_eq_true hp).2
    rw [← hs]
    exact ⟨bodyOf_numberText m, encodingOf_numberText m⟩

theorem lawful (hk : Known known) (vias : List (CString × Via)) :
    (sampleLibs known vias).Lawful := by
  refine ⟨parse_toStr hk, fun m => ?_, fun m m' _ hh hb _ => ?_, fun s n enc => ?_⟩
  · change 0 ∉ toStr known m
    unfold toStr
    by_cases hm : m ∈ known
    · rw [if_pos hm]
      exact hk.noZero m hm
    · rw [if_neg hm]
      exact numberText_noZero m
  · obtain ⟨hb1, he1⟩ := content_of_parse hk (parse_toStr hk m)
    obtain ⟨hb2, he2⟩ := content_of_parse hk (parse_toStr hk m')
    have hcontent : contentText m' = contentText m := by
      unfold contentText
      rw [hh, hb]
    constructor
    · change (bodyOf (toStr known m')).map _ = (bodyOf (toStr known m)).map _
      rw [hb1, hb2, hcontent]
    · exact he2.trans ((congrArg encodingOf hcontent).trans he1.symm)
  · change ofHex ((s.take n).take n) = ofHex (s.take n)
    rw [List.take_take, Nat.min_self]

theorem codesBodies (known : List SipMessage) (vias : List (CString × Via)) :
    (sampleLibs known vias).CodesBodies := by
  intro bytes enc _
  change ofHex ((toHex bytes).take (toHex bytes).length) = bytes
  rw [List.take_length, ofHex_toHex]

/-- A single message has nothing to be confused with. -/
theorem Known.single {m : SipMessage} (start : (messageText m).head? ≠ some 1)
    (noZero : 0 ∉ messageText m) (body : bodyOf (messageText m) = bodyOf (contentText m))
    (encoding : encodingOf (messageText m) = encodingOf (contentText m)) : Known [m] where
  inj := fun a ha b hb _ => by rw [List.mem_singleton.1 ha, List.mem_singleton.1 hb]
  start := List.forall_mem_singleton.2 start
  noZero := List.forall_mem_singleton.2 noZero
  body := List.forall_mem_singleton.2 body
  encoding := List.forall_mem_singleton.2 encoding

set_option maxRecDepth 4000 in
theorem known_sampleRequest : Known [sampleRequest] :=
  .single (by decide) (by decide) rfl rfl

end SampleLibs

end Smqueue

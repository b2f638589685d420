import Smqueue.QueueRecords
import Smqueue.Proofs.QueueFileProofs
import Smqueue.Proofs.ValidationProofs
import Smqueue.Proofs.QueueProofs

/-!
# Proofs: the records of the queue file

A turn of the record loop reads a record back if it has an address and its text does not begin with
a line break, which would be skipped with the blank lines in front of it.
-/

namespace Smqueue

/-! ## Decimal numbers -/

theorem isDigit_decimal (n : Nat) : ∀ c ∈ decimal n, InputStream.isDigit c = true := by
  intro c hc
  obtain ⟨d, hd, rfl⟩ := List.mem_map.1 hc
  have hdigit := Nat.isDigit_of_mem_toDigits (by decide) (by decide) hd
  simp only [Char.isDigit, Bool.and_eq_true, decide_eq_true_eq, ge_iff_le, UInt32.le_iff_toNat_le]
    at hdigit
  have h1 : 48 ≤ d.toNat := hdigit.1
  have h2 : d.toNat ≤ 57 := hdigit.2
  have h3 : (UInt8.ofNat d.toNat).toNat = d.toNat := by
    rw [UInt8.toNat_ofNat']
    omega
  simp only [InputStream.isDigit, Bool.and_eq_true, decide_eq_true_eq, UInt8.le_iff_toNat_le, h3]
  exact ⟨h1, h2⟩

theorem decimal_ne_nil (n : Nat) : decimal n ≠ [] := by
  intro h
  exact Nat.toDigits_ne_nil (List.map_eq_nil_iff.1 h)

/-- The value of digits is what the library computes from the characters. -/
theorem foldl_digits (l : List Char) (hl : ∀ c ∈ l, c.toNat < 256) (n : Nat) :
    (l.map fun c => UInt8.ofNat c.toNat).foldl (fun n d => 10 * n + (d.toNat - 48)) n =
      Nat.ofDigitChars 10 l n := by
  induction l generalizing n with
  | nil => rw [Nat.ofDigitChars_nil]; rfl
  | cons c l ih =>
    have hc : (UInt8.ofNat c.toNat).toNat = c.toNat := by
      rw [UInt8.toNat_ofNat']
      have := hl c (List.mem_cons_self ..)
      omega
    rw [Nat.ofDigitChars_cons, List.map_cons, List.foldl_cons, hc,
      ih fun d hd => hl d (List.mem_cons_of_mem _ hd)]
    rfl

theorem valueOf_decimal (n : Nat) : InputStream.valueOf (decimal n) = n := by
  unfold InputStream.valueOf decimal
  rw [foldl_digits, Nat.ofDigitChars_ten_toDigits]
  intro c hc
  have hdigit := Nat.isDigit_of_mem_toDigits (by decide) (by decide) hc
  simp only [Char.isDigit, Bool.and_eq_true, decide_eq_true_eq, UInt32.le_iff_toNat_le] at hdigit
  have h2 : c.toNat ≤ 57 := hdigit.2
  omega

theorem decimalInt_of_nonneg {z : Int} (h : 0 ≤ z) : decimalInt z = decimal z.toNat := by
  have habs : z.natAbs = z.toNat := by omega
  unfold decimalInt
  rw [if_neg (by omega), habs]

theorem toNat_le_unsignedMax {z : Int} (h : z < 2 ^ 32) : z.toNat ≤ unsignedMax := by
  unfold unsignedMax
  omega

theorem isspace_of_isDigit (c : UInt8) (h : InputStream.isDigit c = true) : isspace c = false := by
  revert h
  cases c with
  | ofBitVec b =>
    revert b
    decide +kernel

/-- A number that was printed is read back. -/
theorem extractUnsigned_decimal {n : Nat} {c : UInt8} {t : List UInt8} (hn : n ≤ unsignedMax)
    (hc : InputStream.isDigit c = false) :
    InputStream.extractUnsigned isspace unsignedMax ⟨32 :: (decimal n ++ c :: t), false, false⟩ =
      (some n, ⟨c :: t, false, false⟩) := by
  have hmax : InputStream.valueOf (decimal n) ≤ unsignedMax := by
    rw [valueOf_decimal]
    exact hn
  have h : InputStream.extractUnsigned isspace unsignedMax
      ⟨[32] ++ (decimal n ++ c :: t), false, false⟩ = _ :=
    InputStream.extractUnsigned_ahead (List.forall_mem_singleton.2 rfl) (isDigit_decimal n)
      isspace_of_isDigit (decimal_ne_nil n) hmax hc
  rw [valueOf_decimal] at h
  exact h

theorem extractUnsigned_boolText (b : Bool) {c : UInt8} {t : List UInt8}
    (hc : InputStream.isDigit c = false) :
    InputStream.extractUnsigned isspace unsignedMax ⟨32 :: (boolText b ++ c :: t), false, false⟩ =
      (some b.toNat, ⟨c :: t, false, false⟩) := by
  have hb : boolText b = decimal b.toNat := by cases b <;> decide
  rw [hb]
  exact extractUnsigned_decimal (by cases b <;> decide) hc

/-! ## One turn -/

namespace ReadLoop

variable {l l' : ReadLoop} {r : QueueRecord} {rs : List QueueRecord} {tail msgtext : CString}

/-- What stands behind the time of a record. -/
def fieldBytes (r : QueueRecord) (tail : CString) : CString :=
  32 :: (r.address ++ 32 :: (decimal r.text.length ++ 32 :: (boolText r.msToSc ++
    32 :: (boolText r.needRepack ++ 10 :: (r.text ++ 10 :: 10 :: tail)))))

theorem bytes_append (hr : 0 ≤ r.nextActionTime) (tail : CString) :
    r.bytes ++ tail = str "===" ++ 32 :: (decimal r.state.toNat ++
      32 :: (decimal r.nextActionTime.toNat ++ fieldBytes r tail)) := by
  have htime := decimalInt_of_nonneg hr
  have hmark : str "=== " = str "===" ++ [32] := by decide
  have hspace : str " " = [32] := by decide
  have hline : str "\n" = [10] := by decide
  have hlines : str "\n\n" = [10, 10] := by decide
  simp only [QueueRecord.bytes, fieldBytes, htime, hmark, hspace, hline, hlines, List.append_assoc,
    List.cons_append, List.nil_append]

/-- The head of a saved record is read back. -/
theorem readHead_saved (hr : r.Savable) (hl : l.file = ⟨r.bytes ++ tail, false, false⟩) :
    l.readHead = { l with
      file := ⟨fieldBytes r tail, false, false⟩, equals := str "===", astate := r.state.toNat
      atime := r.nextActionTime.toNat } := by
  have hstate := hr.state.2
  have htime := hr.time
  have hmark : ∀ c ∈ str "===", isspace c = false := by decide +kernel
  have hne : str "===" ≠ [] := by decide
  have hword : l.file.extractWord isspace = (some (str "==="), ⟨32 :: (decimal r.state.toNat ++
      32 :: (decimal r.nextActionTime.toNat ++ fieldBytes r tail)), false, false⟩) := by
    rw [hl, bytes_append htime.1]
    exact InputStream.extractWord_ahead (s := []) (by simp) hmark hne rfl
  have hs : InputStream.extractUnsigned isspace unsignedMax ⟨32 :: (decimal r.state.toNat ++
      32 :: (decimal r.nextActionTime.toNat ++ fieldBytes r tail)), false, false⟩ =
        (some r.state.toNat,
          ⟨32 :: (decimal r.nextActionTime.toNat ++ fieldBytes r tail), false, false⟩) :=
    extractUnsigned_decimal (by unfold unsignedMax; omega) (by decide)
  have ht : InputStream.extractUnsigned isspace unsignedMax
      ⟨32 :: (decimal r.nextActionTime.toNat ++ fieldBytes r tail), false, false⟩ =
        (some r.nextActionTime.toNat, ⟨fieldBytes r tail, false, false⟩) :=
    extractUnsigned_decimal (toNat_le_unsignedMax htime.2) (by decide)
  unfold readHead
  simp only [hword, hs, ht, Option.getD_some]

/-- A record with an address is read back up to its text. -/
theorem readFields_saved (hr : r.Savable) (ha : r.address ≠ [])
    (hl : l.file = ⟨fieldBytes r tail, false, false⟩) :
    l.readFields = { l with
      file := ⟨10 :: (r.text ++ 10 :: 10 :: tail), false, false⟩, netaddrstr := r.address
      alength := r.text.length, msToSc := r.msToSc.toNat, needRepack := r.needRepack.toNat } := by
  have hlength := hr.text.2.2
  let flags : CString := 32 :: (boolText r.msToSc ++
    32 :: (boolText r.needRepack ++ 10 :: (r.text ++ 10 :: 10 :: tail)))
  have hword : l.file.extractWord isspace =
      (some r.address, ⟨32 :: (decimal r.text.length ++ flags), false, false⟩) := by
    rw [hl]
    exact InputStream.extractWord_ahead (s := [32]) (by decide +kernel) hr.address ha (by decide)
  have hlen : InputStream.extractUnsigned isspace unsignedMax
      ⟨32 :: (decimal r.text.length ++ flags), false, false⟩ =
        (some r.text.length, ⟨flags, false, false⟩) :=
    extractUnsigned_decimal (by unfold unsignedMax; omega) (by decide)
  have hms : InputStream.extractUnsigned isspace unsignedMax ⟨flags, false, false⟩ =
      (some r.msToSc.toNat,
        ⟨32 :: (boolText r.needRepack ++ 10 :: (r.text ++ 10 :: 10 :: tail)), false, false⟩) :=
    extractUnsigned_boolText r.msToSc (by decide)
  have hrepack : InputStream.extractUnsigned isspace unsignedMax
      ⟨32 :: (boolText r.needRepack ++ 10 :: (r.text ++ 10 :: 10 :: tail)), false, false⟩ =
        (some r.needRepack.toNat, ⟨10 :: (r.text ++ 10 :: 10 :: tail), false, false⟩) :=
    extractUnsigned_boolText r.needRepack (by decide)
  unfold readFields
  simp only [hword, hlen, hms, hrepack, Option.getD_some]

/-- A text that does not begin with a line break is read back. -/
theorem readText_saved (hr : r.Savable) (hb : r.text.head? ≠ some 10) (htail : tail.head? ≠ some 10)
    (hn : l.alength = r.text.length)
    (hl : l.file = ⟨10 :: (r.text ++ 10 :: 10 :: tail), false, false⟩) :
    l.readText = ({ l with file := ⟨tail, tail.isEmpty, false⟩ }, r.text) := by
  obtain ⟨hne, hzero, hlength⟩ := hr.text
  have hdrop : ∀ s : CString, s.head? ≠ some 10 → s.dropWhile (fun c => decide (c = 10)) = s := by
    intro s hs
    cases s with
    | nil => rfl
    | cons c s => exact List.dropWhile_cons_of_neg (by simpa using hs)
  have hskip : InputStream.skipChar 10 l.file =
      ⟨r.text ++ 10 :: 10 :: tail, false, false⟩ := by
    have hhead : (r.text ++ 10 :: 10 :: tail).head? ≠ some 10 := by
      cases htext : r.text with
      | nil => exact absurd htext hne
      | cons c t =>
        rw [htext] at hb
        exact hb
    rw [hl, InputStream.skipChar_good, List.dropWhile_cons_of_pos (by decide), hdrop _ hhead]
    simp
  have htake : InputStream.takeText ((l.alength + 1) % 2 ^ 32 - 1) 0
      ⟨r.text ++ 10 :: 10 :: tail, false, false⟩ = (r.text, ⟨10 :: 10 :: tail, false, false⟩) := by
    have hcount : (l.alength + 1) % 2 ^ 32 - 1 = r.text.length := by
      rw [hn]
      omega
    rw [hcount]
    exact InputStream.takeText_ahead hzero hne (List.cons_ne_nil _ _)
  have hend : InputStream.skipChar 10 ⟨10 :: 10 :: tail, false, false⟩ =
      ⟨tail, tail.isEmpty, false⟩ := by
    rw [InputStream.skipChar_good, List.dropWhile_cons_of_pos (by decide),
      List.dropWhile_cons_of_pos (by decide), hdrop _ htail]
  unfold readText
  simp only [hskip, htake, hend]

theorem cstr_of_not_mem {text : CString} (h : 0 ∉ text) : cstr text = text := by
  have hpos : ∀ c ∈ text, decide (c ≠ 0) = true := fun c hc => decide_eq_true fun h0 => h (h0 ▸ hc)
  have htake : (text ++ []).takeWhile (fun c => decide (c ≠ 0)) = text ++ _ :=
    List.takeWhile_append_of_pos hpos
  rw [List.takeWhile_nil, List.append_nil] at htake
  exact htake

/-- A turn in front of a well framed record reads it, and leaves the file behind it. -/
theorem turn_saved (hr : r.Savable) (hf : r.Framed) (htail : tail.head? ≠ some 10)
    (hl : l.file = ⟨r.bytes ++ tail, false, false⟩) :
    ∃ l', l.turn = some (l', r.text) ∧ l'.record r.text = r ∧ l'.alength = r.text.length ∧
      l'.file = ⟨tail, tail.isEmpty, false⟩ := by
  have hhead := readHead_saved hr hl
  have hfields : l.readHead.readFields = { l.readHead with
      file := ⟨10 :: (r.text ++ 10 :: 10 :: tail), false, false⟩, netaddrstr := r.address
      alength := r.text.length, msToSc := r.msToSc.toNat, needRepack := r.needRepack.toNat } :=
    readFields_saved hr hf.1 (by rw [hhead])
  have htext : l.readHead.readFields.readText = ({ l.readHead.readFields with
      file := ⟨tail, tail.isEmpty, false⟩ }, r.text) :=
    readText_saved hr hf.2 htail (by rw [hfields]) (by rw [hfields])
  have hturn : l.turn = some l.readHead.readFields.readText := by
    have heof : ¬ l.file.eof = true := by simp [hl]
    unfold turn
    rw [if_neg heof]
    dsimp only
    rw [if_neg (by rw [hhead]; simp)]
  refine ⟨_, by rw [hturn, htext], ?_, ?_, rfl⟩
  · have hbool : ∀ b : Bool, decide (b.toNat ≠ 0) = b := by decide
    have htime : (r.nextActionTime.toNat : Int) = r.nextActionTime := Int.toNat_of_nonneg hr.time.1
    rw [hfields, hhead]
    show QueueRecord.mk _ _ _ _ _ _ = r
    rw [hr.state.1, htime, cstr_of_not_mem hr.text.2.1, hbool, hbool]
  · rw [hfields]

/-- A turn at the end of the file leaves the loop. -/
theorem turn_of_empty {e : Bool} (hl : l.file = ⟨[], e, false⟩) : l.turn = none := by
  cases e with
  | true => exact turn_of_eof (by rw [hl])
  | false =>
    have hword : (l.file.extractWord isspace).2.eof = true := by
      rw [hl]
      rfl
    have hhead : l.readHead.file.eof = true :=
      InputStream.extractUnsigned_of_eof (InputStream.extractUnsigned_of_eof hword)
    unfold turn
    rw [if_neg (by rw [hl]; decide)]
    dsimp only
    rw [if_pos (by simp [hhead])]

/-! ## What is read is well framed -/

/-- No text that is read begins with a line break. -/
theorem turn_text (h : l.turn = some (l', msgtext)) : (cstr msgtext).head? ≠ some 10 := by
  have htext : msgtext.head? ≠ some 10 := by
    unfold turn at h
    split at h
    · cases h
    · dsimp only at h
      split at h
      · cases h
      · have hread := Option.some.inj h
        have htake : msgtext = l.readHead.readFields.readText.2 := by rw [hread]
        rw [htake]
        exact InputStream.takeText_skipChar_head _ _ _ _
  unfold cstr
  cases msgtext with
  | nil => simp
  | cons c t =>
    rw [List.takeWhile_cons]
    split
    · exact htext
    · simp

/-- The length stands where a missing address is looked for. -/
theorem turn_address (hr : r.Savable) (ha : r.address = [])
    (hl : l.file = ⟨r.bytes ++ tail, false, false⟩) (h : l.turn = some (l', msgtext)) :
    l'.netaddrstr ≠ [] := by
  have hhead := readHead_saved hr hl
  have hne := decimal_ne_nil r.text.length
  have hword : ∃ t, l.readHead.file.extractWord isspace = (some (decimal r.text.length), t) := by
    have hdigits : ∀ c ∈ decimal r.text.length, isspace c = false := fun c hc =>
      isspace_of_isDigit c (isDigit_decimal _ c hc)
    rw [hhead]
    show ∃ t, InputStream.extractWord isspace ⟨fieldBytes r tail, false, false⟩ = (_, t)
    unfold fieldBytes
    rw [ha]
    exact ⟨_, InputStream.extractWord_ahead (s := [32, 32]) (by decide +kernel) hdigits hne
      (by decide)⟩
  obtain ⟨t, hword⟩ := hword
  have haddress : l'.netaddrstr = decimal r.text.length := by
    unfold turn at h
    split at h
    · cases h
    · dsimp only at h
      split at h
      · cases h
      · have hread := Option.some.inj h
        have hl' : l' = l.readHead.readFields.readText.1 := by rw [hread]
        rw [hl']
        show ((l.readHead.file.extractWord isspace).1.getD l.readHead.netaddrstr) = _
        rw [hword]
        rfl
  rw [haddress]
  exact hne

/-! ## All turns -/

theorem bytes_head (r : QueueRecord) : r.bytes.head? = some 61 := rfl

theorem flatten_head (rs : List QueueRecord) :
    ((rs.map QueueRecord.bytes).flatten).head? ≠ some 10 := by
  cases rs with
  | nil => simp
  | cons r rs =>
    rw [List.map_cons, List.flatten_cons, List.head?_append, bytes_head]
    simp

theorem readsBack_of_framed (hr : ∀ r ∈ rs, r.Savable) (hf : ∀ r ∈ rs, r.Framed) (e : Bool)
    (he : rs ≠ [] → e = false)
    (hl : l.file = ⟨(rs.map QueueRecord.bytes).flatten, e, false⟩) : ReadsBack l rs := by
  induction rs generalizing l e with
  | nil => exact .done (turn_of_empty hl)
  | cons r rs ih =>
    obtain rfl := he (List.cons_ne_nil _ _)
    obtain ⟨l', hturn, hrecord, -, hfile⟩ := turn_saved (hr r (List.mem_cons_self ..))
      (hf r (List.mem_cons_self ..)) (flatten_head rs) hl
    have hrest : ReadsBack l' rs := by
      refine ih (fun r h => hr r (List.mem_cons_of_mem _ h))
        (fun r h => hf r (List.mem_cons_of_mem _ h)) _ (fun hne => ?_) hfile
      cases rs with
      | nil => exact absurd rfl hne
      | cons r rs => rfl
    rw [← hrecord]
    exact .record hturn (by rw [hfile]) hrest

theorem framed_of_readsBack (hr : ∀ r ∈ rs, r.Savable) (h : ReadsBack l rs)
    (hl : l.file.rest = (rs.map QueueRecord.bytes).flatten) (hfail : l.file.fail = false) :
    ∀ r ∈ rs, r.Framed := by
  induction h with
  | done h => exact fun r hr => absurd hr List.not_mem_nil
  | @record l l' msgtext rs ht hend _ ih =>
    have hthis := hr _ (List.mem_cons_self ..)
    have heof : l.file.eof = false := by
      by_contra hne
      rw [turn_of_eof (by simpa using hne)] at ht
      cases ht
    have hfile : l.file = ⟨(l'.record msgtext).bytes ++ (rs.map QueueRecord.bytes).flatten,
        false, false⟩ := by
      rw [← List.flatten_cons, ← List.map_cons (f := QueueRecord.bytes), ← hl]
      cases hf : l.file
      simp_all
    have hframed : (l'.record msgtext).Framed := by
      refine ⟨fun ha => turn_address hthis ha hfile ht ha, ?_⟩
      exact turn_text ht
    obtain ⟨l2, ht2, -, -, hfile2⟩ := turn_saved hthis hframed (flatten_head rs) hfile
    have hsame : l' = l2 := by
      rw [ht] at ht2
      exact (Prod.mk.inj (Option.some.inj ht2)).1
    intro r hmem
    rcases List.mem_cons.1 hmem with rfl | hmem
    · exact hframed
    · exact ih (fun r h => hr r (List.mem_cons_of_mem _ h)) hend (by rw [hsame, hfile2]) r hmem

/-! ## Loading -/

variable {lib : Libs} {env : Env} {parseAddr : CString → Option (List UInt8)} {q q' : SMq}
  {m : ShortMsgPending}

/-- Nothing is done about messages whose text is valid. -/
theorem debugDump_of_not_better (h : ∀ m ∈ q.timeSortedList, m.parsedIsBetter = false) :
    q.debugDump lib = .ok q := by
  have hkeep : ∀ l : List ShortMsgPending, (∀ m ∈ l, m.parsedIsBetter = false) →
      (l.mapM fun m => do
        return ({ m with toShortMsg := ← m.toShortMsg.makeTextValid lib } : ShortMsgPending)) =
        (.ok l : Except Fault _) := by
    intro l
    induction l with
    | nil => exact fun _ => rfl
    | cons m l ih =>
      intro hl
      have hm : m.toShortMsg.makeTextValid lib = .ok m.toShortMsg := by
        unfold ShortMsg.makeTextValid
        rw [hl m (List.mem_cons_self ..)]
        rfl
      rw [List.mapM_cons, hm, ih fun m h => hl m (List.mem_cons_of_mem _ h)]
      rfl
  unfold SMq.debugDump
  rw [hkeep _ h]
  rfl

/-- Validation keeps what a record says about the message. -/
theorem cameBack_of_validated {srcaddr : List UInt8} {id : MsgId} {sm : ShortMsg}
    (h : ShortMsgPending.Validated lib (r.message srcaddr id) sm m) :
    m.parsedIsBetter = false ∧ m.text = some r.text ∧ m.msToSc = r.msToSc ∧
      m.needRepack = r.needRepack ∧ m.srcaddr = srcaddr := by
  obtain ⟨⟨sip, valid, ct, rp, tl, rfl⟩, -⟩ := ShortMsg.parse_ok (by rfl) h.parse
  obtain ⟨relay, tag, hash, rfl⟩ := h.same
  exact ⟨rfl, rfl, rfl, rfl, rfl⟩

/-- A record that passes is put on the front of the queue. -/
theorem load_passes (hr : r.Savable) (hp : r.Passes lib env parseAddr q.settings)
    (hrecord : l.record r.text = r) (hn : l.alength = r.text.length)
    (hq : ∀ m ∈ q.timeSortedList, m.parsedIsBetter = false) :
    ∃ q' m, l.load lib env q r.text (parseAddr l.netaddrstr) = .ok q' ∧
      q'.timeSortedList = m :: q.timeSortedList ∧ q'.settings = q.settings ∧
      r.CameBack parseAddr m ∧ m.parsedIsBetter = false := by
  obtain ⟨srcaddr, haddr, hvalid⟩ := hp
  obtain ⟨m, hm, hreq⟩ := hvalid q.nextId
  obtain ⟨sm, hv⟩ := ShortMsgPending.validated_of_ok hm
  obtain ⟨hbetter, htext, hms, hrepack, hsrc⟩ := cameBack_of_validated hv
  have hfields := hrecord
  unfold record at hfields
  have hlength := hr.text.2.2
  have hmessage : ({ l.message r.text srcaddr with id := q.nextId } : ShortMsgPending) =
      r.message srcaddr q.nextId := by
    have h1 : l.alength % 2 ^ 16 = r.text.length := by omega
    have h2 : cstr r.text = r.text := cstr_of_not_mem hr.text.2.1
    have h3 : decide (l.msToSc ≠ 0) = r.msToSc := congrArg QueueRecord.msToSc hfields
    have h4 : decide (l.needRepack ≠ 0) = r.needRepack := congrArg QueueRecord.needRepack hfields
    unfold message QueueRecord.message
    rw [h1, h2, h3, h4]
  have hstate : SmState.ofNat l.astate = r.state := congrArg QueueRecord.state hfields
  have htime : (l.atime : Time) = r.nextActionTime := congrArg QueueRecord.nextActionTime hfields
  have haddress : l.netaddrstr = r.address := congrArg QueueRecord.address hfields
  let m' := { m with state := r.state, nextActionTime := r.nextActionTime }
  let q1 : SMq := { q with nextId := q.nextId + 1, timeSortedList := m' :: q.timeSortedList }
  have hdump : q1.debugDump lib = .ok q1 := by
    refine debugDump_of_not_better fun x hx => ?_
    rcases List.mem_cons.1 hx with rfl | hx
    · exact hbetter
    · exact hq x hx
  refine ⟨{ q1 with posted := q1.posted + 1 }, m', ?_, rfl, rfl,
    ⟨rfl, rfl, haddr.trans (congrArg some hsrc.symm), htext, hms, hrepack⟩, hbetter⟩
  obtain ⟨p, hparsed, hisreq⟩ : ∃ p, m.parsed = some p ∧ p.isRequest = true := by
    cases hp : m.parsed with
    | none => simp [hp] at hreq
    | some p => exact ⟨p, rfl, by simpa [hp] using hreq⟩
  unfold load
  rw [haddress, haddr]
  dsimp only
  rw [hmessage, hm]
  simp only [Bind.bind, Except.bind, if_true, hparsed, deref, Option.elim, hisreq]
  rw [hstate, htime]
  show (q1.debugDump lib >>= fun q => pure { q with posted := q.posted + 1 }) = _
  rw [hdump]
  rfl

theorem rebuilds_of_framed {rs0 : List QueueRecord} (hr : ∀ r ∈ rs, r.Savable)
    (hf : ∀ r ∈ rs, r.Framed) (hp : ∀ r ∈ rs, r.Passes lib env parseAddr q.settings) (e : Bool)
    (he : rs ≠ [] → e = false)
    (hl : l.file = ⟨(rs.map QueueRecord.bytes).flatten, e, false⟩)
    (hq : ∀ m ∈ q.timeSortedList, m.parsedIsBetter = false)
    (hback : List.Forall₂ (QueueRecord.CameBack parseAddr) rs0 q.timeSortedList) :
    ∃ q', Rebuilds lib env parseAddr l q q' ∧
      List.Forall₂ (QueueRecord.CameBack parseAddr) (rs.reverse ++ rs0) q'.timeSortedList := by
  induction rs generalizing l e q rs0 with
  | nil =>
    refine ⟨q, .done ?_, hback⟩
    unfold turnWith
    rw [turn_of_empty hl]
  | cons r rs ih =>
    obtain rfl := he (List.cons_ne_nil _ _)
    have hthis := hr r (List.mem_cons_self ..)
    obtain ⟨l', hturn, hrecord, hn, hfile⟩ :=
      turn_saved hthis (hf r (List.mem_cons_self ..)) (flatten_head rs) hl
    obtain ⟨q1, m, hload, hlist, hset, hcame, hbetter⟩ :=
      load_passes hthis (hp r (List.mem_cons_self ..)) hrecord hn hq
    have hstep : l.turnWith lib env parseAddr q = .ok (some (l', q1)) := by
      unfold turnWith
      rw [hturn]
      show (l'.load lib env q r.text (parseAddr l'.netaddrstr) >>= fun q => _) = _
      rw [hload]
      rfl
    have hq1 : ∀ m ∈ q1.timeSortedList, m.parsedIsBetter = false := by
      rw [hlist]
      intro x hx
      rcases List.mem_cons.1 hx with rfl | hx
      · exact hbetter
      · exact hq x hx
    have hback1 : List.Forall₂ (QueueRecord.CameBack parseAddr) (r :: rs0) q1.timeSortedList := by
      rw [hlist]
      exact .cons hcame hback
    obtain ⟨q', hrest, hall⟩ := ih (fun r h => hr r (List.mem_cons_of_mem _ h))
      (fun r h => hf r (List.mem_cons_of_mem _ h))
      (fun r h => by rw [hset]; exact hp r (List.mem_cons_of_mem _ h)) _
      (fun hne => by cases rs with
        | nil => exact absurd rfl hne
        | cons r rs => rfl) hfile hq1 hback1
    refine ⟨q', .record hstep hrest, ?_⟩
    rw [List.reverse_cons, List.append_assoc]
    exact hall

/-! ## The whole file -/

theorem mapM_saveRecord {ms : List ShortMsgPending} {records : List CString}
    (h : ms.mapM (fun m => do return saveRecord env m (← deref m.text)) = Except.ok records)
    (hrs : ms.map (fun m => m.text.map (m.record env)) = rs.map some) :
    records = rs.map QueueRecord.bytes := by
  induction ms generalizing rs records with
  | nil =>
    cases rs with
    | nil =>
      cases h
      rfl
    | cons r rs => cases hrs
  | cons m ms ih =>
    cases rs with
    | nil => cases hrs
    | cons r rs =>
      obtain ⟨hm, hms⟩ := List.cons.inj hrs
      rw [List.mapM_cons] at h
      obtain ⟨bytes, hbytes, h⟩ := Except.bind_eq_ok.1 h
      obtain ⟨rest, hrest, h⟩ := Except.bind_eq_ok.1 h
      obtain ⟨text, htext, hbytes⟩ := Except.bind_eq_ok.1 hbytes
      have hrecord : m.record env text = r := by
        have htext' := deref_eq_ok htext
        simpa [htext'] using hm
      cases hbytes
      cases h
      rw [List.map_cons, ih hrest hms, ← hrecord]
      rfl

/-- A queue is saved as the records of its messages in the reverse order. -/
theorem saveQueueToFile_bytes {content : List UInt8}
    (h : q.saveQueueToFile lib env = .ok (content, q'))
    (hrs : q'.timeSortedList.map (fun m => m.text.map (m.record env)) = rs.map some) :
    content = (rs.reverse.map QueueRecord.bytes).flatten := by
  unfold SMq.saveQueueToFile at h
  obtain ⟨q1, -, h⟩ := Except.bind_eq_ok.1 h
  obtain ⟨records, hrecords, h⟩ := Except.bind_eq_ok.1 h
  obtain ⟨rfl, rfl⟩ := Prod.mk.inj (Except.pure_eq_ok.1 h)
  refine congrArg List.flatten (mapM_saveRecord hrecords ?_)
  rw [List.map_reverse, hrs, List.map_reverse]

/-- A saved queue comes back from its file, record for record and in its order, exactly if every
record has an address and no text begins with a line break. -/
theorem givesBack_iff (lib : Libs) (env : Env) (parseAddr : CString → Option (List UInt8))
    (s : Settings) (q q' : SMq) (content : List UInt8) (rs : List QueueRecord)
    (hsave : q.saveQueueToFile lib env = .ok (content, q'))
    (hrs : q'.timeSortedList.map (fun m => m.text.map (m.record env)) = rs.map some)
    (hr : ∀ r ∈ rs, r.Savable) :
    GivesBack lib env parseAddr s content rs ↔ ∀ r ∈ rs, r.Framed := by
  have hcontent := saveQueueToFile_bytes hsave hrs
  have hr' : ∀ r ∈ rs.reverse, r.Savable := fun r h => hr r (List.mem_reverse.1 h)
  constructor
  · intro h r hmem
    obtain ⟨hreads, -⟩ := h 0 0 0 0 0
    exact framed_of_readsBack hr' hreads hcontent rfl r (List.mem_reverse.2 hmem)
  · intro hf astate atime alength msToSc needRepack
    have hf' : ∀ r ∈ rs.reverse, r.Framed := fun r h => hf r (List.mem_reverse.1 h)
    have hfile : (start content astate atime alength msToSc needRepack).file =
        ⟨(rs.reverse.map QueueRecord.bytes).flatten, false, false⟩ := by
      rw [← hcontent]
      rfl
    refine ⟨readsBack_of_framed hr' hf' false (fun _ => rfl) hfile, fun hp => ?_⟩
    obtain ⟨q', hrebuilds, hback⟩ := rebuilds_of_framed (q := { settings := s }) hr' hf'
      (fun r h => hp r (List.mem_reverse.1 h)) false (fun _ => rfl) hfile
      (fun m hm => absurd hm List.not_mem_nil) .nil
    rw [List.reverse_reverse, List.append_nil] at hback
    exact ⟨q', hrebuilds, hback⟩

/-! ## Two messages -/

def recordLibs : Libs := sampleLibs [sampleRequest, sampleCommand] []

/-- A text message and a command, of which the second one was saved first. -/
def recordQueue : SMq where
  settings := {}
  timeSortedList := [queuedMsg 1 .requestMsgDelivery 5000 sampleRequest,
    queuedMsg 0 .requestDestinationSipurl 7000 sampleCommand]
  nextId := 2

def recordAt (state : SmState) (time : Time) (sip : SipMessage) : QueueRecord :=
  ⟨state, time, str "127.0.0.1:5062", SampleLibs.messageText sip, true, true⟩

/-- The records of these messages. -/
def twoRecords : List QueueRecord :=
  [recordAt .requestMsgDelivery 5000 sampleRequest,
    recordAt .requestDestinationSipurl 7000 sampleCommand]

theorem twoRecords_savable : ∀ r ∈ twoRecords, r.Savable := by
  have hstates : ∀ r ∈ twoRecords, SmState.ofNat r.state.toNat = r.state ∧
      r.state.toNat < 2 ^ 31 := by decide
  have htimes : ∀ r ∈ twoRecords, 0 ≤ r.nextActionTime ∧ r.nextActionTime < 2 ^ 32 := by decide
  have haddress : ∀ r ∈ twoRecords, ∀ c ∈ r.address, isspace c = false := by decide +kernel
  have htexts : ∀ r ∈ twoRecords, r.text ≠ [] ∧ 0 ∉ r.text ∧ r.text.length < 2 ^ 16 := by
    decide +kernel
  exact fun r hr => ⟨hstates r hr, htimes r hr, haddress r hr, htexts r hr⟩

set_option maxRecDepth 100000 in
theorem twoRecords_pass : ∀ r ∈ twoRecords, r.Passes recordLibs addressEnv some {} :=
  List.forall_mem_cons.2 ⟨⟨_, rfl, fun _ => ⟨_, rfl, rfl⟩⟩,
    List.forall_mem_singleton.2 ⟨_, rfl, fun _ => ⟨_, rfl, rfl⟩⟩⟩

theorem givesBack_iff_sample : ∃ content q',
    recordQueue.saveQueueToFile recordLibs addressEnv = .ok (content, q') ∧
      GivesBack recordLibs addressEnv some {} content twoRecords ∧
      ∀ r ∈ twoRecords, r.Passes recordLibs addressEnv some {} := by
  have hframed : ∀ r ∈ twoRecords, r.Framed := by
    have haddress : ∀ r ∈ twoRecords, r.address ≠ [] := by decide
    have htexts : ∀ r ∈ twoRecords, r.text.head? ≠ some 10 := by decide
    exact fun r hr => ⟨haddress r hr, htexts r hr⟩
  refine ⟨_, _, rfl, (givesBack_iff recordLibs addressEnv some {} recordQueue _ _ twoRecords rfl rfl
    twoRecords_savable).2 hframed, twoRecords_pass⟩

/-! ## A message that does not come back -/

/-- A queue of one message that holds a text. -/
def savedQueue (text : CString) : SMq where
  settings := {}
  timeSortedList := [{ text := some text, textLength := text.length, id := 0,
                       state := .requestMsgDelivery, nextActionTime := 5000 }]
  nextId := 1

/-- The record of that message. -/
def savedRecord (text : CString) : QueueRecord :=
  ⟨.requestMsgDelivery, 5000, str "127.0.0.1:5062", text, false, true⟩

theorem savedRecord_savable {text : CString} (h : text ≠ [] ∧ 0 ∉ text ∧ text.length < 2 ^ 16) :
    ∀ r ∈ [savedRecord text], r.Savable := by
  intro r hr
  obtain rfl := List.mem_singleton.1 hr
  have haddress : ∀ c ∈ str "127.0.0.1:5062", isspace c = false := by decide +kernel
  have htime : (0 : Int) ≤ 5000 ∧ (5000 : Int) < 2 ^ 32 := by decide
  have hstate : SmState.requestMsgDelivery.toNat < 2 ^ 31 := by decide
  exact ⟨⟨rfl, hstate⟩, htime, haddress, h⟩

/-- A message whose text begins with a line break does not come back. -/
theorem not_givesBack_linebreak : ∃ content q',
    (savedQueue (str "\nHi")).saveQueueToFile (sampleLibs [] []) addressEnv = .ok (content, q') ∧
      q'.timeSortedList.map (fun m => m.text.map (m.record addressEnv)) =
        [some (savedRecord (str "\nHi"))] ∧ (savedRecord (str "\nHi")).Savable ∧
      ¬ GivesBack (sampleLibs [] []) addressEnv some {} content [savedRecord (str "\nHi")] := by
  have htext : str "\nHi" ≠ [] ∧ 0 ∉ str "\nHi" ∧ (str "\nHi").length < 2 ^ 16 := by decide
  have hsavable := savedRecord_savable htext
  refine ⟨_, _, rfl, rfl, hsavable _ (List.mem_singleton.2 rfl), fun h => ?_⟩
  obtain ⟨hreads, -⟩ := h 0 0 0 0 0
  have hframed := framed_of_readsBack hsavable hreads rfl rfl _ (List.mem_singleton.2 rfl)
  exact hframed.2 rfl

end ReadLoop

end Smqueue

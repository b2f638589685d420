import Smqueue.Proofs.PduLayoutProofs

/-!
# Proofs: user data is read back

The user data that a writer left at the end of a frame is read back as it was, and a text that was
encoded in septets is decoded to itself, as far as its characters are in the alphabet.
-/

namespace Smqueue

open Frame (Reads blank develop toBits)

/-! ## The alphabet -/

theorem gGSMAlphabet_length : gGSMAlphabet.length = 2 ^ 7 := by simp [gGSMAlphabet, str]

/-- The code of a character is the place of the character in the alphabet. -/
theorem decodeGSMChar_of_mem {c : UInt8} (hc : c ∈ gGSMAlphabet) :
    decodeGSMChar (encodeGSMChar c) = c := by
  have hlt : gGSMAlphabet.reverse.idxOf c < gGSMAlphabet.length := by
    rw [← List.length_reverse]
    exact List.idxOf_lt_length_iff.2 (List.mem_reverse.2 hc)
  have hget : gGSMAlphabet.reverse[gGSMAlphabet.reverse.idxOf c]? = some c :=
    List.getElem?_idxOf (List.mem_reverse.2 hc)
  rw [List.getElem?_reverse hlt] at hget
  unfold decodeGSMChar encodeGSMChar
  rw [if_pos hc, List.getD_eq_getElem?_getD, hget]
  rfl

/-- A character of the alphabet is decoded to itself, and any other one to the first character of the
alphabet, which has the code zero. -/
theorem decode_encodeGSMChar (c : UInt8) :
    encodeGSMChar c < 2 ^ 7 ∧ (c ∈ gGSMAlphabet → decodeGSMChar (encodeGSMChar c) = c) ∧
      encodeGSMChar (decodeGSMChar (encodeGSMChar c)) = encodeGSMChar c := by
  have hlength := gGSMAlphabet_length
  by_cases hc : c ∈ gGSMAlphabet
  · refine ⟨?_, decodeGSMChar_of_mem, by rw [decodeGSMChar_of_mem hc]⟩
    unfold encodeGSMChar
    rw [if_pos hc]
    omega
  · have hcode : encodeGSMChar c = 0 := if_neg hc
    rw [hcode]
    exact ⟨by omega, fun hmem => absurd hmem hc, by decide +kernel⟩

/-! ## Septets -/

/-- The septets of a text, each with its least significant bit first. -/
def septetBits (text : CString) : List Bool :=
  text.flatMap fun c => (toBits 7 (encodeGSMChar c)).reverse

/-- The text that the septets of a text stand for. -/
def readable (text : CString) : CString := text.map fun c => decodeGSMChar (encodeGSMChar c)

theorem septetBits_length (text : CString) : (septetBits text).length = 7 * text.length := by
  unfold septetBits
  rw [List.length_flatMap]
  simp [Nat.mul_comm]

theorem encode7bit_rawData (text : CString) : (TLUserData.encode7bit text).rawData =
    septetBits text ++
      List.replicate ((text.length * 7 + 7) / 8 * 8 - text.length * 7) false := rfl

theorem encode7bit_rawData_length (text : CString) :
    (TLUserData.encode7bit text).rawData.length = (text.length * 7 + 7) / 8 * 8 := by
  rw [encode7bit_rawData, List.length_append, septetBits_length, List.length_replicate]
  omega

/-- The decoder reads a septet for each character. -/
theorem decodeLoop_reads (text : CString) :
    Reads (fun raw => TLUserData.decodeLoop raw text.length) (septetBits text) (readable text) := by
  induction text with
  | nil => exact Reads.pure []
  | cons c text ih =>
    have hcode : Reads (fun raw => readFieldReversed raw 7) (toBits 7 (encodeGSMChar c)).reverse
        (encodeGSMChar c) := by
      refine (Frame.fieldReversed_reads (by simp)).of_eq rfl ?_
      rw [List.reverse_reverse, Frame.ofBits_toBits_of_lt (decode_encodeGSMChar c).1]
    refine Reads.bind hcode ?_
    exact ih.map fun rest : CString => decodeGSMChar (encodeGSMChar c) :: rest

theorem decode_encode7bit (text : CString) :
    (TLUserData.encode7bit text).decode = .ok (readable text) := by
  have hlen := encode7bit_rawData_length text
  have hfits : ¬ (TLUserData.encode7bit text).length * 7 >
      (TLUserData.encode7bit text).rawData.length := by
    change ¬ text.length * 7 > _
    omega
  have hreads := decodeLoop_reads text []
    (List.replicate ((text.length * 7 + 7) / 8 * 8 - text.length * 7) false)
  rw [List.nil_append, ← encode7bit_rawData] at hreads
  have hrun : TLUserData.decodeLoop (TLUserData.encode7bit text).rawData text.length 0 =
      .ok (readable text, 0 + (septetBits text).length) := hreads
  unfold TLUserData.decode
  rw [if_neg hfits]
  change (TLUserData.decodeLoop (TLUserData.encode7bit text).rawData text.length 0).bind
    (fun x => pure x.1) = _
  rw [hrun]
  rfl

/-- A text and what its septets stand for have the same septets. -/
theorem encode7bit_readable (text : CString) :
    TLUserData.encode7bit (readable text) = TLUserData.encode7bit text := by
  have hbits : septetBits (readable text) = septetBits text := by
    unfold septetBits readable
    rw [List.flatMap_map]
    refine List.flatMap_congr fun c _ => ?_
    rw [(decode_encodeGSMChar c).2.2]
  have hlen : (readable text).length = text.length := List.length_map _
  have hraw := encode7bit_rawData (readable text)
  rw [hbits, hlen, ← encode7bit_rawData text] at hraw
  have hlength : (TLUserData.encode7bit (readable text)).length =
      (TLUserData.encode7bit text).length := hlen
  unfold TLUserData.encode7bit at hraw hlength ⊢
  dsimp only at hraw hlength ⊢
  rw [hraw, hlength]

/-! ## Written and read back -/

/-- What the writer left of user data of whole octets is read back as it was. -/
theorem TLUserData.parse_written {ud : TLUserData} {src pre : List Bool}
    (hsrc : src = pre ++ toBits 8 ud.length ++ Frame.reverseOctets ud.rawData)
    (hlen : ud.length < 256) :
    TLUserData.parse src ud.dcs ud.udhi pre.length = .ok (ud, pre.length + 8) := by
  have hlength : readField src 8 pre.length = .ok (ud.length, pre.length + 8) := by
    rw [hsrc]
    exact Frame.field_reads_toBits (n := 8) (by omega) pre _
  have hrest : src.drop (pre.length + 8) = Frame.reverseOctets ud.rawData := by
    rw [hsrc]
    refine List.drop_left' ?_
    rw [List.length_append, Frame.toBits_length]
  have hret : ∀ raw, raw = ud.rawData → (Except.ok
      ((⟨ud.dcs, ud.udhi, ud.length, raw⟩ : TLUserData), pre.length + 8) : Except Fault _) =
        .ok (ud, pre.length + 8) := by
    rintro raw rfl
    rfl
  unfold TLUserData.parse
  rw [Frame.bind_apply, hlength]
  exact hret _ (by rw [hrest, Frame.reverseOctets_reverseOctets])

/-- User data of whole octets leaves no bit unwritten. -/
theorem TLUserData.sheet_eq {ud : TLUserData} (h : 8 ∣ ud.rawData.length) :
    ud.sheet = (Frame.reverseOctets ud.rawData).map some := by
  have hnone : (ud.rawData.length + 7) / 8 * 8 - ud.rawData.length = 0 := by omega
  unfold TLUserData.sheet
  rw [hnone, ← Frame.reverseOctets_map]
  exact congrArg _ (List.append_nil _)

/-- A text that is encoded, written at the end of a frame, read back and decoded has the same length,
agrees with the text wherever that has a character of the alphabet, and is encoded to the same bits
again. -/
theorem TLUserData.decode_written (t : CString) (ht : t.length ≤ 255) (pre : List Bool) :
    ∃ src ud t', (TLUserData.encode7bit t).write
        (pre.map some ++ blank (8 * (TLUserData.encode7bit t).octets), pre.length) =
          .ok ((), (src.map some, pre.length + 8)) ∧
      TLUserData.parse src 0 false pre.length = .ok (ud, pre.length + 8) ∧ ud.decode = .ok t' ∧
      t'.length = t.length ∧ (∀ (i : Nat) c, t[i]? = some c → c ∈ gGSMAlphabet → t'[i]? = some c) ∧
      TLUserData.encode7bit t' = ud := by
  have hdvd : 8 ∣ (TLUserData.encode7bit t).rawData.length :=
    ⟨(t.length * 7 + 7) / 8, by rw [encode7bit_rawData_length, Nat.mul_comm]⟩
  have hsheet := TLUserData.sheet_eq hdvd
  have hoctets : 8 * (TLUserData.encode7bit t).octets = 8 + (TLUserData.encode7bit t).sheet.length := by
    rw [TLUserData.sheet_length, TLUserData.octets]
    omega
  have hwrite := (TLUserData.encode7bit t).write_apply (pre.map some)
  rw [List.length_map] at hwrite
  refine ⟨pre ++ toBits 8 t.length ++ Frame.reverseOctets (TLUserData.encode7bit t).rawData,
    TLUserData.encode7bit t, readable t, ?_, ?_, decode_encode7bit t, List.length_map _,
    fun i c hi hc => ?_, encode7bit_readable t⟩
  · rw [hoctets, hwrite, hsheet, List.map_append, List.map_append]
    rfl
  · exact @TLUserData.parse_written (TLUserData.encode7bit t) _ pre rfl (Nat.lt_succ_of_le ht)
  · unfold readable
    rw [List.getElem?_map, hi]
    exact congrArg some ((decode_encodeGSMChar c).2.1 hc)

/-- A text of ten characters, two of which the alphabet lacks. -/
theorem TLUserData.decode_written_sample : ∃ src ud t',
    (TLUserData.encode7bit (str "[no] cents")).write
        (([true].map some) ++ blank (8 * (TLUserData.encode7bit (str "[no] cents")).octets), 1) =
          .ok ((), (src.map some, 1 + 8)) ∧
      TLUserData.parse src 0 false 1 = .ok (ud, 1 + 8) ∧ ud.decode = .ok t' ∧
      t'.length = (str "[no] cents").length ∧
      (∀ (i : Nat) c, (str "[no] cents")[i]? = some c → c ∈ gGSMAlphabet → t'[i]? = some c) ∧
      TLUserData.encode7bit t' = ud :=
  TLUserData.decode_written (str "[no] cents") (by decide) [true]

end Smqueue

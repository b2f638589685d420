import Smqueue.Proofs.PduLayoutProofs

/-!
# Proofs: RP-DATA messages are read back

The parser of RP-DATA returns what the writer of RP-DATA was given. Every parser reads the bits that
the layout of its element states.
-/

namespace Smqueue

open Frame (Reads Writes blank develop toBits)

/-! ## Digits -/

/-- A character that the digits of an address can hold. -/
def isBcd (c : UInt8) : Bool := c = 42 || c = 35 || isdigit c

/-- What the nibble of a character is read as. -/
def reread (c : UInt8) : UInt8 := bcdChar (encode c)

/-- No character has the nibble of the filler, and one that digits can hold is read back. -/
theorem encode_lt (c : UInt8) : encode c < 15 ∧ (isBcd c = true → reread c = c) := by
  have hall : ∀ c : BitVec 8, encode ⟨c⟩ < 15 ∧ (isBcd ⟨c⟩ = true → reread ⟨c⟩ = ⟨c⟩) := by
    decide +kernel
  exact hall c.toBitVec

theorem readField_reads {n v : Nat} (h : v < 2 ^ n) :
    Reads (fun src => readField src n) (toBits n v) v := Frame.field_reads_toBits h

/-- The digit loop reads the nibbles that were written. -/
theorem parseLoop_reads (ds acc : CString) (hlen : acc.length + ds.length ≤ maxDigits) :
    Reads (fun src => L3BCDDigits.parseLoop src (ds.length / 2 + ds.length % 2) acc) (digitBits ds)
      (acc ++ ds.map reread) := by
  fun_induction digitBits ds generalizing acc with
  | case1 a b ds ih =>
    have ha := (encode_lt a).1
    have hb := (encode_lt b).1
    have hn : (a :: b :: ds).length / 2 + (a :: b :: ds).length % 2 =
        ds.length / 2 + ds.length % 2 + 1 := by
      simp only [List.length_cons]
      omega
    simp only [List.length_cons] at hlen
    have hrest := ih (acc ++ [reread a] ++ [reread b]) (by
      simp only [List.length_append, List.length_cons, List.length_nil]
      omega)
    rw [hn, List.append_assoc]
    refine Reads.bind (readField_reads (n := 4) (v := encode b) (by omega)) ?_
    refine Reads.bind (readField_reads (n := 4) (v := encode a) (by omega)) ?_
    -- both digits fit
    have hfit : ¬ (acc ++ [reread a] ++ [reread b]).length > maxDigits := by
      simp only [List.length_append, List.length_cons, List.length_nil]
      omega
    have hne : encode b ≠ 15 := by omega
    unfold reread at hfit hrest
    simp only [if_pos hne, if_neg hfit]
    exact hrest.of_eq rfl (by simp [reread])
  | case2 a =>
    have ha := (encode_lt a).1
    have hn : [a].length / 2 + [a].length % 2 = 1 := by simp
    rw [hn]
    refine Reads.bind (readField_reads (n := 4) (v := 15) (by omega)) ?_
    refine (Reads.bind (readField_reads (n := 4) (v := encode a) (by omega)) ?_).of_eq
      (List.append_nil _) rfl
    have hfit : ¬ (acc ++ [reread a] ++ []).length > maxDigits := by
      simp only [List.length_cons, List.length_nil] at hlen
      simp only [List.length_append, List.length_cons, List.length_nil]
      omega
    unfold reread at hfit
    simp only [ne_eq, not_true_eq_false, if_false, if_neg hfit]
    exact (Reads.pure (acc ++ [reread a] ++ [])).of_eq rfl (by simp)
  | case3 => exact (Reads.pure _).of_eq rfl (by simp)

/-- Digits are read back as they are. -/
theorem IsDigits.map_reread {digits : CString} (h : IsDigits digits) :
    (dropPlus digits).map reread = dropPlus digits := by
  have hsame : ∀ c ∈ dropPlus digits, reread c = c := by
    intro c hc
    apply (encode_lt c).2
    unfold isBcd
    rcases h.2 c hc with rfl | rfl | hd
    · rfl
    · rfl
    · simp [hd]
  rw [List.map_congr_left hsame, List.map_id']

/-- The plus in front of digits, if any, and the digits without it. -/
theorem plus_append_dropPlus (digits : CString) :
    (if digits.head? = some 43 then [43] else []) ++ dropPlus digits = digits := by
  cases digits with
  | nil => rfl
  | cons c ds =>
    by_cases hc : c = 43
    · subst hc
      rfl
    · have hdrop : dropPlus (c :: ds) = c :: ds := by
        unfold dropPlus
        split
        · rename_i heq
          exact absurd (List.cons.inj heq).1 hc
        · rfl
      rw [hdrop]
      simp [hc]

theorem digitBits_dropPlus_length (digits : CString) :
    (digitBits (dropPlus digits)).length = 8 * L3BCDDigits.lengthV digits :=
  digitBits_length (dropPlus digits)

/-- The parser of digits reads what their writer writes: the filler of an odd number of digits does not
come back, and the plus comes back by the flag. -/
theorem digits_reads {digits : CString} (h : IsDigits digits) :
    Reads (fun src =>
        L3BCDDigits.parse src (L3BCDDigits.lengthV digits) (digits.head? == some 43))
      (digitBits (dropPlus digits)) digits := by
  have hplus := plus_append_dropPlus digits
  have hfit := congrArg List.length hplus
  rw [List.length_append] at hfit
  have hloop := parseLoop_reads (dropPlus digits) (if digits.head? = some 43 then [43] else [])
    (by rw [hfit]; exact h.1)
  rw [h.map_reread, hplus] at hloop
  unfold L3BCDDigits.parse
  simp only [beq_iff_eq]
  exact hloop

/-- Digits that are written to a frame with room for them are read back from it, and the reader stands
where the writer stood. -/
theorem digits_reread {digits : CString} (h : IsDigits digits) {dest : Frame.Sheet} {wp : Nat}
    (hroom : wp + 8 * L3BCDDigits.lengthV digits ≤ dest.length) :
    ∃ dest', L3BCDDigits.write digits (dest, wp) =
        .ok ((), (dest', wp + 8 * L3BCDDigits.lengthV digits)) ∧
      ∀ junk, L3BCDDigits.parse (develop junk dest') (L3BCDDigits.lengthV digits)
          (digits.head? == some 43) wp =
        .ok (digits, wp + 8 * L3BCDDigits.lengthV digits) := by
  have hlen := digitBits_dropPlus_length digits
  have hwp : (dest.take wp).length = wp := List.length_take_of_le (by omega)
  refine ⟨dest.take wp ++ (digitBits (dropPlus digits)).map some ++
    (dest.drop wp).drop ((digitBits (dropPlus digits)).map some).length, ?_, ?_⟩
  · have hwrite := writeLoop_writes (dropPlus digits) (dest.take wp) (dest.drop wp) (by
      rw [List.length_map, List.length_drop]
      omega)
    rw [List.take_append_drop, hwp, List.length_map, hlen] at hwrite
    rw [List.length_map, hlen]
    exact hwrite
  · intro junk
    have hread := digits_reads h (develop junk (dest.take wp))
    rw [Frame.develop_length, hwp, hlen] at hread
    rw [Frame.develop_append, Frame.develop_append, Frame.develop_map_some]
    exact hread _

/-- Five digits after a plus, in the second octet of a frame. -/
theorem digits_reread_sample : ∃ dest',
    L3BCDDigits.write (str "+12*#5") (blank 40, 8) = .ok ((), (dest', 32)) ∧
      ∀ junk, L3BCDDigits.parse (develop junk dest') 3 true 8 = .ok (str "+12*#5", 32) := by
  have hdigits : IsDigits (str "+12*#5") := ⟨by decide, by decide +kernel⟩
  exact @digits_reread _ hdigits (blank 40) 8 (by decide)

/-! ## Addresses -/

/-- The address that the bits of an address are read as. -/
def Address.reread (a : Address) : Address :=
  { a with digits := (if a.type == internationalNumber then [43] else []) ++
      (dropPlus a.digits).map Smqueue.reread }

/-- The plus of a number goes over to the type of the number and back. -/
theorem plus_dropPlus (number : CString) :
    (if (Address.ofDigits number).type == internationalNumber then [43] else []) ++
      dropPlus (Address.ofDigits number).digits = (Address.ofDigits number).digits := by
  have hhead : (Address.ofDigits number).digits.head? = number.head? := by
    cases number <;> rfl
  have htype : ((Address.ofDigits number).type == internationalNumber) = true ↔
      (Address.ofDigits number).digits.head? = some 43 := by
    rw [hhead]
    unfold Address.ofDigits internationalNumber nationalNumber
    by_cases hplus : number.head? = some 43 <;> simp [hplus]
  simp only [htype]
  exact plus_append_dropPlus _

theorem ofDigits_digits {number : CString} (h : IsNumber number) :
    (Address.ofDigits number).digits = number := List.take_of_length_le h.1

/-- A number is read back. -/
theorem IsNumber.reread {number : CString} (h : IsNumber number) :
    (Address.ofDigits number).reread = Address.ofDigits number := by
  have hdigits := IsDigits.map_reread ⟨h.1, h.2.2⟩
  have hplus := plus_dropPlus number
  rw [ofDigits_digits h] at hplus
  unfold Address.reread
  rw [ofDigits_digits h, hdigits, hplus]
  unfold Address.ofDigits
  rw [List.take_of_length_le h.1]

theorem lengthV_pos {number : CString} (h : IsNumber number) : 0 < L3BCDDigits.lengthV number := by
  have hpos := List.length_pos_of_ne_nil h.2.1
  unfold L3BCDDigits.lengthV
  dsimp only
  omega

theorem ofDigits_type_lt (number : CString) : (Address.ofDigits number).type < 2 ^ 3 := by
  unfold Address.ofDigits internationalNumber nationalNumber
  dsimp only
  split <;> omega

theorem digits_length_le (number : CString) : (Address.ofDigits number).digits.length ≤ 20 :=
  List.length_take_le _ _

theorem lengthV_le (number : CString) :
    L3BCDDigits.lengthV (Address.ofDigits number).digits ≤ 10 := by
  have hdrop : (dropPlus (Address.ofDigits number).digits).length ≤
      (Address.ofDigits number).digits.length := by
    generalize (Address.ofDigits number).digits = ds
    unfold dropPlus
    split <;> simp
  have hmax := digits_length_le number
  unfold L3BCDDigits.lengthV
  dsimp only
  omega

theorem address_reads (number : CString) :
    Reads (fun src =>
        RPAddress.parseV src (1 + L3BCDDigits.lengthV (Address.ofDigits number).digits))
      (Address.ofDigits number).bits (Address.ofDigits number).reread := by
  have hdigits := parseLoop_reads (dropPlus (Address.ofDigits number).digits)
    (if (Address.ofDigits number).type == internationalNumber then [43] else []) (by
      rw [← List.length_append, plus_dropPlus]
      exact digits_length_le number)
  unfold Address.bits
  rw [List.append_assoc, List.append_assoc]
  refine Reads.bind (readField_reads (n := 1) (v := 1) (by omega)) ?_
  refine Reads.bind (readField_reads (ofDigits_type_lt number)) ?_
  refine Reads.bind (readField_reads (n := 4) (v := e164Plan) (by decide)) ?_
  simp only [Nat.add_sub_cancel_left]
  exact hdigits.map fun mDigits : CString =>
    (⟨(Address.ofDigits number).type, e164Plan, mDigits⟩ : Address)

/-! ## Elements with a length octet -/

theorem parseLV_reads {α : Type} {default a : α} {parseV : List Bool → Nat → Read α} {n : Nat}
    {bs : List Bool} (hpos : 0 < n) (hlt : n < 256) (hbs : bs.length = 8 * n)
    (h : Reads (fun src => parseV src n) bs a) :
    Reads (fun src => parseLV src default (parseV src)) (toBits 8 n ++ bs) a := by
  refine Reads.bind (readField_reads (n := 8) (by omega)) ?_
  intro pre rest
  have hne : n ≠ 0 := by omega
  simp only [if_neg hne]
  change ((parseV (pre ++ bs ++ rest) n) pre.length).bind (fun x =>
    (if pre.length + 8 * n ≠ x.2 then throw .l3ReadError >>= fun _ => pure x.1 else pure x.1 : Read α)
      x.2) = _
  have hv : parseV (pre ++ bs ++ rest) n pre.length = .ok (a, pre.length + bs.length) := h pre rest
  rw [hv]
  change (if pre.length + 8 * n ≠ pre.length + bs.length then _ else pure a : Read α) _ = _
  rw [if_neg (by omega)]
  rfl

/-- An element of length zero keeps its default. -/
theorem parseLV_reads_empty {α : Type} (default : α) (parseV : List Bool → Nat → Read α) :
    Reads (fun src => parseLV src default (parseV src)) (toBits 8 0) default := by
  refine (Reads.bind (readField_reads (n := 8) (v := 0) (by omega)) ?_).of_eq
    (List.append_nil _) rfl
  exact Reads.pure default

/-- An element of bits, which may be empty. -/
theorem parseLV_reads_bits {parseV : List Bool → Nat → Read (List Bool)} {n : Nat} {bs : List Bool}
    (hlt : n < 256) (hbs : bs.length = 8 * n) (h : Reads (fun src => parseV src n) bs bs) :
    Reads (fun src => parseLV src [] (parseV src)) (toBits 8 n ++ bs) bs := by
  by_cases hz : n = 0
  · obtain rfl : bs = [] := List.eq_nil_of_length_eq_zero (by omega)
    rw [hz, List.append_nil]
    exact parseLV_reads_empty [] parseV
  · exact parseLV_reads (by omega) hlt hbs h

theorem userData_reads {n : Nat} {bs : List Bool} (hbs : bs.length = 8 * n) :
    Reads (fun src => RPUserData.parseV src n) bs bs := by
  intro pre rest
  have hin : ¬ pre.length + n * 8 > (pre ++ bs ++ rest).length := by
    simp only [List.length_append]
    omega
  unfold RPUserData.parseV
  change (if pre.length + n * 8 > (pre ++ bs ++ rest).length then _
    else Frame.segment .assertion (pre ++ bs ++ rest) (n * 8) : Read (List Bool)) _ = _
  rw [if_neg hin]
  exact Frame.segment_reads (by omega) pre rest

theorem writeLV_writes {n : Nat} {w : Write Unit} {bs : Frame.Sheet} (h : n ≠ 0 → Writes w bs) :
    Writes (writeLV n w) ((toBits 8 n).map some ++ if n ≠ 0 then bs else []) := by
  unfold writeLV
  refine (writeField_writes n 8).bind ?_
  by_cases hn : n = 0
  · rw [if_neg (not_not.2 hn), if_neg (not_not.2 hn)]
    exact Writes.pure
  · rw [if_pos hn, if_pos hn]
    exact h hn

/-! ## RP-DATA -/

theorem RPAddress.bits_length (a : Address) :
    (RPAddress.bits a).length = 8 * (1 + RPAddress.lengthV a) := by
  unfold RPAddress.bits
  rw [List.length_append, Frame.toBits_length]
  by_cases hz : RPAddress.lengthV a = 0
  · rw [if_neg (not_not.2 hz), hz]
    rfl
  · have hdigits : RPAddress.lengthV a = 1 + L3BCDDigits.lengthV a.digits := by
      unfold RPAddress.lengthV at hz ⊢
      by_cases hd : L3BCDDigits.lengthV a.digits = 0
      · exact absurd (if_pos hd) hz
      · rw [if_neg hd]
    rw [if_pos hz, Address.bits_length, hdigits]
    omega

theorem rpAddress_writes (a : Address) :
    Writes (writeLV (RPAddress.lengthV a) (RPAddress.writeV a)) ((RPAddress.bits a).map some) := by
  have h := writeLV_writes (n := RPAddress.lengthV a) fun _ => address_writes a
  unfold RPAddress.bits
  rw [List.map_append]
  split at h
  next hn =>
    rw [if_pos hn]
    exact h
  next hn =>
    rw [if_neg hn]
    exact h

theorem RPData.headBits_length (d : RPData) (hd : 8 ∣ d.tpdu.length) :
    d.headBits.length + d.tpdu.length = d.octets * 8 := by
  obtain ⟨n, hn⟩ := hd
  simp only [RPData.headBits, List.length_append, Frame.toBits_length, RPAddress.bits_length,
    RPData.octets, RPData.tpduLengthV, hn]
  have h0 : 8 * n % 8 = 0 := by omega
  rw [if_neg (not_not.2 h0)]
  omega

theorem RPData.tpdu_fits (d : RPData) : d.tpdu.length ≤ 8 * d.tpduLengthV := by
  unfold RPData.tpduLengthV
  split <;> omega

/-- The addresses and the TPDU, which is left out if it is empty. -/
theorem RPData.body_writes (d : RPData) :
    Writes (do
      writeLV (RPAddress.lengthV d.originator) (RPAddress.writeV d.originator)
      writeLV (RPAddress.lengthV d.destination) (RPAddress.writeV d.destination)
      writeLV d.tpduLengthV (Frame.putBits .assertion d.tpdu))
    ((RPAddress.bits d.originator).map some ++ ((RPAddress.bits d.destination).map some ++
      ((toBits 8 d.tpduLengthV).map some ++ d.tpdu))) := by
  have htpdu : (if d.tpduLengthV ≠ 0 then d.tpdu else []) = d.tpdu := by
    by_cases h0 : d.tpduLengthV = 0
    · have hfits := d.tpdu_fits
      have hnil : d.tpdu = [] := List.eq_nil_of_length_eq_zero (by omega)
      rw [if_neg (not_not.2 h0), hnil]
    · rw [if_pos h0]
  have hwrites := (rpAddress_writes d.originator).bind ((rpAddress_writes d.destination).bind
    (writeLV_writes (n := d.tpduLengthV) fun _ =>
      Frame.putBits_writes (e := Fault.assertion) d.tpdu))
  rw [htpdu] at hwrites
  exact hwrites

/-- RP-DATA with a TPDU of whole octets is written as its layout states. -/
theorem RPData.write_eq (d : RPData) (hd : 8 ∣ d.tpdu.length) :
    d.write = .ok (d.headBits.map some ++ d.tpdu) := by
  have hwrites := (writeField_writes 0 5).bind ((writeField_writes 1 3).bind
    ((writeField_writes d.reference 8).bind d.body_writes))
  have hbits : d.headBits.map some ++ d.tpdu = (toBits 5 0).map some ++ ((toBits 3 1).map some ++
      ((toBits 8 d.reference).map some ++ ((RPAddress.bits d.originator).map some ++
        ((RPAddress.bits d.destination).map some ++ ((toBits 8 d.tpduLengthV).map some ++
          d.tpdu))))) := by
    simp [RPData.headBits]
  have hlen : (d.headBits.map some ++ d.tpdu).length = d.octets * 8 := by
    rw [List.length_append, List.length_map, RPData.headBits_length d hd]
  rw [← hbits] at hwrites
  unfold RPData.write
  dsimp only
  rw [hwrites.run hlen]
  rfl

/-- What the bits of an address in RP-DATA are read as: an address without digits is left out. -/
def RPAddress.reread (a : Address) : Address :=
  if RPAddress.lengthV a = 0 then RPAddress.empty else a.reread

theorem originator_reads (number : CString) :
    Reads (fun src => parseLV src RPAddress.empty (RPAddress.parseV src))
      (RPAddress.bits (Address.ofDigits number)) (RPAddress.reread (Address.ofDigits number)) := by
  have hle := lengthV_le number
  have hbits := Address.bits_length (Address.ofDigits number)
  unfold RPAddress.bits RPAddress.reread
  by_cases hz : RPAddress.lengthV (Address.ofDigits number) = 0
  · rw [if_neg (not_not.2 hz), if_pos hz, hz, List.append_nil]
    exact parseLV_reads_empty RPAddress.empty fun src => RPAddress.parseV src
  · have hlen : RPAddress.lengthV (Address.ofDigits number) =
        1 + L3BCDDigits.lengthV (Address.ofDigits number).digits := by
      unfold RPAddress.lengthV at hz ⊢
      split at hz
      next => exact absurd rfl hz
      next h => rw [if_neg h]
    rw [if_pos hz, if_neg hz, hlen]
    exact parseLV_reads (by omega) (by omega) hbits (address_reads number)

theorem IsNumber.rpReread {number : CString} (h : IsNumber number) :
    RPAddress.reread (Address.ofDigits number) = Address.ofDigits number := by
  have hpos := lengthV_pos h
  have hz : RPAddress.lengthV (Address.ofDigits number) ≠ 0 := by
    unfold RPAddress.lengthV
    rw [ofDigits_digits h, if_neg (by omega)]
    omega
  unfold RPAddress.reread
  rw [if_neg hz, h.reread]

/-- The user data of RP-DATA, which may be empty. -/
theorem rpUserData_reads {n : Nat} {bs : List Bool} (hn : n < 256) (hbs : bs.length = 8 * n) :
    Reads (fun src => parseLV src [] (RPUserData.parseV src)) (toBits 8 n ++ bs) bs :=
  parseLV_reads_bits hn hbs (userData_reads hbs)

/-- The parser of RP-DATA on the bits of a message to the handset. -/
theorem rpMessage_reads {ref n : Nat} {number : CString} {bs : List Bool} (href : ref < 256)
    (hn : n < 256) (hbs : bs.length = 8 * n) :
    Reads RPMessage.parse (toBits 8 ref ++ (RPAddress.bits (Address.ofDigits number) ++
        (toBits 8 0 ++ (toBits 8 n ++ bs))))
      ⟨ref, RPAddress.reread (Address.ofDigits number), RPAddress.empty, bs.map some⟩ := by
  refine Reads.bind (readField_reads (n := 8) (by omega)) ?_
  refine Reads.bind (originator_reads number) ?_
  refine Reads.bind (parseLV_reads_empty RPAddress.empty fun src => RPAddress.parseV src) ?_
  exact (rpUserData_reads hn hbs).map fun mUserData : List Bool =>
    (⟨ref, RPAddress.reread (Address.ofDigits number), RPAddress.empty, mUserData.map some⟩ : RPData)

theorem headBits_deliver (ref : Nat) (orig : Address) (tpdu : Frame.Sheet) :
    RPData.headBits ⟨ref, orig, RPAddress.empty, tpdu⟩ = (toBits 5 0 ++ toBits 3 1) ++
      (toBits 8 ref ++ (RPAddress.bits orig ++
        (toBits 8 0 ++ toBits 8 (RPData.tpduLengthV ⟨ref, orig, RPAddress.empty, tpdu⟩)))) := by
  have hempty : RPAddress.bits RPAddress.empty = toBits 8 0 := rfl
  unfold RPData.headBits
  dsimp only
  rw [hempty]
  simp only [List.append_assoc]

/-- What is read back of RP-DATA that carries an SMS-DELIVER, whatever the bits were that the TPDU left
unwritten: of a TPDU that is too long for its length octet, only some octets are read. -/
theorem RPData.parse_deliver (ref : Nat) (number : CString) (d : TLDeliver) (href : ref < 256)
    (junk : Nat → Bool) : ∃ sheet fill,
      RPData.write ⟨ref, Address.ofDigits number, RPAddress.empty, d.sheet⟩ = .ok sheet ∧
      8 ∣ sheet.length ∧ RPMessage.parse (develop junk sheet) 8 =
        .ok (⟨ref, RPAddress.reread (Address.ofDigits number), RPAddress.empty,
            ((develop fill d.sheet).take (8 * (d.octets % 256))).map some⟩,
          sheet.length - 8 * (d.octets - d.octets % 256)) := by
  have hdvd : 8 ∣ d.sheet.length := ⟨d.octets, by rw [Nat.mul_comm]; exact d.sheet_length⟩
  have hoctets : RPData.tpduLengthV ⟨ref, Address.ofDigits number, RPAddress.empty, d.sheet⟩ =
      d.octets := by
    have h := d.sheet_length
    unfold RPData.tpduLengthV
    dsimp only
    rw [if_neg (by omega)]
    omega
  have hlen := RPData.headBits_length ⟨ref, Address.ofDigits number, RPAddress.empty, d.sheet⟩ hdvd
  refine ⟨_, fun i => junk (i + (List.map some (RPData.headBits ⟨ref, Address.ofDigits number,
    RPAddress.empty, d.sheet⟩)).length), RPData.write_eq _ hdvd, ?_, ?_⟩
  · rw [List.length_append, List.length_map, hlen]
    exact ⟨_, Nat.mul_comm ..⟩
  · rw [Frame.develop_append, Frame.develop_map_some, headBits_deliver, hoctets,
      Frame.toBits_mod 8 d.octets]
    generalize (fun i => junk (i + List.length _)) = fill
    have hfirst : (toBits 5 0 ++ toBits 3 1).length = 8 := rfl
    have hbits : ((develop fill d.sheet).take (8 * (d.octets % 256))).length =
        8 * (d.octets % 256) := by
      rw [List.length_take, Frame.develop_length, d.sheet_length]
      omega
    have h := @rpMessage_reads ref (d.octets % 256) number _ href (Nat.mod_lt d.octets (by decide)) hbits
      (toBits 5 0 ++ toBits 3 1) ((develop fill d.sheet).drop (8 * (d.octets % 256)))
    rw [hfirst] at h
    simp only [List.append_assoc, List.take_append_drop] at h ⊢
    refine h.trans (congrArg (fun n => Except.ok (_, n)) ?_)
    have hsheet := d.sheet_length
    simp only [List.length_append, Frame.toBits_length, List.length_map, hbits]
    omega

/-- RP-DATA that carries an SMS-DELIVER is read back: the same reference, the same originator, no
destination and the same TPDU, whatever the bits were that the TPDU left unwritten; and the whole
frame is read. -/
theorem RPData.parse_write (ref : Nat) (number : CString) (d : TLDeliver) (href : ref < 256)
    (hnum : IsNumber number) (hd : d.octets ≤ 255) :
    ∃ rp sheet, RPData.ofDeliver ref (Address.ofDigits number) d = .ok rp ∧ rp.write = .ok sheet ∧
      ∀ junk, ∃ fill,
        RPMessage.parse (develop junk sheet) 8 =
          .ok (⟨ref, Address.ofDigits number, RPAddress.empty, (develop fill rp.tpdu).map some⟩,
            (develop junk sheet).length) := by
  obtain ⟨sheet, -, hwrite, -⟩ := RPData.parse_deliver ref number d href fun _ => false
  refine ⟨⟨ref, Address.ofDigits number, RPAddress.empty, d.sheet⟩, sheet, ?_, hwrite,
    fun junk => ?_⟩
  · unfold RPData.ofDeliver
    rw [d.write_eq]
    rfl
  · obtain ⟨sheet', fill, hwrite', -, hparse⟩ := RPData.parse_deliver ref number d href junk
    rw [hwrite] at hwrite'
    obtain rfl : sheet = sheet' := by injection hwrite'
    -- the length fits into its octet, so that nothing is cut off
    have hall : (develop fill d.sheet).take (8 * (d.octets % 256)) = develop fill d.sheet := by
      refine List.take_of_length_le ?_
      rw [Frame.develop_length, d.sheet_length]
      omega
    have hend : sheet.length - 8 * (d.octets - d.octets % 256) = (develop junk sheet).length := by
      rw [Frame.develop_length]
      omega
    rw [hall, hnum.rpReread, hend] at hparse
    exact ⟨fill, hparse⟩

/-- A service centre number with an odd number of digits, and a short text. -/
theorem RPData.parse_write_sample : ∃ rp sheet,
    RPData.ofDeliver 7 (Address.ofDigits (str "+17074700741"))
        ⟨Address.ofDigits (str "101"), 0, ⟨2013, 9, 24, 12, 0, 0, 3600⟩,
          TLUserData.encode7bit (str "hi")⟩ =
      .ok rp ∧ rp.write = .ok sheet ∧ ∀ junk, ∃ fill,
        RPMessage.parse (develop junk sheet) 8 =
          .ok (⟨7, Address.ofDigits (str "+17074700741"), RPAddress.empty,
            (develop fill rp.tpdu).map some⟩, (develop junk sheet).length) := by
  refine RPData.parse_write _ _ _ (by decide) ⟨by decide, by decide, ?_⟩ (by decide)
  decide +kernel

end Smqueue

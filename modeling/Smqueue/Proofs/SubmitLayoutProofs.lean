import Smqueue.SubmitLayout
import Smqueue.Proofs.SentContentProofs

/-!
# Proofs: the layout of an SMS-SUBMIT

Which addresses are read back, which SMS-SUBMITs are parsed as they are laid out, and which user data
are decoded inside of their bits.
-/

namespace Smqueue

open Frame (Reads blank develop toBits)

/-! ## Addresses -/

/-- A number is read if its length octet announces as many octets as its digits take. -/
theorem tlAddress_reads {n ton npi : Nat} {ds : CString} (hn : n < 256) (hton : ton < 8)
    (hnpi : npi < 16) (hcount : n / 2 + n % 2 = ds.length / 2 + ds.length % 2)
    (hlen : (if ton == internationalNumber then [43] else [] : CString).length + ds.length ≤
      maxDigits) :
    Reads TLAddress.parse (toBits 8 n ++ (toBits 1 1 ++ toBits 3 ton ++ toBits 4 npi) ++ digitBits ds)
      ⟨ton, npi, (if ton == internationalNumber then [43] else []) ++ ds.map reread⟩ := by
  have hdigits := parseLoop_reads ds (if ton == internationalNumber then [43] else []) hlen
  rw [← hcount] at hdigits
  rw [List.append_assoc, List.append_assoc, List.append_assoc]
  refine Reads.bind (readField_reads (n := 8) (by omega)) ?_
  refine Reads.bind (readField_reads (n := 1) (v := 1) (by omega)) ?_
  refine Reads.bind (readField_reads (n := 3) (by omega)) ?_
  refine Reads.bind (readField_reads (n := 4) (by omega)) ?_
  exact hdigits.map fun mDigits : CString => (⟨ton, npi, mDigits⟩ : Address)

/-- Digits behind a plus are one fewer than the characters of the number. -/
theorem dropPlus_length (number : CString) :
    (dropPlus number).length = number.length - if number.head? = some 43 then 1 else 0 := by
  have hlen := congrArg List.length (plus_append_dropPlus number)
  rw [List.length_append] at hlen
  split at hlen
  next hplus =>
    rw [if_pos hplus, ← hlen, List.length_singleton]
    omega
  next hplus =>
    rw [if_neg hplus, ← hlen, List.length_nil]
    omega

/-- The characters of a number take as many octets as its digits unless the plus fills up an octet. -/
theorem octets_iff {number : CString} (h : IsNumber number) :
    number.length / 2 + number.length % 2 = L3BCDDigits.lengthV number ↔
      ¬ (number.head? = some 43 ∧ (dropPlus number).length % 2 = 0) := by
  have hlen := dropPlus_length number
  have hpos := List.length_pos_of_ne_nil h.2.1
  unfold L3BCDDigits.lengthV
  dsimp only
  by_cases hplus : number.head? = some 43
  · rw [if_pos hplus] at hlen
    constructor
    · rintro hcount ⟨-, heven⟩
      omega
    · intro hodd
      have heven : (dropPlus number).length % 2 ≠ 0 := fun heven => hodd ⟨hplus, heven⟩
      omega
  · rw [if_neg hplus] at hlen
    refine iff_of_true ?_ fun heven => hplus heven.1
    rw [hlen]
    rfl

theorem tlAddress_bits_length (a : Address) :
    (toBits 8 a.digits.length ++ a.bits).length = 8 * TLAddress.length a := by
  rw [List.length_append, Frame.toBits_length, Address.bits_length, TLAddress.length]
  omega

/-- What the writer of an address leaves. -/
theorem tlAddress_run (a : Address) (pre : List Bool) {n : Nat} (h : 8 * TLAddress.length a ≤ n) :
    TLAddress.write a (pre.map some ++ blank n, pre.length) =
      .ok ((), ((pre ++ (toBits 8 a.digits.length ++ a.bits)).map some ++
        blank (n - 8 * TLAddress.length a), pre.length + 8 * TLAddress.length a)) := by
  have hbits := tlAddress_bits_length a
  have h := tlAddress_writes a (pre.map some) (blank n) (by
    rw [List.length_map, hbits]
    simpa [blank] using h)
  rw [List.length_map, List.length_map, hbits] at h
  rw [h]
  simp [blank]

/-- A number is read from its bits if the plus takes no octet of its own. -/
theorem number_reads {number : CString} (h : IsNumber number)
    (hcount : number.length / 2 + number.length % 2 = L3BCDDigits.lengthV number) :
    Reads TLAddress.parse (toBits 8 number.length ++ (Address.ofDigits number).bits)
      (Address.ofDigits number) := by
  have hmax : number.length ≤ 20 := h.1
  have hfit := plus_dropPlus number
  rw [ofDigits_digits h] at hfit
  have hplaces : (if (Address.ofDigits number).type == internationalNumber then [43] else [] :
      CString).length + (dropPlus number).length ≤ maxDigits := by
    rw [← List.length_append, hfit]
    exact h.1
  have hreads := tlAddress_reads (by omega) (ofDigits_type_lt number)
    (show e164Plan < 16 by decide) hcount hplaces
  have hreread := h.reread
  unfold Address.reread at hreread
  rw [ofDigits_digits h] at hreread
  refine hreads.of_eq ?_ hreread
  rw [List.append_assoc]
  unfold Address.bits
  rw [ofDigits_digits h]
  rfl

/-- A number is read back where it was written if and only if it is not an international number with
an even number of digits: the plus, which is counted in the length octet, takes no semi-octet. -/
theorem readBack_iff (number : CString) (h : IsNumber number) (pre : List Bool) (n : Nat)
    (junk : Nat → Bool) (hn : 8 * TLAddress.length (Address.ofDigits number) ≤ n) :
    TLAddress.ReadBack (Address.ofDigits number) pre n junk ↔
      ¬ (number.head? = some 43 ∧ (dropPlus number).length % 2 = 0) := by
  have hdigits := ofDigits_digits h
  have hrun := tlAddress_run (Address.ofDigits number) pre hn
  have hlength := tlAddress_bits_length (Address.ofDigits number)
  rw [hdigits] at hrun hlength
  rw [← octets_iff h]
  constructor
  · rintro ⟨dest, hwrite, hparse⟩
    rw [hrun] at hwrite
    obtain rfl : _ = dest := (Prod.mk.inj (Prod.mk.inj (Except.ok.inj hwrite)).2).1
    -- the reader moves by the octets that the length octet announces
    have hq := address_ok hparse
    have hcount : fieldAt (develop junk ((pre ++ (toBits 8 number.length ++
        (Address.ofDigits number).bits)).map some ++
          blank (n - 8 * TLAddress.length (Address.ofDigits number)))) pre.length 8 =
            number.length := by
      have hmax : number.length ≤ 20 := h.1
      rw [Frame.develop_append, Frame.develop_map_some, ← List.append_assoc, List.append_assoc]
      exact fieldAt_ahead pre _ (by omega)
    rw [hcount] at hq
    unfold TLAddress.length at hq
    rw [hdigits] at hq
    omega
  · intro hcount
    refine ⟨_, hrun, ?_⟩
    have hread := number_reads h hcount pre (develop (fun i => junk (i + ((pre ++
      (toBits 8 number.length ++ (Address.ofDigits number).bits)).map some).length))
        (blank (n - 8 * TLAddress.length (Address.ofDigits number))))
    rw [hlength] at hread
    rw [Frame.develop_append, Frame.develop_map_some]
    exact hread

/-- A number of three digits with its plus. -/
theorem readBack_iff_sample :
    TLAddress.ReadBack (Address.ofDigits (str "+123")) [] 32 fun _ => false :=
  (readBack_iff (str "+123") ⟨by decide, by decide, by decide +kernel⟩ [] 32 (fun _ => false)
    (by decide)).2 (by decide)

/-- A number of two digits with its plus is not read back. -/
theorem not_readBack : ¬ ∀ number, IsNumber number → ∀ pre n junk,
    8 * TLAddress.length (Address.ofDigits number) ≤ n →
      TLAddress.ReadBack (Address.ofDigits number) pre n junk := by
  intro hall
  obtain ⟨dest, hwrite, hparse⟩ := hall (str "+12") ⟨by decide, by decide, by decide +kernel⟩ [] 32
    (fun _ => false) (by decide)
  have hdest : dest = (toBits 8 3 ++ (Address.ofDigits (str "+12")).bits).map some ++ blank 8 := by
    have hrun := tlAddress_run (Address.ofDigits (str "+12")) [] (n := 32) (by decide)
    rw [hrun] at hwrite
    exact (Prod.mk.inj (Prod.mk.inj (Except.ok.inj hwrite)).2).1.symm
  rw [hdest] at hparse
  revert hparse
  decide +kernel

/-! ## SMS-SUBMIT -/

theorem vpFormat_lt (vp : ValidityPeriod) : vp.format < 4 := by
  cases vp <;> simp [ValidityPeriod.format]

@[simp] theorem SubmitFields.headerBits_length (f : SubmitFields) : f.headerBits.length = 8 := rfl

/-- The flags and the format in the first octet are found. -/
theorem SubmitFields.header_reads (f : SubmitFields) (rest : List Bool) :
    headerBit (f.headerBits ++ rest) 5 = .ok f.rd ∧
      peekField (f.headerBits ++ rest) 3 2 = .ok f.vp.format ∧
      headerBit (f.headerBits ++ rest) 0 = .ok f.rp ∧
      headerBit (f.headerBits ++ rest) 1 = .ok f.udhi ∧
      headerBit (f.headerBits ++ rest) 2 = .ok f.srr := by
  have hlen : 8 ≤ (f.headerBits ++ rest).length := by
    rw [List.length_append, headerBits_length]
    omega
  have hbit : ∀ {i : Nat} {b : Bool}, i < 8 → fieldAt (f.headerBits ++ rest) i 1 = b.toNat →
      headerBit (f.headerBits ++ rest) i = .ok b := by
    intro i b hi hb
    unfold fieldAt at hb
    unfold headerBit peekField Frame.peek
    rw [if_pos (by omega), hb]
    cases b <;> rfl
  have hformat : fieldAt (f.headerBits ++ rest) 3 2 = f.vp.format := by
    have h := fieldAt_ahead [f.rp, f.udhi, f.srr] ([f.rd] ++ toBits 2 1 ++ rest)
      (show f.vp.format < 2 ^ 2 from vpFormat_lt f.vp)
    simpa [headerBits] using h
  refine ⟨hbit (by omega) ?_, ?_, hbit (by omega) ?_, hbit (by omega) ?_, hbit (by omega) ?_⟩
  · simp [headerBits, toBits, fieldAt, Frame.ofBits]
  · unfold peekField Frame.peek
    rw [if_pos (by omega)]
    exact congrArg Except.ok hformat
  all_goals simp [headerBits, fieldAt, Frame.ofBits]

theorem octet_reads (c : UInt8) : Reads (fun src => readField src 8) (toBits 8 c.toNat) c.toNat :=
  readField_reads c.toNat_lt

/-- The digits of a destination are its own. -/
theorem SubmitFields.Valid.destination_reads {f : SubmitFields} (hf : f.Valid) :
    Reads TLAddress.parse f.addressBits f.submit.da := by
  have hlen := hf.length
  have hplus : (if f.ton == internationalNumber then [43] else [] : CString).length ≤ 1 := by
    split <;> decide
  have hplaces : (if f.ton == internationalNumber then [43] else [] : CString).length +
      f.digits.length ≤ maxDigits := by
    unfold maxDigits
    omega
  have hreads := tlAddress_reads (n := f.digits.length) (by omega) hf.ton hf.npi rfl hplaces
  have hdigits : f.digits.map reread = f.digits := by
    refine (List.map_congr_left fun c hc => (encode_lt c).2 ?_).trans (List.map_id' _)
    unfold isBcd
    rcases hf.digits c hc with rfl | rfl | hd
    · rfl
    · rfl
    · simp [hd]
  rw [hdigits] at hreads
  exact hreads

/-- The parser takes the block of no validity period and that of the relative format. -/
theorem validity_reads {vp : ValidityPeriod} (h : vp.format = 0 ∨ vp.format = 2) :
    Reads (fun src => TLValidityPeriod.parse src vp.format) vp.bits vp.expiration := by
  cases vp with
  | absent => exact Reads.pure Expiration.week
  | relative vp => exact (octet_reads vp).map fun vp => Expiration.minutes (relativeMinutes vp)
  | enhanced octets | absolute t => exact absurd h (by simp [ValidityPeriod.format])

/-- The layout is parsed as it is, unless the format of the validity period is enhanced or
absolute. -/
theorem SubmitFields.Valid.parse {f : SubmitFields} (hf : f.Valid)
    (hvp : f.vp.format = 0 ∨ f.vp.format = 2) : TLSubmit.parse f.bits = .ok f.submit := by
  obtain ⟨hrd, hformat, hrp, hudhi, hsrr⟩ := f.header_reads (toBits 8 f.mr.toNat ++
    (f.addressBits ++ (toBits 8 f.pid.toNat ++ (toBits 8 f.dcs.toNat ++ (f.vp.bits ++
      (toBits 8 f.udl.toNat ++ unpack f.ud))))))
  -- the bits up to each field
  let toMr := f.headerBits ++ toBits 8 f.mr.toNat
  let toDa := toMr ++ f.addressBits
  let toPid := toDa ++ toBits 8 f.pid.toNat
  let toDcs := toPid ++ toBits 8 f.dcs.toNat
  let toVp := toDcs ++ f.vp.bits
  have hmr : readField f.bits 8 f.headerBits.length = .ok (f.mr.toNat, toMr.length) :=
    (octet_reads f.mr).apply f.headerBits (f.addressBits ++ (toBits 8 f.pid.toNat ++
      (toBits 8 f.dcs.toNat ++ (f.vp.bits ++ (toBits 8 f.udl.toNat ++ unpack f.ud))))) (by simp [bits])
  have hda : TLAddress.parse f.bits toMr.length = .ok (f.submit.da, toDa.length) :=
    hf.destination_reads.apply toMr (toBits 8 f.pid.toNat ++ (toBits 8 f.dcs.toNat ++
      (f.vp.bits ++ (toBits 8 f.udl.toNat ++ unpack f.ud)))) (by simp [bits, toMr])
  have hpid : readField f.bits 8 toDa.length = .ok (f.pid.toNat, toPid.length) :=
    (octet_reads f.pid).apply toDa (toBits 8 f.dcs.toNat ++ (f.vp.bits ++ (toBits 8 f.udl.toNat ++
      unpack f.ud))) (by simp [bits, toMr, toDa])
  have hdcs : readField f.bits 8 toPid.length = .ok (f.dcs.toNat, toDcs.length) :=
    (octet_reads f.dcs).apply toPid (f.vp.bits ++ (toBits 8 f.udl.toNat ++ unpack f.ud))
      (by simp [bits, toMr, toDa, toPid])
  have hperiod : TLValidityPeriod.parse f.bits f.vp.format toDcs.length =
      .ok (f.vp.expiration, toVp.length) :=
    (validity_reads hvp).apply toDcs (toBits 8 f.udl.toNat ++ unpack f.ud)
      (by simp [bits, toMr, toDa, toPid, toDcs])
  have hud : TLUserData.parse f.bits f.dcs.toNat f.udhi toVp.length =
      .ok (f.submit.ud, toVp.length + 8) := by
    refine @TLUserData.parse_written f.submit.ud f.bits toVp ?_ f.udl.toNat_lt
    simp [bits, toMr, toDa, toPid, toDcs, toVp, submit, Frame.reverseOctets_reverseOctets]
  unfold TLSubmit.parse TLSubmit.parseBody
  refine Except.map_eq_ok.2 ⟨(f.submit, toVp.length + 8), ?_, rfl⟩
  refine Frame.liftM_bind_ok.2 ⟨_, hrd, Frame.liftM_bind_ok.2 ⟨_, hformat, ?_⟩⟩
  refine Frame.liftM_bind_ok.2 ⟨_, hrp, Frame.liftM_bind_ok.2 ⟨_, hudhi, ?_⟩⟩
  refine Frame.liftM_bind_ok.2 ⟨_, hsrr, Frame.bind_ok.2 ⟨_, _, hmr, ?_⟩⟩
  refine Frame.bind_ok.2 ⟨_, _, hda, Frame.bind_ok.2 ⟨_, _, hpid, ?_⟩⟩
  refine Frame.bind_ok.2 ⟨_, _, hdcs, Frame.bind_ok.2 ⟨_, _, hperiod, ?_⟩⟩
  exact Frame.bind_ok.2 ⟨_, _, hud, rfl⟩

/-- The octets of a validity period. -/
theorem ValidityPeriod.bits_length (vp : ValidityPeriod) : vp.bits.length =
    if vp.format = 0 then 0 else if vp.format = 2 then 8 else 56 := by
  cases vp with
  | absent => rfl
  | relative vp => exact Frame.toBits_length 8 vp.toNat
  | enhanced octets => simp [bits, format, unpack_length]
  | absolute t => exact t.bits_length

/-- Where the parser looks for the length octet of the user data. -/
theorem SubmitFields.Valid.udAt_eq {f : SubmitFields} (hf : f.Valid) :
    TLSubmit.udAt f.bits + f.vp.bits.length + 8 + 8 * f.ud.length =
      f.bits.length + validityBits f.vp.format := by
  have hlen := hf.length
  have hcount : fieldAt f.bits 16 8 = f.digits.length := by
    have h := fieldAt_ahead (f.headerBits ++ toBits 8 f.mr.toNat) ((toBits 1 1 ++ toBits 3 f.ton ++
      toBits 4 f.npi) ++ digitBits f.digits ++ (toBits 8 f.pid.toNat ++ (toBits 8 f.dcs.toNat ++
        (f.vp.bits ++ (toBits 8 f.udl.toNat ++ unpack f.ud)))))
      (show f.digits.length < 2 ^ 8 by omega)
    simpa [bits, addressBits] using h
  have hformat : fieldAt f.bits 3 2 = f.vp.format :=
    (peekField_eq_ok (f.header_reads _).2.1).symm
  have hbits : f.bits.length = 32 + 8 * (f.digits.length / 2 + f.digits.length % 2) + 16 +
      f.vp.bits.length + 8 + 8 * f.ud.length := by
    simp only [bits, addressBits, List.length_append, Frame.toBits_length, headerBits_length,
      digitBits_length, unpack_length]
    omega
  unfold TLSubmit.udAt TLSubmit.piAt TLSubmit.addressOctets
  rw [hcount, hformat]
  omega

/-- An enhanced or an absolute validity period moves the user data. -/
theorem SubmitFields.Valid.parse_moved {f : SubmitFields} (hf : f.Valid)
    (hvp : ¬ (f.vp.format = 0 ∨ f.vp.format = 2)) : TLSubmit.parse f.bits ≠ .ok f.submit := by
  intro hparse
  obtain ⟨hud, hin⟩ := submit_userData hparse
  have hraw := congrArg (fun ud : TLUserData => ud.rawData.length) hud
  have hat := hf.udAt_eq
  have hvpf := vpFormat_lt f.vp
  have hblock := f.vp.bits_length
  simp only [submit, Frame.reverseOctets_length, unpack_length, List.length_drop] at hraw
  rw [if_neg fun h0 => hvp (.inl h0), if_neg fun h2 => hvp (.inr h2)] at hblock
  unfold validityBits at hat
  rw [if_neg fun h2 => hvp (.inr h2)] at hat
  by_cases h3 : f.vp.format = 3
  · rw [if_pos h3] at hat
    omega
  · have h1 : f.vp.format = 1 := by omega
    rw [if_neg h3, if_pos h1] at hat
    omega

/-- An SMS-SUBMIT is parsed as it is laid out if and only if it has no validity period or one in the
relative format. -/
theorem submit_parse_iff (f : SubmitFields) (hf : f.Valid) :
    TLSubmit.parse f.bits = .ok f.submit ↔ f.vp.format = 0 ∨ f.vp.format = 2 := by
  constructor
  · intro hparse
    by_contra hvp
    exact hf.parse_moved hvp hparse
  · exact hf.parse

/-- An SMS-SUBMIT to 2101 with the text `hi`. -/
def sampleFields (vp : ValidityPeriod) : SubmitFields where
  rd := false
  rp := false
  udhi := false
  srr := true
  mr := 7
  ton := 2
  npi := 1
  digits := str "2101"
  pid := 0
  dcs := 0
  vp := vp
  udl := 2
  ud := [232, 52]

theorem sampleFields_valid {vp : ValidityPeriod} (h : ∀ t, vp = .absolute t → t.IsBcd) :
    (sampleFields vp).Valid where
  ton := show 2 < 8 by decide
  npi := show 1 < 16 by decide
  length := show 1 ≤ (str "2101").length ∧ (str "2101").length ≤ 19 by decide
  digits := show ∀ c ∈ str "2101", c = 42 ∨ c = 35 ∨ isdigit c = true by decide +kernel
  time := h

/-- A relative validity period of one day. -/
theorem submit_parse_iff_sample :
    TLSubmit.parse (sampleFields (.relative 167)).bits = .ok (sampleFields (.relative 167)).submit :=
  (submit_parse_iff (sampleFields (.relative 167)) (sampleFields_valid fun _ h => by cases h)).2
    (.inr rfl)

/-- The text of an SMS-SUBMIT that is valid up to a given second is not the one that was sent. -/
theorem not_submit_parse : ¬ ∀ f : SubmitFields, f.Valid → TLSubmit.parse f.bits = .ok f.submit := by
  intro hall
  have hvalid : (sampleFields (.absolute ⟨112, 11, 31, 23, 59, 0, 3600⟩)).Valid := by
    refine sampleFields_valid fun t ht => ?_
    cases ht
    exact ⟨by decide, by decide, by decide, by decide, by decide, by decide⟩
  exact hvalid.parse_moved (by decide) (hall _ hvalid)

/-! ## User data -/

/-- The length of received user data is one octet, and so is the length of the TPDU that they end. -/
theorem TLUserData.received_bounds {binaryData : List UInt8} {ud : TLUserData}
    (h : TLUserData.received binaryData = some ud) : ud.length < 256 ∧ ud.rawData.length < 2048 := by
  unfold received at h
  obtain ⟨rp, hrp, h⟩ := Option.bind_eq_some_iff.1 h
  have hparse : RPData.parse (unpack binaryData) = .ok rp := by
    unfold parseRPDU at hrp
    split at hrp
    · rename_i d hd
      rw [hd, Option.some.inj hrp]
    all_goals cases hrp
  have htpdu := (RPData.parse_tpdu hparse).2
  rw [htpdu, Frame.develop_map_some] at h
  split at h
  · rename_i s hs
    obtain rfl := Option.some.inj h
    have hsubmit : TLSubmit.parse (RPData.tpduOf (unpack binaryData)) = .ok s := by
      cases htp : parseTPDU (RPData.tpduOf (unpack binaryData)) with
      | error e =>
        rw [htp] at hs
        cases hs
      | ok o =>
        rw [htp] at hs
        obtain rfl : o = some (.submit s) := hs
        unfold parseTPDU at htp
        obtain ⟨mti, -, htp⟩ := Except.bind_eq_ok.1 htp
        split at htp
        · obtain ⟨s', hs', htp⟩ := Except.bind_eq_ok.1 htp
          cases htp
          exact hs'
        · cases htp
    have hud := (submit_userData hsubmit).1
    have hlength := congrArg TLUserData.length hud
    have hraw := congrArg (fun ud : TLUserData => ud.rawData.length) hud
    have hudl := fieldAt_lt (RPData.tpduOf (unpack binaryData))
      (TLSubmit.udAt (RPData.tpduOf (unpack binaryData))) 8
    have hlt := fieldAt_lt (unpack binaryData) (RPData.userDataAt (unpack binaryData)) 8
    have hmost : (RPData.tpduOf (unpack binaryData)).length ≤
        8 * fieldAt (unpack binaryData) (RPData.userDataAt (unpack binaryData)) 8 :=
      List.length_take_le _ _
    simp only [Frame.reverseOctets_length, List.length_drop] at hlength hraw
    omega
  · cases h

/-- A header that is longer than the length of the user data makes the length of the text wrap
around, and the decoder runs out of the bits. -/
theorem TLUserData.decode_wraps {ud : TLUserData} (hr : ud.Readable) (hudhi : ud.udhi = true)
    (hlong : ud.length < ud.headerSeptets) (hraw : ud.rawData.length < 2 ^ 32) :
    ud.decode = .error .assertion := by
  have hle := headerSeptets_le ud
  have htext : ud.textLength = ud.length + 2 ^ 32 - ud.headerSeptets := by
    unfold textLength
    rw [if_pos hudhi]
    omega
  cases hdecode : ud.decode with
  | error e =>
    rw [decode_eq hr] at hdecode
    split at hdecode
    · exact hdecode.symm
    · rw [decodeLoop_error (Except.map_eq_error.1 hdecode)]
  | ok text =>
    obtain ⟨-, q, hloop⟩ := (decode_eq_ok hr).1 hdecode
    have hread := (decodeLoop_ok hloop).2
    omega

/-- A header that fits leaves the rest of the septets for the text. -/
theorem TLUserData.decode_fits {ud : TLUserData} (hr : ud.Readable)
    (hfits : ud.udhi = true → ud.headerSeptets ≤ ud.length) (hlen : ud.length < 256) :
    ∃ text, ud.decode = .ok text ∧
      text.length + (if ud.udhi = true then ud.headerSeptets else 0) = ud.length := by
  have hbits := hr.2
  by_cases hudhi : ud.udhi = true
  · have hle := hfits hudhi
    have htwo : 2 ≤ ud.headerSeptets := udhSeptets_ge _
    have htext : ud.textLength = ud.length - ud.headerSeptets := by
      unfold textLength
      rw [if_pos hudhi]
      omega
    have hat : ud.textAt = ud.headerSeptets * 7 := if_pos hudhi
    obtain ⟨text, hloop, htextLength⟩ :=
      decodeLoop_total ud.textLength (show ud.textAt + 7 * ud.textLength ≤ ud.rawData.length by omega)
    refine ⟨text, (decode_eq_ok hr).2 ⟨fun _ => by omega, _, hloop⟩, ?_⟩
    rw [if_pos hudhi]
    omega
  · have htext : ud.textLength = ud.length := if_neg hudhi
    have hat : ud.textAt = 0 := if_neg hudhi
    obtain ⟨text, hloop, htextLength⟩ :=
      decodeLoop_total ud.textLength (show ud.textAt + 7 * ud.textLength ≤ ud.rawData.length by omega)
    refine ⟨text, (decode_eq_ok hr).2 ⟨fun h => absurd h hudhi, _, hloop⟩, ?_⟩
    rw [if_neg hudhi]
    omega

/-- Received user data are decoded inside of their bits if and only if a header that is in front of a
text is no longer than the length of the user data. -/
theorem decodesInside_iff (binaryData : List UInt8) (ud : TLUserData)
    (h : TLUserData.received binaryData = some ud) : ud.DecodesInside ↔ ud.HeaderFits := by
  obtain ⟨hlen, hraw⟩ := TLUserData.received_bounds h
  by_cases hr : ud.Readable
  · constructor
    · intro hinside _ hudhi
      by_contra hlong
      have hdecode := TLUserData.decode_wraps hr hudhi (by omega) (by omega)
      rcases hinside with hfail | ⟨text, hok, -⟩
      · rw [hdecode] at hfail
        cases hfail
      · rw [hdecode] at hok
        cases hok
    · intro hfits
      obtain ⟨text, hok, htext⟩ := TLUserData.decode_fits hr (hfits hr) hlen
      refine .inr ⟨text, hok, by omega, fun hudhi => ?_⟩
      rw [if_pos hudhi] at htext
      exact htext
  · exact ⟨fun _ hr' => absurd hr' hr, fun _ => .inl (TLUserData.decode_of_not_readable hr)⟩

/-- The octets of RP-DATA with an SMS-SUBMIT to 2101 whose user data start with a header. -/
def sampleHeaderData (udl : UInt8) (ud : List UInt8) : List UInt8 :=
  [0, 1, 0, 0, 9 + UInt8.ofNat ud.length, 0x41, 0, 4, 0xa1, 0x12, 0x10, 0, 0, udl] ++ ud

/-- An empty header and one character. -/
theorem decodesInside_iff_sample : ∃ ud, TLUserData.received (sampleHeaderData 3 [0, 192, 0]) = some ud ∧
    ud.DecodesInside := by
  have hreceived : TLUserData.received (sampleHeaderData 3 [0, 192, 0]) = some ⟨0, true, 3,
      Frame.reverseOctets (unpack [0, 192, 0])⟩ := by
    decide +kernel
  have hfits : (⟨0, true, 3, Frame.reverseOctets (unpack [0, 192, 0])⟩ : TLUserData).HeaderFits := by
    intro _ _
    decide
  exact ⟨_, hreceived, (decodesInside_iff _ _ hreceived).2 hfits⟩

/-- A header of 255 octets is announced in user data of two septets. -/
theorem not_decodesInside :
    ¬ ∀ binaryData ud, TLUserData.received binaryData = some ud → ud.DecodesInside := by
  intro hall
  have hreceived : TLUserData.received (sampleHeaderData 2 [255, 0]) = some ⟨0, true, 2,
      Frame.reverseOctets (unpack [255, 0])⟩ := by
    decide +kernel
  have hdecode : TLUserData.decode ⟨0, true, 2, Frame.reverseOctets (unpack [255, 0])⟩ =
      .error .assertion :=
    TLUserData.decode_wraps ⟨by decide, by decide⟩ rfl (by decide) (by decide)
  rcases hall _ _ hreceived with hfail | ⟨text, hok, -⟩
  · rw [hdecode] at hfail
    cases hfail
  · rw [hdecode] at hok
    cases hok

end Smqueue

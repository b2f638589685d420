import Smqueue.CpMessages
import Smqueue.Proofs.RelayProofs

/-!
# Proofs: the connection layer

A message of the relay layer can always be written, and a message of the connection layer is written
as its bits state. `parseSMS` reads these bits, except for the body of CP-ERROR.
-/

namespace Smqueue

open Frame (Reads Writes blank develop toBits)

/-! ## Messages of the relay layer -/

namespace RPMessage

/-- RP-DATA is written as `RPData.write` does it. -/
theorem write_data (d : RPData) : (data d).write = d.write := rfl

theorem length_data (d : RPData) : (data d).length = d.octets := rfl

/-- The body takes no more than the octets that are computed for it. -/
theorem writeBody_writes (m : RPMessage) :
    ∃ bs, Writes m.writeBody bs ∧ bs.length ≤ 8 * m.l2BodyLength := by
  cases m with
  | data d =>
    refine ⟨_, d.body_writes, ?_⟩
    have hfits := d.tpdu_fits
    simp only [List.length_append, List.length_map, RPAddress.bits_length, Frame.toBits_length,
      l2BodyLength]
    omega
  | ack ref => exact ⟨[], Writes.pure, Nat.zero_le _⟩
  | error cause ref =>
    refine ⟨_, writeLV_writes fun _ => writeField_writes cause 8, ?_⟩
    simp [l2BodyLength]

/-- A message of the relay layer is written on a sheet of its length. -/
theorem write_ok (m : RPMessage) : ∃ dest, m.write = .ok dest ∧ dest.length = 8 * m.length := by
  obtain ⟨bs, hbody, hlen⟩ := m.writeBody_writes
  have hwrites := (writeField_writes 0 5).bind ((writeField_writes (m.mti + 1) 3).bind
    ((writeField_writes m.reference 8).bind hbody))
  have hroom : ((toBits 5 0).map some ++ ((toBits 3 (m.mti + 1)).map some ++
      ((toBits 8 m.reference).map some ++ bs))).length ≤ m.length * 8 := by
    simp only [List.length_append, List.length_map, Frame.toBits_length, length]
    omega
  have hrun := hwrites.run_room hroom
  unfold RPMessage.write
  dsimp only
  rw [hrun]
  refine ⟨_, rfl, ?_⟩
  rw [List.length_append, blank, List.length_replicate]
  omega

end RPMessage

/-- The RPDU around a message of the relay layer has all octets of the message. -/
theorem CPUserData.ofRPMessage_ok (junk : Nat → Bool) (RPM : RPMessage) :
    ∃ mRPDU, CPUserData.ofRPMessage junk RPM = .ok mRPDU ∧ mRPDU.length = 8 * RPM.length := by
  obtain ⟨dest, hwrite, hlen⟩ := RPM.write_ok
  refine ⟨develop junk dest, ?_, by rw [Frame.develop_length, hlen]⟩
  unfold CPUserData.ofRPMessage
  rw [hwrite]
  rfl

/-! ## Writing -/

/-- The RPDU of CP-DATA has whole octets, as many as a length octet can hold. -/
def CPBody.Whole (b : CPBody) : Prop :=
  ∀ mRPDU, b = .data mRPDU → ∃ n, mRPDU.length = 8 * n ∧ n ≤ 255

theorem CPUserData.lengthV_whole {mRPDU : List Bool} {n : Nat} (h : mRPDU.length = 8 * n) :
    CPUserData.lengthV mRPDU = n := by
  unfold CPUserData.lengthV
  omega

theorem CPBody.writeBody_writes {b : CPBody} (hw : b.Whole) :
    Writes b.writeBody (b.bits.map some) := by
  cases b with
  | data mRPDU =>
    obtain ⟨n, hlen, -⟩ := hw mRPDU rfl
    have hwrites := writeLV_writes (n := CPUserData.lengthV mRPDU) fun _ =>
      Frame.putBits_writes (e := Fault.assertion) (mRPDU.map some)
    have hbits : (if CPUserData.lengthV mRPDU ≠ 0 then mRPDU.map some else []) =
        mRPDU.map some := by
      rw [CPUserData.lengthV_whole hlen]
      split
      · rfl
      · rw [List.eq_nil_of_length_eq_zero (l := mRPDU) (by omega)]
        rfl
    rw [hbits, ← List.map_append] at hwrites
    exact hwrites
  | ack => exact Writes.pure
  | error cause => exact writeField_writes cause 8

theorem CPBody.bits_length {b : CPBody} (hw : b.Whole) : b.bits.length = 8 * b.l2BodyLength := by
  cases b with
  | data mRPDU =>
    obtain ⟨n, hlen, -⟩ := hw mRPDU rfl
    simp only [CPBody.bits, CPBody.l2BodyLength, List.length_append, Frame.toBits_length,
      CPUserData.lengthV_whole hlen]
    omega
  | ack => rfl
  | error cause => simp [CPBody.bits, CPBody.l2BodyLength]

/-- A message of the connection layer is written as its bits state. -/
theorem CPMessage.write_eq {m : CPMessage} (hw : m.body.Whole) : m.write = .ok (m.bits.map some) := by
  have hwrites := (writeField_writes m.mTI 4).bind ((writeField_writes smsPD 4).bind
    ((writeField_writes m.body.mti 8).bind (CPBody.writeBody_writes hw)))
  have hbits : m.bits.map some = (toBits 4 m.mTI).map some ++ ((toBits 4 smsPD).map some ++
      ((toBits 8 m.body.mti).map some ++ m.body.bits.map some)) := by
    simp [CPMessage.bits]
  have hlen : (m.bits.map some).length = m.bitsNeeded := by
    simp only [CPMessage.bits, CPMessage.bitsNeeded, List.length_map, List.length_append,
      Frame.toBits_length, CPBody.bits_length hw]
    omega
  rw [← hbits] at hwrites
  unfold CPMessage.write
  dsimp only
  rw [hwrites.run hlen]
  rfl

/-! ## Parsing -/

theorem cpUserData_reads {n : Nat} {bs : List Bool} (hbs : bs.length = 8 * n) :
    Reads (fun src => CPUserData.parseV src n) bs bs := by
  intro pre rest
  have hin : ¬ ((pre ++ bs ++ rest).length : Int) - pre.length < ((n * 8 : Nat) : Int) := by
    simp only [List.length_append]
    omega
  unfold CPUserData.parseV
  change (if ((pre ++ bs ++ rest).length : Int) - pre.length < ((n * 8 : Nat) : Int) then _
    else Frame.segment .assertion (pre ++ bs ++ rest) (n * 8) : Read (List Bool)) _ = _
  rw [if_neg hin]
  exact Frame.segment_reads (by omega) pre rest

/-- A field of a frame, by what stands in front of it. -/
theorem peekField_bits {n v : Nat} (h : v < 2 ^ n) (pre rest : List Bool) :
    peekField (pre ++ toBits n v ++ rest) pre.length n = .ok v := by
  have hahead := Frame.ahead pre (toBits n v) rest
  rw [Frame.toBits_length] at hahead
  unfold peekField Frame.peek
  rw [if_pos (by simp), hahead, Frame.ofBits_toBits_of_lt h]

theorem CPBody.mti_lt (b : CPBody) : b.mti < 2 ^ 8 := by
  cases b <;> simp [CPBody.mti]

namespace CPMessage

theorem peek_mti (m : CPMessage) : peekField m.bits 8 8 = .ok m.body.mti := by
  have h := peekField_bits m.body.mti_lt (toBits 4 m.mTI ++ toBits 4 smsPD) m.body.bits
  rw [List.length_append, Frame.toBits_length, Frame.toBits_length] at h
  exact h

theorem peek_ti {m : CPMessage} (h : m.mTI < 16) : peekField m.bits 0 4 = .ok m.mTI := by
  have hpeek := peekField_bits (n := 4) (v := m.mTI) (by omega) []
    (toBits 4 smsPD ++ (toBits 8 m.body.mti ++ m.body.bits))
  have hbits : m.bits = [] ++ toBits 4 m.mTI ++
      (toBits 4 smsPD ++ (toBits 8 m.body.mti ++ m.body.bits)) := by
    simp [CPMessage.bits]
  rw [hbits]
  exact hpeek

/-- The message that the factory makes for the kind of the message. -/
def fresh : CPBody → CPMessage
  | .data _ => ⟨defaultTI, .data []⟩
  | .ack => ⟨defaultTI, .ack⟩
  | .error _ => ⟨defaultTI, .error 0x7f⟩

theorem factory_mti (b : CPBody) : CPFactory b.mti = some (fresh b) := by
  cases b <;> rfl

/-- Behind the header, the frame is parsed by a message of the same kind. -/
theorem parseSMS_bits {m : CPMessage} (h : m.mTI < 16) :
    parseSMS m.bits = ((fresh m.body).body.parseBody m.bits 16).map fun r => some ⟨m.mTI, r.1⟩ := by
  unfold parseSMS
  rw [peek_mti, Except.ok_bind, factory_mti]
  dsimp only
  rw [peek_ti h, Except.ok_bind]
  cases (fresh m.body).body.parseBody m.bits 16 <;> rfl

/-- The body of CP-DATA and of CP-ACK is read back, wherever it ends. -/
theorem parseBody_reads {b : CPBody} (hw : b.Whole) (hb : ∀ cause, b ≠ .error cause) :
    Reads (fun src => (fresh b).body.parseBody src) b.bits b := by
  cases b with
  | data mRPDU =>
    obtain ⟨n, hlen, hn⟩ := hw mRPDU rfl
    have hreads := parseLV_reads_bits (by omega) hlen (cpUserData_reads hlen)
    rw [← CPUserData.lengthV_whole hlen] at hreads
    exact hreads.map CPBody.data
  | ack => exact Reads.pure CPBody.ack
  | error cause => exact absurd rfl (hb cause)

/-- CP-DATA and CP-ACK are read back as they are. -/
theorem parseSMS_reads {m : CPMessage} (h : m.mTI < 16) (hw : m.body.Whole)
    (hb : ∀ cause, m.body ≠ .error cause) : parseSMS m.bits = .ok (some m) := by
  have hbody := parseBody_reads hw hb
    (toBits 4 m.mTI ++ toBits 4 smsPD ++ toBits 8 m.body.mti) []
  have hheader : (toBits 4 m.mTI ++ toBits 4 smsPD ++ toBits 8 m.body.mti).length = 16 := by simp
  rw [hheader, List.append_nil] at hbody
  rw [parseSMS_bits h]
  exact congrArg (Except.map fun r => some (⟨m.mTI, r.1⟩ : CPMessage)) hbody

/-- The body of CP-ERROR is not parsed: that is asserted. -/
theorem parseSMS_error {m : CPMessage} {cause : Nat} (h : m.mTI < 16) (hb : m.body = .error cause) :
    parseSMS m.bits = .error .assertion := by
  rw [parseSMS_bits h, hb]
  rfl

/-- Every message that a constructor makes has an RPDU of whole octets. -/
theorem create_ok (junk : Nat → Bool) (wTI : Nat) {a : CPArgument} (hfit : a.Fits) :
    ∃ m, create junk wTI a = .ok m ∧ m.mTI = wTI ∧ m.body.Whole ∧
      ((∃ cause, m.body = .error cause) ↔ ∃ wCause, a = .error wCause) := by
  cases a with
  | data RPM =>
    obtain ⟨mRPDU, hrpdu, hlen⟩ := CPUserData.ofRPMessage_ok junk RPM
    refine ⟨⟨wTI, .data mRPDU⟩, ?_, rfl, ?_, by simp⟩
    · unfold create
      dsimp only
      rw [hrpdu]
      rfl
    · intro mRPDU' h
      cases h
      exact ⟨RPM.length, hlen, hfit RPM rfl⟩
  | ack =>
    refine ⟨⟨wTI, .ack⟩, rfl, rfl, ?_, by simp⟩
    intro mRPDU h
    cases h
  | error wCause =>
    refine ⟨⟨wTI, .error wCause⟩, rfl, rfl, ?_, by simp⟩
    intro mRPDU h
    cases h

/-- A message with a transaction identifier of four bits is read back from its frame exactly unless it
is CP-ERROR. -/
theorem isReread_iff (junk : Nat → Bool) {wTI : Nat} (hTI : wTI < 16) {a : CPArgument}
    (hfit : a.Fits) :
    (∃ m, create junk wTI a = .ok m ∧ m.IsReread) ↔ ¬ ∃ wCause, a = .error wCause := by
  obtain ⟨m, hcreate, rfl, hw, herror⟩ := create_ok junk wTI hfit
  rw [← herror]
  have hwrite := write_eq hw
  constructor
  · rintro ⟨m₁, hm₁, dest, hdest, hparse⟩ ⟨cause, hb⟩
    rw [hcreate] at hm₁
    cases hm₁
    rw [hwrite] at hdest
    cases hdest
    obtain ⟨m', hm', -⟩ := hparse fun _ => false
    rw [Frame.develop_map_some, parseSMS_error hTI hb] at hm'
    cases hm'
  · intro hb
    refine ⟨m, hcreate, m.bits.map some, hwrite, fun junk' => ⟨m, ?_, rfl, rfl, rfl⟩⟩
    rw [Frame.develop_map_some]
    exact parseSMS_reads hTI hw fun cause h => hb ⟨cause, h⟩

/-- CP-DATA around RP-ACK. -/
theorem isReread_iff_sample :
    (∃ m, create (fun _ => false) 9 (.data (.ack 200)) = .ok m ∧ m.IsReread) ↔
      ¬ ∃ wCause, CPArgument.data (.ack 200) = .error wCause := by
  refine isReread_iff (fun _ => false) (by decide) ?_
  intro RPM h
  cases h
  decide

/-- CP-ERROR for a protocol error that is not specified: its frame reaches the assertion. -/
theorem not_isReread : ¬ ∀ (junk : Nat → Bool) (wTI : Nat) (a : CPArgument), wTI < 16 → a.Fits →
    ∃ m, create junk wTI a = .ok m ∧ m.IsReread := by
  intro hall
  have hfit : (CPArgument.error 111).Fits := by
    intro RPM h
    cases h
  obtain ⟨m, hcreate, dest, hwrite, hparse⟩ := hall (fun _ => false) 7 (.error 111) (by decide) hfit
  cases hcreate
  have hdest : CPMessage.write ⟨7, .error 111⟩ =
      .ok ((CPMessage.bits ⟨7, .error 111⟩).map some) := by decide
  rw [hdest] at hwrite
  cases hwrite
  obtain ⟨m', hm', -⟩ := hparse fun _ => false
  rw [Frame.develop_map_some] at hm'
  have herror : parseSMS (CPMessage.bits ⟨7, .error 111⟩) = .error .assertion := by decide
  rw [herror] at hm'
  cases hm'

end CPMessage

end Smqueue

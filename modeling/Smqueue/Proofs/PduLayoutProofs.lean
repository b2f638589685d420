import Smqueue.PduLayout
import Smqueue.Lib.Proofs.SheetProofs

/-!
# Proofs: the layout of the PDUs

Every writer leaves the bits that its layout states, and the lengths that are computed apart from the
writers are the lengths of these bits.
-/

namespace Smqueue

open Frame (Reads Writes blank toBits)

/-! ## Addresses -/

theorem writeField_writes (v n : Nat) : Writes (writeField v n) ((toBits n v).map some) :=
  Frame.put_writes v n

theorem digitBits_length (ds : CString) :
    (digitBits ds).length = 8 * (ds.length / 2 + ds.length % 2) := by
  fun_induction digitBits ds with
  | case1 a b ds ih =>
    simp only [List.length_append, Frame.toBits_length, ih, List.length_cons]
    omega
  | case2 a => simp
  | case3 => rfl

theorem writeLoop_writes (ds : CString) :
    Writes (L3BCDDigits.writeLoop ds) ((digitBits ds).map some) := by
  fun_induction digitBits ds with
  | case1 a b ds ih =>
    have h := (writeField_writes (encode b) 4).bind ((writeField_writes (encode a) 4).bind ih)
    rw [List.map_append, List.map_append, List.append_assoc]
    exact h
  | case2 a =>
    have h := (writeField_writes 15 4).bind (writeField_writes (encode a) 4)
    rw [List.map_append]
    exact h
  | case3 => exact Writes.pure

theorem Address.bits_length (a : Address) :
    a.bits.length = 8 * (1 + L3BCDDigits.lengthV a.digits) := by
  unfold Address.bits L3BCDDigits.lengthV
  simp only [List.length_append, Frame.toBits_length, digitBits_length]
  omega

theorem address_writes (a : Address) : Writes (RPAddress.writeV a) (a.bits.map some) := by
  have h := (writeField_writes 1 1).bind ((writeField_writes a.type 3).bind
    ((writeField_writes a.plan 4).bind (writeLoop_writes (dropPlus a.digits))))
  unfold Address.bits
  rw [List.map_append, List.map_append, List.map_append, List.append_assoc, List.append_assoc]
  exact h

/-! ## SMS-DELIVER -/

theorem writePair_writes (v : Nat) : Writes (writePair v) ((pairBits v).map some) := by
  unfold pairBits
  rw [List.map_append]
  exact (writeField_writes (v % 10) 4).bind (writeField_writes (v / 10) 4)

theorem time_writes (t : Tm) : Writes (L3TimeZoneAndTime.writeV t) (t.bits.map some) := by
  have hpairs := (writePair_writes (t.year % 100)).bind ((writePair_writes (t.mon + 1)).bind
    ((writePair_writes t.mday).bind ((writePair_writes t.hour).bind
      ((writePair_writes t.min).bind ((writePair_writes t.sec).bind
        ((writeField_writes ((t.gmtoff.tdiv (15 * 60)).natAbs % 10) 4).bind
          ((writeField_writes (if t.gmtoff.tdiv (15 * 60) < 0 then 1 else 0) 1).bind
            (writeField_writes ((t.gmtoff.tdiv (15 * 60)).natAbs / 10) 3))))))))
  unfold Tm.bits
  simp only [List.map_append, List.append_assoc]
  exact hpairs

theorem Tm.bits_length (t : Tm) : t.bits.length = 56 := by
  simp [Tm.bits, pairBits]

theorem tlAddress_writes (a : Address) :
    Writes (TLAddress.write a) ((toBits 8 a.digits.length ++ a.bits).map some) := by
  rw [List.map_append]
  exact (writeField_writes a.digits.length 8).bind (address_writes a)

theorem TLUserData.sheet_length (ud : TLUserData) :
    ud.sheet.length = 8 * ((ud.rawData.length + 7) / 8) := by
  simp only [TLUserData.sheet, Frame.reverseOctets_length, List.length_append, List.length_map,
    blank, List.length_replicate]
  omega

/-- User data is written on a tail of just its size. -/
theorem TLUserData.write_apply (ud : TLUserData) (pre : Frame.Sheet) :
    ud.write (pre ++ blank (8 + ud.sheet.length), pre.length) =
      .ok ((), (pre ++ (toBits 8 ud.length).map some ++ ud.sheet, pre.length + 8)) := by
  have hlen : ((toBits 8 ud.length).map some).length = 8 := by simp
  have hdrop : (blank (8 + ud.sheet.length)).drop 8 = blank ud.sheet.length := by
    unfold blank
    rw [List.drop_replicate, Nat.add_sub_cancel_left]
  have hcopy : copyReversed ud.rawData (blank ud.sheet.length) = .ok ud.sheet := by
    have hle : ud.rawData.length ≤ (blank ud.sheet.length).length := by
      simp only [blank, List.length_replicate, TLUserData.sheet_length]
      omega
    have hrest : (blank ud.sheet.length).drop ud.rawData.length =
        blank ((ud.rawData.length + 7) / 8 * 8 - ud.rawData.length) := by
      unfold blank
      rw [List.drop_replicate, TLUserData.sheet_length, Nat.mul_comm]
    unfold copyReversed
    rw [if_pos hle, hrest]
    rfl
  unfold TLUserData.write
  rw [(writeField_writes ud.length 8).bind_apply (by simp [blank]), hlen, hdrop]
  unfold Frame.editTail
  dsimp only
  rw [List.drop_left, List.take_left, hcopy, List.length_append, hlen]
  rfl

theorem TLDeliver.fieldBits_length (d : TLDeliver) :
    8 + d.fieldBits.length + d.ud.sheet.length = d.octets * 8 := by
  simp only [TLDeliver.fieldBits, List.length_append, Frame.toBits_length, Address.bits_length,
    Tm.bits_length, TLUserData.sheet_length, TLDeliver.octets, TLAddress.length,
    TLUserData.octets]
  omega

theorem TLDeliver.sheet_length (d : TLDeliver) : d.sheet.length = d.octets * 8 := by
  rw [← TLDeliver.fieldBits_length, TLDeliver.sheet]
  simp [TLDeliver.headerBits]
  omega

/-- An SMS-DELIVER is written as its layout states. -/
theorem TLDeliver.write_eq (d : TLDeliver) : d.write = .ok d.sheet := by
  -- the fields in front of the length octet of the user data
  let fields := toBits 8 d.oa.digits.length ++ d.oa.bits ++
    (toBits 8 d.pid ++ (toBits 8 d.ud.dcs ++ d.scts.bits))
  have hfields : d.fieldBits = fields ++ toBits 8 d.ud.length := by
    simp [fields, TLDeliver.fieldBits]
  -- the first octet before the unused bits are set
  let first : Frame.Sheet :=
    [some false, some d.ud.udhi, some false, none, none, some true, some false, some false]
  let rest := blank (fields.length + (8 + d.ud.sheet.length))
  have hblank : blank (d.octets * 8) = blank 8 ++ rest := by
    have hlen := TLDeliver.fieldBits_length d
    rw [hfields, List.length_append, Frame.toBits_length] at hlen
    rw [← hlen]
    simp only [blank, rest, List.replicate_append_replicate]
    congr 1
    omega
  have hdrop : rest.drop (fields.map some).length = blank (8 + d.ud.sheet.length) := by
    simp [rest, blank]
  have hwrites : Writes (do
      TLAddress.write d.oa
      writeField d.pid 8
      writeField d.ud.dcs 8
      L3TimeZoneAndTime.writeV d.scts) (fields.map some) := by
    rw [List.map_append, List.map_append, List.map_append]
    exact (tlAddress_writes d.oa).bind ((writeField_writes d.pid 8).bind
      ((writeField_writes d.ud.dcs 8).bind (time_writes d.scts)))
  have hgo : ∀ w' : Write Unit, ((do
      TLAddress.write d.oa
      writeField d.pid 8
      writeField d.ud.dcs 8
      L3TimeZoneAndTime.writeV d.scts) >>= fun _ => w') (first ++ rest, first.length) =
        w' (first ++ fields.map some ++ blank (8 + d.ud.sheet.length),
          (first ++ fields.map some).length) := by
    intro w'
    rw [← hdrop]
    exact hwrites.bind_apply (by simp [rest, blank])
  have hgroup : (do
      Frame.setBit .assertion 6 false
      Frame.setBit .assertion 7 false
      d.writeBody : Write Unit) = (do
      Frame.setBit .assertion 6 false
      Frame.setBit .assertion 7 false
      Frame.setBit .assertion 5 true
      Frame.setBit .assertion 0 false
      Frame.setBit .assertion 1 d.ud.udhi
      Frame.setBit .assertion 2 false
      (do
        TLAddress.write d.oa
        writeField d.pid 8
        writeField d.ud.dcs 8
        L3TimeZoneAndTime.writeV d.scts)
      Frame.setBit .assertion 3 false
      Frame.setBit .assertion 4 false
      d.ud.write) := by
    unfold TLDeliver.writeBody
    simp only [bind_assoc]
  have hrun : (do
      Frame.setBit .assertion 6 false
      Frame.setBit .assertion 7 false
      d.writeBody : Write Unit) (blank (d.octets * 8), 8) =
        .ok ((), (d.sheet, (first ++ fields.map some).length + 8)) := by
    rw [hgroup, hblank]
    iterate 6 rw [Frame.setBit_bind_apply (by simp [blank])]
    refine (hgo _).trans ?_
    iterate 2 rw [Frame.setBit_bind_apply (by simp [first])]
    change d.ud.write ((TLDeliver.headerBits d.ud.udhi).map some ++ fields.map some ++
      blank (8 + d.ud.sheet.length),
        ((TLDeliver.headerBits d.ud.udhi).map some ++ fields.map some).length) = _
    rw [TLUserData.write_apply]
    simp [TLDeliver.sheet, hfields, first, TLDeliver.headerBits]
  unfold TLDeliver.write
  have hassoc : ((do
      Frame.setBit .assertion 6 false
      Frame.setBit .assertion 7 false : Write Unit) >>= fun _ => d.writeBody) = (do
      Frame.setBit .assertion 6 false
      Frame.setBit .assertion 7 false
      d.writeBody : Write Unit) := by
    simp only [bind_assoc]
  dsimp only
  rw [hassoc, hrun]
  rfl

end Smqueue

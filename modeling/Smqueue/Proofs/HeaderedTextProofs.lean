import Smqueue.HeaderedText
import Smqueue.Proofs.WireProofs

/-!
# Proofs: text behind a user data header

The header and the fill bits take as many septets as the decoder skips, whatever the length of the header
is modulo seven.
-/

namespace Smqueue

open Frame (toBits)

namespace HeaderedText

theorem headerBits_length (t : HeaderedText) :
    t.headerBits.length = 8 * (t.header.length + 1) := by
  unfold headerBits
  rw [List.length_flatMap]
  simp only [List.length_reverse, Frame.toBits_length, List.map_const', List.sum_replicate_nat,
    List.length_cons, Nat.mul_comm]

/-- The text starts where the septets of the header end. -/
theorem textAt (t : HeaderedText) :
    (t.headerBits ++ t.fill).length = udhSeptets t.header.length * 7 ∧
      t.udl = udhSeptets t.header.length + t.text.length := by
  have haligned := t.aligned
  rw [List.length_append, headerBits_length]
  unfold udhSeptets udl
  omega

theorem header_lt (t : HeaderedText) : t.header.length < 2 ^ 8 := by
  have hfits := t.fits
  omega

theorem bits_length (t : HeaderedText) : t.bits.length = 7 * t.udl := by
  obtain ⟨hstart, hudl⟩ := t.textAt
  have hsep : (t.text.flatMap fun c => (toBits 7 (encodeGSMChar c)).reverse).length =
      7 * t.text.length := septetBits_length t.text
  unfold bits
  rw [List.length_append, hstart, hsep, hudl]
  omega

/-- The user data that the parser makes of the frame. -/
def userData (t : HeaderedText) : TLUserData :=
  { dcs := 0, udhi := true, length := t.udl, rawData := t.paddedBits }

/-- The decoder finds the length of the header. -/
theorem headerSeptets_userData (t : HeaderedText) :
    t.userData.headerSeptets = udhSeptets t.header.length := by
  have hfirst : t.headerBits = (toBits 8 t.header.length).reverse ++
      t.header.flatMap fun b => (toBits 8 b.toNat).reverse := by
    unfold headerBits
    rw [List.flatMap_cons, UInt8.toNat_ofNat', Nat.mod_eq_of_lt t.header_lt]
  have hlen : ((toBits 8 t.header.length).reverse).length = 8 := by simp
  have htake : t.paddedBits.take 8 = (toBits 8 t.header.length).reverse := by
    unfold paddedBits bits
    rw [hfirst, List.append_assoc, List.append_assoc, List.append_assoc, List.take_left' hlen]
  change udhSeptets (Frame.ofBits (t.paddedBits.take 8).reverse) = _
  rw [htake, List.reverse_reverse, Frame.ofBits_toBits_of_lt t.header_lt]

theorem readable_text (t : HeaderedText) : readable t.text = t.text := by
  unfold readable
  conv => rhs; rw [← List.map_id t.text]
  exact List.map_congr_left fun c hc => (decode_encodeGSMChar c).2.1 (t.inAlphabet c hc)

theorem decode_userData (t : HeaderedText) : t.userData.decode = .ok t.text := by
  obtain ⟨hstart, hudl⟩ := t.textAt
  have hseptets := t.headerSeptets_userData
  have hbits := t.bits_length
  have hraw : t.bits.length ≤ t.paddedBits.length := by
    unfold paddedBits
    rw [List.length_append]
    omega
  have hreadable : t.userData.Readable := by
    refine ⟨show decodable 0 = true by decide, ?_⟩
    change t.udl * 7 ≤ t.paddedBits.length
    omega
  have hlength : t.userData.textLength = t.text.length := by
    have hfits : t.udl ≤ 160 := t.fits
    have htext : t.userData.textLength = (t.udl + 2 ^ 32 - t.userData.headerSeptets) % 2 ^ 32 :=
      if_pos rfl
    rw [htext, hseptets]
    omega
  have hat : t.userData.textAt = (t.headerBits ++ t.fill).length := by
    rw [hstart, ← hseptets]
    exact if_pos rfl
  have hloop := decodeLoop_reads t.text (t.headerBits ++ t.fill)
    (List.replicate ((t.bits.length + 7) / 8 * 8 - t.bits.length) false)
  rw [t.readable_text] at hloop
  have hdecode : ∃ q, TLUserData.decodeLoop t.userData.rawData t.userData.textLength
      t.userData.textAt = .ok (t.text, q) := by
    rw [hlength, hat]
    exact ⟨_, hloop⟩
  refine (TLUserData.decode_eq_ok hreadable).2 ⟨fun _ => ?_, hdecode⟩
  · change 8 ≤ t.paddedBits.length
    have hheader := t.headerBits_length
    have hparts : t.headerBits.length ≤ t.bits.length := by
      unfold bits
      rw [List.append_assoc, List.length_append]
      omega
    omega

/-- A text behind a header is read off the end of a frame as it was packed. -/
theorem parse_decode (t : HeaderedText) (pre : List Bool) :
    ∃ ud, TLUserData.parse (pre ++ t.frameBits) 0 true pre.length = .ok (ud, pre.length + 8) ∧
      ud.decode = .ok t.text := by
  have hlen : t.userData.length < 256 := by
    have hfits : t.udl ≤ 160 := t.fits
    change t.udl < 256
    omega
  refine ⟨t.userData, ?_, t.decode_userData⟩
  refine TLUserData.parse_written ?_ hlen
  unfold frameBits
  rw [← List.append_assoc]
  rfl

/-- The second part of a message in two parts. -/
def secondPart : HeaderedText where
  header := [0, 3, 7, 2, 2]
  fill := [false]
  text := str "and goodbye"
  aligned := by decide
  inAlphabet := by decide +kernel
  fits := by decide

theorem parse_decode_secondPart :
    ∃ ud, TLUserData.parse ([true] ++ secondPart.frameBits) 0 true 1 = .ok (ud, 1 + 8) ∧
      ud.decode = .ok (str "and goodbye") :=
  parse_decode secondPart [true]

end HeaderedText

end Smqueue

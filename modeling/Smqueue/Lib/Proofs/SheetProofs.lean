import Smqueue.Lib.Proofs.FrameProofs
import Smqueue.Lib.Proofs.ExceptProofs
import Mathlib.Algebra.Group.Nat.Defs
import Mathlib.Data.List.Induction

/-!
# Proofs: frames that are written and read back

The bits of numbers and of reversed octets, and what sequences of writers and readers do, put
together from what each of them does.
-/

namespace Frame

variable {ε α β : Type} {e : ε}

/-! ## The bits of numbers -/

@[simp] theorem toBits_length (n v : Nat) : (toBits n v).length = n := by
  induction n generalizing v with
  | zero => rfl
  | succ n ih => simp [toBits, ih]

theorem ofBits_concat (bs : List Bool) (b : Bool) : ofBits (bs ++ [b]) = 2 * ofBits bs + b.toNat := by
  simp [ofBits]

/-- The low bits of a number give the number back, as far as they go. -/
theorem ofBits_toBits (n v : Nat) : ofBits (toBits n v) = v % 2 ^ n := by
  induction n generalizing v with
  | zero => simp [toBits, ofBits, Nat.mod_one]
  | succ n ih =>
    have hbit : (v % 2 == 1).toNat = v % 2 := by
      rcases Nat.mod_two_eq_zero_or_one v with h | h <;> simp [h]
    have hmod : v % 2 ^ (n + 1) = 2 * (v / 2 % 2 ^ n) + v % 2 := by
      rw [Nat.pow_succ, Nat.mul_comm (2 ^ n) 2, Nat.mod_mul]
      omega
    rw [toBits, ofBits_concat, ih, hbit, hmod]

theorem ofBits_toBits_of_lt {n v : Nat} (h : v < 2 ^ n) : ofBits (toBits n v) = v := by
  rw [ofBits_toBits, Nat.mod_eq_of_lt h]

theorem ofBits_lt (bs : List Bool) : ofBits bs < 2 ^ bs.length := by
  induction bs using List.reverseRecOn with
  | nil => simp [ofBits]
  | append_singleton bs b ih =>
    have hb : b.toNat ≤ 1 := Bool.toNat_le b
    rw [ofBits_concat, List.length_append, List.length_singleton, Nat.pow_succ]
    omega

/-- The bits of the value of a list of bits are the list. -/
theorem toBits_ofBits (bs : List Bool) : toBits bs.length (ofBits bs) = bs := by
  induction bs using List.reverseRecOn with
  | nil => rfl
  | append_singleton bs b ih =>
    have hdiv : (2 * ofBits bs + b.toNat) / 2 = ofBits bs := by
      have hb : b.toNat ≤ 1 := Bool.toNat_le b
      omega
    have hmod : ((2 * ofBits bs + b.toNat) % 2 == 1) = b := by
      cases b <;> simp [Nat.add_mod]
    rw [List.length_append, List.length_singleton, ofBits_concat, toBits, hdiv, hmod, ih]

/-- The low bits of a number are those of a remainder. -/
theorem toBits_mod (n v : Nat) : toBits n v = toBits n (v % 2 ^ n) := by
  have h := toBits_ofBits (toBits n v)
  rw [toBits_length, ofBits_toBits] at h
  exact h.symm

/-! ## Reversed octets -/

@[simp] theorem reverseOctets_length (l : List α) : (reverseOctets l).length = l.length := by
  fun_induction reverseOctets l with
  | case1 a b c d e f g h rest ih => simp [ih]
  | case2 rest => rfl

theorem reverseOctets_map (f : α → β) (l : List α) :
    reverseOctets (l.map f) = (reverseOctets l).map f := by
  fun_induction reverseOctets l with
  | case1 a b c d e f g h rest ih => simp [reverseOctets, ih]
  | case2 rest hshort =>
    match rest, hshort with
    | [], _ | [_], _ | [_, _], _ | [_, _, _], _ | [_, _, _, _], _ | [_, _, _, _, _], _
    | [_, _, _, _, _, _], _ | [_, _, _, _, _, _, _], _ => rfl
    | _ :: _ :: _ :: _ :: _ :: _ :: _ :: _ :: _, hshort => exact absurd rfl (hshort _ _ _ _ _ _ _ _ _)

/-- Reversing the octets twice changes nothing. -/
theorem reverseOctets_reverseOctets (l : List α) : reverseOctets (reverseOctets l) = l := by
  fun_induction reverseOctets l with
  | case1 a b c d e f g h rest ih => simp [reverseOctets, ih]
  | case2 rest hshort =>
    match rest, hshort with
    | [], _ | [_], _ | [_, _], _ | [_, _, _], _ | [_, _, _, _], _ | [_, _, _, _, _], _
    | [_, _, _, _, _, _], _ | [_, _, _, _, _, _, _], _ => rfl
    | _ :: _ :: _ :: _ :: _ :: _ :: _ :: _ :: _, hshort => exact absurd rfl (hshort _ _ _ _ _ _ _ _ _)

theorem mem_reverseOctets {l : List α} {x : α} : x ∈ reverseOctets l ↔ x ∈ l := by
  fun_induction reverseOctets l with
  | case1 a b c d e f g h rest ih =>
    simp only [List.mem_cons, ih]
    tauto
  | case2 rest => exact Iff.rfl

/-! ## Readers -/

theorem Reads.pure (a : α) : Reads (ε := ε) (fun _ => Pure.pure a) [] a := fun _ _ => rfl

/-- One reader after the other. -/
theorem Reads.bind {r : List Bool → Reader ε α} {f : List Bool → α → Reader ε β} {as bs : List Bool}
    {a : α} {b : β} (hr : Reads r as a) (hf : Reads (fun src => f src a) bs b) :
    Reads (fun src => r src >>= f src) (as ++ bs) b := by
  intro pre rest
  have h1 := hr pre (bs ++ rest)
  have h2 := hf (pre ++ as) rest
  have hsrc : pre ++ (as ++ bs) ++ rest = pre ++ as ++ (bs ++ rest) := by simp
  have hsrc' : pre ++ as ++ bs ++ rest = pre ++ as ++ (bs ++ rest) := by simp
  rw [hsrc'] at h2
  rw [hsrc]
  beta_reduce
  rw [bind_apply, h1]
  rw [List.length_append] at h2
  refine h2.trans ?_
  rw [List.length_append, Nat.add_assoc]

theorem Reads.of_eq {r : List Bool → Reader ε α} {as bs : List Bool} {a b : α} (hr : Reads r as a)
    (hbs : as = bs) (hab : a = b) : Reads r bs b := hbs ▸ hab ▸ hr

/-- A reader at the bits that it takes. -/
theorem Reads.apply {r : List Bool → Reader ε α} {bs src : List Bool} {a : α} (hr : Reads r bs a)
    (pre rest : List Bool) (hsrc : src = pre ++ bs ++ rest) :
    r src pre.length = .ok (a, (pre ++ bs).length) := by
  rw [hsrc, List.length_append]
  exact hr pre rest

/-- A reader with a result that is made of what was read. -/
theorem Reads.map {r : List Bool → Reader ε α} {bs : List Bool} {a : α} (f : α → β)
    (hr : Reads r bs a) : Reads (fun src => r src >>= fun x => Pure.pure (f x)) bs (f a) :=
  (hr.bind (Reads.pure (f a))).of_eq (List.append_nil bs) rfl

/-- The bits ahead of a reader. -/
theorem ahead (pre bs rest : List α) :
    ((pre ++ bs ++ rest).drop pre.length).take bs.length = bs := by
  rw [List.append_assoc, List.drop_left, List.take_left]

theorem field_reads {n : Nat} {bs : List Bool} (hn : bs.length = n) :
    Reads (fun src => field e src n) bs (ofBits bs) := by
  intro pre rest
  subst hn
  beta_reduce
  rw [field_apply, if_pos (by simp), ahead]

/-- A field that holds a number. -/
theorem field_reads_toBits {n v : Nat} (h : v < 2 ^ n) :
    Reads (fun src => field e src n) (toBits n v) v :=
  (field_reads (toBits_length n v)).of_eq rfl (ofBits_toBits_of_lt h)

theorem fieldReversed_reads {n : Nat} {bs : List Bool} (hn : bs.length = n) :
    Reads (fun src => fieldReversed e src n) bs (ofBits bs.reverse) := by
  intro pre rest
  subst hn
  beta_reduce
  rw [fieldReversed_apply, if_pos (by simp), ahead]

theorem segment_reads {n : Nat} {bs : List Bool} (hn : bs.length = n) :
    Reads (fun src => segment e src n) bs bs := by
  intro pre rest
  subst hn
  unfold segment
  beta_reduce
  rw [if_pos (by simp), ahead]

/-! ## Writers -/

theorem writer_bind_apply (w : Writer ε α) (f : α → Writer ε β) (s : Sheet × Nat) :
    (w >>= f) s = (w s).bind fun x => f x.1 x.2 := rfl

theorem Writes.pure : Writes (Pure.pure () : Writer ε Unit) [] := by
  intro pre rest _
  change Except.ok ((), (pre ++ rest, pre.length)) = _
  simp

theorem putBits_writes (bs : Sheet) : Writes (putBits e bs) bs := by
  intro pre rest h
  unfold putBits
  dsimp only
  rw [if_pos (by rw [List.length_append]; omega), List.take_left, List.drop_length_add_append]

theorem put_writes (v n : Nat) : Writes (put e v n) ((toBits n v).map some) := putBits_writes _

/-- One writer after the other. -/
theorem Writes.bind {w w' : Writer ε Unit} {as bs : Sheet} (hw : Writes w as) (hw' : Writes w' bs) :
    Writes (w >>= fun _ => w') (as ++ bs) := by
  intro pre rest h
  rw [List.length_append] at h
  have h1 := hw pre rest (by omega)
  have h2 := hw' (pre ++ as) (rest.drop as.length) (by rw [List.length_drop]; omega)
  rw [writer_bind_apply, h1]
  rw [List.length_append] at h2
  refine h2.trans ?_
  rw [List.drop_drop, List.length_append, List.append_assoc pre as bs, Nat.add_assoc]

/-- What goes on after a writer. -/
theorem Writes.bind_apply {w w' : Writer ε Unit} {pre bs rest : Sheet} (hw : Writes w bs)
    (h : bs.length ≤ rest.length) :
    (w >>= fun _ => w') (pre ++ rest, pre.length) =
      w' (pre ++ bs ++ rest.drop bs.length, (pre ++ bs).length) := by
  rw [writer_bind_apply, hw pre rest h, List.length_append]
  rfl

theorem setBit_bind_apply {w : Writer ε Unit} {s : Sheet} {p i : Nat} {b : Bool}
    (h : i < s.length) : (setBit e i b >>= fun _ => w) (s, p) = w (s.set i (some b), p) := by
  rw [writer_bind_apply]
  unfold setBit
  dsimp only
  rw [if_pos h]
  rfl

/-- A writer on a sheet with room for it: the rest of the sheet stays blank. -/
theorem Writes.run_room {w : Writer ε Unit} {bs : Sheet} (hw : Writes w bs) {n : Nat}
    (hn : bs.length ≤ n) :
    w (blank n, 0) = .ok ((), (bs ++ blank (n - bs.length), bs.length)) := by
  have h := hw [] (blank n) (by simpa [blank] using hn)
  simpa [blank] using h

/-- A writer that fills the sheet. -/
theorem Writes.run {w : Writer ε Unit} {bs : Sheet} (hw : Writes w bs) {n : Nat} (hn : bs.length = n) :
    w (blank n, 0) = .ok ((), (bs, n)) := by
  subst hn
  rw [hw.run_room (Nat.le_refl _), Nat.sub_self]
  simp [blank]

/-! ## Unwritten bits -/

theorem develop_append (junk : Nat → Bool) (s t : Sheet) :
    develop junk (s ++ t) = develop junk s ++ develop (fun i => junk (i + s.length)) t :=
  List.mapIdx_append

@[simp] theorem develop_length (junk : Nat → Bool) (s : Sheet) :
    (develop junk s).length = s.length := List.length_mapIdx

/-- A sheet that is all written. -/
@[simp] theorem develop_map_some (junk : Nat → Bool) (bs : List Bool) :
    develop junk (bs.map some) = bs := by
  induction bs generalizing junk with
  | nil => rfl
  | cons b bs ih =>
    have h := develop_append junk [some b] (bs.map some)
    rw [ih] at h
    exact h

/-- The bits of a developed sheet, next to what was written. -/
theorem develop_pairs (junk : Nat → Bool) (s : Sheet) : ∃ z : List (Option Bool × Bool),
    z.map Prod.fst = s ∧ z.map Prod.snd = develop junk s ∧ ∀ p ∈ z, ∀ b, p.1 = some b → p.2 = b := by
  refine ⟨s.mapIdx fun i b => (b, b.getD (junk i)), ?_, ?_, ?_⟩
  · refine List.ext_getElem (by simp) fun i _ _ => ?_
    simp
  · refine List.ext_getElem (by simp) fun i _ _ => ?_
    simp [develop]
  · intro p hp b hb
    obtain ⟨i, hi, rfl⟩ := List.mem_mapIdx.1 hp
    change s[i] = some b at hb
    change s[i].getD _ = b
    rw [hb]
    rfl

/-- Reversed octets with some bits at the end that were never written. -/
theorem reverseOctets_develop (junk : Nat → Bool) (bs : List Bool) (n : Nat) : ∃ fill : List Bool,
    fill.length = n ∧
      reverseOctets (develop junk (reverseOctets (bs.map some ++ blank n))) = bs ++ fill := by
  obtain ⟨z, hfst, hsnd, hagree⟩ := develop_pairs junk (reverseOctets (bs.map some ++ blank n))
  have hback : (reverseOctets z).map Prod.fst = bs.map some ++ blank n := by
    rw [← reverseOctets_map, hfst, reverseOctets_reverseOctets]
  obtain ⟨z1, z2, hz, h1, h2⟩ := List.map_eq_append_iff.1 hback
  refine ⟨z2.map Prod.snd, ?_, ?_⟩
  · have hlen := congrArg List.length h2
    rw [List.length_map, blank, List.length_replicate] at hlen
    rw [List.length_map, hlen]
  · have hbits : z1.map Prod.snd = bs := by
      refine List.map_injective_iff.2 (fun _ _ h => Option.some.inj h) ?_
      rw [← h1, List.map_map]
      refine List.map_congr_left fun p hp => ?_
      have hmem : p ∈ z := by
        rw [← mem_reverseOctets, hz]
        exact List.mem_append_left _ hp
      have hin : p.1 ∈ bs.map some := by
        rw [← h1]
        exact List.mem_map_of_mem hp
      obtain ⟨b, -, hb⟩ := List.mem_map.1 hin
      rw [← hb, ← hagree p hmem b hb.symm]
      rfl
    rw [← hsnd, reverseOctets_map, hz, List.map_append, hbits]

end Frame

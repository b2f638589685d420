import Smqueue.Lib.InputStream

/-!
# Proofs: streams and scanning

A stream that has run into the end of the input stays so, and a stream that has failed before the
end does not change any more. On a good stream every operation does what scanning the input says.
-/

namespace InputStream

variable {space : UInt8 → Bool} {f : InputStream} {max n : Nat} {c : UInt8}

/-! ## Flags -/

/-- The stream has failed before the end of its input. -/
def Stuck (f : InputStream) : Prop := f.fail = true ∧ f.eof = false

theorem skipSpace_of_eof (h : f.eof = true) : (f.skipSpace space).eof = true := by
  simp [skipSpace, h]

theorem skipSpace_of_stuck (h : f.Stuck) : f.skipSpace space = f := by
  obtain ⟨hfail, heof⟩ := h
  cases f
  simp_all [skipSpace]

theorem skipSpace_fail_of_eof (h : f.eof = true) : (f.skipSpace space).fail = true := by
  simp [skipSpace, h]

theorem extractWord_of_stuck (h : f.Stuck) : f.extractWord space = (none, f) := by
  unfold extractWord
  rw [skipSpace_of_stuck h]
  exact if_pos h.1

theorem extractUnsigned_of_eof (h : f.eof = true) :
    (f.extractUnsigned space max).2.eof = true := by
  unfold extractUnsigned
  rw [if_pos (skipSpace_fail_of_eof h)]
  exact skipSpace_of_eof h

theorem extractUnsigned_of_stuck (h : f.Stuck) : f.extractUnsigned space max = (none, f) := by
  unfold extractUnsigned
  rw [skipSpace_of_stuck h]
  exact if_pos h.1

theorem skipChar_of_eof (h : f.eof = true) : (f.skipChar c).eof = true := by
  simp [skipChar, h]

theorem skipChar_of_stuck (h : f.Stuck) : f.skipChar c = f := by
  obtain ⟨hfail, heof⟩ := h
  cases f
  simp_all [skipChar]

theorem takeText_of_eof (h : f.eof = true) : (f.takeText n c).2.eof = true := by
  simp [takeText, h]

theorem takeText_of_stuck (h : f.Stuck) : f.takeText n c = ([], f) := by
  obtain ⟨hfail, heof⟩ := h
  cases f
  simp_all [takeText]

/-! ## Good streams -/

variable {s : List UInt8} {α : Type}

/-- The stream `f` and the value taken from it are as scanning says. -/
def Follows (x : Scan α) (value : Option α) (f : InputStream) : Prop :=
  match x with
  | .ended => f.eof = true
  | .malformed => f.Stuck
  | .found a rest => value = some a ∧ f = ⟨rest, false, false⟩

theorem skipSpace_good (s : List UInt8) : skipSpace space ⟨s, false, false⟩ =
    ⟨s.dropWhile space, (s.dropWhile space).isEmpty, (s.dropWhile space).isEmpty⟩ := rfl

theorem extractWord_follows (space : UInt8 → Bool) (s : List UInt8) :
    Follows (.word space s) (extractWord space ⟨s, false, false⟩).1
      (extractWord space ⟨s, false, false⟩).2 := by
  unfold extractWord Scan.word
  rw [skipSpace_good]
  cases hs : s.dropWhile space with
  | nil => exact rfl
  | cons a t =>
    dsimp only [List.isEmpty_cons]
    cases hrest : (a :: t).dropWhile fun c => !space c with
    | nil => exact rfl
    | cons b u => exact ⟨rfl, rfl⟩

theorem extractUnsigned_follows (space : UInt8 → Bool) (max : Nat) (s : List UInt8) :
    Follows (.unsigned space max s) (extractUnsigned space max ⟨s, false, false⟩).1
      (extractUnsigned space max ⟨s, false, false⟩).2 := by
  unfold extractUnsigned Scan.unsigned
  rw [skipSpace_good]
  cases hs : s.dropWhile space with
  | nil => exact rfl
  | cons a t =>
    dsimp only [List.isEmpty_cons]
    obtain ⟨negative, ds, rest⟩ := scanNumber (a :: t)
    dsimp only
    cases rest with
    | nil =>
      by_cases hds : ds = [] <;> by_cases hv : max < valueOf ds <;> simp [hds, hv, Follows]
    | cons b u =>
      by_cases hds : ds = [] <;> by_cases hv : max < valueOf ds <;>
        simp [hds, hv, Follows, Stuck]

theorem skipChar_follows (c : UInt8) (s : List UInt8) :
    Follows (.chars c s) (some ()) (skipChar c ⟨s, false, false⟩) := by
  unfold skipChar Scan.chars
  dsimp only
  cases s.dropWhile (· = c) with
  | nil => exact rfl
  | cons a t => exact ⟨rfl, rfl⟩

theorem takeText_follows (n : Nat) (c : UInt8) (s : List UInt8) :
    Follows (.text n c s) (some (takeText n c ⟨s, false, false⟩).1)
      (takeText n c ⟨s, false, false⟩).2 := by
  unfold takeText Scan.text
  dsimp only
  generalize (s.take n).takeWhile (· ≠ c) = text
  cases s.drop text.length with
  | nil => exact rfl
  | cons a t =>
    cases text with
    | nil => exact ⟨rfl, rfl⟩
    | cons b u => exact ⟨rfl, rfl⟩

/-! ## Fields in front of more input -/

variable {p : UInt8 → Bool} {w ds t text : List UInt8} {d : UInt8}

theorem takeWhile_ahead (hw : ∀ x ∈ w, p x = true) (hd : p d = false) :
    (w ++ d :: t).takeWhile p = w := by
  rw [List.takeWhile_append_of_pos hw, List.takeWhile_cons_of_neg (by simp [hd]), List.append_nil]

theorem dropWhile_ahead (hw : ∀ x ∈ w, p x = true) (hd : p d = false) :
    (w ++ d :: t).dropWhile p = d :: t := by
  rw [List.dropWhile_append_of_pos hw, List.dropWhile_cons_of_neg (by simp [hd])]

/-- White space in front of a field that does not start with one is skipped. -/
theorem skipSpace_ahead (hs : ∀ x ∈ s, space x = true) (hd : space d = false) :
    skipSpace space ⟨s ++ d :: t, false, false⟩ = ⟨d :: t, false, false⟩ := by
  rw [skipSpace_good, dropWhile_ahead hs hd]
  rfl

theorem extractWord_ahead (hs : ∀ x ∈ s, space x = true) (hw : ∀ x ∈ w, space x = false)
    (hne : w ≠ []) (hd : space d = true) :
    extractWord space ⟨s ++ (w ++ d :: t), false, false⟩ = (some w, ⟨d :: t, false, false⟩) := by
  have hw' : ∀ x ∈ w, (!space x) = true := fun x hx => by simp [hw x hx]
  have hd' : (!space d) = false := by simp [hd]
  have hskip : skipSpace space ⟨s ++ (w ++ d :: t), false, false⟩ = ⟨w ++ d :: t, false, false⟩ := by
    cases w with
    | nil => exact absurd rfl hne
    | cons x w => exact skipSpace_ahead hs (hw x (List.mem_cons_self ..))
  unfold extractWord
  rw [hskip]
  dsimp only
  rw [takeWhile_ahead hw' hd', dropWhile_ahead hw' hd', if_neg Bool.false_ne_true]
  rfl

theorem scanNumber_ahead (hds : ∀ x ∈ ds, isDigit x = true) (hne : ds ≠ [])
    (hd : isDigit d = false) : scanNumber (ds ++ d :: t) = (false, ds, d :: t) := by
  have htake := takeWhile_ahead (t := t) hds hd
  have hdrop := dropWhile_ahead (t := t) hds hd
  cases ds with
  | nil => exact absurd rfl hne
  | cons x ds =>
    have hx := hds x (List.mem_cons_self ..)
    rw [List.cons_append] at htake hdrop ⊢
    unfold scanNumber
    split
    · rename_i heq
      rw [(List.cons.inj heq).1] at hx
      cases hx
    · rename_i heq
      rw [(List.cons.inj heq).1] at hx
      cases hx
    · rw [htake, hdrop]

theorem extractUnsigned_ahead (hs : ∀ x ∈ s, space x = true) (hds : ∀ x ∈ ds, isDigit x = true)
    (hspace : ∀ x, isDigit x = true → space x = false) (hne : ds ≠ []) (hmax : valueOf ds ≤ max)
    (hd : isDigit d = false) :
    extractUnsigned space max ⟨s ++ (ds ++ d :: t), false, false⟩ =
      (some (valueOf ds), ⟨d :: t, false, false⟩) := by
  have hskip : skipSpace space ⟨s ++ (ds ++ d :: t), false, false⟩ =
      ⟨ds ++ d :: t, false, false⟩ := by
    cases ds with
    | nil => exact absurd rfl hne
    | cons x ds => exact skipSpace_ahead hs (hspace x (hds x (List.mem_cons_self ..)))
  unfold extractUnsigned
  rw [hskip]
  dsimp only
  rw [if_neg Bool.false_ne_true, scanNumber_ahead hds hne hd]
  dsimp only
  rw [if_neg hne, if_neg (by omega)]
  rfl

theorem skipChar_good (c : UInt8) (s : List UInt8) : skipChar c ⟨s, false, false⟩ =
    ⟨s.dropWhile (· = c), (s.dropWhile (· = c)).isEmpty, false⟩ := rfl

theorem takeText_ahead (htext : c ∉ text) (hne : text ≠ []) (ht : t ≠ []) :
    takeText text.length c ⟨text ++ t, false, false⟩ = (text, ⟨t, false, false⟩) := by
  have hpos : ∀ x ∈ text, decide (x ≠ c) = true := fun x hx => decide_eq_true fun h => htext (h ▸ hx)
  have htake : (text ++ []).takeWhile (fun x => decide (x ≠ c)) = text ++ _ :=
    List.takeWhile_append_of_pos hpos
  rw [List.takeWhile_nil, List.append_nil] at htake
  have hempty : t.isEmpty = false := by simpa using ht
  unfold takeText
  dsimp only
  rw [List.take_left, htake, List.drop_left, hempty]
  cases text with
  | nil => exact absurd rfl hne
  | cons x text => rfl

/-- Text that is taken behind a character that was skipped does not start with it. -/
theorem takeText_skipChar_head (f : InputStream) (n : Nat) (c d : UInt8) :
    ((f.skipChar c).takeText n d).1.head? ≠ some c := by
  unfold skipChar
  split
  · unfold takeText
    rw [if_pos (by simp)]
    simp
  · unfold takeText
    dsimp only
    split
    · simp
    · dsimp only
      intro h
      have h1 := List.mem_of_mem_head? h
      cases hs : f.rest.dropWhile (fun x => decide (x = c)) with
      | nil =>
        rw [hs] at h1
        simp at h1
      | cons x s =>
        have hx : decide (x = c) = false := by
          have := List.head?_dropWhile_not (fun x => decide (x = c)) f.rest
          rw [hs] at this
          simpa using this
        rw [hs] at h
        cases n with
        | zero => simp at h
        | succ n =>
          rw [List.take_succ_cons, List.takeWhile_cons] at h
          split at h
          · have heq : x = c := by simpa using h
            simp [heq] at hx
          · simp at h

end InputStream

/-! ## Lengths -/

namespace Scan

variable {space : UInt8 → Bool} {s rest : List UInt8} {max n : Nat} {c : UInt8}

theorem dropWhile_length_le (p : UInt8 → Bool) (s : List UInt8) :
    (s.dropWhile p).length ≤ s.length :=
  (List.dropWhile_sublist p).length_le

theorem scanNumber_length_le (s : List UInt8) : (InputStream.scanNumber s).2.2.length ≤ s.length := by
  unfold InputStream.scanNumber
  split
  · exact Nat.le_trans (dropWhile_length_le _ _) (Nat.le_succ _)
  · exact Nat.le_trans (dropWhile_length_le _ _) (Nat.le_succ _)
  · exact dropWhile_length_le _ _

theorem word_length {w : List UInt8} (h : word space s = found w rest) :
    w.length + rest.length ≤ s.length := by
  unfold word at h
  dsimp only at h
  split at h
  · cases h
  · obtain ⟨rfl, rfl⟩ := found.inj h
    rw [← List.length_append, List.takeWhile_append_dropWhile]
    exact dropWhile_length_le _ _

theorem unsigned_length {v : Nat} (h : unsigned space max s = found v rest) :
    rest.length ≤ s.length := by
  unfold unsigned at h
  have hlen := scanNumber_length_le (s.dropWhile space)
  obtain ⟨negative, ds, rest'⟩ := InputStream.scanNumber (s.dropWhile space)
  dsimp only at h hlen
  split at h
  · cases h
  · split at h
    · cases h
    · obtain ⟨rfl, rfl⟩ := found.inj h
      exact Nat.le_trans hlen (dropWhile_length_le _ _)

theorem chars_length {u : Unit} (h : chars c s = found u rest) : rest.length ≤ s.length := by
  unfold chars at h
  dsimp only at h
  split at h
  · cases h
  · obtain ⟨-, rfl⟩ := found.inj h
    exact dropWhile_length_le _ _

theorem text_length {t : List UInt8} (h : text n c s = found t rest) : rest.length ≤ s.length := by
  unfold text at h
  dsimp only at h
  split at h
  · cases h
  · split at h
    · cases h
    · obtain ⟨-, rfl⟩ := found.inj h
      rw [List.length_drop]
      exact Nat.sub_le _ _

/-- Scanning on finds something where the first scan did and the second one does. -/
theorem bind_eq_found {α β : Type} {x : Scan α} {f : α → List UInt8 → Scan β} {b : β} :
    x.bind f = found b rest ↔ ∃ a s, x = found a s ∧ f a s = found b rest := by
  cases x with
  | ended =>
    constructor
    · intro h
      cases h
    · rintro ⟨a, s, h, -⟩
      cases h
  | malformed =>
    constructor
    · intro h
      cases h
    · rintro ⟨a, s, h, -⟩
      cases h
  | found a s =>
    constructor
    · intro h
      exact ⟨a, s, rfl, h⟩
    · rintro ⟨a', s', h, hf⟩
      cases h
      exact hf

end Scan

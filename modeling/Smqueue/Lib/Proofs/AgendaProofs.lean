import Smqueue.Lib.Agenda

/-!
# Proofs: the order and the identities of an agenda

For each edit: when it leaves the agenda in the order of its due times, and which identities it
keeps, adds or drops.
-/

namespace Agenda

variable {ι σ τ : Type*} {q : List (Entry ι σ τ)}

/-! ## Order -/

section Order

variable [LinearOrder τ]

theorem sorted_nil : Sorted ([] : List (Entry ι σ τ)) := List.Pairwise.nil

theorem sorted_cons {e : Entry ι σ τ} : Sorted (e :: q) ↔ NotAfter e.due q ∧ Sorted q :=
  List.pairwise_cons

theorem Sorted.erase [DecidableEq ι] (h : Sorted q) (i : ι) : Sorted (erase i q) :=
  h.sublist List.filter_sublist

theorem Sorted.insert (h : Sorted q) (e : Entry ι σ τ) : Sorted (insert e q) := by
  have : Std.Total fun a b : Entry ι σ τ => a.due ≤ b.due := ⟨fun a b => le_total a.due b.due⟩
  have : IsTrans (Entry ι σ τ) fun a b => a.due ≤ b.due := ⟨fun _ _ _ => le_trans⟩
  exact List.Pairwise.orderedInsert e q h

/-- Inserting puts nothing else out of order and repairs nothing else. -/
theorem sorted_insert_iff {e : Entry ι σ τ} : Sorted (insert e q) ↔ Sorted q :=
  ⟨fun h => h.sublist (List.sublist_orderedInsert e q), fun h => h.insert e⟩

theorem Sorted.requeue [DecidableEq ι] (h : Sorted q) (i : ι) (s : σ) (t : τ) :
    Sorted (requeue i s t q) := by
  unfold Agenda.requeue
  split
  · exact (h.erase i).insert _
  · exact h

/-- Requeueing puts an agenda in order exactly when all its other entries are. -/
theorem sorted_requeue_iff [DecidableEq ι] {i : ι} {s : σ} {t : τ} (hi : i ∈ ids q) :
    Sorted (requeue i s t q) ↔ Sorted (erase i q) := by
  rw [Agenda.requeue, if_pos hi, sorted_insert_iff]

theorem sorted_append {a b : List (Entry ι σ τ)} :
    Sorted (a ++ b) ↔ Sorted a ∧ Sorted b ∧ ∀ x ∈ a, ∀ y ∈ b, x.due ≤ y.due :=
  List.pairwise_append

end Order

/-! ## Identities -/

theorem mem_ids {i : ι} : i ∈ ids q ↔ ∃ e ∈ q, e.id = i := List.mem_map

theorem ids_insert_perm [LinearOrder τ] (e : Entry ι σ τ) :
    (ids (insert e q)).Perm (e.id :: ids q) :=
  (List.perm_orderedInsert _ e q).map Entry.id

variable [DecidableEq ι]

@[simp] theorem erase_nil (i : ι) : erase i ([] : List (Entry ι σ τ)) = [] := rfl

theorem erase_eq_self {i : ι} (h : i ∉ ids q) : erase i q = q := by
  refine List.filter_eq_self.2 fun e he => decide_eq_true fun hei => h ?_
  exact mem_ids.2 ⟨e, he, hei⟩

theorem erase_cons_ne {e : Entry ι σ τ} {i : ι} (h : e.id ≠ i) :
    erase i (e :: q) = e :: erase i q := by
  rw [erase, List.filter_cons_of_pos (by simpa using h)]; rfl

@[simp] theorem ids_erase (i : ι) : ids (erase i q) = (ids q).filter (· ≠ i) := by
  rw [ids, ids, erase, List.filter_map]; rfl

theorem erase_erase (i : ι) : erase i (erase i q) = erase i q := by
  simp [erase, List.filter_filter]

/-- Requeueing keeps the identities, up to their order. -/
theorem ids_requeue_perm [LinearOrder τ] {i : ι} {s : σ} {t : τ} (hd : (ids q).Nodup) :
    (ids (requeue i s t q)).Perm (ids q) := by
  unfold requeue
  split
  next hi =>
    refine (ids_insert_perm _).trans ?_
    rw [ids_erase]
    have hf : (ids q).filter (· ≠ i) = (ids q).erase i := by
      rw [hd.erase_eq_filter]
      exact List.filter_congr fun x _ => by by_cases h : x = i <;> simp [h]
    rw [hf]
    exact (List.perm_cons_erase hi).symm
  next => exact List.Perm.refl _

theorem erase_insert [LinearOrder τ] (i : ι) (s : σ) (t : τ) :
    erase i (insert ⟨i, s, t⟩ q) = erase i q := by
  induction q with
  | nil => simp [insert, erase]
  | cons x q ih =>
    unfold insert at ih ⊢
    rw [List.orderedInsert_cons]
    split
    · simp [erase]
    · by_cases hx : x.id = i
      · simpa [erase, hx] using ih
      · rw [erase_cons_ne hx, erase_cons_ne hx, ih]

/-- Requeueing leaves the other entries as they are, in the order they were in. -/
theorem erase_requeue [LinearOrder τ] (i : ι) (s : σ) (t : τ) :
    erase i (requeue i s t q) = erase i q := by
  unfold requeue
  split
  · rw [erase_insert, erase_erase]
  · rfl

@[simp] theorem ids_retime (i : ι) (s : σ) (t : τ) : ids (retime i s t q) = ids q := by
  rw [ids, ids, retime, List.map_map]
  refine List.map_congr_left fun e _ => ?_
  by_cases h : e.id = i <;> simp [h]

/-- Erasing and retiming may be done in either order. -/
theorem erase_retime (i j : ι) (s : σ) (t : τ) :
    erase j (retime i s t q) = retime i s t (erase j q) := by
  unfold erase retime
  rw [List.filter_map]
  refine congrArg _ (List.filter_congr fun e _ => ?_)
  by_cases h : e.id = i <;> simp [h]

theorem retime_eq_self {i : ι} {s : σ} {t : τ} (h : i ∉ ids q) : retime i s t q = q := by
  refine (List.map_congr_left fun e he => ?_).trans (List.map_id' q)
  rw [if_neg fun hei => h (mem_ids.2 ⟨e, he, hei⟩)]

/-- Giving an entry the state and the time it has changes nothing. -/
theorem retime_same {e : Entry ι σ τ} (hd : (ids q).Nodup) (he : e ∈ q) :
    retime e.id e.state e.due q = q := by
  refine (List.map_congr_left fun x hx => ?_).trans (List.map_id' q)
  by_cases hxe : x.id = e.id
  · obtain rfl : x = e := List.inj_on_of_nodup_map hd hx he hxe
    rw [if_pos rfl]
  · rw [if_neg hxe]

/-! ## Retiming in place -/

/-- Retiming the entry `e` between `a` and `b`. -/
theorem retime_append {a b : List (Entry ι σ τ)} {e : Entry ι σ τ} {s : σ} {t : τ}
    (hd : (ids (a ++ e :: b)).Nodup) :
    retime e.id s t (a ++ e :: b) = a ++ ⟨e.id, s, t⟩ :: b := by
  rw [ids, List.map_append, List.map_cons, List.nodup_append] at hd
  obtain ⟨-, hb, hab⟩ := hd
  have ha : e.id ∉ ids a := fun h => hab _ h _ (by simp) rfl
  have hb' : e.id ∉ ids b := (List.nodup_cons.1 hb).1
  have hcons : retime e.id s t (e :: b) = ⟨e.id, s, t⟩ :: retime e.id s t b := by simp [retime]
  rw [retime, List.map_append]
  exact congrArg₂ (· ++ ·) (retime_eq_self ha) (by rw [← retime, hcons, retime_eq_self hb'])

omit [DecidableEq ι] in
/-- An identity has one place in an agenda. -/
theorem place_unique {a a' b b' : List (Entry ι σ τ)} {e e' : Entry ι σ τ}
    (hd : (ids (a ++ e :: b)).Nodup) (heq : a ++ e :: b = a' ++ e' :: b') (hid : e'.id = e.id) :
    a = a' ∧ e = e' ∧ b = b' := by
  induction a generalizing a' with
  | nil =>
    cases a' with
    | nil => simpa using heq
    | cons y a' =>
      obtain ⟨rfl, rfl⟩ := List.cons.inj heq
      have hn : e.id ∉ ids (a' ++ e' :: b') := (List.nodup_cons.1 hd).1
      exact absurd (mem_ids.2 ⟨e', by simp, hid⟩) hn
  | cons x a ih =>
    have hn : x.id ∉ ids (a ++ e :: b) := (List.nodup_cons.1 hd).1
    cases a' with
    | nil =>
      obtain ⟨rfl, -⟩ := List.cons.inj heq
      exact absurd (mem_ids.2 ⟨e, by simp, hid.symm⟩) hn
    | cons y a' =>
      obtain ⟨rfl, htl⟩ := List.cons.inj heq
      obtain ⟨rfl, rfl, rfl⟩ := ih (List.nodup_cons.1 hd).2 htl
      exact ⟨rfl, rfl, rfl⟩

/-- An agenda in order stays in order under a retiming exactly when the new time fits the place of
the entry. -/
theorem sorted_retime_iff [LinearOrder τ] {i : ι} {s : σ} {t : τ} (hd : (ids q).Nodup) (hq : Sorted q) :
    Sorted (retime i s t q) ↔ Fits i t q := by
  by_cases hi : i ∈ ids q
  · obtain ⟨e, he, rfl⟩ := mem_ids.1 hi
    obtain ⟨a, b, rfl⟩ := List.append_of_mem he
    rw [retime_append hd, sorted_append, sorted_cons]
    obtain ⟨ha, hb, hab⟩ := sorted_append.1 hq
    constructor
    · rintro ⟨-, ⟨hbt, -⟩, hat⟩ a' e' b' heq hid
      obtain ⟨rfl, rfl, rfl⟩ := place_unique hd heq hid
      exact ⟨fun x hx => hat x hx _ List.mem_cons_self, hbt⟩
    · intro hfit
      obtain ⟨h1, h2⟩ := hfit a e b rfl rfl
      refine ⟨ha, ⟨h2, (sorted_cons.1 hb).2⟩, fun x hx y hy => ?_⟩
      rcases List.mem_cons.1 hy with rfl | hy
      · exact h1 x hx
      · exact hab x hx y (List.mem_cons_of_mem _ hy)
  · rw [retime_eq_self hi]
    refine ⟨fun _ a e b heq he => absurd ?_ hi, fun _ => hq⟩
    rw [heq]
    exact mem_ids.2 ⟨e, by simp, he⟩

end Agenda

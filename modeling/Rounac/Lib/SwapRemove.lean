import Mathlib.Data.List.Basic
import Mathlib.Data.List.Perm.Basic
import Mathlib.Data.List.Nodup

/-!
# Removal by position and swap

`swapRemove l i` drops the element at position `i` and puts the last element in its place, so it
costs no shift but reorders the list. `removeFirst p l` does so at the first position where `p`
holds. As far as membership and counting go this is plain erasure, up to a permutation.
-/

namespace SwapRemove

variable {α β : Type*}

/-- Drop position `i`, moving the last element there. -/
def swapRemove (l : List α) (i : ℕ) : List α :=
  match l.getLast? with
  | some x => (l.set i x).dropLast
  | none => l

/-- Remove the first element that satisfies `p`, and tell whether there was one. -/
def removeFirst (p : α → Bool) (l : List α) : Bool × List α :=
  match l.findIdx? p with
  | some i => (true, swapRemove l i)
  | none => (false, l)

theorem swapRemove_append_singleton (l : List α) (x : α) (i : ℕ) :
    swapRemove (l ++ [x]) i = ((l ++ [x]).set i x).dropLast := by
  simp [swapRemove]

/-- Up to order, `swapRemove` erases the element at its position. -/
theorem swapRemove_perm {l : List α} {i : ℕ} (hi : i < l.length) :
    (swapRemove l i).Perm (l.eraseIdx i) := by
  rcases List.eq_nil_or_concat l with rfl | ⟨l, x, rfl⟩
  · simp at hi
  · rw [List.concat_eq_append] at hi ⊢
    rw [swapRemove_append_singleton]
    rcases Nat.lt_or_ge i l.length with h | h
    · rw [List.set_append_left _ _ h, List.dropLast_concat, List.eraseIdx_append_of_lt_length h,
        List.set_eq_take_append_cons_drop, if_pos h, List.eraseIdx_eq_take_drop_succ,
        List.append_assoc]
      exact List.Perm.append_left _ (List.perm_append_singleton x _).symm
    · have hlen : i = l.length := by simp at hi; omega
      subst hlen
      rw [List.eraseIdx_append_of_length_le (Nat.le_refl _)]
      simp

theorem removeFirst_of_findIdx? {p : α → Bool} {l : List α} {i : ℕ} (h : l.findIdx? p = some i) :
    removeFirst p l = (true, swapRemove l i) := by
  simp [removeFirst, h]

theorem removeFirst_of_not_mem {p : α → Bool} {l : List α} (h : ∀ x ∈ l, p x = false) :
    removeFirst p l = (false, l) := by
  have hnone : l.findIdx? p = none := List.findIdx?_eq_none_iff.2 h
  simp [removeFirst, hnone]

theorem swapRemove_map (f : α → β) (l : List α) (i : ℕ) :
    swapRemove (l.map f) i = (swapRemove l i).map f := by
  rcases List.eq_nil_or_concat l with rfl | ⟨l, x, rfl⟩
  · rfl
  · rw [List.concat_eq_append, List.map_append, List.map_singleton, swapRemove_append_singleton,
      swapRemove_append_singleton, List.map_dropLast, List.map_set, List.map_append,
      List.map_singleton]

theorem removeFirst_map (f : α → β) (p : β → Bool) (l : List α) :
    (removeFirst p (l.map f)).2 = (removeFirst (p ∘ f) l).2.map f := by
  unfold removeFirst
  rw [List.findIdx?_map]
  cases l.findIdx? (p ∘ f) with
  | none => rfl
  | some i => exact swapRemove_map f l i

theorem exists_of_removeFirst {p : α → Bool} {l : List α} (h : (removeFirst p l).1 = true) :
    ∃ x ∈ l, p x := by
  by_contra hno
  rw [removeFirst_of_not_mem (by simpa using hno)] at h
  cases h

theorem exists_cons_perm {p : α → Bool} {l : List α} (h : ∃ x ∈ l, p x) :
    ∃ x, p x ∧ (removeFirst p l).1 = true ∧ l.Perm (x :: (removeFirst p l).2) := by
  cases hf : l.findIdx? p with
  | none =>
    obtain ⟨x, hx, hpx⟩ := h
    exact absurd (List.findIdx?_eq_none_iff.1 hf x hx) (by simp [hpx])
  | some i =>
    obtain ⟨hi, hp, -⟩ := List.findIdx?_eq_some_iff_getElem.1 hf
    refine ⟨l[i], hp, by simp [removeFirst, hf], ?_⟩
    rw [removeFirst_of_findIdx? hf]
    refine (List.getElem_cons_eraseIdx_perm hi).symm.trans ?_
    exact ((swapRemove_perm hi).symm).cons _

theorem removeFirst_perm_of_find? {p : α → Bool} {l : List α} {x : α} (h : l.find? p = some x) :
    l.Perm (x :: (removeFirst p l).2) := by
  obtain ⟨hpx, i, hi, hix, hbefore⟩ := List.find?_eq_some_iff_getElem.1 h
  have hidx : l.findIdx? p = some i := by
    refine List.findIdx?_eq_some_iff_getElem.2 ⟨hi, hix ▸ hpx, fun j hj => ?_⟩
    simpa using hbefore j hj
  rw [removeFirst_of_findIdx? hidx, ← hix]
  refine (List.getElem_cons_eraseIdx_perm hi).symm.trans ?_
  exact ((swapRemove_perm hi).symm).cons _

theorem mem_of_mem_removeFirst {p : α → Bool} {l : List α} {x : α}
    (h : x ∈ (removeFirst p l).2) : x ∈ l := by
  by_cases hex : ∃ y ∈ l, p y
  · obtain ⟨y, -, -, hperm⟩ := exists_cons_perm hex
    exact hperm.mem_iff.2 (List.mem_cons_of_mem _ h)
  · rw [removeFirst_of_not_mem (by simpa using hex)] at h
    exact h

theorem removeFirst_subperm (p : α → Bool) (l : List α) : (removeFirst p l).2.Subperm l := by
  by_cases hex : ∃ x ∈ l, p x
  · obtain ⟨x, -, -, hperm⟩ := exists_cons_perm hex
    exact (List.sublist_cons_self x _).subperm.trans hperm.symm.subperm
  · rw [removeFirst_of_not_mem (by simpa using hex)]

/-! ## Lists keyed by distinct ids -/

/-- Removing the key of `x` from a list that is, up to order, `x` and `l'` leaves `l'`. -/
theorem removeFirst_perm_of_key [DecidableEq β] {key : α → β} {l l' : List α} {x : α}
    (hl : l.Perm (x :: l')) (hnd : (l.map key).Nodup) :
    (removeFirst (fun y => key y == key x) l).2.Perm l' := by
  have hx : x ∈ l := hl.mem_iff.2 List.mem_cons_self
  obtain ⟨y, hy, -, hperm⟩ :=
    exists_cons_perm (p := fun y => key y == key x) (l := l) ⟨x, hx, by simp⟩
  have hyx : y = x := by
    refine List.inj_on_of_nodup_map hnd ?_ hx (by simpa using hy)
    exact hperm.mem_iff.2 List.mem_cons_self
  subst hyx
  exact List.Perm.cons_inv (hperm.symm.trans hl)

/-- With distinct keys, removal takes out exactly the element with the given key. -/
theorem mem_removeFirst_key_iff [DecidableEq β] {key : α → β} {l : List α} {k : β}
    (hnd : (l.map key).Nodup) {x : α} :
    x ∈ (removeFirst (fun y => key y == k) l).2 ↔ x ∈ l ∧ key x ≠ k := by
  by_cases hex : ∃ y ∈ l, key y = k
  · obtain ⟨y, hy, hyk⟩ := hex
    subst hyk
    have hmem : ∃ l', l.Perm (y :: l') := by
      obtain ⟨a, b, rfl⟩ := List.append_of_mem hy
      exact ⟨a ++ b, List.perm_middle⟩
    obtain ⟨l', hl'⟩ := hmem
    rw [(removeFirst_perm_of_key hl' hnd).mem_iff, hl'.mem_iff]
    have hnd' : (key y :: l'.map key).Nodup := ((hl'.map key).nodup_iff).1 hnd
    constructor
    · intro hx
      refine ⟨List.mem_cons_of_mem _ hx, fun he => ?_⟩
      exact (List.nodup_cons.1 hnd').1 (he ▸ List.mem_map_of_mem hx)
    · rintro ⟨hx, hne⟩
      rcases List.mem_cons.1 hx with rfl | hx
      · exact absurd rfl hne
      · exact hx
  · have hnone : ∀ y ∈ l, (key y == k) = false := fun y hy => by
      simp only [beq_eq_false_iff_ne]
      exact fun he => hex ⟨y, hy, he⟩
    rw [removeFirst_of_not_mem hnone]
    exact ⟨fun hx => ⟨hx, fun he => hex ⟨x, hx, he⟩⟩, fun h => h.1⟩

theorem mem_map_removeFirst_iff {key : α → β} {p : α → Bool} {l : List α}
    (hnd : (l.map key).Nodup) {k : β} :
    k ∈ (removeFirst p l).2.map key ↔ k ∈ l.map key ∧ k ∉ ((l.find? p).map key).toList := by
  cases hfind : l.find? p with
  | none =>
    rw [removeFirst_of_not_mem (by simpa using hfind)]
    simp
  | some x =>
    have hperm := (removeFirst_perm_of_find? hfind).map key
    have hnotMem := (List.nodup_cons.1 (hperm.nodup_iff.1 hnd)).1
    rw [hperm.mem_iff, Option.map_some, Option.toList_some, List.mem_singleton, List.map_cons,
      List.mem_cons]
    constructor
    · intro hk
      exact ⟨.inr hk, fun heq => hnotMem (heq ▸ hk)⟩
    · rintro ⟨hk | hk, hne⟩
      · exact absurd hk hne
      · exact hk

theorem nodup_append_singleton {key : α → β} {l : List α} {x : α} (hnd : (l.map key).Nodup)
    (hnew : ∀ y ∈ l, key y ≠ key x) : ((l ++ [x]).map key).Nodup := by
  rw [List.map_append, List.nodup_append]
  refine ⟨hnd, List.nodup_singleton _, fun k hk k' hk' => ?_⟩
  obtain ⟨y, hy, rfl⟩ := List.mem_map.1 hk
  cases List.mem_singleton.1 hk'
  exact hnew y hy

theorem nodup_removeFirst {key : α → β} {p : α → Bool} {l : List α}
    (hnd : (l.map key).Nodup) : ((removeFirst p l).2.map key).Nodup := by
  by_cases hex : ∃ y ∈ l, p y
  · obtain ⟨y, -, -, hperm⟩ := exists_cons_perm hex
    exact (List.nodup_cons.1 (((hperm.map key).nodup_iff).1 hnd)).2
  · rw [removeFirst_of_not_mem (by simpa using hex)]
    exact hnd

end SwapRemove

import Mathlib.Data.List.Induction
import Mathlib.Data.List.Sort

/-!
# Elements picked by position

`picks xs ks` are the elements of `xs` at the positions `ks`, in the order of `ks`. Positions that
do not repeat pick every element once at most, and ascending ones keep the order.
-/

namespace Picks

variable {α : Type*}

/-- The elements at the positions, as far as there are any. -/
def picks (xs : List α) (ks : List ℕ) : List α := ks.filterMap (xs[·]?)

@[simp] theorem picks_nil (xs : List α) : picks xs [] = [] := rfl

theorem picks_append (xs : List α) (ks js : List ℕ) :
    picks xs (ks ++ js) = picks xs ks ++ picks xs js := List.filterMap_append

theorem picks_append_left {xs : List α} (ys : List α) {ks : List ℕ} (h : ∀ k ∈ ks, k < xs.length) :
    picks (xs ++ ys) ks = picks xs ks :=
  List.filterMap_congr fun k hk => List.getElem?_append_left (h k hk)

theorem length_picks {xs : List α} {ks : List ℕ} (h : ∀ k ∈ ks, k < xs.length) :
    (picks xs ks).length = ks.length := by
  induction ks with
  | nil => rfl
  | cons k ks ih =>
    have hk : xs[k]? = some (xs.get ⟨k, h k List.mem_cons_self⟩) := List.getElem?_eq_getElem _
    have hks := ih fun j hj => h j (List.mem_cons_of_mem _ hj)
    unfold picks at hks ⊢
    rw [List.filterMap_cons_some hk, List.length_cons, List.length_cons, hks]

theorem picks_range (xs : List α) : picks xs (List.range xs.length) = xs := by
  induction xs using List.reverseRecOn with
  | nil => rfl
  | append_singleton xs x ih =>
    have hinit : picks (xs ++ [x]) (List.range xs.length) = xs :=
      (picks_append_left [x] fun k hk => List.mem_range.1 hk).trans ih
    rw [List.length_append, List.length_singleton, List.range_succ, picks_append, hinit]
    simp [picks]

theorem picks_range' (xs ys : List α) :
    picks (xs ++ ys) (List.range' xs.length ys.length) = ys := by
  have hall := picks_range (xs ++ ys)
  have hsplit : List.range (xs ++ ys).length =
      List.range xs.length ++ List.range' xs.length ys.length := by
    rw [List.length_append, List.range_eq_range', List.range_eq_range', ← List.range'_append_1,
      Nat.zero_add]
  rw [hsplit, picks_append,
    picks_append_left ys fun k hk => List.mem_range.1 hk, picks_range] at hall
  exact List.append_cancel_left hall

theorem subperm_range {ks : List ℕ} {n : ℕ} (hnodup : ks.Nodup) (hlt : ∀ k ∈ ks, k < n) :
    ks.Subperm (List.range n) :=
  List.subperm_of_subset hnodup fun k hk => List.mem_range.2 (hlt k hk)

/-- Positions that do not repeat pick no element twice. -/
theorem picks_subperm {xs : List α} {ks : List ℕ} (hnodup : ks.Nodup)
    (hlt : ∀ k ∈ ks, k < xs.length) : (picks xs ks).Subperm xs := by
  obtain ⟨js, hperm, hsub⟩ := subperm_range hnodup hlt
  have hpicks := hsub.filterMap (xs[·]?)
  rw [← picks, ← picks, picks_range] at hpicks
  exact ⟨picks xs js, hperm.filterMap _, hpicks⟩

theorem picks_sublist {xs : List α} {ks : List ℕ} (hsorted : ks.Pairwise (· < ·))
    (hlt : ∀ k ∈ ks, k < xs.length) : (picks xs ks).Sublist xs := by
  have hsub : ks.Sublist (List.range xs.length) :=
    List.sublist_of_subperm_of_pairwise (r := (· ≤ ·))
      (subperm_range (hsorted.imp Nat.ne_of_lt) hlt) (hsorted.imp Nat.le_of_lt)
      (List.pairwise_lt_range.imp Nat.le_of_lt)
  have hpicks := hsub.filterMap (xs[·]?)
  rwa [← picks, ← picks, picks_range] at hpicks

end Picks

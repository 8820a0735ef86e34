import Mathlib.Data.List.Basic

/-!
# The greedy spacing filter

The filter admits an element when its time is at least `gap` after the time of the last admitted
one. A time earlier than the last admitted one counts as no time at all: the subtraction is
truncated. `admitted` is what passes out of a whole list, `lastAdmitted` what the filter
remembers after it.
-/

namespace SpacedFilter

variable {α : Type*}

/-- Whether an element at time `t` passes. -/
def passes (gap : ℕ) (last : Option ℕ) (t : ℕ) : Bool :=
  match last with
  | some l => decide (gap ≤ t - l)
  | none => true

/-- The elements that pass, in order. -/
def admitted (gap : ℕ) : Option ℕ → List (ℕ × α) → List (ℕ × α)
  | _, [] => []
  | last, x :: xs =>
      if passes gap last x.1 then x :: admitted gap (some x.1) xs else admitted gap last xs

/-- The time of the last element that passed. -/
def lastAdmitted (gap : ℕ) : Option ℕ → List (ℕ × α) → Option ℕ
  | last, [] => last
  | last, x :: xs =>
      if passes gap last x.1 then lastAdmitted gap (some x.1) xs else lastAdmitted gap last xs

/-- A filter may be absent, and then everything passes and nothing is remembered. -/
def admittedBy : Option ℕ → Option ℕ → List (ℕ × α) → List (ℕ × α)
  | none, _, xs => xs
  | some gap, last, xs => admitted gap last xs

/-- What an optional filter remembers. -/
def lastBy : Option ℕ → Option ℕ → List (ℕ × α) → Option ℕ
  | none, last, _ => last
  | some gap, last, xs => lastAdmitted gap last xs

/-- **The filter runs over a concatenation in two parts**, the second from what the first part
made it remember. -/
theorem admitted_append (gap : ℕ) (last : Option ℕ) (xs ys : List (ℕ × α)) :
    admitted gap last (xs ++ ys) =
      admitted gap last xs ++ admitted gap (lastAdmitted gap last xs) ys := by
  induction xs generalizing last with
  | nil => rfl
  | cons x xs ih =>
    by_cases h : passes gap last x.1 <;> simp [admitted, lastAdmitted, h, ih]

theorem lastAdmitted_append (gap : ℕ) (last : Option ℕ) (xs ys : List (ℕ × α)) :
    lastAdmitted gap last (xs ++ ys) = lastAdmitted gap (lastAdmitted gap last xs) ys := by
  induction xs generalizing last with
  | nil => rfl
  | cons x xs ih =>
    by_cases h : passes gap last x.1 <;> simp [lastAdmitted, h, ih]

@[simp] theorem admittedBy_nil (gap last : Option ℕ) :
    admittedBy gap last ([] : List (ℕ × α)) = [] := by
  cases gap <;> rfl

@[simp] theorem lastBy_nil (gap last : Option ℕ) :
    lastBy gap last ([] : List (ℕ × α)) = last := by
  cases gap <;> rfl

theorem admittedBy_append (gap last : Option ℕ) (xs ys : List (ℕ × α)) :
    admittedBy gap last (xs ++ ys) =
      admittedBy gap last xs ++ admittedBy gap (lastBy gap last xs) ys := by
  cases gap with
  | none => rfl
  | some g => exact admitted_append g last xs ys

theorem lastBy_append (gap last : Option ℕ) (xs ys : List (ℕ × α)) :
    lastBy gap last (xs ++ ys) = lastBy gap (lastBy gap last xs) ys := by
  cases gap with
  | none => rfl
  | some g => exact lastAdmitted_append g last xs ys

/-! ## Telling filters apart -/

theorem admitted_zero (last : Option ℕ) (xs : List (ℕ × α)) : admitted 0 last xs = xs := by
  induction xs generalizing last with
  | nil => rfl
  | cons x xs ih =>
    have hpass : passes 0 last x.1 = true := by cases last <;> simp [passes]
    rw [admitted, if_pos hpass, ih]

theorem admittedBy_eq_admitted (gap last : Option ℕ) (xs : List (ℕ × α)) :
    admittedBy gap last xs = admitted (gap.getD 0) last xs := by
  cases gap with
  | none => exact (admitted_zero last xs).symm
  | some g => rfl

theorem length_admitted_pair (gap t : ℕ) (x y : α) :
    (admitted gap none [(0, x), (t, y)]).length = if gap ≤ t then 2 else 1 := by
  by_cases h : gap ≤ t <;> simp [admitted, passes, h]

/-- **Filters that let as much through are of one width.** -/
theorem getD_eq_of_length_admittedBy {f g : Option ℕ} {x : α}
    (h : ∀ t, (admittedBy f none [(0, x), (t, x)]).length =
      (admittedBy g none [(0, x), (t, x)]).length) : f.getD 0 = g.getD 0 := by
  have hiff : ∀ t, f.getD 0 ≤ t ↔ g.getD 0 ≤ t := by
    intro t
    have ht := h t
    rw [admittedBy_eq_admitted, admittedBy_eq_admitted, length_admitted_pair,
      length_admitted_pair] at ht
    split_ifs at ht <;> omega
  exact Nat.le_antisymm ((hiff _).2 (Nat.le_refl _)) ((hiff _).1 (Nat.le_refl _))

theorem mem_of_mem_admittedBy {f last : Option ℕ} {xs : List (ℕ × α)} {x : ℕ × α}
    (h : x ∈ admittedBy f last xs) : x ∈ xs := by
  rw [admittedBy_eq_admitted] at h
  induction xs generalizing last with
  | nil => exact h
  | cons y ys ih =>
    rw [admitted] at h
    split_ifs at h
    · rcases List.mem_cons.1 h with rfl | h
      · exact List.mem_cons_self
      · exact List.mem_cons_of_mem _ (ih h)
    · exact List.mem_cons_of_mem _ (ih h)

/-! ## Spacing -/

/-- What passes after an element at `l` comes at least `gap` after it. -/
theorem add_gap_le_of_mem {gap l : ℕ} (hgap : 0 < gap) {xs : List (ℕ × α)} {x : ℕ × α}
    (h : x ∈ admitted gap (some l) xs) : l + gap ≤ x.1 := by
  induction xs generalizing l with
  | nil => cases h
  | cons y ys ih =>
    rw [admitted] at h
    split_ifs at h with hpass
    · have hy : gap ≤ y.1 - l := by simpa [passes] using hpass
      rcases List.mem_cons.1 h with rfl | h
      · omega
      · have hx := ih h
        omega
    · exact ih h

/-- **What passes is spaced**: any two elements, not only neighbours, are `gap` apart. -/
theorem pairwise_admitted (gap : ℕ) (last : Option ℕ) (xs : List (ℕ × α)) :
    (admitted gap last xs).Pairwise fun x y => gap ≤ y.1 - x.1 := by
  rcases Nat.eq_zero_or_pos gap with rfl | hgap
  · exact List.pairwise_of_forall fun _ _ => Nat.zero_le _
  · induction xs generalizing last with
    | nil => exact List.Pairwise.nil
    | cons x xs ih =>
      rw [admitted]
      split_ifs
      · refine List.pairwise_cons.2 ⟨fun y hy => ?_, ih _⟩
        have hxy := add_gap_le_of_mem hgap hy
        omega
      · exact ih last

/-- **No spaced subsequence is longer than what passes**, when the times do not decrease. The
exchange: the element that passes first comes no later than the first of any subsequence. -/
theorem length_le_length_admitted {gap : ℕ} {last : Option ℕ} {xs ys : List (ℕ × α)}
    (hsorted : xs.Pairwise fun x y => x.1 ≤ y.1) (hsub : ys.Sublist xs)
    (hspaced : ys.Pairwise fun x y => gap ≤ y.1 - x.1) (hlast : ∀ y ∈ ys, passes gap last y.1) :
    ys.length ≤ (admitted gap last xs).length := by
  induction xs generalizing last ys with
  | nil => simp [List.sublist_nil.1 hsub]
  | cons x xs ih =>
    obtain ⟨hx, hsorted⟩ := List.pairwise_cons.1 hsorted
    rw [admitted]
    split_ifs with hpass
    · cases ys with
      | nil => exact Nat.zero_le _
      | cons y ys =>
        obtain ⟨hy, hspaced⟩ := List.pairwise_cons.1 hspaced
        have hxy : x.1 ≤ y.1 := by
          rcases List.mem_cons.1 (hsub.subset List.mem_cons_self) with rfl | hmem
          · exact Nat.le_refl _
          · exact hx y hmem
        refine Nat.succ_le_succ (ih hsorted hsub.tail hspaced fun z hz => ?_)
        have hyz := hy z hz
        simp only [passes, decide_eq_true_eq]
        omega
    · refine ih hsorted ?_ hspaced hlast
      cases hsub with
      | cons _ hsub => exact hsub
      | cons_cons _ hsub => exact absurd (hlast x List.mem_cons_self) hpass

/-! ## Elements that count for nothing -/

/-- Every good element that is held back comes less than `gap` after the last good element that
passed. `kept` is the time of that one, `last` what the filter remembers. -/
def Undisturbed (good : ℕ × α → Bool) (gap : ℕ) : Option ℕ → Option ℕ → List (ℕ × α) → Prop
  | _, _, [] => True
  | kept, last, x :: xs =>
      if passes gap last x.1 then
        Undisturbed good gap (if good x then some x.1 else kept) (some x.1) xs
      else (good x = true → passes gap kept x.1 = false) ∧ Undisturbed good gap kept last xs

/-- What the filter lets pass now it let pass before the element at `t` passed. -/
theorem passes_of_passes {gap t u : ℕ} {kept : Option ℕ} (ht : passes gap kept t)
    (hu : passes gap (some t) u) : passes gap kept u := by
  cases kept with
  | none => rfl
  | some k =>
    simp only [passes, decide_eq_true_eq] at ht hu ⊢
    omega

variable {β : Type*}

/-- **Leaving out elements that count for nothing**, such as those that `f` makes nothing of,
changes what passes exactly when they disturb a good one. -/
theorem filterMap_admitted_eq_iff {f : ℕ × α → Option (ℕ × β)}
    (hf : ∀ x y, f x = some y → y.1 = x.1) {gap : ℕ} {kept last : Option ℕ}
    (hback : ∀ t, passes gap last t → passes gap kept t) (xs : List (ℕ × α)) :
    (admitted gap last xs).filterMap f =
        (admitted gap kept (xs.filter fun x => (f x).isSome)).filterMap f ↔
      Undisturbed (fun x => (f x).isSome) gap kept last xs := by
  induction xs generalizing kept last with
  | nil => exact ⟨fun _ => trivial, fun _ => rfl⟩
  | cons x xs ih =>
    cases hx : f x with
    | none =>
      rw [List.filter_cons_of_neg (by simp [hx]), admitted, Undisturbed]
      by_cases hpass : passes gap last x.1
      · rw [if_pos hpass, if_pos hpass, List.filterMap_cons_none hx, if_neg (by simp [hx])]
        exact ih fun t ht => passes_of_passes (hback _ hpass) ht
      · rw [if_neg hpass, if_neg hpass, ih hback]
        exact (and_iff_right (by simp [hx])).symm
    | some y =>
      rw [List.filter_cons_of_pos (by simp [hx]), admitted, admitted, Undisturbed]
      by_cases hpass : passes gap last x.1
      · rw [if_pos hpass, if_pos (hback _ hpass), if_pos hpass, if_pos (by simp [hx]),
          List.filterMap_cons_some hx, List.filterMap_cons_some hx, List.cons_inj_right]
        exact ih fun t ht => ht
      · rw [if_neg hpass, if_neg hpass]
        by_cases hkept : passes gap kept x.1
        · rw [if_pos hkept, List.filterMap_cons_some hx]
          refine iff_of_false (fun heq => ?_) (by simp [hx, hkept])
          -- Whatever passes later comes later than `x`.
          obtain ⟨z, hz, hzy⟩ := List.mem_filterMap.1 (heq ▸ List.mem_cons_self)
          have htime : z.1 = x.1 := (hf z y hzy).symm.trans (hf x y hx)
          cases last with
          | none => exact hpass rfl
          | some l =>
            simp only [passes, decide_eq_true_eq] at hpass
            have hlate := add_gap_le_of_mem (by omega) hz
            omega
        · rw [if_neg hkept, ih hback]
          exact (and_iff_right fun _ => by simpa using hkept).symm

end SpacedFilter

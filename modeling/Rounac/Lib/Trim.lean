import Mathlib.Data.List.DropRight

/-!
# Trimming

`trimBy p s` drops the elements of `p` at both ends of `s`. What is dropped is a prefix and a suffix
all of whose elements are in `p` (`exists_trimBy`), and adding such a prefix or suffix changes
nothing.
-/

namespace Trim

variable {α : Type*} {p : α → Bool}

/-- Drop the elements of `p` at both ends. -/
def trimBy (p : α → Bool) (s : List α) : List α := (s.dropWhile p).rdropWhile p

theorem trimBy_append_left {front : List α} (h : ∀ c ∈ front, p c) (s : List α) :
    trimBy p (front ++ s) = trimBy p s := by
  rw [trimBy, List.dropWhile_append_of_pos h]
  rfl

theorem rdropWhile_append_right {back : List α} (h : ∀ c ∈ back, p c) (s : List α) :
    (s ++ back).rdropWhile p = s.rdropWhile p := by
  unfold List.rdropWhile
  rw [List.reverse_append, List.dropWhile_append_of_pos fun c hc => h c (List.mem_reverse.1 hc)]

theorem trimBy_append_right {back : List α} (h : ∀ c ∈ back, p c) (s : List α) :
    trimBy p (s ++ back) = trimBy p s := by
  unfold trimBy
  rw [List.dropWhile_append]
  split_ifs with hempty
  · rw [List.isEmpty_iff.1 hempty, List.dropWhile_eq_nil_iff.2 h]
  · exact rdropWhile_append_right h _

theorem trimBy_eq_self {x y : List α} (hx : x ≠ []) (hy : y ≠ []) (hpx : ∀ c ∈ x, p c = false)
    (hpy : ∀ c ∈ y, p c = false) (mid : List α) : trimBy p (x ++ mid ++ y) = x ++ mid ++ y := by
  have hfront : (x ++ mid ++ y).dropWhile p = x ++ mid ++ y := by
    cases x with
    | nil => exact absurd rfl hx
    | cons c x => simp [hpx c List.mem_cons_self]
  rw [trimBy, hfront, List.rdropWhile_eq_self_iff]
  intro hne
  rw [List.getLast_append_of_ne_nil hne hy]
  simp [hpy _ (List.getLast_mem hy)]

theorem trimBy_eq_self_of_forall {s : List α} (h : ∀ c ∈ s, p c = false) : trimBy p s = s := by
  cases s with
  | nil => rfl
  | cons c s =>
    have hfront : (c :: s).dropWhile p = c :: s := by simp [h c List.mem_cons_self]
    rw [trimBy, hfront, List.rdropWhile_eq_self_iff]
    intro hne
    simp [h _ (List.getLast_mem hne)]

theorem exists_trimBy (p : α → Bool) (s : List α) :
    ∃ front back, s = front ++ trimBy p s ++ back ∧ (∀ c ∈ front, p c) ∧ ∀ c ∈ back, p c := by
  refine ⟨s.takeWhile p, (s.dropWhile p).rtakeWhile p, ?_, ?_, ?_⟩
  · rw [trimBy, List.append_assoc, List.rdropWhile_append_rtakeWhile,
      List.takeWhile_append_dropWhile]
  · exact fun c hc => List.mem_takeWhile_imp hc
  · exact fun c hc => List.mem_rtakeWhile_imp hc

end Trim

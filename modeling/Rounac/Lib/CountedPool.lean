import Rounac.Lib.TaskPool
import Rounac.Lib.WrapCounter

/-!
# Counters of a pool

A `w`-bit counter counts the tasks of a kind in a pool: a task that enters the kind increments it,
one that leaves the kind decrements it. The counter then is the number of such tasks modulo `2 ^ w`
(`Counts`), and below the wrap it tells whether a task is the only one of its kind.
-/

namespace CountedPool

open TaskPool WrapCounter

variable {α : Type*} {w : ℕ}

/-- The counter counts the tasks of the kind `p`. -/
def Counts (c : BitVec w) (p : α → Bool) (tasks : List α) : Prop := c = counted w (tasks.countP p)

variable {c : BitVec w} {p : α → Bool} {tasks : List α} {i : ℕ} {t t' : α}

/-! ## Steps of a task -/

theorem Counts.enter (h : Counts c p tasks) (hi : tasks[i]? = some t) (hp : p t = false)
    (hp' : p t' = true) : Counts (c + 1) p (tasks.set i t') := by
  unfold Counts at h ⊢
  rw [countP_set_enter p hi t' hp hp', h, counted_add_one]

theorem Counts.leave (h : Counts c p tasks) (hi : tasks[i]? = some t) (hp : p t = true)
    (hp' : p t' = false) : Counts (c - 1) p (tasks.set i t') := by
  have hcount := countP_set_leave p hi t' hp hp'
  have hpos : 0 < tasks.countP p := by omega
  unfold Counts at h ⊢
  rw [h, counted_sub_one hpos, ← hcount, Nat.add_sub_cancel]

theorem Counts.keep (h : Counts c p tasks) (hi : tasks[i]? = some t) (hp : p t' = p t) :
    Counts c p (tasks.set i t') := by
  unfold Counts at h ⊢
  rw [countP_set_of_eq p hi hp, h]

theorem Counts.append (h : Counts c p tasks) (hp : p t = false) : Counts c p (tasks ++ [t]) := by
  unfold Counts at h ⊢
  rw [List.countP_append, List.countP_singleton, hp, h]
  rfl

/-! ## Below the wrap -/

theorem Counts.toNat_eq (h : Counts c p tasks) (hlt : tasks.countP p < 2 ^ w) :
    c.toNat = tasks.countP p := by
  rw [h, toNat_counted_of_lt hlt]

theorem Counts.ne_zero (h : Counts c p tasks) (hlt : tasks.countP p < 2 ^ w)
    (hi : tasks[i]? = some t) (hp : p t = true) : c ≠ 0 := by
  have hpos : 0 < tasks.countP p := List.countP_pos_iff.2 ⟨t, mem_of_getElem? hi, hp⟩
  intro hzero
  have hnat : c.toNat = 0 := by simp [hzero]
  rw [h.toNat_eq hlt] at hnat
  omega

/-- A counter at one means that a task of the kind is the only one. -/
theorem Counts.eq_one_iff (h : Counts c p tasks) (hw : 0 < w) (hlt : tasks.countP p < 2 ^ w)
    (hi : tasks[i]? = some t) (hp : p t = true) :
    c = 1 ↔ ∀ j u, tasks[j]? = some u → p u = true → j = i := by
  rw [h, counted_eq_one_iff_of_lt hw hlt, countP_eq_one_iff hi hp]

end CountedPool

import Mathlib.Data.List.MinMax
import Rounac.Lib.TaskPool

/-!
# Locks taken in order

A pool of tasks shares readers-writer locks. A task holds locks and may want one more, and waits
while another task holds that one in a conflicting way. A lock may also be fair to writers: then
a reader waits behind every writer that waits.

If each task only wants locks that rank above those it holds, no pool is stuck: of the tasks that
wait, one that waits for a lock of the highest rank meets no holder, since a holder of that lock
would wait for one of a higher rank (`exists_ready`).
-/

namespace LockOrder

/-- The two ways to hold a lock. -/
inductive Access
  | read
  | write
deriving DecidableEq, Repr

/-- Two accesses to one lock at a time: only reads share. -/
def Access.conflicts : Access → Access → Bool
  | read, read => false
  | _, _ => true

/-- What tasks hold and want. A finished task does neither. -/
structure Locking (τ L : Type*) where
  holds : τ → List (L × Access)
  wants : τ → Option (L × Access)
  finished : τ → Bool
  holds_finished : ∀ t, finished t = true → holds t = []
  wants_finished : ∀ t, finished t = true → wants t = none

namespace Locking

variable {τ L : Type*} (d : Locking τ L)

/-- No task of the pool holds the lock in a way that excludes the access. -/
def Free (tasks : List τ) (l : L) (a : Access) : Prop :=
  ∀ t ∈ tasks, ∀ h ∈ d.holds t, h.1 = l → a.conflicts h.2 = false

instance [DecidableEq L] (tasks : List τ) (l : L) (a : Access) : Decidable (d.Free tasks l a) :=
  inferInstanceAs (Decidable (∀ t ∈ tasks, ∀ h ∈ d.holds t, h.1 = l → a.conflicts h.2 = false))

/-- What the task wants, if anything, is free. -/
def Grants (tasks : List τ) (t : τ) : Prop := ∀ w ∈ d.wants t, d.Free tasks w.1 w.2

instance [DecidableEq L] (tasks : List τ) (t : τ) : Decidable (d.Grants tasks t) :=
  match h : d.wants t with
  | none => isTrue (by simp [Grants, h])
  | some w => decidable_of_iff (d.Free tasks w.1 w.2) (by simp [Grants, h])

/-- What the task wants is free, and no writer waits for what it wants to read. -/
def GrantsFairly (tasks : List τ) (t : τ) : Prop :=
  d.Grants tasks t ∧ ∀ l, d.wants t = some (l, .read) → ∀ u ∈ tasks, d.wants u ≠ some (l, .write)

/-- The task wants a lock above all those it holds. -/
def Ordered (rank : L → ℕ) (t : τ) : Prop :=
  ∀ w ∈ d.wants t, ∀ h ∈ d.holds t, rank h.1 < rank w.1

variable {d}

theorem grants_of_wants_none {tasks : List τ} {t : τ} (h : d.wants t = none) :
    d.GrantsFairly tasks t := by
  constructor
  · intro w hw
    rw [h] at hw
    cases hw
  · intro l hl
    rw [h] at hl
    cases hl

theorem free_of_no_holder {tasks : List τ} {l : L} (h : ∀ t ∈ tasks, ∀ k ∈ d.holds t, k.1 ≠ l)
    (a : Access) : d.Free tasks l a :=
  fun t ht k hk hkl => absurd hkl (h t ht k hk)

theorem not_free_write {tasks : List τ} {t : τ} (ht : t ∈ tasks) {l : L} {a : Access}
    (hl : (l, a) ∈ d.holds t) : ¬ d.Free tasks l .write := by
  intro h
  have := h t ht _ hl rfl
  cases a <;> cases this

/-- **Locks taken in order never deadlock**, also when they are fair to writers: a pool in which a
task is unfinished has an unfinished task that can go on. -/
theorem exists_ready {rank : L → ℕ} {tasks : List τ} (hord : ∀ t ∈ tasks, d.Ordered rank t)
    (hbusy : ∃ t ∈ tasks, d.finished t = false) :
    ∃ t ∈ tasks, d.finished t = false ∧ d.GrantsFairly tasks t := by
  by_contra hstuck
  push Not at hstuck
  -- In a stuck pool every unfinished task waits.
  have hwaits : ∀ t ∈ tasks, d.finished t = false → ∃ w, d.wants t = some w := by
    intro t ht hunf
    rw [← Option.isSome_iff_exists, ← Option.ne_none_iff_isSome]
    exact fun hnone => hstuck t ht hunf (grants_of_wants_none hnone)
  let height : τ → ℕ := fun t => ((d.wants t).map fun w => rank w.1 + 1).getD 0
  obtain ⟨t, ht, hunf⟩ := hbusy
  obtain ⟨top, htop⟩ : ∃ top, top ∈ tasks.argmax height :=
    Option.ne_none_iff_exists'.1 fun h => by
      rw [List.argmax_eq_none] at h
      rw [h] at ht
      cases ht
  have hmax : ∀ u ∈ tasks, height u ≤ height top := fun u hu => List.le_of_mem_argmax hu htop
  obtain ⟨w, hw⟩ := hwaits t ht hunf
  have hpos : 0 < height top := by
    refine Nat.lt_of_lt_of_le ?_ (hmax t ht)
    simp [height, hw]
  obtain ⟨⟨l, a⟩, hl⟩ : ∃ w, d.wants top = some w := by
    rw [← Option.isSome_iff_exists, ← Option.ne_none_iff_isSome]
    intro hnone
    simp [height, hnone] at hpos
  have htasks : top ∈ tasks := List.argmax_mem htop
  have hunfinished : ∀ u v, d.wants u = some v → d.finished u = false := fun u v huv => by
    rw [← Bool.not_eq_true]
    intro hfin
    rw [d.wants_finished u hfin] at huv
    cases huv
  -- A holder of the lock would wait for one that ranks higher.
  have hno : ∀ u ∈ tasks, ∀ k ∈ d.holds u, k.1 ≠ l := by
    intro u hu k hk hkl
    have hufin : d.finished u = false := by
      rw [← Bool.not_eq_true]
      intro hfin
      rw [d.holds_finished u hfin] at hk
      cases hk
    obtain ⟨v, hv⟩ := hwaits u hu hufin
    have hrank := hord u hu v hv k hk
    have hle := hmax u hu
    simp only [height, hv, hl, Option.map_some, Option.getD_some] at hle
    rw [hkl] at hrank
    omega
  have hfree : ∀ b, d.Free tasks l b := free_of_no_holder hno
  have hgrants : ∀ u b, d.wants u = some (l, b) → d.Grants tasks u := by
    intro u b hu v hv
    rw [hu] at hv
    cases hv
    exact hfree b
  -- The writers that wait for the lock go first.
  by_cases hwriter : ∃ u ∈ tasks, d.wants u = some (l, .write)
  · obtain ⟨u, hu, huw⟩ := hwriter
    refine hstuck u hu (hunfinished u _ huw) ⟨hgrants u _ huw, fun k hk => ?_⟩
    rw [huw] at hk
    cases hk
  · refine hstuck top htasks (hunfinished top _ hl) ⟨hgrants top _ hl, fun k hk u hu huw => ?_⟩
    rw [hl] at hk
    cases hk
    exact hwriter ⟨u, hu, huw⟩

/-! ## Exclusion -/

theorem conflicts_comm (a b : Access) : a.conflicts b = b.conflicts a := by
  cases a <;> cases b <;> rfl

variable (d) in
/-- What two tasks hold does not conflict. -/
def Agree (t u : τ) : Prop :=
  ∀ h ∈ d.holds t, ∀ k ∈ d.holds u, h.1 = k.1 → h.2.conflicts k.2 = false

theorem Agree.symm {t u : τ} (h : d.Agree t u) : d.Agree u t := by
  intro k hk j hj heq
  rw [conflicts_comm]
  exact h j hj k hk heq.symm

variable (d) in
/-- No two tasks of the pool hold a lock in conflicting ways. -/
def Exclusive (tasks : List τ) : Prop := tasks.Pairwise d.Agree

/-- **Locks exclude**: it is enough that a task takes only what it wants, when that is free. -/
theorem Exclusive.set {tasks : List τ} {i : ℕ} {t t' : τ} (h : d.Exclusive tasks)
    (hi : tasks[i]? = some t) (hgrants : d.Grants tasks t)
    (htake : ∀ k ∈ d.holds t', k ∈ d.holds t ∨ d.wants t = some k) :
    d.Exclusive (tasks.set i t') := by
  obtain ⟨rest, hp, hp'⟩ := TaskPool.exists_rest hi t'
  obtain ⟨ht, hrest⟩ := List.pairwise_cons.1 ((hp.pairwise_iff Agree.symm).1 h)
  refine (hp'.pairwise_iff Agree.symm).2
    (List.pairwise_cons.2 ⟨fun u hu k hk j hj heq => ?_, hrest⟩)
  rcases htake k hk with hk | hk
  · exact ht u hu k hk j hj heq
  · exact hgrants k hk u (hp.mem_iff.2 (List.mem_cons_of_mem _ hu)) j hj heq.symm

theorem Exclusive.append {tasks : List τ} {t : τ} (h : d.Exclusive tasks) (ht : d.holds t = []) :
    d.Exclusive (tasks ++ [t]) := by
  refine List.pairwise_append.2 ⟨h, List.pairwise_singleton _ _, fun u hu v hv k hk j hj => ?_⟩
  rw [List.mem_singleton.1 hv, ht] at hj
  cases hj

theorem Exclusive.eq_of_write {tasks : List τ} (h : d.Exclusive tasks) {i j : ℕ} {t u : τ} {l : L}
    {a : Access} (hi : tasks[i]? = some t) (hj : tasks[j]? = some u)
    (ht : (l, .write) ∈ d.holds t) (hu : (l, a) ∈ d.holds u) : i = j := by
  by_contra hij
  obtain ⟨hi', rfl⟩ := List.getElem?_eq_some_iff.1 hi
  obtain ⟨hj', rfl⟩ := List.getElem?_eq_some_iff.1 hj
  have hagree : d.Agree tasks[i] tasks[j] := by
    rcases Nat.lt_or_gt_of_ne hij with hlt | hlt
    · exact List.pairwise_iff_getElem.1 h i j hi' hj' hlt
    · exact (List.pairwise_iff_getElem.1 h j i hj' hi' hlt).symm
  have hno := hagree _ ht _ hu rfl
  cases a <;> cases hno

end Locking

end LockOrder

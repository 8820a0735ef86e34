import Mathlib.Algebra.BigOperators.Group.List.Basic
import Mathlib.Algebra.Ring.Nat
import Mathlib.Data.List.Perm.Basic
import Mathlib.Data.List.Count
import Mathlib.Tactic.Common

/-!
# Pools of tasks

The tasks of an interleaving form a list, and a step replaces one of them. Up to order, the pool is
that task and a rest which the step does not touch (`exists_rest`); what holds of all tasks, and how
many are of a kind, changes by the one task only.
-/

namespace TaskPool

variable {α : Type*} {tasks : List α} {i : ℕ} {t t' : α}

theorem exists_rest (h : tasks[i]? = some t) (t' : α) :
    ∃ rest, tasks.Perm (t :: rest) ∧ (tasks.set i t').Perm (t' :: rest) := by
  obtain ⟨hi, rfl⟩ := List.getElem?_eq_some_iff.1 h
  refine ⟨tasks.eraseIdx i, (List.getElem_cons_eraseIdx_perm hi).symm, ?_⟩
  have hset : i < (tasks.set i t').length := by simpa using hi
  have hp := (List.getElem_cons_eraseIdx_perm hset).symm
  rwa [List.getElem_set_self, List.eraseIdx_set_eq] at hp

theorem perm_eraseIdx (h : tasks[i]? = some t) : tasks.Perm (t :: tasks.eraseIdx i) := by
  obtain ⟨hi, rfl⟩ := List.getElem?_eq_some_iff.1 h
  exact (List.getElem_cons_eraseIdx_perm hi).symm

theorem mem_of_getElem? (h : tasks[i]? = some t) : t ∈ tasks := List.mem_of_getElem? h

theorem forall_mem_set {P : α → Prop} (hP : ∀ a ∈ tasks, P a) (ht' : P t') :
    ∀ a ∈ tasks.set i t', P a := by
  intro a ha
  rcases List.mem_or_eq_of_mem_set ha with ha | rfl
  · exact hP a ha
  · exact ht'

theorem mem_set_self (h : tasks[i]? = some t) (t' : α) : t' ∈ tasks.set i t' := by
  obtain ⟨rest, -, hnew⟩ := exists_rest h t'
  exact hnew.mem_iff.2 List.mem_cons_self

theorem mem_set_of_ne {u : α} (h : tasks[i]? = some t) (hu : u ∈ tasks) (hne : u ≠ t) (t' : α) :
    u ∈ tasks.set i t' := by
  obtain ⟨rest, hold, hnew⟩ := exists_rest h t'
  have hrest := (List.mem_cons.1 (hold.mem_iff.1 hu)).resolve_left hne
  exact hnew.mem_iff.2 (List.mem_cons_of_mem _ hrest)

/-- A step changes the number of tasks of a kind by the one task. -/
theorem countP_set (p : α → Bool) (h : tasks[i]? = some t) (t' : α) :
    (tasks.set i t').countP p + (if p t then 1 else 0) =
      tasks.countP p + if p t' then 1 else 0 := by
  obtain ⟨rest, hold, hnew⟩ := exists_rest h t'
  rw [hnew.countP_eq, hold.countP_eq, List.countP_cons, List.countP_cons]
  omega

/-- A step within a kind, or outside it, does not change how many there are. -/
theorem countP_set_of_eq (p : α → Bool) (h : tasks[i]? = some t) (heq : p t' = p t) :
    (tasks.set i t').countP p = tasks.countP p := by
  have := countP_set p h t'
  rw [heq] at this
  omega

theorem countP_set_enter (p : α → Bool) (h : tasks[i]? = some t) (t' : α) (hp : p t = false)
    (hp' : p t' = true) : (tasks.set i t').countP p = tasks.countP p + 1 := by
  have := countP_set p h t'
  simpa [hp, hp'] using this

theorem countP_set_leave (p : α → Bool) (h : tasks[i]? = some t) (t' : α) (hp : p t = true)
    (hp' : p t' = false) : (tasks.set i t').countP p + 1 = tasks.countP p := by
  have := countP_set p h t'
  simpa [hp, hp'] using this

theorem forall_rest_of_countP_le_one {p : α → Bool} {rest : List α} (hperm : tasks.Perm (t :: rest))
    (hp : p t = true) (h1 : tasks.countP p ≤ 1) : ∀ a ∈ rest, p a = false := by
  rw [hperm.countP_eq, List.countP_cons, hp, if_pos rfl] at h1
  have h0 : rest.countP p = 0 := by omega
  intro a ha
  simpa using List.countP_eq_zero.1 h0 a ha

/-- A task is the only one of its kind when no other place holds one. -/
theorem countP_eq_one_iff {p : α → Bool} (h : tasks[i]? = some t) (hp : p t = true) :
    tasks.countP p = 1 ↔ ∀ j u, tasks[j]? = some u → p u = true → j = i := by
  rw [(perm_eraseIdx h).countP_eq, List.countP_cons, hp, if_pos rfl]
  have hrest : (tasks.eraseIdx i).countP p + 1 = 1 ↔ ∀ u ∈ tasks.eraseIdx i, ¬ p u = true := by
    rw [← List.countP_eq_zero]
    omega
  rw [hrest]
  constructor
  · intro hnone j u hj hu
    by_contra hne
    exact hnone u (List.mem_eraseIdx_iff_getElem?.2 ⟨j, hne, hj⟩) hu
  · intro honly u hu hpu
    obtain ⟨j, hne, hj⟩ := List.mem_eraseIdx_iff_getElem?.1 hu
    exact hne (honly j u hj hpu)

/-- What is picked from the tasks changes by what is picked from the one task. -/
theorem perm_filterMap_set {β : Type*} (f : α → Option β) (h : tasks[i]? = some t) (t' : α) :
    ∃ rest, (tasks.filterMap f).Perm ((f t).toList ++ rest) ∧
      ((tasks.set i t').filterMap f).Perm ((f t').toList ++ rest) := by
  obtain ⟨rest, hold, hnew⟩ := exists_rest h t'
  have hcons : ∀ u, (u :: rest).filterMap f = (f u).toList ++ rest.filterMap f := by
    intro u
    cases hu : f u with
    | none => exact List.filterMap_cons_none hu
    | some b => exact List.filterMap_cons_some hu
  refine ⟨rest.filterMap f, ?_, ?_⟩
  · rw [← hcons]
    exact hold.filterMap f
  · rw [← hcons]
    exact hnew.filterMap f

theorem sum_map_set (f : α → ℕ) (h : tasks[i]? = some t) (t' : α) :
    ((tasks.set i t').map f).sum + f t = (tasks.map f).sum + f t' := by
  obtain ⟨rest, hold, hnew⟩ := exists_rest h t'
  rw [(hnew.map f).sum_eq, (hold.map f).sum_eq, List.map_cons, List.map_cons, List.sum_cons,
    List.sum_cons]
  omega

end TaskPool

import Mathlib.Data.Prod.Lex
import Rounac.Lib.TaskPool
import Rounac.Networks.Plane

/-!
# Calls come to an end

`handle_msg`, `del_reader` and `shutdown` take a ringmaster's senders while they hold the registry,
and nothing takes them the other way round. So the calls never wait for each other in a circle,
also with locks at which readers queue behind writers; and since no call goes on for ever, every
schedule ends with all of them returned (`calls_return`).
-/

namespace Rounac

open StepSystem LockOrder

variable {Val : Type} {qx : QuickXml Val}

namespace AsbTask

/-! ## The work left -/

/-- The locks and checks that are still before a task. -/
def stage : AsbTask Val → ℕ
  | handleMsg .. => 6
  | passed .. => 5
  | found .. => 4
  | admitted .. => 3
  | decoded .. | delReader .. | shutdown => 2
  | sending .. | removing .. | clearing _ | addReader _ | insert .. | addSender ..
  | removeSender .. => 1
  | delivered .. | dropped | returned => 0

/-- What is left of the list that a task goes through. -/
def left : AsbTask Val → ℕ
  | sending _ _ _ rest => rest.length
  | clearing ms => ms.length
  | _ => 0

variable {now : Instant} {asb asb' : NetAsb Val} {t t' : AsbTask Val}

/-- Every step leaves less to do. -/
theorem exec_lt (h : t.exec qx now asb = some (asb', t')) :
    t'.stage < t.stage ∨ t'.stage = t.stage ∧ t'.left < t.left := by
  cases t with
  | handleMsg topic data =>
    cases h
    left
    split_ifs <;> simp [stage]
  | passed topic data | found topic now' data | admitted m now' data =>
    simp only [exec] at h
    left
    split at h <;> (cases h; simp [stage])
  | sending m x sent rest =>
    cases rest with
    | nil => cases h; exact .inl Nat.zero_lt_one
    | cons ρ rest => cases h; exact .inr ⟨rfl, Nat.lt_succ_self _⟩
  | delReader topic =>
    simp only [exec] at h
    left
    split at h
    · cases h; simp [stage]
    · split_ifs at h <;> (cases h; simp [stage])
  | clearing ms =>
    cases ms with
    | nil => cases h; exact .inl Nat.zero_lt_one
    | cons m ms => cases h; exact .inr ⟨rfl, Nat.lt_succ_self _⟩
  | decoded | addReader | removing | shutdown | insert | addSender | removeSender =>
    cases h
    left
    simp [stage]
  | delivered | dropped | returned => cases h

end AsbTask

namespace Plane

/-- The work that is left to all tasks. -/
def work (s : Plane Val) : ℕ ×ₗ ℕ :=
  toLex ((s.tasks.map AsbTask.stage).sum, (s.tasks.map AsbTask.left).sum)

def Goes (qx : QuickXml Val) (s s' : Plane Val) : Prop := ∃ i now, s.step qx (.run i now) = some s'

/-- A task goes on whose lock no writer is waiting for, if it is to read. -/
def GoesFairly (qx : QuickXml Val) (s s' : Plane Val) : Prop :=
  ∃ i now t, s.tasks[i]? = some t ∧ (planeLocking Val).GrantsFairly s.tasks t ∧
    s.step qx (.run i now) = some s'

variable {s s' : Plane Val}

theorem Goes.work_lt (h : s.Goes qx s') : s'.work < s.work := by
  obtain ⟨i, now, h⟩ := h
  obtain ⟨t, t', hi, -, hexec, htasks, -⟩ := step_run h
  have hstage := TaskPool.sum_map_set AsbTask.stage hi t'
  have hleft := TaskPool.sum_map_set AsbTask.left hi t'
  rw [work, work, htasks, Prod.Lex.toLex_lt_toLex]
  rcases AsbTask.exec_lt hexec with hlt | ⟨heq, hlt⟩
  · left
    dsimp only
    omega
  · right
    dsimp only
    omega

/-- No schedule of the tasks goes on for ever. -/
theorem wellFounded_goes (qx : QuickXml Val) :
    WellFounded fun s' s : Plane Val => s.Goes qx s' :=
  Subrelation.wf (fun h => Goes.work_lt h) (InvImage.wf work wellFounded_lt)

/-- As long as a task is unfinished, some task goes on. -/
theorem exists_goesFairly (qx : QuickXml Val) {s : Plane Val}
    (h : ∃ t ∈ s.tasks, t.isFinished = false) : ∃ s', s.GoesFairly qx s' := by
  obtain ⟨t, ht, hunf, hgrants⟩ := Locking.exists_ready (d := planeLocking Val)
    (fun t _ => AsbTask.ordered t) h
  obtain ⟨i, hi⟩ := List.mem_iff_getElem?.1 ht
  obtain ⟨⟨asb, t'⟩, hexec⟩ :=
    Option.isSome_iff_exists.1 (AsbTask.exec_isSome qx 0 s.asb hunf)
  have hfree : s.Grants t := hgrants.1
  have hstep : s.step qx (.run i 0) =
      some { asb, tasks := s.tasks.set i t', pushes := s.pushes ++ record i t } := by
    simp only [step, hi]
    rw [if_pos hfree, hexec]
    rfl
  exact ⟨_, i, 0, t, hi, hgrants, hstep⟩

/-- **Calls never deadlock, and come to an end.** There is no endless schedule of the tasks, from
whatever state; and a schedule that is fair to writers can only stop when every task has
finished. -/
theorem calls_return (qx : QuickXml Val) :
    (WellFounded fun s' s : Plane Val => s.Goes qx s') ∧
      ∀ s : Plane Val, (∀ s', ¬ s.GoesFairly qx s') ↔ ∀ t ∈ s.tasks, t.isFinished = true := by
  refine ⟨wellFounded_goes qx, fun s => ⟨fun hstop t ht => ?_, fun hall s' hgoes => ?_⟩⟩
  · by_contra hunf
    obtain ⟨s', hs'⟩ := exists_goesFairly qx ⟨t, ht, Bool.not_eq_true _ ▸ hunf⟩
    exact hstop s' hs'
  · obtain ⟨i, now, -, -, -, hstep⟩ := hgoes
    obtain ⟨t, t', hi, -, hexec, -, -⟩ := step_run hstep
    have hfin := hall t (List.mem_of_getElem? hi)
    cases t with
    | delivered | dropped | returned => cases hexec
    | _ => cases hfin

end Plane

end Rounac

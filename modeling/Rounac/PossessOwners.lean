import Rounac.Lib.CountedPool
import Rounac.Lib.StepSystem
import Rounac.Networks.Utils

/-!
# The owners of a possession counter

`PossessCtr` of `src/networks/utils.rs`, one atomic step at a time. Every value descends from one
`new`. A clone increments the shared count and then builds the new value; a drop condemns a value,
decrements, and lets go of the shared `Arc`. Any number of clones and drops run at once, with the
borrows that the language enforces: a clone starts from a live value, which is not dropped before
the clone returns.

The count is at every moment the number of *owners* modulo `2 ^ 64`: the live values, the clones
between increment and return, and the condemned values before their decrement (`always_counted`).
With no operation in progress the owners are the live values. Meanwhile there may be many more
owners than live values, so the bound under which the count does not wrap is one on owners
(`possessCtr_counts_owners`, `crowd_underflows`).
-/

namespace Rounac

open StepSystem CountedPool

/-! ## Values and their steps -/

/-- The life of a `PossessCtr` value, from the call of the clone that makes it. -/
inductive ValuePhase
  | entered
  | added
  | alive
  | condemned
  | subtracted
  | gone
deriving DecidableEq, Repr

namespace ValuePhase

def isCounted : ValuePhase → Bool
  | added | alive | condemned => true
  | entered | subtracted | gone => false

/-- A clone that makes the value is in progress. -/
def isCloning : ValuePhase → Bool
  | entered | added => true
  | alive | condemned | subtracted | gone => false

/-- No clone makes the value and no drop takes it. -/
def isQuiet : ValuePhase → Bool
  | alive | gone => true
  | entered | added | condemned | subtracted => false

end ValuePhase

/-- A value, and the one it is cloned from, if it is not the one from `new`. -/
structure PossessValue where
  phase : ValuePhase
  source : Option ℕ
deriving DecidableEq, Repr

/-- The atomic steps of clones and drops, by the number of the value they make or take. -/
inductive PossessStep
  | clone (source : ℕ)
  | fetchAdd (i : ℕ)
  | ret (i : ℕ)
  | drop (i : ℕ)
  | fetchSub (i : ℕ)
  | release (i : ℕ)
deriving DecidableEq, Repr

/-- The count, and all values that share it or shared it. -/
structure Possession where
  ctr : PossessCtr
  values : List PossessValue
deriving DecidableEq, Repr

namespace Possession

/-- `PossessCtr::new`. -/
def new : Possession := ⟨.new, [⟨.alive, none⟩]⟩

/-- Value `i` goes from one phase to the next, with an effect on the count. -/
def advance (s : Possession) (i : ℕ) (src dst : ValuePhase) (effect : PossessCtr → PossessCtr) :
    Option Possession :=
  match s.values[i]? with
  | none => none
  | some v =>
    if v.phase = src then
      some { ctr := effect s.ctr, values := s.values.set i { v with phase := dst } }
    else none

/-- A clone of value `i` is in progress. -/
def Borrowed (s : Possession) (i : ℕ) : Prop :=
  ∃ v ∈ s.values, v.phase.isCloning = true ∧ v.source = some i

instance (s : Possession) (i : ℕ) : Decidable (s.Borrowed i) :=
  inferInstanceAs (Decidable (∃ v ∈ s.values, _))

/-- Value `i` is alive. -/
def Alive (s : Possession) (i : ℕ) : Prop := (s.values[i]?).map (·.phase) = some .alive

instance (s : Possession) (i : ℕ) : Decidable (s.Alive i) := inferInstanceAs (Decidable (_ = _))

def step (s : Possession) : PossessStep → Option Possession
  | .clone i =>
    if s.Alive i then some { s with values := s.values ++ [⟨.entered, some i⟩] } else none
  | .fetchAdd i => s.advance i .entered .added .clone
  | .ret i => s.advance i .added .alive id
  -- Dropping takes the value by `&mut`: no clone may be borrowing it.
  | .drop i => if s.Borrowed i then none else s.advance i .alive .condemned id
  | .fetchSub i => s.advance i .condemned .subtracted .drop
  | .release i => s.advance i .subtracted .gone id

/-- The number of values that the count is to include. -/
def owners (s : Possession) : ℕ := s.values.countP (·.phase.isCounted)

def alive (s : Possession) : ℕ := s.values.countP (·.phase == .alive)

/-- No clone and no drop is in progress. -/
def Quiescent (s : Possession) : Prop := ∀ v ∈ s.values, v.phase.isQuiet = true

instance (s : Possession) : Decidable s.Quiescent :=
  inferInstanceAs (Decidable (∀ v ∈ s.values, _))

/-! ## The count is the number of owners -/

variable {s s' : Possession}

theorem advance_eq_some {i : ℕ} {src dst : ValuePhase} {effect : PossessCtr → PossessCtr}
    (h : s.advance i src dst effect = some s') :
    ∃ v, s.values[i]? = some v ∧ v.phase = src ∧
      s' = { ctr := effect s.ctr, values := s.values.set i { v with phase := dst } } := by
  unfold advance at h
  cases hv : s.values[i]? with
  | none =>
    rw [hv] at h
    cases h
  | some v =>
    simp only [hv] at h
    split_ifs at h with hsrc
    cases h
    exact ⟨v, rfl, hsrc, rfl⟩

/-- The count is the number of owners, modulo `2 ^ 64`. -/
def Counted (s : Possession) : Prop := Counts s.ctr.count (·.phase.isCounted) s.values

theorem counted_new : new.Counted := rfl

theorem Counted.step {a : PossessStep} (h : s.Counted) (hs : s.step a = some s') : s'.Counted := by
  cases a with
  | clone i =>
    simp only [Possession.step] at hs
    split_ifs at hs
    cases hs
    exact Counts.append h rfl
  | fetchAdd i =>
    obtain ⟨v, hv, hsrc, rfl⟩ := advance_eq_some hs
    exact Counts.enter h hv (congrArg ValuePhase.isCounted hsrc) rfl
  | ret i =>
    obtain ⟨v, hv, hsrc, rfl⟩ := advance_eq_some hs
    exact Counts.keep h hv (congrArg ValuePhase.isCounted hsrc).symm
  | drop i =>
    simp only [Possession.step] at hs
    split_ifs at hs
    obtain ⟨v, hv, hsrc, rfl⟩ := advance_eq_some hs
    exact Counts.keep h hv (congrArg ValuePhase.isCounted hsrc).symm
  | fetchSub i =>
    obtain ⟨v, hv, hsrc, rfl⟩ := advance_eq_some hs
    exact Counts.leave h hv (congrArg ValuePhase.isCounted hsrc) rfl
  | release i =>
    obtain ⟨v, hv, hsrc, rfl⟩ := advance_eq_some hs
    exact Counts.keep h hv (congrArg ValuePhase.isCounted hsrc).symm

theorem always_counted (steps : List PossessStep) : Always step Counted new steps :=
  .of_step (fun _ _ _ h hs => h.step hs) steps counted_new

/-! ## What the count tells -/

theorem alive_iff {i : ℕ} : s.Alive i ↔ ∃ v, s.values[i]? = some v ∧ v.phase = .alive := by
  rw [Alive, Option.map_eq_some_iff]

/-- With no operation in progress, the owners are the live values. -/
theorem Quiescent.isCounted_iff (h : s.Quiescent) {v : PossessValue} (hv : v ∈ s.values) :
    v.phase.isCounted = true ↔ v.phase = .alive := by
  have hquiet := h v hv
  generalize v.phase = p at hquiet
  cases p <;> simp_all [ValuePhase.isCounted, ValuePhase.isQuiet]

theorem Quiescent.owners_eq (h : s.Quiescent) : s.owners = s.alive := by
  apply List.countP_congr
  intro v hv
  rw [h.isCounted_iff hv, beq_iff_eq]

/-- A decrement is of a count that includes the value. -/
theorem Counted.count_ne_zero (h : s.Counted) (hfew : s.owners < 2 ^ 64) {i : ℕ}
    {v : PossessValue} (hv : s.values[i]? = some v) (hcounted : v.phase.isCounted = true) :
    s.ctr.count ≠ 0 :=
  Counts.ne_zero h hfew hv hcounted

/-- The answer of `is_unique` is about the owners. -/
theorem Counted.isUnique_iff (h : s.Counted) (hfew : s.owners < 2 ^ 64) {i : ℕ} (hi : s.Alive i) :
    s.ctr.isUnique = true ↔
      ∀ j v, s.values[j]? = some v → v.phase.isCounted = true → j = i := by
  obtain ⟨v, hv, halive⟩ := alive_iff.1 hi
  rw [PossessCtr.isUnique, beq_iff_eq]
  exact Counts.eq_one_iff h (by omega) hfew hv (congrArg ValuePhase.isCounted halive)

/-- A live value that is told it is unique is the only one, even amid clones and drops. -/
theorem Counted.only_alive (h : s.Counted) (hfew : s.owners < 2 ^ 64) {i : ℕ} (hi : s.Alive i)
    (hunique : s.ctr.isUnique = true) : ∀ j, s.Alive j → j = i := by
  intro j hj
  obtain ⟨v, hv, halive⟩ := alive_iff.1 hj
  exact (h.isUnique_iff hfew hi).1 hunique j v hv (congrArg ValuePhase.isCounted halive)

/-- The count is the number of live values, and tells a live value whether it is the only one. -/
def CountsLive (s : Possession) : Prop :=
  s.ctr.count.toNat = s.alive ∧
    ∀ i, s.Alive i → (s.ctr.isUnique = true ↔ ∀ j, s.Alive j → j = i)

/-- The step does not decrement a count of zero. -/
def NoUnderflow (s : Possession) (a : PossessStep) : Prop :=
  ∀ i, a = .fetchSub i → s.ctr.count ≠ 0

theorem Counted.countsLive (h : s.Counted) (hquiet : s.Quiescent) (hfew : s.alive < 2 ^ 64) :
    s.CountsLive := by
  rw [← hquiet.owners_eq] at hfew
  refine ⟨?_, fun i hi => ⟨h.only_alive hfew hi, fun honly => ?_⟩⟩
  · rw [← hquiet.owners_eq]
    exact Counts.toNat_eq h hfew
  · rw [h.isUnique_iff hfew hi]
    intro j v hv hcounted
    refine honly j (alive_iff.2 ⟨v, hv, ?_⟩)
    exact (hquiet.isCounted_iff (TaskPool.mem_of_getElem? hv)).1 hcounted

theorem Counted.noUnderflow (h : s.Counted) {a : PossessStep} (hs : s.step a = some s')
    (hfew : s.owners < 2 ^ 64) : s.NoUnderflow a := by
  rintro i rfl
  obtain ⟨v, hv, hsrc, -⟩ := advance_eq_some hs
  exact h.count_ne_zero hfew hv (congrArg ValuePhase.isCounted hsrc)

/-- **A possession counter counts its owners**, however their clones and drops interleave. -/
theorem possessCtr_counts_owners (steps : List PossessStep) :
    Always step (fun s => s.Quiescent → s.alive < 2 ^ 64 → s.CountsLive) new steps ∧
      EachStep step (fun s a => s.owners < 2 ^ 64 → s.NoUnderflow a) new steps := by
  constructor
  · exact (always_counted steps).mono fun s h => h.countsLive
  · exact .of_always_post (fun s a s' h hs _ => h.noUnderflow hs) (always_counted steps)

/-- Two values exist, and one is dropped: the other is unique again. -/
example : (run step new [.clone 0, .fetchAdd 1, .ret 1, .drop 0, .fetchSub 0, .release 0]).map
    (·.ctr.isUnique) = some true := by decide

/-! ## A crowd of clones -/

/-- Only the return of a clone adds a live value. -/
def addsValue : PossessStep → Bool
  | .ret _ => true
  | _ => false

theorem alive_advance_le {i : ℕ} {src dst : ValuePhase} {effect : PossessCtr → PossessCtr}
    (h : s.advance i src dst effect = some s') :
    s'.alive ≤ s.alive + if dst = .alive then 1 else 0 := by
  obtain ⟨v, hv, -, rfl⟩ := advance_eq_some h
  have hcount := TaskPool.countP_set (·.phase == .alive) hv { v with phase := dst }
  simp only [beq_iff_eq] at hcount
  unfold alive
  dsimp only
  omega

theorem alive_step_le {a : PossessStep} (hs : s.step a = some s') :
    s'.alive ≤ s.alive + if addsValue a then 1 else 0 := by
  cases a with
  | clone i =>
    simp only [step] at hs
    split_ifs at hs
    cases hs
    simp [alive, List.countP_append]
  | fetchAdd i => exact alive_advance_le hs
  | ret i => exact alive_advance_le hs
  | drop i =>
    simp only [step] at hs
    split_ifs at hs
    exact alive_advance_le hs
  | fetchSub i => exact alive_advance_le hs
  | release i => exact alive_advance_le hs

theorem always_alive_le (s : Possession) (steps : List PossessStep) :
    Always step (fun t => t.alive ≤ s.alive + steps.countP addsValue) s steps := by
  induction steps generalizing s with
  | nil => exact Nat.le_add_right _ _
  | cons a steps ih =>
    refine ⟨Nat.le_add_right _ _, fun s' hs' => (ih s').mono fun t ht => ?_⟩
    have hstep := alive_step_le hs'
    rw [List.countP_cons]
    omega

/-- So many clones of value `0`, the first of which makes value `next`, all between increment and
return. -/
def crowd : ℕ → ℕ → List PossessStep
  | 0, _ => []
  | n + 1, next => .clone 0 :: .fetchAdd next :: crowd n (next + 1)

theorem countP_addsValue_crowd (n next : ℕ) : (crowd n next).countP addsValue = 0 := by
  induction n generalizing next with
  | zero => rfl
  | succ n ih => exact ih (next + 1)

theorem run_crowd (n m : ℕ) {values : List PossessValue} (h : Alive ⟨.ofOwners m, values⟩ 0) :
    run step ⟨.ofOwners m, values⟩ (crowd n values.length) =
      some ⟨.ofOwners (m + n), values ++ List.replicate n ⟨.added, some 0⟩⟩ := by
  induction n generalizing m values with
  | zero => simp [crowd, run]
  | succ n ih =>
    have hclone : step ⟨.ofOwners m, values⟩ (.clone 0) =
        some ⟨.ofOwners m, values ++ [⟨.entered, some 0⟩]⟩ := if_pos h
    have hadd : step ⟨.ofOwners m, values ++ [⟨.entered, some 0⟩]⟩ (.fetchAdd values.length) =
        some ⟨.ofOwners (m + 1), values ++ [⟨.added, some 0⟩]⟩ := by
      simp [step, advance]
    have halive : Alive ⟨.ofOwners (m + 1), values ++ [⟨.added, some 0⟩]⟩ 0 := by
      obtain ⟨v, hv, hphase⟩ := alive_iff.1 h
      refine alive_iff.2 ⟨v, ?_, hphase⟩
      exact (List.getElem?_append_left (List.getElem?_eq_some_iff.1 hv).1).trans hv
    have hrest := ih (m + 1) halive
    rw [List.length_append] at hrest
    rw [crowd, run_cons, hclone, Option.bind_some, run_cons, hadd, Option.bind_some]
    refine hrest.trans ?_
    rw [List.replicate_succ, List.append_assoc, Nat.add_right_comm]
    rfl

/-- A second value is made and condemned, while a crowd clones the first. -/
def crowdedDrop (n : ℕ) : List PossessStep :=
  [.clone 0, .fetchAdd 1, .ret 1] ++ (crowd n 2 ++ [.drop 1])

/-- The crowd is counted, and the second value's decrement comes next. -/
theorem run_crowdedDrop (n : ℕ) : ∃ s s', run step new (crowdedDrop n) = some s ∧
    s.ctr = .ofOwners (2 + n) ∧ 0 < s.alive ∧ s.step (.fetchSub 1) = some s' := by
  have hmade : run step new [.clone 0, .fetchAdd 1, .ret 1] =
      some ⟨.ofOwners 2, [⟨.alive, none⟩, ⟨.alive, some 0⟩]⟩ := by decide
  have hcrowd : run step ⟨.ofOwners 2, [⟨.alive, none⟩, ⟨.alive, some 0⟩]⟩ (crowd n 2) =
      some ⟨.ofOwners (2 + n),
        ⟨.alive, none⟩ :: ⟨.alive, some 0⟩ :: List.replicate n ⟨.added, some 0⟩⟩ :=
    run_crowd n 2 (by decide)
  have hfree : ¬ Borrowed ⟨.ofOwners (2 + n),
      ⟨.alive, none⟩ :: ⟨.alive, some 0⟩ :: List.replicate n ⟨.added, some 0⟩⟩ 1 := by
    simp [Borrowed, ValuePhase.isCloning]
  refine ⟨⟨.ofOwners (2 + n),
    ⟨.alive, none⟩ :: ⟨.condemned, some 0⟩ :: List.replicate n ⟨.added, some 0⟩⟩,
    _, ?_, rfl, ?_, rfl⟩
  · rw [crowdedDrop, run_append, hmade, Option.bind_some, run_append, hcrowd, Option.bind_some,
      run_cons, step, if_neg hfree]
    rfl
  · exact List.countP_pos_iff.2 ⟨_, List.mem_cons_self, rfl⟩

/-- Only two values are ever alive, but the crowd wraps the count to zero, and the drop of the
second value decrements it while the first one is alive. -/
theorem crowd_underflows :
    Always step (fun s => s.alive < 2 ^ 64) new (crowdedDrop (2 ^ 64 - 2) ++ [.fetchSub 1]) ∧
      ¬ EachStep step (fun s a => 0 < s.alive → s.NoUnderflow a) new
        (crowdedDrop (2 ^ 64 - 2) ++ [.fetchSub 1]) := by
  constructor
  · refine (always_alive_le new _).mono fun s hs => ?_
    have hadds : (crowdedDrop (2 ^ 64 - 2) ++ [PossessStep.fetchSub 1]).countP addsValue = 1 := by
      simp only [crowdedDrop, List.countP_append, countP_addsValue_crowd]
      rfl
    have hone : new.alive = 1 := rfl
    omega
  · intro h
    obtain ⟨s, s', hrun, hctr, halive, hs⟩ := run_crowdedDrop (2 ^ 64 - 2)
    have hlast := (EachStep.of_append h hrun s' hs).1 halive 1 rfl
    rw [hctr] at hlast
    exact hlast (by decide)

end Possession

end Rounac

import Rounac.Lib.StepSystem

/-!
# Systems that settle

A system takes internal steps between the events that come from outside. A function `abs` says what
a state comes to once the steps that are still to be taken are taken: an internal step keeps it, and
an event changes it by one reaction. Then the events of a run decide what it comes to, however their
consequences overlap (`Settles.run_eq`). With a measure that every internal step lowers, only so
many of them follow one another (`length_le_of_lowers`).
-/

namespace Settle

open StepSystem

variable {σ ι ε τ : Type*}

/-- What the states come to is changed by events only, one reaction each. -/
structure Settles (step : σ → ι → Option σ) (event : ι → Option ε) (react : τ → ε → τ)
    (abs : σ → τ) : Prop where
  internal : ∀ {s s' i}, step s i = some s' → event i = none → abs s' = abs s
  event : ∀ {s s' i e}, step s i = some s' → event i = some e → abs s' = react (abs s) e

variable {step : σ → ι → Option σ} {event : ι → Option ε} {react : τ → ε → τ} {abs : σ → τ}

/-- **The events decide what a run comes to.** -/
theorem Settles.run_eq (h : Settles step event react abs) {s s' : σ} {is : List ι}
    (hrun : run step s is = some s') : abs s' = (is.filterMap event).foldl react (abs s) := by
  induction is generalizing s with
  | nil =>
    cases hrun
    rfl
  | cons i is ih =>
    obtain ⟨t, ht, hrun⟩ := Option.bind_eq_some_iff.1 hrun
    rw [ih hrun]
    cases hi : event i with
    | none => rw [List.filterMap_cons_none hi, h.internal ht hi]
    | some e => rw [List.filterMap_cons_some hi, List.foldl_cons, h.event ht hi]

/-- Steps that lower a measure come to an end. -/
theorem length_le_of_lowers (Inv : σ → Prop) (G : ι → Prop) (μ : σ → ℕ)
    (h : ∀ {s s' i}, Inv s → G i → step s i = some s' → Inv s' ∧ μ s' < μ s) {s s' : σ}
    {is : List ι} (hs : Inv s) (his : ∀ i ∈ is, G i) (hrun : run step s is = some s') :
    is.length + μ s' ≤ μ s := by
  induction is generalizing s with
  | nil =>
    cases hrun
    exact Nat.le_of_eq (Nat.zero_add _)
  | cons i is ih =>
    obtain ⟨t, ht, hrun⟩ := Option.bind_eq_some_iff.1 hrun
    obtain ⟨hInv, hlower⟩ := h hs (his i List.mem_cons_self) ht
    have hrest := ih hInv (fun j hj => his j (List.mem_cons_of_mem _ hj)) hrun
    rw [List.length_cons]
    omega

end Settle

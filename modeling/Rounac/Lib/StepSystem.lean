import Mathlib.Tactic.Common

/-!
# Runs of systems with guarded steps

A system is a partial step function `step : σ → ι → Option σ`: a label may be disabled in a
state. A list of labels then denotes a run, which stops before the first disabled label.

* `Always P s is` — `P` holds in every state the run `is` visits from `s`, the ends included.
* `EachStep G s is` — `G` holds of every step the run takes, on the state before it.

Interleavings are runs too: the label says which party moves. The rule `Always.of_inv` is the
invariance rule: what every step meeting `G` preserves holds along every run whose steps all
meet `G`.
-/

namespace StepSystem

variable {σ ι : Type*} {step : σ → ι → Option σ}

/-- The state a list of labels leads to, if every one of them is enabled in turn. -/
def run (step : σ → ι → Option σ) : σ → List ι → Option σ
  | s, [] => some s
  | s, i :: is => (step s i).bind fun s' => run step s' is

/-- `P` holds in every state the run visits. -/
def Always (step : σ → ι → Option σ) (P : σ → Prop) : σ → List ι → Prop
  | s, [] => P s
  | s, i :: is => P s ∧ ∀ s', step s i = some s' → Always step P s' is

/-- `G` holds of every step the run takes. -/
def EachStep (step : σ → ι → Option σ) (G : σ → ι → Prop) : σ → List ι → Prop
  | _, [] => True
  | s, i :: is => ∀ s', step s i = some s' → G s i ∧ EachStep step G s' is

/-! ## Runs -/

theorem run_cons (s : σ) (i : ι) (is : List ι) :
    run step s (i :: is) = (step s i).bind fun s' => run step s' is := rfl

theorem run_append (s : σ) (is js : List ι) :
    run step s (is ++ js) = (run step s is).bind fun t => run step t js := by
  induction is generalizing s with
  | nil => rfl
  | cons i is ih =>
    rw [List.cons_append, run_cons, run_cons]
    cases step s i with
    | none => rfl
    | some s' => exact ih s'

theorem run_concat {s t u : σ} {is : List ι} {i : ι} (hrun : run step s is = some t)
    (hi : step t i = some u) : run step s (is ++ [i]) = some u := by
  rw [run_append, hrun, Option.bind_some, run_cons, hi]
  rfl

/-! ## Runs step by step -/

theorem always_cons_iff {P : σ → Prop} {s s' : σ} {i : ι} {is : List ι} (h : step s i = some s') :
    Always step P s (i :: is) ↔ P s ∧ Always step P s' is := by
  simp only [Always, h, Option.some.injEq, forall_eq']

theorem eachStep_cons_iff {G : σ → ι → Prop} {s s' : σ} {i : ι} {is : List ι}
    (h : step s i = some s') :
    EachStep step G s (i :: is) ↔ G s i ∧ EachStep step G s' is := by
  simp only [EachStep, h, Option.some.injEq, forall_eq']

/-- Whether a decidable property holds along a run can be computed. -/
instance Always.decidable {P : σ → Prop} [DecidablePred P] :
    ∀ (s : σ) (is : List ι), Decidable (Always step P s is)
  | s, [] => inferInstanceAs (Decidable (P s))
  | s, i :: is =>
    match h : step s i with
    | none => decidable_of_iff (P s) (by simp [Always, h])
    | some s' =>
      have := Always.decidable (P := P) s' is
      decidable_of_iff (P s ∧ Always step P s' is) (always_cons_iff h).symm

instance EachStep.decidable {G : σ → ι → Prop} [∀ s i, Decidable (G s i)] :
    ∀ (s : σ) (is : List ι), Decidable (EachStep step G s is)
  | _, [] => inferInstanceAs (Decidable True)
  | s, i :: is =>
    match h : step s i with
    | none => decidable_of_iff True (by simp [EachStep, h])
    | some s' =>
      have := EachStep.decidable (G := G) s' is
      decidable_of_iff (G s i ∧ EachStep step G s' is) (eachStep_cons_iff h).symm

/-! ## The states of a run -/

theorem Always.head {P : σ → Prop} {s : σ} {is : List ι} (h : Always step P s is) : P s := by
  cases is with
  | nil => exact h
  | cons i is => exact h.1

theorem Always.mono {P Q : σ → Prop} (hPQ : ∀ s, P s → Q s) {s : σ} {is : List ι}
    (h : Always step P s is) : Always step Q s is := by
  induction is generalizing s with
  | nil => exact hPQ s h
  | cons i is ih => exact ⟨hPQ s h.1, fun s' hs' => ih (h.2 s' hs')⟩

theorem Always.and {P Q : σ → Prop} {s : σ} {is : List ι} (hP : Always step P s is)
    (hQ : Always step Q s is) : Always step (fun s => P s ∧ Q s) s is := by
  induction is generalizing s with
  | nil => exact ⟨hP, hQ⟩
  | cons i is ih => exact ⟨⟨hP.1, hQ.1⟩, fun s' hs' => ih (hP.2 s' hs') (hQ.2 s' hs')⟩

/-- A run visits exactly the states its prefixes lead to. -/
theorem always_iff_prefix {P : σ → Prop} {s : σ} {is : List ι} :
    Always step P s is ↔ ∀ js ks, is = js ++ ks → ∀ s', run step s js = some s' → P s' := by
  induction is generalizing s with
  | nil =>
    constructor
    · intro h js ks hjs s' hs'
      obtain ⟨rfl, -⟩ := List.append_eq_nil_iff.1 hjs.symm
      cases hs'
      exact h
    · intro h
      exact h [] [] rfl s rfl
  | cons i is ih =>
    constructor
    · intro h js ks hjs s' hs'
      cases js with
      | nil => cases hs'; exact h.1
      | cons j js =>
        obtain ⟨rfl, rfl⟩ := List.cons.inj hjs
        rw [run_cons] at hs'
        obtain ⟨t, ht, hs'⟩ := Option.bind_eq_some_iff.1 hs'
        exact ih.1 (h.2 t ht) js ks rfl s' hs'
    · intro h
      refine ⟨h [] (i :: is) rfl s rfl, fun t ht => ih.2 fun js ks hjs s' hs' => ?_⟩
      refine h (i :: js) ks (by rw [hjs]; rfl) s' ?_
      rw [run_cons, ht]
      exact hs'

theorem Always.last {P : σ → Prop} {s s' : σ} {is : List ι} (h : Always step P s is)
    (hrun : run step s is = some s') : P s' :=
  always_iff_prefix.1 h is [] (by simp) s' hrun

/-! ## The steps of a run -/

theorem EachStep.mono {G H : σ → ι → Prop} (hGH : ∀ s i, G s i → H s i) {s : σ} {is : List ι}
    (h : EachStep step G s is) : EachStep step H s is := by
  induction is generalizing s with
  | nil => trivial
  | cons i is ih => exact fun s' hs' => ⟨hGH s i (h s' hs').1, ih (h s' hs').2⟩

theorem EachStep.and {G H : σ → ι → Prop} {s : σ} {is : List ι} (hG : EachStep step G s is)
    (hH : EachStep step H s is) : EachStep step (fun s i => G s i ∧ H s i) s is := by
  induction is generalizing s with
  | nil => trivial
  | cons i is ih =>
    exact fun s' hs' => ⟨⟨(hG s' hs').1, (hH s' hs').1⟩, ih (hG s' hs').2 (hH s' hs').2⟩

/-- What the states of a run satisfy may be used at each of its steps. -/
theorem EachStep.of_always {P : σ → Prop} {G H : σ → ι → Prop}
    (hPG : ∀ s i, P s → G s i → H s i) {s : σ} {is : List ι} (hP : Always step P s is)
    (hG : EachStep step G s is) : EachStep step H s is := by
  induction is generalizing s with
  | nil => trivial
  | cons i is ih =>
    intro s' hs'
    exact ⟨hPG s i hP.1 (hG s' hs').1, ih (hP.2 s' hs') (hG s' hs').2⟩

/-- What holds before and after every step of a run may be used at it. -/
theorem EachStep.of_always_post {P : σ → Prop} {G : σ → ι → Prop}
    (hPG : ∀ s i s', P s → step s i = some s' → P s' → G s i) {s : σ} {is : List ι}
    (hP : Always step P s is) : EachStep step G s is := by
  induction is generalizing s with
  | nil => trivial
  | cons i is ih =>
    intro s' hs'
    exact ⟨hPG s i s' hP.1 hs' (hP.2 s' hs').head, ih (hP.2 s' hs')⟩

theorem EachStep.left {G : σ → ι → Prop} {s : σ} {is js : List ι}
    (h : EachStep step G s (is ++ js)) : EachStep step G s is := by
  induction is generalizing s with
  | nil => trivial
  | cons i is ih => exact fun s' hs' => ⟨(h s' hs').1, ih (h s' hs').2⟩

theorem EachStep.of_append {G : σ → ι → Prop} {s t : σ} {is js : List ι}
    (h : EachStep step G s (is ++ js)) (hrun : run step s is = some t) : EachStep step G t js := by
  induction is generalizing s with
  | nil => cases hrun; exact h
  | cons i is ih =>
    obtain ⟨s', hs', hrun⟩ := Option.bind_eq_some_iff.1 hrun
    exact ih (h s' hs').2 hrun

/-- A run's steps are those that its prefixes can take next. -/
theorem EachStep.of_reached {G : σ → ι → Prop} {s : σ} {is : List ι}
    (h : ∀ js i ks, is = js ++ i :: ks →
      ∀ t t', run step s js = some t → step t i = some t' → G t i) :
    EachStep step G s is := by
  induction is generalizing s with
  | nil => trivial
  | cons i is ih =>
    intro s' hs'
    refine ⟨h [] i is rfl s s' rfl hs', ih fun js j ks heq t t' hrun ht => ?_⟩
    refine h (i :: js) j ks (congrArg _ heq) t t' ?_ ht
    rw [run_cons, hs']
    exact hrun

/-- `EachStep` for a guard that every enabled step meets. -/
theorem EachStep.of_forall {G : σ → ι → Prop} (h : ∀ s i s', step s i = some s' → G s i) (s : σ)
    (is : List ι) : EachStep step G s is := by
  induction is generalizing s with
  | nil => trivial
  | cons i is ih => exact fun s' hs' => ⟨h s i s' hs', ih s'⟩

theorem EachStep.of_mem {G : ι → Prop} {is : List ι} (h : ∀ i ∈ is, G i) (s : σ) :
    EachStep step (fun _ i => G i) s is := by
  induction is generalizing s with
  | nil => trivial
  | cons i is ih =>
    exact fun s' _ => ⟨h i List.mem_cons_self, ih (fun j hj => h j (List.mem_cons_of_mem _ hj)) s'⟩

/-! ## Invariance -/

/-- **The invariance rule.** What holds at the start and is preserved by every step meeting `G`
holds along every run whose steps meet `G`. -/
theorem Always.of_inv {Inv : σ → Prop} {G : σ → ι → Prop}
    (hstep : ∀ s i s', Inv s → G s i → step s i = some s' → Inv s') {s : σ} {is : List ι}
    (hs : Inv s) (hG : EachStep step G s is) : Always step Inv s is := by
  induction is generalizing s with
  | nil => exact hs
  | cons i is ih =>
    refine ⟨hs, fun s' hs' => ?_⟩
    obtain ⟨hGi, hrest⟩ := hG s' hs'
    exact ih (hstep s i s' hs hGi hs') hrest

/-- The invariance rule where a step may also rely on a property `B` of the state it reaches,
such as a bound that the run is known to keep. -/
theorem Always.of_inv_bounded {Inv B : σ → Prop} {G : σ → ι → Prop}
    (hstep : ∀ s i s', Inv s → B s → G s i → step s i = some s' → B s' → Inv s')
    {s : σ} {is : List ι} (hs : Inv s) (hB : Always step B s is) (hG : EachStep step G s is) :
    Always step Inv s is := by
  induction is generalizing s with
  | nil => exact hs
  | cons i is ih =>
    refine ⟨hs, fun s' hs' => ?_⟩
    obtain ⟨hGi, hrest⟩ := hG s' hs'
    exact ih (hstep s i s' hs hB.1 hGi hs' (hB.2 s' hs').head) (hB.2 s' hs') hrest

/-- The invariance rule for steps that need no guard. -/
theorem Always.of_step {Inv : σ → Prop} (hstep : ∀ s i s', Inv s → step s i = some s' → Inv s')
    {s : σ} (is : List ι) (hs : Inv s) : Always step Inv s is :=
  .of_inv (G := fun _ _ => True) (fun s i s' h _ => hstep s i s' h) hs
    (.of_forall (fun _ _ _ _ => trivial) s is)

/-- Two guards that agree wherever an invariant holds, which the steps meeting the second keep,
agree on every run from a state with the invariant. -/
theorem EachStep.iff_of_inv (Inv : σ → Prop) {G H : σ → ι → Prop}
    (hiff : ∀ s i s', Inv s → step s i = some s' → (G s i ↔ H s i))
    (hstep : ∀ s i s', Inv s → H s i → step s i = some s' → Inv s') {s : σ} (is : List ι)
    (hs : Inv s) : EachStep step G s is ↔ EachStep step H s is := by
  induction is generalizing s with
  | nil => exact Iff.rfl
  | cons i is ih =>
    refine forall₂_congr fun s' hs' => ?_
    rw [hiff s i s' hs hs']
    exact and_congr_right fun hH => ih (hstep s i s' hs hH hs')

/-- **A property holds along exactly the runs whose steps meet a guard**, when it comes with an
invariant that the guarded steps keep, and fails after every step that does not meet the guard. -/
theorem always_iff_eachStep (Inv : σ → Prop) {P : σ → Prop} {G : σ → ι → Prop}
    (hP : ∀ s, Inv s → P s)
    (hstep : ∀ s i s', Inv s → G s i → step s i = some s' → Inv s')
    (hG : ∀ s i s', Inv s → step s i = some s' → P s' → G s i) {s : σ} (is : List ι) (hs : Inv s) :
    Always step P s is ↔ EachStep step G s is := by
  constructor
  · intro h
    induction is generalizing s with
    | nil => trivial
    | cons i is ih =>
      intro s' hs'
      have hGi := hG s i s' hs hs' (h.2 s' hs').head
      exact ⟨hGi, ih (hstep s i s' hs hGi hs') (h.2 s' hs')⟩
  · intro h
    exact (Always.of_inv hstep hs h).mono hP

/-! ## History -/

/-- The system that remembers the labels of the steps taken. -/
def withPast (step : σ → ι → Option σ) (s : σ × List ι) (i : ι) : Option (σ × List ι) :=
  (step s.1 i).map fun s' => (s', s.2 ++ [i])

theorem withPast_eq_some {s s' : σ × List ι} {i : ι} (h : withPast step s i = some s') :
    step s.1 i = some s'.1 ∧ s'.2 = s.2 ++ [i] := by
  obtain ⟨t, ht, rfl⟩ := Option.map_eq_some_iff.1 h
  exact ⟨ht, rfl⟩

/-! ## Two runs side by side -/

theorem rel_imp {τ : Type*} {R R' : σ → τ → Prop} {x : Option σ} {y : Option τ}
    (h : Option.Rel R x y) (himp : ∀ s t, x = some s → R s t → R' s t) : Option.Rel R' x y := by
  cases h with
  | none => exact .none
  | some hst => exact .some (himp _ _ rfl hst)

/-- The simulation rule: related states stay related under the same labels, and one run exists
exactly when the other does. -/
theorem rel_run {R : σ → σ → Prop} {G : ι → Prop}
    (hstep : ∀ s t i, R s t → G i → Option.Rel R (step s i) (step t i)) {s t : σ} {is : List ι}
    (hst : R s t) (hG : ∀ i ∈ is, G i) : Option.Rel R (run step s is) (run step t is) := by
  induction is generalizing s t with
  | nil => exact .some hst
  | cons i is ih =>
    have hrel := hstep s t i hst (hG i List.mem_cons_self)
    rw [run_cons, run_cons]
    cases hs : step s i with
    | none =>
      cases ht : step t i with
      | none => exact .none
      | some t' => rw [hs, ht] at hrel; cases hrel
    | some s' =>
      cases ht : step t i with
      | none => rw [hs, ht] at hrel; cases hrel
      | some t' =>
        rw [hs, ht] at hrel
        cases hrel with
        | some hst' => exact ih hst' fun j hj => hG j (List.mem_cons_of_mem _ hj)

end StepSystem

import Rounac.Lib.Validator

/-!
# Programs that check and call

A dialogue checks its input and calls the outside, and gives up at the first check or call that
fails. The calls it makes are recorded. As a validator is fixed by the faults of its checks
(`Checked`), a dialogue is fixed by the list of its turns: what is called, if anything, and the
fault, if there is one. `Follows x turns a` says that `x` takes these turns and then returns `a`;
the rules build it up along the binds of a `do` block.
-/

namespace Dialogues

open Validator

universe u

variable {ι ε α β : Type u}

/-- A program that fails with an `ε` or returns an `α`, and records its calls. -/
abbrev Dialogue (ι ε α : Type u) : Type u := ExceptT ε (StateM (List ι)) α

def check (r : Except ε α) : Dialogue ι ε α := ExceptT.mk (pure r)

def call (answer : ι → Except ε PUnit) (c : ι) : Dialogue ι ε PUnit := do
  modify (· ++ [c])
  check (answer c)

/-- The result of a dialogue, and the calls made. -/
def talk (x : Dialogue ι ε α) : Except ε α × List ι := x.run.run []

/-- One turn of a dialogue. -/
structure Turn (ι ε : Type u) where
  call : Option ι
  fault : Option ε

/-- The fault in an answer. -/
def faultOf : Except ε α → Option ε
  | .error e => some e
  | .ok _ => none

/-- A value is checked for being there. -/
theorem checked_faultOf (r : Except ε PUnit) : Checked r [faultOf r] ⟨⟩ := by
  cases r <;> rfl

def Turn.ofCall (answer : ι → Except ε PUnit) (c : ι) : Turn ι ε := ⟨some c, faultOf (answer c)⟩

def Turn.ofCheck (fault : Option ε) : Turn ι ε := ⟨none, fault⟩

/-- The first fault in the turns, and the calls up to it. -/
def outcome : List (Turn ι ε) → Option ε × List ι
  | [] => (none, [])
  | t :: ts =>
    match t.fault with
    | some e => (some e, t.call.toList)
    | none => ((outcome ts).1, t.call.toList ++ (outcome ts).2)

/-- The dialogue takes the turns up to the first fault, and returns `a` if there is none. -/
def Follows (x : Dialogue ι ε α) (turns : List (Turn ι ε)) (a : α) : Prop :=
  ∀ made, x.run.run made = ((outcome turns).1.elim (.ok a) .error, made ++ (outcome turns).2)

/-! ## Turns -/

/-- The checks of a validator make no calls. -/
theorem outcome_map_ofCheck (faults : List (Option ε)) :
    outcome (faults.map (Turn.ofCheck (ι := ι))) = (faults.findSome? id, []) := by
  induction faults with
  | nil => rfl
  | cons f fs ih =>
    cases f with
    | some e => rfl
    | none =>
      rw [List.map_cons, outcome, Turn.ofCheck, ih]
      rfl

theorem outcome_append (ts us : List (Turn ι ε)) :
    outcome (ts ++ us) =
      match outcome ts with
      | (none, made) => ((outcome us).1, made ++ (outcome us).2)
      | (some e, made) => (some e, made) := by
  induction ts with
  | nil => rfl
  | cons t ts ih =>
    rw [List.cons_append, outcome, outcome]
    cases t.fault with
    | some e => rfl
    | none =>
      dsimp only
      rw [ih]
      rcases outcome ts with ⟨_ | e, made⟩
      · simp only [List.append_assoc]
      · rfl

theorem outcome_calls_cases (answer : ι → Except ε PUnit) (cs : List ι) :
    (∀ c ∈ cs, answer c = .ok ⟨⟩) ∧ outcome (cs.map (Turn.ofCall answer)) = (none, cs) ∨
      ∃ before c after e, cs = before ++ c :: after ∧ (∀ d ∈ before, answer d = .ok ⟨⟩) ∧
        answer c = .error e ∧ outcome (cs.map (Turn.ofCall answer)) = (some e, before ++ [c]) := by
  induction cs with
  | nil => exact .inl ⟨fun _ h => (by cases h), rfl⟩
  | cons c cs ih =>
    cases hanswer : answer c with
    | error e =>
      refine .inr ⟨[], c, cs, e, rfl, fun _ h => (by cases h), hanswer, ?_⟩
      rw [List.map_cons, outcome, Turn.ofCall, hanswer]
      rfl
    | ok =>
      have hout : outcome ((c :: cs).map (Turn.ofCall answer)) =
          ((outcome (cs.map (Turn.ofCall answer))).1,
            c :: (outcome (cs.map (Turn.ofCall answer))).2) := by
        rw [List.map_cons, outcome, Turn.ofCall, hanswer]
        rfl
      rw [hout]
      rcases ih with ⟨hall, hcalls⟩ | ⟨before, d, after, e, rfl, hbefore, hd, hcalls⟩
      · refine .inl ⟨?_, by rw [hcalls]⟩
        intro d hd
        rcases List.mem_cons.1 hd with rfl | hd
        · exact hanswer
        · exact hall d hd
      · refine .inr ⟨c :: before, d, after, e, rfl, ?_, hd, by rw [hcalls]; rfl⟩
        intro u hu
        rcases List.mem_cons.1 hu with rfl | hu
        · exact hanswer
        · exact hbefore u hu

/-! ## Building dialogues -/

theorem follows_pure (a : α) : Follows (pure a : Dialogue ι ε α) [] a :=
  fun made => congrArg _ (List.append_nil made).symm

theorem follows_call (answer : ι → Except ε PUnit) (c : ι) :
    Follows (call answer c) [Turn.ofCall answer c] ⟨⟩ := by
  intro made
  show (answer c, made ++ [c]) = _
  cases hanswer : answer c with
  | error e => simp [outcome, Turn.ofCall, faultOf, hanswer]
  | ok => simp [outcome, Turn.ofCall, faultOf, hanswer]

theorem follows_check {r : Except ε α} {faults : List (Option ε)} {a : α} (h : Checked r faults a) :
    Follows (check r : Dialogue ι ε α) (faults.map Turn.ofCheck) a := by
  intro made
  rw [outcome_map_ofCheck, ← h, List.append_nil]
  rfl

theorem run_bind (x : Dialogue ι ε α) (f : α → Dialogue ι ε β) (made : List ι) :
    (x >>= f).run.run made =
      match x.run.run made with
      | (.ok a, made) => (f a).run.run made
      | (.error e, made) => (.error e, made) := by
  unfold ExceptT.run StateT.run
  simp only [bind, ExceptT.bind, ExceptT.mk, StateT.bind, ExceptT.bindCont]
  rcases x made with ⟨_ | _, _⟩ <;> rfl

/-- The turns of a `do` block come one after the other. -/
theorem Follows.bind {x : Dialogue ι ε α} {f : α → Dialogue ι ε β} {ts us : List (Turn ι ε)} {a : α}
    {b : β} (hx : Follows x ts a) (hf : Follows (f a) us b) : Follows (x >>= f) (ts ++ us) b := by
  intro made
  rw [run_bind, hx, outcome_append]
  rcases outcome ts with ⟨_ | e, done⟩
  · show (f a).run.run (made ++ done) = _
    rw [hf, List.append_assoc]
  · rfl

theorem Follows.bind_pure {x : Dialogue ι ε α} {ts : List (Turn ι ε)} {a : α} (h : Follows x ts a)
    (f : α → β) : Follows (x >>= fun a => pure (f a)) ts (f a) := by
  have hbind := h.bind (f := fun a => pure (f a)) (follows_pure (f a))
  rwa [List.append_nil] at hbind

theorem Follows.cons_ofCheck_none {x : Dialogue ι ε α} {ts : List (Turn ι ε)} {a : α}
    (h : Follows x ts a) : Follows x (Turn.ofCheck none :: ts) a := h

/-! ## What a dialogue comes to -/

section Results

variable {x : Dialogue ι ε α} {faults : List (Option ε)} {answer : ι → Except ε PUnit} {cs : List ι}
  {a : α}

/-- **A dialogue that checks before it calls makes no call when a check fails.** -/
theorem Follows.talk_of_fault
    (h : Follows x (faults.map Turn.ofCheck ++ cs.map (Turn.ofCall answer)) a) {e : ε}
    (he : faults.findSome? id = some e) : talk x = (.error e, []) := by
  have hrun := h []
  rw [outcome_append, outcome_map_ofCheck, he] at hrun
  exact hrun

/-- It returns after all its calls, or fails at the first that fails, when no check does. -/
theorem Follows.talk_cases
    (h : Follows x (faults.map Turn.ofCheck ++ cs.map (Turn.ofCall answer)) a)
    (hnone : faults.findSome? id = none) :
    (∀ c ∈ cs, answer c = .ok ⟨⟩) ∧ talk x = (.ok a, cs) ∨
      ∃ before c after e, cs = before ++ c :: after ∧ (∀ d ∈ before, answer d = .ok ⟨⟩) ∧
        answer c = .error e ∧ talk x = (.error e, before ++ [c]) := by
  have hrun := h []
  rw [outcome_append, outcome_map_ofCheck, hnone] at hrun
  rcases outcome_calls_cases answer cs with ⟨hall, hout⟩ |
    ⟨before, c, after, e, hcs, hbefore, hc, hout⟩
  · rw [hout] at hrun
    exact .inl ⟨hall, hrun⟩
  · rw [hout] at hrun
    exact .inr ⟨before, c, after, e, hcs, hbefore, hc, hrun⟩

end Results

end Dialogues

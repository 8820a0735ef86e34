import Mathlib.Tactic.Common

/-!
# Validators that stop at their first fault

A validator reads its input item by item and returns the first fault it finds. Its result is fixed
by two things: the list of the faults that its checks would report, in order, and the value it
builds when there is none. `Checked r faults a` says that `r` is such a result; the rules build it
up along the binds of a `do` block, where the value of a check may be used by the checks after it.
-/

namespace Validator

universe u

variable {ε : Type*} {α β : Type u}

/-- Fail with `e` if `c` holds. -/
def refuse (c : Prop) [Decidable c] (e : ε) : Except ε Unit := if c then .error e else .ok ()

def fault (c : Prop) [Decidable c] (e : ε) : Option ε := if c then some e else none

/-- `r` fails with the first of the faults, and returns `a` if there is none. -/
def Checked (r : Except ε α) (faults : List (Option ε)) (a : α) : Prop :=
  r = (faults.findSome? id).elim (.ok a) .error

def Faulty (faults : List (Option ε)) : Prop := ∃ f ∈ faults, f.isSome

/-! ## Faults -/

theorem fault_eq_some {c : Prop} [Decidable c] {e e' : ε} : fault c e = some e' ↔ c ∧ e = e' := by
  simp [fault]

theorem isSome_fault {c : Prop} [Decidable c] {e : ε} : (fault c e).isSome ↔ c := by simp [fault]

theorem mem_fault_cons {c : Prop} [Decidable c] {e e' : ε} {fs : List (Option ε)} :
    some e ∈ fault c e' :: fs ↔ c ∧ e' = e ∨ some e ∈ fs := by
  rw [List.mem_cons, eq_comm, fault_eq_some]

@[simp] theorem faulty_nil : ¬ Faulty ([] : List (Option ε)) := by simp [Faulty]

@[simp] theorem faulty_fault_cons {c : Prop} [Decidable c] {e : ε} {fs : List (Option ε)} :
    Faulty (fault c e :: fs) ↔ c ∨ Faulty fs := by
  simp [Faulty, isSome_fault]

@[simp] theorem faulty_append {fs gs : List (Option ε)} :
    Faulty (fs ++ gs) ↔ Faulty fs ∨ Faulty gs := by
  simp [Faulty, or_and_right, exists_or]

/-! ## Building validators -/

theorem checked_ok (a : α) : Checked (.ok a : Except ε α) [] a := rfl

theorem checked_refuse (c : Prop) [Decidable c] (e : ε) : Checked (refuse c e) [fault c e] () := by
  by_cases hc : c
  · simp [Checked, refuse, fault, hc]
  · simp [Checked, refuse, fault, hc]

/-- The checks of a `do` block come one after the other. -/
theorem Checked.bind {x : Except ε α} {f : α → Except ε β} {fs gs : List (Option ε)} {a : α} {b : β}
    (hx : Checked x fs a) (hf : Checked (f a) gs b) : Checked (x >>= f) (fs ++ gs) b := by
  unfold Checked at hx hf ⊢
  rw [List.findSome?_append, hx]
  cases fs.findSome? id with
  | some e => rfl
  | none => exact hf

theorem findSome?_map_faults {δ : Type*} (f : ε → δ) (faults : List (Option ε)) :
    (faults.map (Option.map f)).findSome? id = (faults.findSome? id).map f := by
  induction faults with
  | nil => rfl
  | cons o faults ih =>
    cases o with
    | some e => rfl
    | none => exact ih

theorem Checked.mapError {δ : Type*} {r : Except ε α} {faults : List (Option ε)} {a : α}
    (f : ε → δ) (h : Checked r faults a) :
    Checked (r.mapError f) (faults.map (Option.map f)) a := by
  unfold Checked at h ⊢
  rw [findSome?_map_faults, h]
  cases faults.findSome? id <;> rfl

/-! ## What a validator returns -/

section Results

variable {r : Except ε α} {faults : List (Option ε)} {a : α}

/-- A validator accepts exactly the faultless inputs. -/
theorem Checked.eq_ok_iff (h : Checked r faults a) (b : α) :
    r = .ok b ↔ (∀ f ∈ faults, f = none) ∧ b = a := by
  have hnone : faults.findSome? id = none ↔ ∀ f ∈ faults, f = none := by
    simp [List.findSome?_eq_none_iff]
  rw [← hnone, h]
  cases faults.findSome? id with
  | some e => simp
  | none => simp [eq_comm]

theorem Checked.mem_of_eq_error (h : Checked r faults a) {e : ε} (he : r = .error e) :
    some e ∈ faults := by
  rw [h] at he
  cases hfirst : faults.findSome? id with
  | none => rw [hfirst] at he; cases he
  | some e' =>
    rw [hfirst] at he
    cases he
    obtain ⟨f, hf, hfe⟩ := List.exists_of_findSome?_eq_some hfirst
    exact hfe ▸ hf

theorem Checked.exists_error_iff (h : Checked r faults a) :
    (∃ e, r = .error e) ↔ Faulty faults := by
  constructor
  · rintro ⟨e, he⟩
    exact ⟨some e, h.mem_of_eq_error he, rfl⟩
  · intro ⟨f, hf, hsome⟩
    cases hr : r with
    | error e => exact ⟨e, rfl⟩
    | ok b =>
      rw [((h.eq_ok_iff b).1 hr).1 f hf] at hsome
      cases hsome

end Results

/-! ## Specifications -/

/-- What a caller wants of a validator: a value it returns is exact, and it returns none exactly for
the invalid inputs. -/
structure Meets (r : Except ε α) (Exact : α → Prop) (Invalid : Prop) : Prop where
  exact : ∀ a, r = .ok a → Exact a
  rejects : (∃ e, r = .error e) ↔ Invalid

/-- **A validator that leaves one requirement unchecked** meets its specification on exactly the
inputs that keep the requirement or are rejected for another fault. -/
theorem meets_iff {r : Except ε α} {Exact : α → Prop} {Required Rejected Invalid : Prop}
    (hrejected : (∃ e, r = .error e) ↔ Rejected) (hexact : ∀ a, r = .ok a → Required → Exact a)
    (hinvalid : Invalid ↔ Rejected ∨ ¬ Required) :
    Meets r Exact Invalid ↔ Required ∨ Rejected := by
  constructor
  · intro hm
    by_cases hreq : Required
    · exact .inl hreq
    · exact .inr (hrejected.1 (hm.rejects.2 (hinvalid.2 (.inr hreq))))
  · intro hor
    have hreq : Invalid → Rejected := fun hinv =>
      (hinvalid.1 hinv).elim id fun hnot => hor.resolve_left hnot
    refine ⟨fun a ha => ?_, ?_⟩
    · -- A value that is returned was not rejected, so the requirement is met.
      refine hexact a ha (hor.resolve_right fun hrej => ?_)
      obtain ⟨e, he⟩ := hrejected.2 hrej
      rw [ha] at he
      cases he
    · rw [hrejected]
      exact ⟨fun hrej => hinvalid.2 (.inl hrej), hreq⟩

end Validator

import Rounac.Lib.TaskPool
import Rounac.Networks.StatusManager

/-!
# Whether a failed connection stays failed

The transports' handlers set the status to `Failed` or to `Inoperable` through `set_status`, which
stores what it is given whenever that is not what it loaded. `Failed` is final in exactly the runs
in which no closed channel stores `Inoperable` after a `Failed` was stored (`failed_is_final_iff`).
-/

namespace Rounac

open StepSystem TaskPool

/-- The event handlers that set the status. -/
inductive StatusHandler
  /-- `ConnCb::close`. -/
  | connClose
  /-- `ChanCb::close`. -/
  | chanClose
  /-- The error branch of the MQTT event loop. -/
  | pollError
deriving DecidableEq, Repr

def StatusHandler.status : StatusHandler → AsbConnStatus
  | connClose | pollError => .failed
  | chanClose => .inoperable

def SetStatusCall.pending : SetStatusCall → Option AsbConnStatus
  | loading new | storing new => some new
  | notifying _ | returned => none

namespace StatusManager

/-- The calls of `set_status` are made by the handlers. -/
def ByHandlers (as : List StatusStep) : Prop :=
  ∀ status, .setStatus status ∈ as → ∃ h : StatusHandler, h.status = status

/-- Once the status is `Failed` in a run, it is `Failed` in every later state. -/
def FailedFinal (as : List StatusStep) : Prop :=
  ∀ before after, as = before ++ after → ∀ s, run step new before = some s →
    s.getStatus = .failed → Always step (fun u => u.getStatus = .failed) s after

/-- A closed channel stores `Inoperable` before any `Failed` is stored. -/
def ChanStoresFirst (s : StatusManager) : StatusStep → Prop
  | .advance i => s.calls[i]? = some (.storing StatusHandler.chanClose.status) → .failed ∉ s.stored
  | _ => True

instance (s : StatusManager) : ∀ a, Decidable (s.ChanStoresFirst a)
  | .advance _ => inferInstanceAs (Decidable (_ → _))
  | .setStatus _ | .addListener _ | .removeListener _ | .deliver _ =>
    inferInstanceAs (Decidable True)

/-- The step leaves a failed status as it is. -/
def KeepsFailed (s : StatusManager) (a : StatusStep) : Prop :=
  s.status = .failed → ∀ s', s.step a = some s' → s'.status = .failed

theorem Move.status_cases {s s' : StatusManager} {a : StatusStep} (hm : s.Move a s') :
    (s'.status = s.status ∧ s'.stored = s.stored) ∨
      ∃ i new, a = .advance i ∧ s.calls[i]? = some (.storing new) ∧ s'.status = new ∧
        s'.stored = s.stored ++ [new] := by
  cases hm with
  | called | loaded | notified | added | removed | delivered => exact .inl ⟨rfl, rfl⟩
  | @stored i new hi => exact .inr ⟨i, new, rfl, hi, rfl, rfl⟩

/-- The calls set what handlers set. -/
def CallsByHandlers (s : StatusManager) : Prop :=
  ∀ c ∈ s.calls, ∀ status, c.pending = some status → ∃ h : StatusHandler, h.status = status

theorem Move.callsByHandlers {s s' : StatusManager} {a : StatusStep} (hm : s.Move a s')
    (hby : ∀ status, a = .setStatus status → ∃ h : StatusHandler, h.status = status)
    (h : s.CallsByHandlers) : s'.CallsByHandlers := by
  cases hm with
  | @called new =>
    intro c hc status hpending
    rcases List.mem_append.1 hc with hc | hc
    · exact h c hc status hpending
    · cases List.mem_singleton.1 hc
      cases hpending
      exact hby _ rfl
  | @loaded i new c' hi hc' =>
    refine forall_mem_set h fun status hpending => ?_
    rcases hc' with ⟨-, rfl⟩ | ⟨-, rfl⟩
    · cases hpending
      exact h _ (mem_of_getElem? hi) new rfl
    · cases hpending
  | stored hi | notified hi => exact forall_mem_set h fun status hpending => nomatch hpending
  | added | removed | delivered => exact h

/-- The status is `Failed` once that was stored, and not before. -/
def FailedOnce (s : StatusManager) : Prop := .failed ∈ s.stored ↔ s.status = .failed

theorem FailedOnce.step {s s' : StatusManager} {a : StatusStep} (h : s.FailedOnce)
    (hkeep : s.KeepsFailed a) (hs : s.step a = some s') : s'.FailedOnce := by
  unfold FailedOnce at h ⊢
  rcases (step_move hs).status_cases with ⟨hstatus, hstored⟩ | ⟨i, new, -, -, hstatus, hstored⟩
  · rw [hstatus, hstored]
    exact h
  · rw [hstored]
    constructor
    · intro hmem
      rcases List.mem_append.1 hmem with hmem | hmem
      · exact hkeep (h.1 hmem) s' hs
      · exact hstatus.trans (List.mem_singleton.1 hmem).symm
    · intro hfailed
      exact List.mem_append_right _ (List.mem_singleton.2 (hfailed.symm.trans hstatus))

/-- A closed channel that stores first leaves no failed status. -/
theorem keepsFailed_of_chanStoresFirst {s : StatusManager} {a : StatusStep}
    (hcalls : s.CallsByHandlers) (honce : s.FailedOnce) (hfirst : s.ChanStoresFirst a) :
    s.KeepsFailed a := by
  intro hfailed s' hs
  rcases (step_move hs).status_cases with ⟨hstatus, -⟩ | ⟨i, new, rfl, hi, hstatus, -⟩
  · exact hstatus.trans hfailed
  · rw [hstatus]
    obtain ⟨h, rfl⟩ := hcalls _ (mem_of_getElem? hi) new rfl
    cases h with
    | connClose | pollError => rfl
    | chanClose => exact absurd (honce.2 hfailed) (hfirst hi)

/-- A store of `Inoperable` over `Failed` does not keep it. -/
theorem chanStoresFirst_of_keepsFailed {s : StatusManager} {a : StatusStep} (honce : s.FailedOnce)
    (hkeep : s.KeepsFailed a) : s.ChanStoresFirst a := by
  cases a with
  | advance i =>
    intro hi hmem
    have hfailed := hkeep (honce.1 hmem)
      { s.store .inoperable with calls := s.calls.set i (.notifying .inoperable) }
      (by simp only [step, hi, Option.bind_some, advance]; rfl)
    cases hfailed
  | setStatus | addListener | removeListener | deliver => trivial

theorem failedFinal_iff {as : List StatusStep} :
    FailedFinal as ↔ EachStep step KeepsFailed new as := by
  constructor
  · intro h
    refine .of_reached fun js a ks heq t t' hrun ht hfailed t'' ht'' => ?_
    exact ((h js (a :: ks) heq t hrun hfailed).2 t'' ht'').head
  · rintro h before after rfl s hrun hfailed
    exact .of_inv (fun u a u' hu hk hs => hk hu u' hs) hfailed (h.of_append hrun)

/-- **`Failed` is final in exactly the runs in which no closed channel stores `Inoperable` after a
`Failed` was stored**, for any number of calls by the handlers, in any interleaving. -/
theorem failed_is_final_iff (as : List StatusStep) (hby : ByHandlers as) :
    FailedFinal as ↔ EachStep step ChanStoresFirst new as := by
  rw [failedFinal_iff]
  have hnew : new.FailedOnce := by simp [FailedOnce, new]
  constructor
  · intro hkeep
    have honce : Always step FailedOnce new as :=
      .of_inv (fun _ _ _ h hk hs => h.step hk hs) hnew hkeep
    exact .of_always (fun s a (h : s.FailedOnce) (hk : s.KeepsFailed a) =>
      chanStoresFirst_of_keepsFailed h hk) honce hkeep
  · intro hfirst
    have hlabels : ∀ a ∈ as, ∀ status, a = .setStatus status →
        ∃ h : StatusHandler, h.status = status := by
      rintro a ha status rfl
      exact hby status ha
    have hguard := hfirst.and (.of_mem hlabels new)
    have hinv : Always step (fun s => s.CallsByHandlers ∧ s.FailedOnce) new as := by
      refine .of_inv (fun s a s' h hg hs => ?_)
        ⟨fun _ hc => absurd hc List.not_mem_nil, hnew⟩ hguard
      exact ⟨(step_move hs).callsByHandlers hg.2 h.1,
        h.2.step (keepsFailed_of_chanStoresFirst h.1 h.2 hg.1) hs⟩
    exact .of_always (fun s a h (hf : s.ChanStoresFirst a) =>
      keepsFailed_of_chanStoresFirst h.1 h.2 hf) hinv hfirst

/-- A channel closes and has stored its status before the connection closes. -/
theorem failed_is_final_after_channel :
    FailedFinal [.setStatus .inoperable, .advance 0, .advance 0, .setStatus .failed, .advance 0,
      .advance 1, .advance 1, .advance 1] := by
  refine (failed_is_final_iff _ fun status h => ?_).2 (by decide)
  simp only [List.mem_cons, StatusStep.setStatus.injEq, reduceCtorEq, false_or, or_false,
    List.not_mem_nil] at h
  rcases h with rfl | rfl
  · exact ⟨.chanClose, rfl⟩
  · exact ⟨.connClose, rfl⟩

/-- The connection closes, and then the channel does: the status goes from `Failed` to
`Inoperable`. -/
theorem failed_then_inoperable :
    ByHandlers [.setStatus .failed, .advance 0, .advance 0, .advance 0, .setStatus .inoperable,
      .advance 1, .advance 1] ∧
    ∃ s s' : StatusManager,
      run step new [.setStatus .failed, .advance 0, .advance 0, .advance 0] = some s ∧
      s.getStatus = .failed ∧
      run step s [.setStatus .inoperable, .advance 1, .advance 1] = some s' ∧
      s'.getStatus = .inoperable := by
  refine ⟨fun status h => ?_, _, _, rfl, rfl, rfl, rfl⟩
  simp only [List.mem_cons, StatusStep.setStatus.injEq, reduceCtorEq, false_or, or_false,
    List.not_mem_nil] at h
  rcases h with rfl | rfl
  · exact ⟨.connClose, rfl⟩
  · exact ⟨.chanClose, rfl⟩

end StatusManager

end Rounac

import Rounac.Lib.StepSystem
import Rounac.Networks.Utils

/-!
# The status manager

`StatusCallbackManager` of `src/networks/utils.rs`, as steps of the calls that are made on it. A
call of `set_status` loads the status, stores the new one if it is another, and then calls every
listener it finds under the lock; the load, the store and the locked section are a step each.
`add_listener` and `remove_listener` are locked throughout. Every call of a listener is made on a
thread of its own: it is a notification in flight until it is delivered, in any order.

Listeners are known by the addresses of their `Arc`. Three logs, which nothing reads, record the
statuses stored, the notifications issued with who issued them, and those delivered.
-/

namespace Rounac

open SwapRemove StepSystem

/-- The address of an `Arc<dyn AsbStatusListener>`. -/
abbrev StatusFn := ℕ

/-- A value of `status_listeners`: the id that `add_listener` returned, and the function. -/
structure StatusListener where
  id : BitVec 32
  fn : StatusFn
deriving DecidableEq, Repr

/-- What a call of `set_status` does next. -/
inductive SetStatusCall
  /-- Load the status. -/
  | loading (new : AsbConnStatus)
  /-- Store the new status, which is not the one loaded. -/
  | storing (new : AsbConnStatus)
  /-- `call_status_listeners`. -/
  | notifying (new : AsbConnStatus)
  | returned
deriving DecidableEq, Repr

/-- Who spawned the thread of a notification. -/
inductive Issuer
  /-- The `i`-th call of `set_status`. -/
  | call (i : ℕ)
  /-- The registration of the listener. -/
  | registration
deriving DecidableEq, Repr

/-- A notification, with who spawned its thread. -/
structure Issue where
  issuer : Issuer
  fn : StatusFn
  status : AsbConnStatus
deriving DecidableEq, Repr

/-- `StatusCallbackManager`, with the calls of `set_status`, the notifications in flight, and the
logs. -/
structure StatusManager where
  status : AsbConnStatus
  statusListeners : List StatusListener
  nextFn : StatusFn
  calls : List SetStatusCall
  inFlight : List (StatusFn × AsbConnStatus)
  stored : List AsbConnStatus
  issued : List Issue
  delivered : List (StatusFn × AsbConnStatus)

/-- A call of `set_status` begins or takes its next step; a listener is added or removed; the `k`-th
notification in flight is delivered. -/
inductive StatusStep
  | setStatus (new : AsbConnStatus)
  | advance (i : ℕ)
  | addListener (id : BitVec 32)
  | removeListener (id : BitVec 32)
  | deliver (k : ℕ)
deriving DecidableEq

namespace StatusManager

/-- `StatusCallbackManager::new`. -/
def new : StatusManager where
  status := .normal
  statusListeners := []
  nextFn := 0
  calls := []
  inFlight := []
  stored := []
  issued := []
  delivered := []

/-- `get_status`. -/
def getStatus (s : StatusManager) : AsbConnStatus := s.status

/-- Spawn a thread for each of some listeners, to call it with a status. -/
def issue (s : StatusManager) (issuer : Issuer) (fns : List StatusFn) (status : AsbConnStatus) :
    StatusManager :=
  { s with
    inFlight := s.inFlight ++ fns.map fun fn => (fn, status)
    issued := s.issued ++ fns.map fun fn => ⟨issuer, fn, status⟩ }

/-- The store of `set_status`. -/
def store (s : StatusManager) (new : AsbConnStatus) : StatusManager :=
  { s with status := new, stored := s.stored ++ [new] }

/-- `call_status_listeners`, in the `i`-th call of `set_status`. -/
def callStatusListeners (s : StatusManager) (i : ℕ) (status : AsbConnStatus) : StatusManager :=
  s.issue (.call i) (s.statusListeners.map StatusListener.fn) status

/-- `add_listener`. -/
def addListener (s : StatusManager) (id : BitVec 32) : StatusManager :=
  let pushed : StatusManager := { s with
    statusListeners := s.statusListeners ++ [⟨id, s.nextFn⟩]
    nextFn := s.nextFn + 1 }
  pushed.issue .registration [s.nextFn] pushed.getStatus

/-- `remove_listener`. -/
def removeListener (s : StatusManager) (id : BitVec 32) : Bool × StatusManager :=
  let (found, statusListeners) := removeFirst (fun f => f.id == id) s.statusListeners
  (found, { s with statusListeners })

/-- The next step of the `i`-th call of `set_status`. -/
def advance (s : StatusManager) (i : ℕ) : SetStatusCall → Option (SetStatusCall × StatusManager)
  | .loading new => some (if s.getStatus ≠ new then .storing new else .returned, s)
  | .storing new => some (.notifying new, s.store new)
  | .notifying new => some (.returned, s.callStatusListeners i new)
  | .returned => none

def step (s : StatusManager) : StatusStep → Option StatusManager
  | .setStatus new => some { s with calls := s.calls ++ [.loading new] }
  | .advance i =>
      s.calls[i]?.bind fun c =>
        (s.advance i c).map fun next => { next.2 with calls := next.2.calls.set i next.1 }
  | .addListener id => some (s.addListener id)
  | .removeListener id => some (s.removeListener id).2
  | .deliver k =>
      s.inFlight[k]?.map fun x =>
        { s with inFlight := s.inFlight.eraseIdx k, delivered := s.delivered ++ [x] }

/-! ## What one step can do -/

/-- The steps. -/
inductive Move (s : StatusManager) : StatusStep → StatusManager → Prop
  | called {new : AsbConnStatus} :
      Move s (.setStatus new) { s with calls := s.calls ++ [.loading new] }
  | loaded {i : ℕ} {new : AsbConnStatus} {c : SetStatusCall}
      (hi : s.calls[i]? = some (.loading new))
      (hc : s.status ≠ new ∧ c = .storing new ∨ s.status = new ∧ c = .returned) :
      Move s (.advance i) { s with calls := s.calls.set i c }
  | stored {i : ℕ} {new : AsbConnStatus} (hi : s.calls[i]? = some (.storing new)) :
      Move s (.advance i) { s.store new with calls := s.calls.set i (.notifying new) }
  | notified {i : ℕ} {new : AsbConnStatus} (hi : s.calls[i]? = some (.notifying new)) :
      Move s (.advance i) { s.callStatusListeners i new with calls := s.calls.set i .returned }
  | added {id : BitVec 32} : Move s (.addListener id) (s.addListener id)
  | removed {id : BitVec 32} : Move s (.removeListener id) (s.removeListener id).2
  | delivered {k : ℕ} {x : StatusFn × AsbConnStatus} (hk : s.inFlight[k]? = some x) :
      Move s (.deliver k)
        { s with inFlight := s.inFlight.eraseIdx k, delivered := s.delivered ++ [x] }

theorem step_move {s s' : StatusManager} {a : StatusStep} (h : s.step a = some s') :
    s.Move a s' := by
  cases a with
  | setStatus new => cases h; exact .called
  | advance i =>
    obtain ⟨c, hi, h⟩ := Option.bind_eq_some_iff.1 h
    obtain ⟨next, hnext, rfl⟩ := Option.map_eq_some_iff.1 h
    cases c with
    | loading new =>
      cases hnext
      refine .loaded hi ?_
      by_cases hne : s.status = new <;> simp [getStatus, hne]
    | storing new => cases hnext; exact .stored hi
    | notifying new => cases hnext; exact .notified hi
    | returned => cases hnext
  | addListener id => cases h; exact .added
  | removeListener id => cases h; exact .removed
  | deliver k =>
    obtain ⟨x, hk, rfl⟩ := Option.map_eq_some_iff.1 h
    exact .delivered hk

/-- **A call of `set_status` that runs alone** leaves the status that `setStatus` tells of. -/
theorem run_setStatus (s : StatusManager) (new : AsbConnStatus) :
    ∃ as s', run step s (.setStatus new :: as) = some s' ∧ s'.status = setStatus s.status new ∧
      s'.calls = s.calls ++ [.returned] := by
  have hset : ∀ c c', (s.calls ++ [c]).set s.calls.length c' = s.calls ++ [c'] :=
    fun c c' => by simp
  by_cases hne : s.status = new
  · refine ⟨[.advance s.calls.length], _, by
      simp [run, step, advance, getStatus, hset, hne]; rfl, ?_, rfl⟩
    exact (setStatus_eq _ _).symm
  · refine ⟨[.advance s.calls.length, .advance s.calls.length, .advance s.calls.length], _, by
      simp [run, step, advance, getStatus, store, callStatusListeners, issue, hset, hne]; rfl,
      ?_, rfl⟩
    exact (setStatus_eq _ _).symm

end StatusManager

end Rounac

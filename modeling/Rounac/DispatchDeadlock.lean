import Rounac.Networks.Listeners

/-!
# Listeners that use their own reader

A dispatch holds the lock of the list of listeners while it calls them, and `add_listener` and
`remove_listener` take that lock. `ReentrantReader` is `SharedReader` with listeners whose `on_msg`
makes such calls on the same reader, on the thread that called it. The first of them waits for a
lock that its own thread holds, so a run never deadlocks this way exactly when no dispatch calls a
listener that makes one (`never_self_deadlocks_iff`). A thread that did so stays where it is
(`SelfDeadlocked.always`).

With listeners that make no calls this is `SharedReader` (`run_of_quiet`).
-/

namespace Rounac

open StepSystem

/-! ## Calls made by listeners -/

/-- A call that a listener makes on its reader. -/
inductive BodyCall
  | addListener (id : BitVec 32)
  | removeListener (id : BitVec 32)
deriving DecidableEq, Repr

def BodyCall.toCall : BodyCall → ClientCall
  | addListener id => .addListener id
  | removeListener id => .removeListener id

/-- A reader with listeners that use it. While a background thread is inside `on_msg`, `bodies` has
its place in the call that it makes there, and the calls still to come. -/
structure ReentrantReader where
  reader : SharedReader
  bodies : ℕ → Client × List BodyCall

namespace ReentrantReader

/-- A new reader with `n` client threads. -/
def new (capacity : ℕ) (expiration : Option Duration) (n : ℕ) : ReentrantReader where
  reader := .new capacity expiration n
  bodies := fun _ => (.idle, [])

section

variable (onMsg : ListenerFn → MsgId → List BodyCall)

/-- The calls of the `on_msg` that the next step of a thread enters, if it enters one. -/
def entered (s : ReentrantReader) (k : ℕ) : List BodyCall :=
  match s.reader.threads[k]? with
  | some (.calling m (fn :: _)) => onMsg fn m
  | _ => []

/-- The next step of a background thread: inside `on_msg` it is the next step of the calls made
there. -/
def advanceThread (s : ReentrantReader) (k : ℕ) (now : Instant) : Option ReentrantReader :=
  match s.bodies k with
  | (.idle, []) =>
    (s.reader.step (.thread k now)).map fun reader =>
      { reader, bodies := Function.update s.bodies k (.idle, s.entered onMsg k) }
  | (.idle, call :: calls) =>
    (s.reader.begin now call.toCall).map fun next =>
      { reader := next.2, bodies := Function.update s.bodies k (next.1, calls) }
  | (c, calls) =>
    (s.reader.advanceClient now c).map fun next =>
      { reader := next.2, bodies := Function.update s.bodies k (next.1, calls) }

def step (s : ReentrantReader) : ReaderStep → Option ReentrantReader
  | .thread k now => s.advanceThread onMsg k now
  | l => (s.reader.step l).map fun reader => { s with reader }

/-- The thread waits for the listeners' lock, which it holds: it is in a dispatch, and about to
begin a call on the reader. -/
structure SelfDeadlocked (k : ℕ) (s : ReentrantReader) : Prop where
  waits : ∃ call calls, s.bodies k = (.idle, call :: calls)
  holds : ∃ m rest, s.reader.threads[k]? = some (.calling m rest)

/-- A step that calls a listener calls one whose `on_msg` does not use the reader. -/
def CallsQuiet (s : ReentrantReader) (l : ReaderStep) : Prop :=
  ∀ k now m fn rest, l = .thread k now → s.bodies k = (.idle, []) →
    s.reader.threads[k]? = some (.calling m (fn :: rest)) → onMsg fn m = []

end

variable {onMsg : ListenerFn → MsgId → List BodyCall} {s s' : ReentrantReader} {k : ℕ}

/-! ## Listeners without calls -/

/-- Nobody is inside an `on_msg` that makes calls. -/
def Quiet (s : ReentrantReader) : Prop := ∀ k, s.bodies k = (.idle, [])

theorem entered_eq_nil {now : Instant} (hbody : s.bodies k = (.idle, []))
    (h : s.CallsQuiet onMsg (.thread k now)) : s.entered onMsg k = [] := by
  unfold entered
  split
  · rename_i m fn rest hk
    exact h k now m fn rest rfl hbody hk
  · rfl

theorem Quiet.step_eq {l : ReaderStep} (h : s.Quiet) (hl : s.CallsQuiet onMsg l) :
    s.step onMsg l = (s.reader.step l).map fun reader => { s with reader } := by
  cases l with
  | thread k now =>
    have hsame : Function.update s.bodies k (.idle, []) = s.bodies := by
      rw [← h k]
      exact Function.update_eq_self k s.bodies
    simp only [step, advanceThread, h k, entered_eq_nil (h k) hl, hsame]
  | arrive | disconnect | call | client => rfl

theorem Quiet.step {l : ReaderStep} (h : s.Quiet) (hl : s.CallsQuiet onMsg l)
    (hs : s.step onMsg l = some s') : s'.Quiet := by
  rw [h.step_eq hl] at hs
  obtain ⟨reader, -, rfl⟩ := Option.map_eq_some_iff.1 hs
  exact h

/-- **With listeners that make no calls, this is `SharedReader`.** -/
theorem run_of_quiet (hquiet : ∀ fn m, onMsg fn m = []) (h : s.Quiet) (ls : List ReaderStep) :
    run (step onMsg) s ls =
      (run SharedReader.step s.reader ls).map fun reader => { s with reader } := by
  induction ls generalizing s with
  | nil => rfl
  | cons l ls ih =>
    rw [run_cons, run_cons, h.step_eq fun k now m fn rest _ _ _ => hquiet fn m]
    cases s.reader.step l with
    | none => rfl
    | some reader => exact ih (s := { s with reader }) h

/-! ## Deadlocks -/

theorem Quiet.not_selfDeadlocked (h : s.Quiet) : ¬ ∃ k, SelfDeadlocked k s := by
  rintro ⟨k, ⟨call, calls, hbody⟩, -⟩
  rw [h k] at hbody
  cases hbody

theorem threads_of_called {r r' : SharedReader} {now : Instant} {m : MsgId} {fn : ListenerFn}
    {rest : List ListenerFn} (hk : r.threads[k]? = some (.calling m (fn :: rest)))
    (h : r.step (.thread k now) = some r') : r'.threads[k]? = some (.calling m rest) := by
  obtain ⟨hlt, -⟩ := List.getElem?_eq_some_iff.1 hk
  simp only [SharedReader.step, hk, Option.bind_some, SharedReader.advanceThread, Option.map_some,
    Option.some.injEq] at h
  rw [← h]
  exact List.getElem?_set_self hlt

/-- A listener that uses its reader deadlocks the thread that calls it. -/
theorem selfDeadlocked_of_called {now : Instant} {m : MsgId} {fn : ListenerFn}
    {rest : List ListenerFn} (hbody : s.bodies k = (.idle, []))
    (hk : s.reader.threads[k]? = some (.calling m (fn :: rest))) (hcalls : onMsg fn m ≠ [])
    (hs : s.step onMsg (.thread k now) = some s') : SelfDeadlocked k s' := by
  obtain ⟨call, calls, hlist⟩ := List.exists_cons_of_ne_nil hcalls
  have hentered : s.entered onMsg k = call :: calls := by
    simp only [entered, hk, hlist]
  simp only [step, advanceThread, hbody, hentered] at hs
  obtain ⟨reader, hreader, rfl⟩ := Option.map_eq_some_iff.1 hs
  exact ⟨⟨call, calls, Function.update_self _ _ _⟩, _, _, threads_of_called hk hreader⟩

theorem begin_of_locked {r : SharedReader} (hlock : r.isLocked = true) (now : Instant)
    (call : BodyCall) : r.begin now call.toCall = none := by
  cases call with
  | addListener id => exact if_pos hlock
  | removeListener id => exact if_pos hlock

theorem SelfDeadlocked.isLocked (h : SelfDeadlocked k s) : s.reader.isLocked = true := by
  obtain ⟨m, rest, hk⟩ := h.holds
  exact List.any_eq_true.2 ⟨_, List.mem_of_getElem? hk, rfl⟩

/-! ### A deadlock is for ever -/

theorem threads_begin {r : SharedReader} {now : Instant} {call : ClientCall}
    {next : Client × SharedReader} (h : r.begin now call = some next) :
    next.2.threads = r.threads := by
  cases call with
  | addListener id =>
    simp only [SharedReader.begin] at h
    split_ifs at h
    cases h
    rfl
  | removeListener id =>
    simp only [SharedReader.begin] at h
    split_ifs at h
    cases h
    show (r.removeListener id).2.toTraffic.threads = r.threads
    rw [SharedReader.toTraffic_removeListener]
  | read | tryRead | readTimeout => cases h; rfl

theorem threads_advanceClient {r : SharedReader} {now : Instant} {c : Client}
    {next : Client × SharedReader} (h : r.advanceClient now c = some next) :
    r.threads <+: next.2.threads := by
  cases c with
  | idle => cases h
  | added | starting => cases h; exact List.prefix_rfl
  | spawning => cases h; exact List.prefix_append _ _
  | polling call =>
    simp only [SharedReader.advanceClient] at h
    by_cases hover : call.isOver r.expiration
    · rw [if_pos hover] at h
      cases h
      exact List.prefix_rfl
    · rw [if_neg hover] at h
      split at h
      · split at h <;> cases h <;> exact List.prefix_rfl
      · split_ifs at h
        cases h
        exact List.prefix_rfl

theorem getElem?_of_prefix {ts us : List BgThread} {t : BgThread} (h : ts <+: us)
    (hk : ts[k]? = some t) : us[k]? = some t := by
  obtain ⟨vs, rfl⟩ := h
  obtain ⟨hlt, -⟩ := List.getElem?_eq_some_iff.1 hk
  rw [List.getElem?_append_left hlt]
  exact hk

theorem threads_of_step {r r' : SharedReader} {l : ReaderStep} {t : BgThread}
    (hk : r.threads[k]? = some t) (hl : ∀ now, l ≠ .thread k now) (h : r.step l = some r') :
    r'.threads[k]? = some t := by
  have hmoved : ∀ b, r.Move l b → b.threads[k]? = some t := by
    intro b hmove
    cases hmove with
    | idle | arrived | added | removed | expired | read => exact hk
    | spawned hj => exact getElem?_of_prefix (List.prefix_append _ _) hk
    | @turned j now u u' b hj hturn =>
      have hne : j ≠ k := fun heq => hl now (by rw [heq])
      exact (List.getElem?_set_ne hne).trans hk
  exact hmoved _ (SharedReader.step_move h)

theorem advanceThread_frame {j : ℕ} {now : Instant} {t : BgThread} (hne : k ≠ j)
    (hk : s.reader.threads[k]? = some t) (hs : s.advanceThread onMsg j now = some s') :
    s'.bodies k = s.bodies k ∧ s'.reader.threads[k]? = some t := by
  unfold advanceThread at hs
  split at hs
  · obtain ⟨reader, hreader, rfl⟩ := Option.map_eq_some_iff.1 hs
    refine ⟨Function.update_of_ne hne _ _, threads_of_step hk (fun u heq => ?_) hreader⟩
    cases heq
    exact hne rfl
  · obtain ⟨next, hnext, rfl⟩ := Option.map_eq_some_iff.1 hs
    refine ⟨Function.update_of_ne hne _ _, ?_⟩
    rw [threads_begin hnext]
    exact hk
  · obtain ⟨next, hnext, rfl⟩ := Option.map_eq_some_iff.1 hs
    exact ⟨Function.update_of_ne hne _ _, getElem?_of_prefix (threads_advanceClient hnext) hk⟩

theorem SelfDeadlocked.step {l : ReaderStep} (h : SelfDeadlocked k s)
    (hs : s.step onMsg l = some s') : SelfDeadlocked k s' := by
  obtain ⟨call, calls, hbody⟩ := h.waits
  obtain ⟨m, rest, hk⟩ := h.holds
  by_cases hl : ∃ now, l = .thread k now
  · -- The thread itself cannot go on.
    obtain ⟨now, rfl⟩ := hl
    simp only [ReentrantReader.step, advanceThread, hbody, begin_of_locked h.isLocked] at hs
    cases hs
  · have hl : ∀ now, l ≠ .thread k now := not_exists.1 hl
    cases l with
    | thread j now =>
      have hne : k ≠ j := fun heq => hl now (by rw [heq])
      obtain ⟨hsame, hthread⟩ := advanceThread_frame hne hk hs
      exact ⟨⟨call, calls, hsame.trans hbody⟩, m, rest, hthread⟩
    | arrive | disconnect | call | client =>
      simp only [ReentrantReader.step] at hs
      obtain ⟨reader, hreader, rfl⟩ := Option.map_eq_some_iff.1 hs
      exact ⟨⟨call, calls, hbody⟩, m, rest, threads_of_step hk hl hreader⟩

/-- **A thread that deadlocked itself stays where it is**, and keeps the listeners' lock. -/
theorem SelfDeadlocked.always (h : SelfDeadlocked k s) (ls : List ReaderStep) :
    Always (ReentrantReader.step onMsg) (SelfDeadlocked k) s ls :=
  .of_step (fun _ _ _ hd hs => hd.step hs) ls h

/-- **A dispatch deadlocks itself exactly when it calls a listener that uses its reader.** -/
theorem never_self_deadlocks_iff (onMsg : ListenerFn → MsgId → List BodyCall) (capacity : ℕ)
    (expiration : Option Duration) (n : ℕ) (ls : List ReaderStep) :
    Always (step onMsg) (fun s => ¬ ∃ k, SelfDeadlocked k s) (new capacity expiration n) ls ↔
      EachStep (step onMsg) (CallsQuiet onMsg) (new capacity expiration n) ls := by
  refine always_iff_eachStep Quiet (fun s h => h.not_selfDeadlocked)
    (fun s l s' h hl hs => h.step hl hs) (fun s l s' _ hs hfree => ?_) ls fun _ => rfl
  intro k now m fn rest hl hbody hk
  subst hl
  by_contra hcalls
  exact hfree ⟨k, selfDeadlocked_of_called hbody hk hcalls hs⟩

/-- A listener that removes itself with the first message deadlocks the dispatch of it. -/
theorem one_shot_listener_deadlocks :
    ∃ s, run (step fun _ _ => [.removeListener 7]) (new 1 none 1)
        [.call 0 (.addListener 7) 0, .client 0 0, .client 0 0, .client 0 0, .arrive 0, .thread 0 0,
          .thread 0 0, .thread 0 0, .thread 0 0] = some s ∧ SelfDeadlocked 0 s :=
  ⟨_, rfl, ⟨_, _, rfl⟩, _, _, rfl⟩

end ReentrantReader

end Rounac

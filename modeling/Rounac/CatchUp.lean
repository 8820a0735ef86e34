import Rounac.DropDrains
import Rounac.HeardInFull

/-!
# A background thread catches up

While nothing arrives, the background thread of a reader in callback mode passes on what there is
and then looks for more: it is never stuck, and it has nothing left to pass on after so many of its
steps (`catches_up`). So everything on the way to a listener is heard in the end, except for what
the thread finds expired (`heard_in_the_end`).
-/

namespace Rounac

open OverwriteRing StepSystem TaskPool LockOrder Picks

namespace SharedReader

variable {s s' : SharedReader} {k : ℕ} {now : Instant}

/-- The reader is in callback mode, and the `k`-th background thread is the one that runs. -/
structure Runs (s : SharedReader) (k : ℕ) : Prop where
  connected : s.connected = true
  active : s.callbacksActive = true
  running : ∃ t, s.threads[k]? = some t ∧ t.isRunning = true
  only : ∀ i t, s.threads[i]? = some t → t.isRunning = true → i = k

/-- Nothing is unread, and no thread has a message. -/
structure AtRest (s : SharedReader) : Prop where
  ring : s.ring.items = []
  hands : ∀ t ∈ s.threads, t.inHand = none

theorem AtRest.ahead_eq_nil (h : s.AtRest) (fn : ListenerFn) : s.ahead fn = [] := by
  unfold Traffic.ahead
  rw [h.ring, List.map_nil, List.append_nil, List.filterMap_eq_nil_iff]
  intro t ht
  cases hbear : t.bears fn with
  | none => rfl
  | some m =>
    have hhand := BgThread.inHand_of_bears hbear
    rw [h.hands t ht] at hhand
    cases hhand

theorem Runs.set {a : SharedReader} {t' : BgThread} (h : s.Runs k) (hconn : a.connected = true)
    (hactive : a.callbacksActive = true) (hrun : t'.isRunning = true) :
    Runs { a with threads := s.threads.set k t' } k := by
  obtain ⟨t, hk, -⟩ := h.running
  refine ⟨hconn, hactive, ⟨t', List.getElem?_set_self (List.getElem?_eq_some_iff.1 hk).1, hrun⟩, ?_⟩
  intro i u hi hu
  by_cases hik : k = i
  · exact hik.symm
  · exact h.only i u ((List.getElem?_set_ne hik).symm.trans hi) hu

theorem Runs.isLocked_eq_false (h : s.Runs k) {t : BgThread} (hk : s.threads[k]? = some t)
    (ht : t.isCalling = false) : s.isLocked = false := by
  refine List.any_eq_false.2 fun u hu hcalling => ?_
  obtain ⟨i, hi⟩ := List.getElem?_of_mem hu
  have hrun : u.isRunning = true := by cases u <;> first | rfl | cases hcalling
  cases h.only i u hi hrun
  cases hk.symm.trans hi
  rw [ht] at hcalling
  cases hcalling

theorem Runs.step_atRest (h : s.Runs k) (hrest : s.AtRest) (now : Instant) :
    ∃ s', s.step (.thread k now) = some s' ∧ s'.Runs k ∧ s'.AtRest := by
  obtain ⟨t, hk, hrun⟩ := h.running
  have hhand := hrest.hands t (mem_of_getElem? hk)
  cases t with
  | head =>
    refine ⟨{ s with threads := s.threads.set k .receiving }, ?_, h.set h.connected h.active rfl,
      hrest.ring, forall_mem_set hrest.hands rfl⟩
    have hlook : s.advanceThread now .head = some (.receiving, s) := by
      rw [advanceThread, h.active, if_pos rfl]
    rw [step, hk, Option.bind_some, hlook]
    rfl
  | receiving =>
    refine ⟨{ s with threads := s.threads.set k .head }, ?_, h.set h.connected h.active rfl,
      hrest.ring, forall_mem_set hrest.hands rfl⟩
    have hlook : s.advanceThread now .receiving = some (.head, s) := by
      simp only [advanceThread, RingBuf.recv_of_nil hrest.ring, h.connected, if_pos]
    rw [step, hk, Option.bind_some, hlook]
    rfl
  | holding | calling => cases hhand
  | exited => cases hrun

theorem Runs.exists_advanceThread (h : s.Runs k) {t : BgThread} (hk : s.threads[k]? = some t)
    (hrun : t.isRunning = true) (now : Instant) : ∃ next, s.advanceThread now t = some next := by
  refine Option.isSome_iff_exists.1 ?_
  cases t with
  | head => rfl
  | receiving =>
    simp only [advanceThread]
    split
    · split_ifs <;> rfl
    · rfl
  | holding m =>
    simp only [advanceThread, h.isLocked_eq_false hk rfl]
    rfl
  | calling m rest => cases rest <;> rfl
  | exited => cases hrun

theorem Runs.atRest_of_receiving (h : s.Runs k) (hk : s.threads[k]? = some .receiving)
    (hitems : s.ring.items = []) : s.AtRest := by
  refine ⟨hitems, fun u hu => ?_⟩
  obtain ⟨i, hi⟩ := List.getElem?_of_mem hu
  cases hrun : u.isRunning with
  | true =>
    cases h.only i u hi hrun
    cases hk.symm.trans hi
    rfl
  | false => cases u <;> first | rfl | cases hrun

theorem Runs.step_not_atRest (h : s.Runs k) (hrest : ¬ s.AtRest) (now : Instant) :
    ∃ s', s.step (.thread k now) = some s' ∧ s'.Runs k ∧ s'.stepsLeft < s.stepsLeft := by
  obtain ⟨t, hk, hrun⟩ := h.running
  obtain ⟨⟨t', a⟩, hnext⟩ := h.exists_advanceThread hk hrun now
  have hempty : t = .receiving → s.ring.items ≠ [] := by
    rintro rfl hitems
    exact hrest (h.atRest_of_receiving hk hitems)
  have hdrains : s.Drains now t t' a :=
    drains_of_advanceThread (fun ht hitems => absurd hitems (hempty ht)) hnext
  have hthreads : a.threads = s.threads := (advanceThread_turn hnext).2
  have hrun' : t'.isRunning = true := by
    rcases hdrains.runs h.active with hrun' | hitems
    · exact hrun'
    · cases hdrains with
      | stopped hoff => exact absurd (h.active.symm.trans hoff) (by decide)
      | ended hitems => exact absurd hitems (hempty rfl)
      | looked | took | expired | locked | called | done => rfl
  obtain ⟨hconn, -, hactive, -⟩ := hdrains.frame
  refine ⟨{ a with threads := s.threads.set k t' }, ?_,
    h.set (hconn.trans h.connected) (hactive.trans h.active) hrun', hdrains.stepsLeft_lt hk⟩
  rw [step, hk, Option.bind_some, hnext, ← hthreads]
  rfl

theorem Runs.run_atRest (h : s.Runs k) (hrest : s.AtRest) (clock : List Instant) :
    ∃ s', run step s (clock.map (.thread k)) = some s' ∧ s'.AtRest := by
  induction clock generalizing s with
  | nil => exact ⟨s, rfl, hrest⟩
  | cons now clock ih =>
    obtain ⟨s₁, hs₁, hruns, hrest⟩ := h.step_atRest hrest now
    obtain ⟨s', hrun, hrest'⟩ := ih hruns hrest
    refine ⟨s', ?_, hrest'⟩
    rw [List.map_cons, run_cons, hs₁]
    exact hrun

/-- **The thread catches up**: it is never stuck, and at rest after so many steps. -/
theorem Runs.catches_up (h : s.Runs k) {clock : List Instant} (hlong : s.stepsLeft ≤ clock.length) :
    ∃ s', run step s (clock.map (.thread k)) = some s' ∧ s'.AtRest := by
  by_cases hrest : s.AtRest
  · exact h.run_atRest hrest clock
  · induction clock generalizing s with
    | nil =>
      obtain ⟨s₁, -, -, hlt⟩ := h.step_not_atRest hrest 0
      exact absurd (Nat.lt_of_lt_of_le hlt hlong) (Nat.not_lt_zero _)
    | cons now clock ih =>
      obtain ⟨s₁, hs₁, hruns, hlt⟩ := h.step_not_atRest hrest now
      have hlong₁ : s₁.stepsLeft ≤ clock.length :=
        Nat.le_of_lt_succ (Nat.lt_of_lt_of_le hlt hlong)
      have hnext : ∃ s', run step s₁ (clock.map (.thread k)) = some s' ∧ s'.AtRest := by
        by_cases hrest₁ : s₁.AtRest
        · exact hruns.run_atRest hrest₁ clock
        · exact ih hruns hlong₁ hrest₁
      obtain ⟨s', hrun, hrest'⟩ := hnext
      refine ⟨s', ?_, hrest'⟩
      rw [List.map_cons, run_cons, hs₁]
      exact hrun

/-! ## What it discards -/

theorem advanceThread_expiration {t : BgThread} {next : BgThread × SharedReader}
    (h : s.advanceThread now t = some next) : next.2.expiration = s.expiration := by
  cases t with
  | receiving =>
    simp only [advanceThread] at h
    split at h
    · split_ifs at h <;> (cases h; rfl)
    · cases h; rfl
  | holding m =>
    simp only [advanceThread] at h
    split_ifs at h
    cases h
    rfl
  | calling m rest => cases rest <;> (cases h; rfl)
  | head => cases h; rfl
  | exited => cases h

/-- A thread loses unread messages that have expired. -/
theorem exists_of_mem_lost {m : MsgId} (h : m ∈ s.lost (.thread k now)) :
    ∃ t, (t, m) ∈ s.ring.items ∧ isFresh s.expiration t now = false := by
  obtain ⟨t, -, hm⟩ := List.mem_flatMap.1 h
  cases t with
  | receiving =>
    cases hitems : s.ring.items with
    | nil =>
      change m ∈ s.expired now at hm
      rw [expired, hitems] at hm
      cases hm
    | cons x rest =>
      change m ∈ s.expired now at hm
      rw [expired_of_cons hitems] at hm
      split_ifs at hm with hfresh
      · cases hm
      · cases List.mem_singleton.1 hm
        exact ⟨x.1, List.mem_cons_self, by simpa using hfresh⟩
  | head | holding | calling | exited => cases hm

theorem frame_thread (h : s.step (.thread k now) = some s') :
    (∀ x ∈ s'.ring.items, x ∈ s.ring.items) ∧ s'.expiration = s.expiration ∧
      s'.listeners = s.listeners := by
  refine ⟨fun x hx => ?_, ?_⟩
  · rcases (step_ring rfl h).2 with hring | ⟨hring, -⟩
    · rwa [hring] at hx
    · rw [hring] at hx
      exact List.mem_of_mem_tail hx
  · cases step_stepped h with
    | thread hk hnext =>
      exact ⟨advanceThread_expiration hnext, (advanceThread_turn hnext).1.listeners_eq⟩

end SharedReader

namespace Bus

variable {Val : Type} {qx : QuickXml Val} {made : RingId → ReaderKind} {s : Bus Val} {m : MasterId}
  {ρ : RingId} {fn : ListenerFn}

variable (qx made) in
/-- A reader can take its own steps on the bus. -/
theorem exists_run_reader (hρ : ρ < s.plane.asb.nextRing) {ls : List ReaderStep}
    {r : SharedReader} (hown : ∀ l ∈ ls, l.isOwn = true)
    (hrun : run SharedReader.step (s.readers ρ) ls = some r) :
    ∃ s', run (step qx made) s (ls.map (.reader ρ)) = some s' ∧ s'.readers ρ = r ∧
      s'.plane.pushes = s.plane.pushes ∧ s'.plane.asb.nextRing = s.plane.asb.nextRing := by
  induction ls generalizing s with
  | nil =>
    cases hrun
    exact ⟨s, rfl, rfl, rfl, rfl⟩
  | cons l ls ih =>
    rw [run_cons] at hrun
    obtain ⟨r₁, hr₁, hrun⟩ := Option.bind_eq_some_iff.1 hrun
    have hstep : ∃ s₁, s.step qx made (.reader ρ l) = some s₁ := by
      simp only [step, hρ, hown l List.mem_cons_self, and_self, if_true, hr₁, Option.map_some]
      exact ⟨_, rfl⟩
    obtain ⟨s₁, hs₁⟩ := hstep
    obtain ⟨-, -, hreader, hplane, -⟩ := step_reader hs₁
    cases hr₁.symm.trans hreader
    have hring : s₁.plane.asb.nextRing = s.plane.asb.nextRing := by
      rw [hplane]
      split_ifs <;> rfl
    have hpushes : s₁.plane.pushes = s.plane.pushes := by
      rw [hplane]
      split_ifs <;> rfl
    obtain ⟨s', hrun', hreader', hpushes', hring'⟩ :=
      ih (hring ▸ hρ) (fun l hl => hown l (List.mem_cons_of_mem _ hl)) hrun
    refine ⟨s', ?_, hreader', hpushes'.trans hpushes, hring'.trans hring⟩
    rw [List.map_cons, run_cons, hs₁]
    exact hrun'

/-- The steps of the `k`-th background thread of the reader of `ρ`, with what it reads on the
clock. -/
def threadSteps (ρ : RingId) (k : ℕ) (clock : List Instant) : List (BusStep Val) :=
  (clock.map (.thread k)).map (.reader ρ)

theorem exists_of_mem_losses {k : ℕ} {msg : MsgId} {clock : List Instant}
    (h : msg ∈ losses qx made ρ s (threadSteps ρ k clock)) :
    ∃ now ∈ clock, ∃ t, (t, msg) ∈ (s.readers ρ).ring.items ∧
      isFresh (s.readers ρ).expiration t now = false := by
  induction clock generalizing s with
  | nil => cases h
  | cons now clock ih =>
    cases hs₁ : s.step qx made (.reader ρ (.thread k now)) with
    | none =>
      rw [threadSteps, List.map_cons, List.map_cons, losses, hs₁] at h
      cases h
    | some s₁ =>
      obtain ⟨-, -, hreader, -, -⟩ := step_reader hs₁
      obtain ⟨hring, hexp, -⟩ := SharedReader.frame_thread hreader
      rw [threadSteps, List.map_cons, List.map_cons, losses_cons hs₁] at h
      rcases List.mem_append.1 h with hfirst | hrest
      · have hlost : s.lost ρ (.reader ρ (.thread k now)) =
            (s.readers ρ).lost (.thread k now) := by simp [lost, felt]
        rw [hlost] at hfirst
        obtain ⟨t, hmem, hold⟩ := SharedReader.exists_of_mem_lost hfirst
        exact ⟨now, List.mem_cons_self, t, hmem, hold⟩
      · obtain ⟨now', hnow', t, hmem, hold⟩ := ih hrest
        exact ⟨now', List.mem_cons_of_mem _ hnow', t, hring _ hmem, hexp ▸ hold⟩

theorem always_registered {k : ℕ} (hreg : Registered ρ fn s) (clock : List Instant) :
    Always (step qx made) (Registered ρ fn) s (threadSteps ρ k clock) := by
  have hmem : ∀ a ∈ (threadSteps ρ k clock : List (BusStep Val)),
      ∃ now, a = .reader ρ (.thread k now) := by
    intro a ha
    obtain ⟨l, hl, rfl⟩ := List.mem_map.1 ha
    obtain ⟨now, -, rfl⟩ := List.mem_map.1 hl
    exact ⟨now, rfl⟩
  refine Always.of_inv (G := fun _ a => ∃ now, a = .reader ρ (.thread k now)) ?_ hreg
    (.of_mem hmem s)
  rintro u a u' hu ⟨now, rfl⟩ hstep
  obtain ⟨-, -, hreader, -, -⟩ := step_reader hstep
  unfold Registered Traffic.Registered
  rw [(SharedReader.frame_thread hreader).2.2]
  exact hu

/-- **Everything on the way is heard in the end.** While the reader of a ring is in callback mode
and one background thread runs, this thread is never stuck, and after so many of its steps nothing
is on the way to a listener: the listener has heard it all, except for what the thread lost, which
are unread messages that it found expired. -/
theorem heard_in_the_end (kinds : MasterId → TypeId × WireFormat × QosSettings)
    (before : List (BusStep Val)) {s : Bus Val} (ρ : RingId) (fn : ListenerFn) (k : ℕ)
    (hs : run (step qx made) (new kinds) before = some s) (hρ : ρ < s.plane.asb.nextRing)
    (hruns : (s.readers ρ).Runs k) (hreg : Registered ρ fn s) (clock : List Instant)
    (hlong : (s.readers ρ).stepsLeft ≤ clock.length) :
    ∃ s', run (step qx made) s (threadSteps ρ k clock) = some s' ∧ s'.onTheWay ρ fn = [] ∧
      (s'.heard ρ fn ++
        picks (s.plane.pushedInto ρ) (losses qx made ρ s (threadSteps ρ k clock))).Perm
          (s.heard ρ fn ++ s.onTheWay ρ fn) ∧
      ∀ msg ∈ losses qx made ρ s (threadSteps ρ k clock), ∃ now ∈ clock, ∃ t,
        (t, msg) ∈ (s.readers ρ).ring.items ∧ isFresh (s.readers ρ).expiration t now = false := by
  have hheeds := heeds_run hs
  obtain ⟨r, hr, hrest⟩ := hruns.catches_up hlong
  have hown : ∀ l ∈ clock.map (ReaderStep.thread k), l.isOwn = true := by
    intro l hl
    obtain ⟨now, -, rfl⟩ := List.mem_map.1 hl
    rfl
  obtain ⟨s', hs', rfl, hpushes, hring⟩ := exists_run_reader qx made hρ hown hr
  have hheeds' := hheeds.run hs'
  have hρ' : ρ < s'.plane.asb.nextRing := hring ▸ hρ
  have hpushed : s'.plane.pushedInto ρ = s.plane.pushedInto ρ := by
    unfold Plane.pushedInto
    rw [hpushes]
  refine ⟨s', hs', ?_, ?_, fun msg hmsg => exists_of_mem_losses hmsg⟩
  · rw [onTheWay, hrest.ahead_eq_nil]
    rfl
  · obtain ⟨new, hnew, hperm, hpicks⟩ :=
      exists_new hheeds hheeds' hρ hρ' (always_registered hreg clock) hs'
    -- Only the reader's thread has run, so nothing new was sent into the ring.
    have hnil : new = [] := by
      rw [hpushed] at hnew
      exact List.self_eq_append_right.1 hnew
    subst hnil
    rw [hrest.ahead_eq_nil, List.append_nil] at hperm
    have hheard := hperm.filterMap ((s'.plane.pushedInto ρ)[·]?)
    rw [← picks, ← picks, hpicks, picks_append, List.append_nil, hpushed] at hheard
    rw [heard, hpushed]
    exact hheard

/-- Of two messages the first has expired. -/
theorem heard_in_the_end_expired : ∃ s : Bus Unit, s.onTheWay 0 0 = [(1, ()), (2, ())] ∧
    ∃ s' : Bus Unit,
      run (step .unit fun _ => ⟨some 1, 1⟩) s (threadSteps 0 0 (List.replicate 11 3)) = some s' ∧
      s'.onTheWay 0 0 = [] ∧
      (s'.heard 0 0 ++ [(1, ())]).Perm (s.heard 0 0 ++ s.onTheWay 0 0) ∧
      ∀ msg ∈ [0], ∃ now ∈ List.replicate 11 3, ∃ t,
        (t, msg) ∈ (s.readers 0).ring.items ∧ isFresh (s.readers 0).expiration t now = false := by
  refine ⟨_, ?_, @heard_in_the_end Unit .unit (fun _ => ⟨some 1, 1⟩)
    (fun _ => (⟨0⟩, .xml, .default)) (oneReader ++ oneListener ++ twoMessages) _ 0 0 0 rfl ?_ ?_ ?_
    (List.replicate 11 3) ?_⟩
  · decide
  · decide
  · refine ⟨rfl, rfl, ⟨.receiving, rfl, rfl⟩, fun i t hi _ => ?_⟩
    cases i with
    | zero => rfl
    | succ i =>
      change none = some t at hi
      cases hi
  · decide
  · decide

end Bus

end Rounac

import Rounac.Lib.Settle
import Rounac.ListenerDispatch

/-!
# Dropping a reader that has listeners

When a reader is dropped its ring loses its sender, and no client is left. Its background threads
take what is unread, in order, pass it to the listeners, and end: a thread in callback mode ends
only when it finds the ring empty. So each unread message has been passed to every listener once,
unless a thread found it expired, and all threads have ended after so many steps
(`drained_after_drop`).
-/

namespace Rounac

open OverwriteRing StepSystem TaskPool Settle

def ReaderStep.isThread : ReaderStep → Bool
  | .thread _ _ => true
  | _ => false

/-- The steps that a thread can still take, when `l` listeners are registered and the ring is
empty. -/
def BgThread.stepsLeft (l : ℕ) : BgThread → ℕ
  | .exited => 0
  | .receiving => 1
  | .head => 2
  | .calling _ rest => rest.length + 3
  | .holding _ => l + 4

namespace SharedReader

/-- The steps that the threads can still take, without a sender. -/
def stepsLeft (s : SharedReader) : ℕ :=
  (s.threads.map (BgThread.stepsLeft s.listeners.length)).sum +
    s.ring.items.length * (s.listeners.length + 4)

/-! ## The steps without a sender -/

/-- What a thread does when the ring has no sender. -/
inductive Drains (s : SharedReader) (now : Instant) : BgThread → BgThread → SharedReader → Prop
  | looked (hactive : s.callbacksActive = true) : Drains s now .head .receiving s
  | stopped (hoff : s.callbacksActive = false) : Drains s now .head .exited s
  | took {t : Instant} {m : MsgId} {rest : List (Stamped MsgId)}
      (hitems : s.ring.items = (t, m) :: rest) (hfresh : isFresh s.expiration t now = true) :
      Drains s now .receiving (.holding m)
        { s with ring := s.ring.advance, taken := s.taken ++ [m] }
  | expired {t : Instant} {m : MsgId} {rest : List (Stamped MsgId)}
      (hitems : s.ring.items = (t, m) :: rest) (hold : isFresh s.expiration t now = false) :
      Drains s now .receiving .head { s with ring := s.ring.advance }
  | ended (hempty : s.ring.items = []) : Drains s now .receiving .exited s
  | locked {m : MsgId} (hfree : s.isLocked = false) :
      Drains s now (.holding m) (.calling m (s.listeners.map Listener.fn)) s
  | called {m : MsgId} {fn : ListenerFn} {rest : List ListenerFn} :
      Drains s now (.calling m (fn :: rest)) (.calling m rest)
        { s with passed := s.passed ++ [(fn, m)] }
  | done {m : MsgId} : Drains s now (.calling m []) .head s

variable {s s' : SharedReader} {now : Instant} {t t' : BgThread}

theorem drains_of_advanceThread
    (hconn : t = .receiving → s.ring.items = [] → s.connected = false)
    (h : s.advanceThread now t = some (t', s')) : s.Drains now t t' s' := by
  cases t with
  | head =>
    cases h
    cases hactive : s.callbacksActive with
    | true => exact .looked hactive
    | false => exact .stopped hactive
  | receiving =>
    simp only [advanceThread] at h
    cases hitems : s.ring.items with
    | nil =>
      rw [RingBuf.recv_of_nil hitems, hconn rfl hitems] at h
      cases h
      exact .ended hitems
    | cons x rest =>
      obtain ⟨u, m⟩ := x
      rw [RingBuf.recv_of_cons hitems] at h
      dsimp only at h
      split_ifs at h with hfresh
      · cases h
        exact .took hitems hfresh
      · cases h
        exact .expired hitems (by simpa using hfresh)
  | holding m =>
    simp only [advanceThread] at h
    split_ifs at h with hlock
    cases h
    exact .locked (by simpa using hlock)
  | calling m rest =>
    cases rest with
    | nil =>
      cases h
      exact .done
    | cons fn rest =>
      cases h
      exact .called
  | exited => cases h

theorem drains_of_step {k : ℕ} (hconn : s.connected = false)
    (h : s.step (.thread k now) = some s') :
    ∃ t t' s₁, s.threads[k]? = some t ∧ s.Drains now t t' s₁ ∧
      s' = { s₁ with threads := s.threads.set k t' } := by
  obtain ⟨t, hk, h⟩ := Option.bind_eq_some_iff.1 h
  obtain ⟨⟨t', s₁⟩, hnext, rfl⟩ := Option.map_eq_some_iff.1 h
  refine ⟨t, t', s₁, hk, drains_of_advanceThread (fun _ _ => hconn) hnext, ?_⟩
  rw [(advanceThread_turn hnext).2]

theorem Drains.frame (h : s.Drains now t t' s') :
    s'.connected = s.connected ∧ s'.expiration = s.expiration ∧
      s'.callbacksActive = s.callbacksActive ∧ s'.listeners = s.listeners := by
  cases h <;> exact ⟨rfl, rfl, rfl, rfl⟩

theorem Drains.stepsLeft_lt {k : ℕ} (h : s.Drains now t t' s') (hk : s.threads[k]? = some t) :
    stepsLeft { s' with threads := s.threads.set k t' } < s.stepsLeft := by
  have hsum := sum_map_set (BgThread.stepsLeft s.listeners.length) hk t'
  have hadvance : ∀ {x rest}, s.ring.items = x :: rest →
      s.ring.advance.items.length + 1 = s.ring.items.length := by
    intro x rest hitems
    show s.ring.items.tail.length + 1 = _
    rw [hitems]
    rfl
  unfold stepsLeft
  rw [h.frame.2.2.2]
  cases h with
  | looked hactive =>
    simp only [BgThread.stepsLeft] at hsum ⊢
    omega
  | stopped hoff =>
    simp only [BgThread.stepsLeft] at hsum ⊢
    omega
  | took hitems hfresh =>
    simp only [BgThread.stepsLeft] at hsum ⊢
    rw [← hadvance hitems, Nat.add_mul]
    omega
  | expired hitems hold =>
    simp only [BgThread.stepsLeft] at hsum ⊢
    rw [← hadvance hitems, Nat.add_mul]
    omega
  | ended hempty =>
    simp only [BgThread.stepsLeft] at hsum ⊢
    omega
  | locked hfree =>
    simp only [BgThread.stepsLeft, List.length_map] at hsum ⊢
    omega
  | called =>
    simp only [BgThread.stepsLeft, List.length_cons] at hsum ⊢
    omega
  | done =>
    simp only [BgThread.stepsLeft, List.length_nil] at hsum ⊢
    omega

/-- While some thread has not ended, some thread can go on. -/
theorem exists_enabled (h : ∃ t ∈ s.threads, t ≠ .exited) :
    ∃ k, ∀ now, (s.step (.thread k now)).isSome := by
  have henabled : ∀ {k : ℕ} {t : BgThread}, s.threads[k]? = some t →
      (∀ now, (s.advanceThread now t).isSome) → ∃ k, ∀ now, (s.step (.thread k now)).isSome := by
    intro k t hk hadvance
    refine ⟨k, fun now => ?_⟩
    rw [step, hk, Option.bind_some, Option.isSome_map]
    exact hadvance now
  cases hlock : s.isLocked with
  | true =>
    obtain ⟨t, ht, hcalling⟩ := List.any_eq_true.1 hlock
    obtain ⟨k, hk⟩ := List.getElem?_of_mem ht
    -- The thread that holds the lock calls on or lets go.
    refine henabled hk fun now => ?_
    cases t with
    | calling m rest => cases rest <;> rfl
    | head | receiving | holding | exited => cases hcalling
  | false =>
    obtain ⟨t, ht, hne⟩ := h
    obtain ⟨k, hk⟩ := List.getElem?_of_mem ht
    refine henabled hk fun now => ?_
    cases t with
    | head => rfl
    | receiving =>
      simp only [advanceThread]
      split
      · split_ifs <;> rfl
      · rfl
    | holding m =>
      simp only [advanceThread, hlock]
      rfl
    | calling m rest => cases rest <;> rfl
    | exited => exact absurd rfl hne

/-! ## The unread messages -/

theorem Drains.ring_cases (h : s.Drains now t t' s') :
    s'.ring.items = s.ring.items ∧ s'.taken = s.taken ∨
      ∃ x, s.ring.items = x :: s'.ring.items ∧
        (s'.taken = s.taken ++ [x.2] ∨
          s'.taken = s.taken ∧ isFresh s.expiration x.1 now = false) := by
  have htail : ∀ {x rest}, s.ring.items = x :: rest →
      s.ring.items = x :: s.ring.advance.items := by
    intro x rest hitems
    rw [hitems]
    exact congrArg _ (congrArg List.tail hitems).symm
  cases h with
  | took hitems hfresh => exact .inr ⟨_, htail hitems, .inl rfl⟩
  | expired hitems hold => exact .inr ⟨_, htail hitems, .inr ⟨rfl, hold⟩⟩
  | looked | stopped | ended | locked | called | done => exact .inl ⟨rfl, rfl⟩

/-- The threads take the messages in order, but for those that a thread finds expired. -/
theorem exists_seen {ls : List ReaderStep} (hconn : s.connected = false)
    (hls : ∀ l ∈ ls, l.isThread = true) (hrun : run step s ls = some s') :
    ∃ seen kept, s.ring.items = seen ++ s'.ring.items ∧ List.Sublist kept seen ∧
      s'.taken = s.taken ++ kept.map Prod.snd ∧
      ∀ x ∈ seen, x ∉ kept →
        ∃ k now, .thread k now ∈ ls ∧ isFresh s.expiration x.1 now = false := by
  induction ls generalizing s with
  | nil =>
    cases hrun
    exact ⟨[], [], rfl, .slnil, (List.append_nil _).symm, fun x hx => (nomatch hx)⟩
  | cons l ls ih =>
    obtain ⟨u, hu, hrun⟩ := Option.bind_eq_some_iff.1 hrun
    cases l with
    | thread k now =>
      obtain ⟨t, t', s₁, -, hdrains, rfl⟩ := drains_of_step hconn hu
      obtain ⟨hconn', hexp, -, -⟩ := hdrains.frame
      have hnext : SharedReader.connected { s₁ with threads := s.threads.set k t' } = false :=
        hconn'.trans hconn
      obtain ⟨seen, kept, hitems, hsub, htaken, hexpired⟩ :=
        ih hnext (fun l hl => hls l (List.mem_cons_of_mem _ hl)) hrun
      replace hexpired : ∀ x ∈ seen, x ∉ kept →
          ∃ k' now', .thread k' now' ∈ ReaderStep.thread k now :: ls ∧
            isFresh s.expiration x.1 now' = false := by
        intro x hx hnot
        obtain ⟨k', now', hmem, hold⟩ := hexpired x hx hnot
        exact ⟨k', now', List.mem_cons_of_mem _ hmem, hexp ▸ hold⟩
      change s₁.ring.items = _ at hitems
      change _ = s₁.taken ++ _ at htaken
      -- The step took nothing, took a message that is fresh, or took one that has expired.
      rcases hdrains.ring_cases with ⟨hring, hsame⟩ | ⟨x, hcons, hsame | ⟨hsame, hold⟩⟩
      · exact ⟨seen, kept, hring ▸ hitems, hsub, hsame ▸ htaken, hexpired⟩
      · refine ⟨x :: seen, x :: kept, ?_, hsub.cons_cons x, ?_, fun y hy hnot => ?_⟩
        · rw [hcons, hitems, List.cons_append]
        · rw [htaken, hsame, List.append_assoc]
          rfl
        · rw [List.mem_cons, not_or] at hnot
          exact hexpired y ((List.mem_cons.1 hy).resolve_left hnot.1) hnot.2
      · refine ⟨x :: seen, kept, ?_, hsub.cons x, hsame ▸ htaken, fun y hy hnot => ?_⟩
        · rw [hcons, hitems, List.cons_append]
        · rcases List.mem_cons.1 hy with rfl | hy
          · exact ⟨k, now, List.mem_cons_self, hold⟩
          · exact hexpired y hy hnot
    | arrive | disconnect | call | client => cases hls _ List.mem_cons_self

/-! ## The run of the threads -/

/-- What holds while the threads drain the ring of `start`. -/
structure Draining (start a : SharedReader) : Prop where
  connected : a.connected = false
  active : a.callbacksActive = start.callbacksActive
  listeners : a.listeners = start.listeners
  accounted : a.Accounted
  passesOn : ∀ m ∈ a.taken, m ∉ start.taken ∨ (∃ t ∈ start.threads, t.inHand = some m) →
    (∃ k : ℕ, a.threads[k]? = some (.holding m)) ∨
      ∃ k, a.Dispatched k m (start.listeners.map Listener.fn)
  runs : start.callbacksActive = true → (∃ t ∈ start.threads, t.isRunning = true) →
    (∃ t ∈ a.threads, t.isRunning = true) ∨ a.ring.items = []

theorem Accounted.disconnect (h : s.Accounted) :
    Accounted { s with connected := false } :=
  h.step (l := .disconnect) rfl

theorem draining_disconnect (h : s.Accounted) : Draining s { s with connected := false } where
  connected := rfl
  active := rfl
  listeners := rfl
  accounted := h.disconnect
  passesOn := by
    rintro m hm (hnot | ⟨t, ht, hhand⟩)
    · exact absurd hm hnot
    · obtain ⟨k, hk⟩ := List.getElem?_of_mem ht
      cases t with
      | holding m' =>
        cases hhand
        exact .inl ⟨k, hk⟩
      | calling m' rest =>
        cases hhand
        exact .inr ⟨k, h.disconnect.dispatching k _ rest hk⟩
      | head | receiving | exited => cases hhand
  runs _ hrun := .inl hrun

theorem Drains.runs (h : s.Drains now t t' s') (hactive : s.callbacksActive = true) :
    t'.isRunning = true ∨ s'.ring.items = [] := by
  cases h with
  | stopped hoff =>
    rw [hactive] at hoff
    cases hoff
  | ended hempty => exact .inr hempty
  | looked | took | expired | locked | called | done => exact .inl rfl

theorem Draining.step {start : SharedReader} {k : ℕ} (h : Draining start s)
    (hs : s.step (.thread k now) = some s') : Draining start s' := by
  have hmove := step_move hs
  obtain ⟨t, t', s₁, hk, hdrains, rfl⟩ := drains_of_step h.connected hs
  obtain ⟨hconn, hexp, hactive, hlisteners⟩ := hdrains.frame
  refine ⟨hconn.trans h.connected, hactive.trans h.active, hlisteners.trans h.listeners,
    h.accounted.step hs, fun m hm hnew => ?_, fun hstart hrun => ?_⟩
  · by_cases hold : m ∈ s.taken
    · rcases h.passesOn m hold hnew with ⟨i, hi⟩ | ⟨i, hdispatched⟩
      · by_cases hik : i = k
        · -- The thread that holds the message gets the lock.
          subst hik
          cases hk.symm.trans hi
          cases hdrains with
          | locked hfree =>
            have hdispatched := h.accounted.handled.dispatched hk
            rw [h.listeners] at hdispatched ⊢
            exact .inr ⟨i, hdispatched⟩
        · exact .inl ⟨i, (List.getElem?_set_ne (Ne.symm hik)).trans hi⟩
      · exact .inr ⟨i, hmove.dispatched h.accounted.numbered hdispatched⟩
    · cases hdrains with
      | took hitems hfresh =>
        rcases List.mem_append.1 hm with hm | hm
        · exact absurd hm hold
        · cases List.mem_singleton.1 hm
          exact .inl ⟨k, List.getElem?_set_self (List.getElem?_eq_some_iff.1 hk).1⟩
      | looked | stopped | expired | ended | locked | called | done => exact absurd hm hold
  · rcases hdrains.runs (h.active.trans hstart) with hrunning | hempty
    · exact .inl ⟨t', mem_set_self hk t', hrunning⟩
    · exact .inr hempty

/-- In the end, the messages have been passed to all listeners. -/
theorem Draining.passedOn_eq {start : SharedReader} (h : Draining start s)
    (hexited : ∀ t ∈ s.threads, t = .exited) {m : MsgId} (hm : m ∈ s.taken)
    (hnew : m ∉ start.taken ∨ ∃ t ∈ start.threads, t.inHand = some m) :
    s.passedOn m = start.listeners.map Listener.fn := by
  rcases h.passesOn m hm hnew with ⟨k, hk⟩ | ⟨k, hdispatched⟩
  · cases hexited _ (mem_of_getElem? hk)
  · refine hdispatched.passedOn_eq fun rest hk => ?_
    cases hexited _ (mem_of_getElem? hk)

/-- **A reader that is dropped drains**, however its threads are scheduled. They take the unread
messages in order, except for those that one of them finds expired, and go on as long as one has not
ended, for so many steps at most. When all have ended, each message taken, or in a thread's hands
when the reader was dropped, has been passed to each listener once, and the ring is empty if the
reader was in callback mode with a thread running. -/
theorem drained_after_drop (capacity : ℕ) (expiration : Option Duration) (n : ℕ)
    (before : List ReaderStep) (s : SharedReader)
    (hrun : run step (new capacity expiration n) before = some s) (ls : List ReaderStep)
    (hls : ∀ l ∈ ls, l.isThread = true) (s' : SharedReader)
    (hdrop : run step s (.disconnect :: ls) = some s') :
    ls.length ≤ s.stepsLeft ∧
    ((∃ t ∈ s'.threads, t ≠ .exited) → ∃ k, ∀ now, (s'.step (.thread k now)).isSome = true) ∧
    ∃ seen kept, s.ring.items = seen ++ s'.ring.items ∧ List.Sublist kept seen ∧
      s'.taken = s.taken ++ kept.map Prod.snd ∧
      (∀ x ∈ seen, x ∉ kept →
        ∃ k now, .thread k now ∈ ls ∧ isFresh s.expiration x.1 now = false) ∧
      ((∀ t ∈ s'.threads, t = .exited) →
        (s.listeners.map Listener.fn).Nodup ∧
        (∀ x ∈ kept, s'.passedOn x.2 = s.listeners.map Listener.fn) ∧
        (∀ t ∈ s.threads, ∀ m, t.inHand = some m →
          s'.passedOn m = s.listeners.map Listener.fn) ∧
        (s.callbacksActive = true → (∃ t ∈ s.threads, t.isRunning = true) →
          s'.ring.items = [])) := by
  have haccounted : Always step (·.Accounted) (new capacity expiration n) before :=
    .of_step (fun _ _ _ h hs => h.step hs) before (accounted_new capacity expiration n)
  have hacc : s.Accounted := haccounted.last hrun
  replace hdrop : run step { s with connected := false } ls = some s' := hdrop
  have hinv : Always step (Draining s) { s with connected := false } ls := by
    refine .of_inv (fun u l u' hu hl hs => ?_) (draining_disconnect hacc)
      (.of_mem (G := (·.isThread = true)) hls _)
    cases l with
    | thread k now => exact hu.step hs
    | arrive | disconnect | call | client => cases hl
  have hdraining := hinv.last hdrop
  obtain ⟨seen, kept, hitems, hsub, htaken, hexpired⟩ := exists_seen rfl hls hdrop
  refine ⟨?_, exists_enabled, seen, kept, hitems, hsub, htaken, hexpired, fun hexited =>
    ⟨hacc.enrolled.fns, fun x hx => ?_, fun t ht m hhand => ?_, fun hactive hrunning => ?_⟩⟩
  · have hle := length_le_of_lowers (·.connected = false) (·.isThread = true) stepsLeft
      (fun {u u' l} hu hl hs => ?_) rfl hls hdrop
    · exact (Nat.le_add_right _ _).trans hle
    · cases l with
      | thread k now =>
        obtain ⟨t, t', u₁, hk, hdrains, rfl⟩ := drains_of_step hu hs
        exact ⟨hdrains.frame.1.trans hu, hdrains.stepsLeft_lt hk⟩
      | arrive | disconnect | call | client => cases hl
  · -- What was unread had not been taken.
    have hx' : x ∈ s.ring.items := by
      rw [hitems]
      exact List.mem_append_left _ (hsub.subset hx)
    refine hdraining.passedOn_eq hexited ?_ (.inl fun hmem => ?_)
    · rw [htaken]
      exact List.mem_append_right _ (List.mem_map_of_mem hx)
    · exact Nat.lt_irrefl _ (hacc.numbered.older _ hmem x hx')
  · refine hdraining.passedOn_eq hexited ?_ (.inr ⟨t, ht, hhand⟩)
    rw [htaken]
    exact List.mem_append_left _ (hacc.handled.taken t ht m hhand)
  · refine (hdraining.runs hactive hrunning).resolve_left ?_
    rintro ⟨t, ht, hrun'⟩
    cases hexited t ht
    cases hrun'

/-- A client has added two listeners, and two messages are unread. -/
def twoListeners : SharedReader where
  ring := ⟨4, [(1, 0), (2, 1)], by decide⟩
  nextMsg := 2
  listeners := [⟨7, 0⟩, ⟨8, 1⟩]
  nextFn := 2
  threads := [.head]
  taken := []
  returned := []
  passed := []
  expiration := none
  connected := true
  callbacksActive := true
  clients := [.idle]

/-- Both are passed to both, and the thread has ended. -/
def twoListenersDropped : SharedReader :=
  { twoListeners with
    ring := ⟨4, [], by decide⟩
    threads := [.exited]
    taken := [0, 1]
    passed := [(0, 0), (1, 0), (0, 1), (1, 1)]
    connected := false }

theorem drained_after_drop_two_listeners :
    run step (new 4 none 1)
      [.call 0 (.addListener 7) 0, .client 0 0, .client 0 0, .client 0 0,
        .call 0 (.addListener 8) 0, .client 0 0, .arrive 1, .arrive 2] = some twoListeners ∧
      run step twoListeners (.disconnect :: List.replicate 14 (.thread 0 5)) =
        some twoListenersDropped ∧
      14 ≤ twoListeners.stepsLeft ∧ ∀ m ∈ [0, 1], twoListenersDropped.passedOn m = [0, 1] := by
  have hbefore : run step (new 4 none 1)
      [.call 0 (.addListener 7) 0, .client 0 0, .client 0 0, .client 0 0,
        .call 0 (.addListener 8) 0, .client 0 0, .arrive 1, .arrive 2] = some twoListeners := rfl
  have hdrop : run step twoListeners (.disconnect :: List.replicate 14 (.thread 0 5)) =
      some twoListenersDropped := rfl
  obtain ⟨hsteps, -, seen, kept, hitems, -, -, hexpired, hend⟩ := drained_after_drop 4 none 1 _
    twoListeners hbefore _ (fun l hl => by rw [List.eq_of_mem_replicate hl]; rfl) _ hdrop
  obtain ⟨-, hpassed, -, -⟩ := hend fun t ht => List.mem_singleton.1 ht
  refine ⟨hbefore, hdrop, hsteps, fun m hm => ?_⟩
  have hseen : seen = [(1, 0), (2, 1)] := (List.append_nil seen).symm.trans hitems.symm
  have hkept : ∀ x ∈ seen, x ∈ kept := by
    intro x hx
    by_contra hnot
    obtain ⟨k, now, -, hold⟩ := hexpired x hx hnot
    cases hold
  rcases List.mem_pair.1 hm with rfl | rfl
  · exact hpassed (1, 0) (hkept _ (by rw [hseen]; exact List.mem_cons_self))
  · exact hpassed (2, 1) (hkept _ (by rw [hseen]; exact List.mem_cons_of_mem _ List.mem_cons_self))

end SharedReader

end Rounac

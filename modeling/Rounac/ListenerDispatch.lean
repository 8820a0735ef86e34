import Rounac.ModeSwitch

/-!
# Dispatch to the registered listeners

A background thread that has the lock passes its message to the listeners it found under it, each
once, and no other thread has that message (`Dispatched`). A removal needs the lock, so it finds no
dispatch under way, and a listener that is no longer listed when the lock is free is never called
again (`Gone`). `listener_dispatch` puts the two together.
-/

namespace Rounac

open OverwriteRing SwapRemove StepSystem TaskPool

namespace Traffic

/-! ## A dispatch under way -/

/-- The listeners that a message was passed to, in order. -/
def passedOn (a : Traffic) (m : MsgId) : List ListenerFn :=
  (a.passed.filter fun p => p.2 == m).map Prod.fst

/-- The listeners that the `k`-th thread has still to pass a message to. -/
def pending (a : Traffic) (k : ℕ) (m : MsgId) : List ListenerFn :=
  match a.threads[k]? with
  | some (.calling m' rest) => if m' = m then rest else []
  | _ => []

/-- Only the `k`-th thread dispatches the message `m`, and it has passed it, or has yet to pass it,
to the listeners `fns`, each in its turn. -/
structure Dispatched (k : ℕ) (m : MsgId) (fns : List ListenerFn) (a : Traffic) : Prop where
  taken : m ∈ a.taken
  notHeld : ∀ t ∈ a.threads, t ≠ .holding m
  only : ∀ i rest, a.threads[i]? = some (.calling m rest) → i = k
  exact : a.passedOn m ++ a.pending k m = fns

theorem pending_of_calling {a : Traffic} {k : ℕ} {m : MsgId} {rest : List ListenerFn}
    (h : a.threads[k]? = some (.calling m rest)) : a.pending k m = rest := by
  simp [pending, h]

theorem pending_of_not_calling {a : Traffic} {k : ℕ} {m : MsgId} {t : BgThread}
    (h : a.threads[k]? = some t) (ht : ∀ rest, t ≠ .calling m rest) : a.pending k m = [] := by
  unfold pending
  rw [h]
  cases t with
  | calling m' rest =>
    by_cases hm : m' = m
    · subst hm
      exact absurd rfl (ht rest)
    · simp [hm]
  | head | receiving | holding | exited => rfl

theorem pending_congr {a b : Traffic} {k : ℕ} (h : b.threads[k]? = a.threads[k]?) (m : MsgId) :
    b.pending k m = a.pending k m := by
  unfold pending
  rw [h]

theorem pending_spawned (a : Traffic) (k : ℕ) (m : MsgId) :
    pending { a with threads := a.threads ++ [.head] } k m = a.pending k m := by
  rcases Nat.lt_trichotomy k a.threads.length with hk | hk | hk
  · exact pending_congr (List.getElem?_append_left hk) m
  · subst hk
    simp [pending]
  · have hnone : a.threads[k]? = none := List.getElem?_eq_none hk.le
    have hnone' : (a.threads ++ [BgThread.head])[k]? = none :=
      List.getElem?_eq_none (by simpa using Nat.succ_le_of_lt hk)
    exact pending_congr (hnone'.trans hnone.symm) m

theorem Dispatched.set {k : ℕ} {m : MsgId} {fns : List ListenerFn} {a b : Traffic}
    (h : a.Dispatched k m fns) {i : ℕ} {t t' : BgThread} (hi : a.threads[i]? = some t)
    (htaken : m ∈ b.taken) (hpassed : b.passedOn m = a.passedOn m)
    (hheld : t' ≠ .holding m) (hcalling : ∀ rest, t' ≠ .calling m rest)
    (hdone : a.pending i m = []) :
    Dispatched k m fns { b with threads := a.threads.set i t' } := by
  have hlt : i < a.threads.length := (List.getElem?_eq_some_iff.1 hi).1
  refine ⟨htaken, forall_mem_set h.notHeld hheld, fun j rest hj => ?_, ?_⟩
  · by_cases hji : i = j
    · subst hji
      rw [List.getElem?_set_self hlt] at hj
      exact absurd (Option.some.inj hj) (hcalling rest)
    · rw [List.getElem?_set_ne hji] at hj
      exact h.only j rest hj
  · rw [← h.exact]
    refine congrArg₂ _ hpassed ?_
    by_cases hki : i = k
    · subst hki
      rw [hdone]
      exact pending_of_not_calling (List.getElem?_set_self hlt) hcalling
    · exact pending_congr (List.getElem?_set_ne hki) m

theorem Dispatched.turn {k : ℕ} {m : MsgId} {fns : List ListenerFn} {a b : Traffic}
    (h : a.Dispatched k m fns) (hnum : a.Numbered) {i : ℕ} {t t' : BgThread}
    (hi : a.threads[i]? = some t) (hturn : t.Turn a t' b) :
    Dispatched k m fns { b with threads := a.threads.set i t' } := by
  have hlt : i < a.threads.length := (List.getElem?_eq_some_iff.1 hi).1
  have hmem := mem_of_getElem? hi
  cases hturn with
  | idle hrun howes hhand =>
    refine h.set hi h.taken rfl ?_ ?_ ?_
    · rintro rfl
      cases hhand
    · rintro rest rfl
      cases hhand
    · unfold pending
      rw [hi]
      cases t with
      | calling m' rest =>
        cases rest with
        | nil => simp
        | cons fn rest => cases howes
      | head | receiving | holding | exited => rfl
  | expired hitems =>
    exact h.set hi h.taken rfl (by simp) (by simp) (pending_of_not_calling hi (by simp))
  | @took u m' rest hitems =>
    refine h.set hi (List.mem_append_left _ h.taken) rfl ?_ (by simp)
      (pending_of_not_calling hi (by simp))
    -- The message taken is a new one.
    rintro heq
    cases heq
    exact hnum.not_mem_taken hitems h.taken
  | @locked m' hfree =>
    have hne : m' ≠ m := fun heq => h.notHeld _ hmem (congrArg BgThread.holding heq)
    refine h.set hi h.taken rfl (by simp) (fun rest heq => ?_)
      (pending_of_not_calling hi (by simp))
    cases heq
    exact hne rfl
  | @called m' fn rest =>
    by_cases hm : m' = m
    · subst hm
      cases h.only i _ hi
      refine ⟨h.taken, forall_mem_set h.notHeld (by simp), fun j rest' hj => ?_, ?_⟩
      · by_cases hji : k = j
        · exact hji.symm
        · rw [List.getElem?_set_ne hji] at hj
          exact h.only j rest' hj
      · have hexact := h.exact
        rw [pending_of_calling hi] at hexact
        rw [pending_of_calling (List.getElem?_set_self hlt), ← hexact]
        simp [passedOn]
    · refine h.set hi h.taken ?_ (by simp) (fun rest' heq => ?_)
        (pending_of_not_calling hi (fun rest' heq => ?_))
      · simp [passedOn, hm]
      · cases heq
        exact hm rfl
      · cases heq
        exact hm rfl

/-- A message is in the hands of one thread. -/
theorem Handled.index_eq {a : Traffic} (h : a.Handled) {i j : ℕ} {t u : BgThread} {m : MsgId}
    (hi : a.threads[i]? = some t) (hj : a.threads[j]? = some u) (ht : t.inHand = some m)
    (hu : u.inHand = some m) : j = i := by
  by_contra hne
  obtain ⟨rest, hold, hnew⟩ := exists_rest hi .exited
  have hj' : (a.threads.set i .exited)[j]? = some u := by
    rw [List.getElem?_set_ne (Ne.symm hne)]
    exact hj
  rcases List.mem_cons.1 (hnew.mem_iff.1 (mem_of_getElem? hj')) with rfl | hrest
  · cases hu
  · exact h.inHand_rest hold ht u hrest hu

/-- A message that waits for the lock was passed to nobody. -/
theorem Handled.passedOn_eq_nil {a : Traffic} (h : a.Handled) {k : ℕ} {m : MsgId}
    (hk : a.threads[k]? = some (.holding m)) : a.passedOn m = [] := by
  refine List.map_eq_nil_iff.2 (List.filter_eq_nil_iff.2 fun p hp heq => ?_)
  cases beq_iff_eq.1 heq
  exact (h.passed p hp).2 _ (mem_of_getElem? hk) rfl

/-- A thread that gets the lock dispatches to the listeners of that moment. -/
theorem Handled.dispatched {a : Traffic} (h : a.Handled) {k : ℕ} {m : MsgId}
    (hk : a.threads[k]? = some (.holding m)) :
    Dispatched k m (a.listeners.map Listener.fn)
      { a with threads := a.threads.set k (.calling m (a.listeners.map Listener.fn)) } := by
  have hlt : k < a.threads.length := (List.getElem?_eq_some_iff.1 hk).1
  refine ⟨h.taken _ (mem_of_getElem? hk) m rfl, fun t ht => ?_, fun i rest hi => ?_, ?_⟩
  · rintro rfl
    obtain ⟨rest, hold, hnew⟩ := exists_rest hk (.calling m (a.listeners.map Listener.fn))
    rcases List.mem_cons.1 (hnew.mem_iff.1 ht) with heq | ht
    · cases heq
    · exact h.inHand_rest hold rfl _ ht rfl
  · by_contra hne
    rw [List.getElem?_set_ne (Ne.symm hne)] at hi
    exact hne (h.index_eq hk hi rfl rfl)
  · rw [pending_of_calling (List.getElem?_set_self hlt)]
    show a.passedOn m ++ _ = _
    rw [h.passedOn_eq_nil hk, List.nil_append]

/-- Every dispatch under way is to the listeners registered. -/
def Dispatching (a : Traffic) : Prop :=
  ∀ k m rest, a.threads[k]? = some (.calling m rest) →
    a.Dispatched k m (a.listeners.map Listener.fn)

theorem Dispatching.turn {a b : Traffic} (h : a.Dispatching) (hnum : a.Numbered) (hhand : a.Handled)
    {i : ℕ} {t t' : BgThread} (hi : a.threads[i]? = some t) (hturn : t.Turn a t' b) :
    Dispatching { b with threads := a.threads.set i t' } := by
  have hlt : i < a.threads.length := (List.getElem?_eq_some_iff.1 hi).1
  intro k m rest hk
  change (a.threads.set i t')[k]? = _ at hk
  by_cases hik : i = k
  · subst hik
    rw [List.getElem?_set_self hlt] at hk
    cases hk
    cases hturn with
    | idle hrun howes hnone => cases hnone
    | locked hfree => exact hhand.dispatched hi
    | called => exact (h i m _ hi).turn hnum hi .called
  · rw [List.getElem?_set_ne hik] at hk
    have hkeep := (h k m rest hk).turn hnum hi hturn
    rw [← hturn.listeners_eq] at hkeep
    exact hkeep

/-- A thread that has left its dispatch has passed the message to all. -/
theorem Dispatched.passedOn_eq {a : Traffic} {k : ℕ} {m : MsgId} {fns : List ListenerFn}
    (h : a.Dispatched k m fns)
    (hleft : ∀ rest, a.threads[k]? ≠ some (.calling m rest)) : a.passedOn m = fns := by
  have hnone : a.pending k m = [] := by
    cases hk : a.threads[k]? with
    | none => simp [pending, hk]
    | some t => exact pending_of_not_calling hk fun rest heq => hleft rest (heq ▸ hk)
  rw [← h.exact, hnone, List.append_nil]

/-! ## A listener that is gone -/

/-- The listener is not listed, and no dispatch will call it. -/
structure Gone (fn : ListenerFn) (a : Traffic) : Prop where
  old : fn < a.nextFn
  unlisted : fn ∉ a.listeners.map Listener.fn
  uncalled : ∀ t ∈ a.threads, ∀ m rest, t = .calling m rest → fn ∉ rest

def calls (a : Traffic) (fn : ListenerFn) : ℕ := a.passed.countP fun p => p.1 == fn

/-- A listener that is gone is not called, and stays gone. -/
theorem Gone.turn {a b : Traffic} {fn : ListenerFn} (h : a.Gone fn) {k : ℕ} {t t' : BgThread}
    (hk : a.threads[k]? = some t) (hturn : t.Turn a t' b) :
    Gone fn { b with threads := a.threads.set k t' } ∧ b.calls fn = a.calls fn := by
  have hmem := mem_of_getElem? hk
  cases hturn with
  | idle hrun howes hhand =>
    refine ⟨⟨h.old, h.unlisted, forall_mem_set h.uncalled ?_⟩, rfl⟩
    rintro m rest rfl
    cases hhand
  | expired hitems | took hitems =>
    exact ⟨⟨h.old, h.unlisted, forall_mem_set h.uncalled (by simp)⟩, rfl⟩
  | locked hfree =>
    refine ⟨⟨h.old, h.unlisted, forall_mem_set h.uncalled ?_⟩, rfl⟩
    rintro m rest hcalling
    cases hcalling
    exact h.unlisted
  | @called m fn' rest =>
    have hnot := h.uncalled _ hmem m (fn' :: rest) rfl
    rw [List.mem_cons, not_or] at hnot
    refine ⟨⟨h.old, h.unlisted, forall_mem_set h.uncalled ?_⟩, ?_⟩
    · rintro m' rest' hcalling
      cases hcalling
      exact hnot.2
    · simp [calls, List.countP_append, Ne.symm hnot.1]

/-- No dispatch is under way while the lock is free. -/
theorem forall_not_calling {a : Traffic} (hfree : a.isLocked = false) :
    ∀ t ∈ a.threads, ∀ m rest, t ≠ .calling m rest := by
  rintro t ht m rest rfl
  have := List.any_eq_false.1 hfree _ ht
  simp [BgThread.isCalling] at this

end Traffic

namespace SharedReader

theorem Move.dispatched {s : SharedReader} {l : ReaderStep} {b : Traffic} {k : ℕ} {m : MsgId}
    {fns : List ListenerFn} (hm : s.Move l b) (hnum : s.Numbered) (h : s.Dispatched k m fns) :
    b.Dispatched k m fns := by
  cases hm with
  | idle | arrived | expired | added | removed => exact ⟨h.1, h.2, h.3, h.4⟩
  | read => exact ⟨List.mem_append_left _ h.1, h.2, h.3, h.4⟩
  | turned hk hturn => exact h.turn hnum hk hturn
  | spawned hj =>
    refine ⟨h.taken, fun t ht => ?_, fun i rest hi => ?_, ?_⟩
    · rcases List.mem_append.1 ht with ht | ht
      · exact h.notHeld t ht
      · cases List.mem_singleton.1 ht
        simp
    · change (s.threads ++ [BgThread.head])[i]? = some (.calling m rest) at hi
      rw [List.getElem?_append] at hi
      split_ifs at hi
      · exact h.only i rest hi
      · cases List.mem_singleton.1 (mem_of_getElem? hi)
    · rw [← h.exact]
      exact congrArg _ (Traffic.pending_spawned s.toTraffic k m)

/-- A dispatch holds the lock, so no listener comes or goes. -/
theorem Move.dispatching {s : SharedReader} {l : ReaderStep} {b : Traffic} (hm : s.Move l b)
    (hnum : s.Numbered) (hhand : s.Handled) (h : s.Dispatching) : b.Dispatching := by
  have hkeep : ∀ k m rest, s.threads[k]? = some (.calling m rest) →
      b.Dispatched k m (s.listeners.map Listener.fn) :=
    fun k m rest hk => hm.dispatched hnum (h k m rest hk)
  cases hm with
  | idle | arrived | expired | read => exact hkeep
  | added hfree | removed hfree =>
    intro k m rest hk
    exact absurd rfl (Traffic.forall_not_calling hfree _ (mem_of_getElem? hk) m rest)
  | turned hi hturn => exact h.turn hnum hhand hi hturn
  | spawned hj =>
    intro k m rest hk
    refine hkeep k m rest ?_
    change (s.threads ++ [BgThread.head])[k]? = _ at hk
    rw [List.getElem?_append] at hk
    split_ifs at hk with hlt
    · exact hk
    · cases List.mem_singleton.1 (mem_of_getElem? hk)

theorem Move.gone {s : SharedReader} {l : ReaderStep} {b : Traffic} {fn : ListenerFn}
    (hm : s.Move l b) (h : s.Gone fn) : b.Gone fn ∧ b.calls fn = s.calls fn := by
  cases hm with
  | idle | arrived | expired | read => exact ⟨⟨h.1, h.2, h.3⟩, rfl⟩
  | turned hk hturn => exact h.turn hk hturn
  | added hfree =>
    refine ⟨⟨Nat.lt_succ_of_lt h.old, ?_, h.uncalled⟩, rfl⟩
    rw [List.map_append, List.mem_append, not_or]
    exact ⟨h.unlisted, by simpa using h.old.ne⟩
  | removed hfree =>
    refine ⟨⟨h.old, fun hfn => ?_, h.uncalled⟩, rfl⟩
    obtain ⟨l, hl, rfl⟩ := List.mem_map.1 hfn
    exact h.unlisted (List.mem_map_of_mem (mem_of_mem_removeFirst hl))
  | spawned hj =>
    refine ⟨⟨h.old, h.unlisted, fun t ht m rest htm => ?_⟩, rfl⟩
    rcases List.mem_append.1 ht with ht | ht
    · exact h.uncalled t ht m rest htm
    · cases List.mem_singleton.1 ht
      cases htm

/-- Messages and listeners are told apart. -/
structure Accounted (s : SharedReader) : Prop where
  numbered : s.Numbered
  handled : s.Handled
  enrolled : s.Enrolled
  dispatching : s.Dispatching

theorem Accounted.step {s s' : SharedReader} {l : ReaderStep} (h : s.Accounted)
    (hs : s.step l = some s') : s'.Accounted where
  numbered := (step_move hs).numbered h.numbered
  handled := (step_move hs).handled h.numbered h.handled
  enrolled := (step_move hs).enrolled h.enrolled
  dispatching := (step_move hs).dispatching h.numbered h.handled h.dispatching

theorem accounted_new (capacity : ℕ) (expiration : Option Duration) (n : ℕ) :
    (new capacity expiration n).Accounted where
  numbered := numbered_new capacity expiration n
  handled := handled_new capacity expiration n
  enrolled := ⟨by simp [new], by simp [new]⟩
  dispatching k m rest hk := by cases hk

theorem Move.threads_of_ne {s : SharedReader} {l : ReaderStep} {b : Traffic} {k : ℕ} {t : BgThread}
    (hm : s.Move l b) (hk : s.threads[k]? = some t) (hl : ∀ now, l ≠ .thread k now) :
    b.threads[k]? = some t := by
  cases hm with
  | idle | arrived | added | removed | expired | read => exact hk
  | spawned => exact (List.getElem?_append_left (List.getElem?_eq_some_iff.1 hk).1).trans hk
  | @turned i now _ _ _ hi hturn =>
    have hne : i ≠ k := fun heq => hl now (heq ▸ rfl)
    exact (List.getElem?_set_ne hne).trans hk

/-- A background thread that waits for the lock still does, and still has its message, when the
others have moved. -/
theorem holding_of_wait {s s₁ : SharedReader} {k : ℕ} {m : MsgId} {wait : List ReaderStep}
    (h : s.Accounted) (hk : s.threads[k]? = some (.holding m))
    (hwait : ∀ l ∈ wait, ∀ now, l ≠ .thread k now) (hrun : run step s wait = some s₁) :
    s₁.Accounted ∧ s₁.threads[k]? = some (.holding m) := by
  have hinv : Always step (fun u => u.Accounted ∧ u.threads[k]? = some (.holding m)) s wait :=
    Always.of_inv
      (fun _ _ _ hu hl hs => ⟨hu.1.step hs, (step_move hs).threads_of_ne hu.2 hl⟩) ⟨h, hk⟩
      (.of_mem hwait s)
  exact hinv.last hrun

/-- The thread that gets the lock passes its message to the listeners of that moment. -/
theorem always_dispatched {s s' : SharedReader} {k : ℕ} {m : MsgId} {now : Instant}
    (h : s.Accounted) (hk : s.threads[k]? = some (.holding m))
    (hlock : s.step (.thread k now) = some s') (ls : List ReaderStep) :
    Always step (fun u => u.Dispatched k m (s.listeners.map Listener.fn)) s' ls := by
  have hstart : s'.Accounted ∧ s'.Dispatched k m (s.listeners.map Listener.fn) := by
    refine ⟨h.step hlock, ?_⟩
    simp only [step, hk, Option.bind_some, advanceThread] at hlock
    split_ifs at hlock
    · cases hlock
    · cases hlock
      exact h.handled.dispatched hk
  have hinv : Always step (fun u => u.Accounted ∧ u.Dispatched k m (s.listeners.map Listener.fn))
      s' ls :=
    .of_step (fun _ _ _ hu hs => ⟨hu.1.step hs, (step_move hs).dispatched hu.1.numbered hu.2⟩) ls
      hstart
  exact hinv.mono fun _ hu => hu.2

/-- The ids of the listeners stay distinct when none is added under an id in use. -/
def AddsNewId (s : SharedReader) : ReaderStep → Prop
  | .call _ (.addListener id) _ => ∀ l ∈ s.listeners, l.id ≠ id
  | _ => True

instance (s : SharedReader) : ∀ l, Decidable (s.AddsNewId l)
  | .call _ (.addListener id) _ => inferInstanceAs (Decidable (∀ l ∈ s.listeners, l.id ≠ id))
  | .arrive _ | .disconnect | .client _ _ | .thread _ _ => inferInstanceAs (Decidable True)
  | .call _ (.removeListener _) _ | .call _ .read _ | .call _ .tryRead _
  | .call _ (.readTimeout _) _ => inferInstanceAs (Decidable True)

def DistinctIds (s : SharedReader) : Prop := (s.listeners.map Listener.id).Nodup

theorem DistinctIds.step {s s' : SharedReader} {l : ReaderStep} (h : s.DistinctIds)
    (hnew : s.AddsNewId l) (hs : s.step l = some s') : s'.DistinctIds := by
  unfold DistinctIds at h ⊢
  cases step_stepped hs with
  | arrived | disconnected | polled => exact h
  | added => exact nodup_append_singleton h hnew
  | @removed j id =>
    show ((s.removeListener id).2.toTraffic.listeners.map Listener.id).Nodup
    rw [toTraffic_removeListener]
    exact nodup_removeFirst h
  | @client j now c next hj hnext =>
    show (next.2.listeners.map Listener.id).Nodup
    rw [(advanceClient_frame hnext).1]
    exact h
  | @thread k now t next hk hnext =>
    show (next.2.listeners.map Listener.id).Nodup
    rw [(advanceThread_turn hnext).1.listeners_eq]
    exact h

theorem exists_of_removeListener {s : SharedReader} {id : BitVec 32}
    (h : (s.removeListener id).1 = true) : ∃ l ∈ s.listeners, l.id = id := by
  obtain ⟨l, hl, hid⟩ := exists_of_removeFirst h
  exact ⟨l, hl, beq_iff_eq.1 hid⟩

/-- With distinct ids, a removal that finds its listener leaves none with its function. -/
theorem gone_removeListener {s : SharedReader} (h : s.Enrolled) (hids : s.DistinctIds)
    (hfree : s.isLocked = false) {l : Listener} (hl : l ∈ s.listeners) :
    (s.removeListener l.id).2.Gone l.fn := by
  rw [toTraffic_removeListener]
  refine ⟨h.below l hl, fun hfn => ?_, fun t ht m rest htm => ?_⟩
  · obtain ⟨l', hl', hfn⟩ := List.mem_map.1 hfn
    obtain ⟨hmem, hne⟩ := (mem_removeFirst_key_iff hids).1 hl'
    exact hne (congrArg Listener.id (List.inj_on_of_nodup_map h.fns hmem hl hfn))
  · exact absurd htm (Traffic.forall_not_calling hfree t ht m rest)

theorem always_gone {s : SharedReader} {fn : ListenerFn} (h : s.Gone fn) (ls : List ReaderStep) :
    Always step (fun u => u.calls fn = s.calls fn) s ls := by
  have hinv : Always step (fun u => u.Gone fn ∧ u.calls fn = s.calls fn) s ls := by
    refine Always.of_step (fun u l u' hu hs => ?_) ls ⟨h, rfl⟩
    obtain ⟨hgone, hcalls⟩ := (step_move hs).gone hu.1
    exact ⟨hgone, hcalls.trans hu.2⟩
  exact hinv.mono fun _ hu => hu.2

/-- **Dispatch is exact and removal is immediate**, in every run with distinct ids. A message that
a background thread finds unexpired is passed to nobody before the thread has the lock, and from
then on it has been passed, or the thread has yet to pass it, once to each listener registered at
that moment and to no other; once it has left the dispatch, it has been passed to all of them. The
listener that a removal found is never called again. -/
theorem listener_dispatch (capacity : ℕ) (expiration : Option Duration) (n : ℕ)
    (before : List ReaderStep) (s : SharedReader)
    (hids : EachStep step AddsNewId (new capacity expiration n) before)
    (hrun : run step (new capacity expiration n) before = some s) :
    (∀ k t m rest now wait s₁ now' s₂, s.threads[k]? = some .receiving →
      s.ring.items = (t, m) :: rest → isFresh s.expiration t now →
      run step s (.thread k now :: wait) = some s₁ → (∀ l ∈ wait, ∀ now, l ≠ .thread k now) →
      s₁.step (.thread k now') = some s₂ →
      s₁.passedOn m = [] ∧ (s₁.listeners.map Listener.fn).Nodup ∧
        ∀ since, Always step
          (fun u => u.passedOn m ++ u.pending k m = s₁.listeners.map Listener.fn ∧
            ((∀ left, u.threads[k]? ≠ some (.calling m left)) →
              u.passedOn m = s₁.listeners.map Listener.fn)) s₂ since) ∧
    ∀ j id now s', s.step (.call j (.removeListener id) now) = some s' →
      (s.removeListener id).1 = true →
      ∃ l ∈ s.listeners, l.id = id ∧
        ∀ since, Always step (fun u => u.calls l.fn = s.calls l.fn) s' since := by
  have hinv :
      Always step (fun u => u.Accounted ∧ u.DistinctIds) (new capacity expiration n) before :=
    Always.of_inv (fun _ _ _ hu hl hs => ⟨hu.1.step hs, hu.2.step hl hs⟩)
      ⟨accounted_new capacity expiration n, List.nodup_nil⟩ hids
  obtain ⟨hacc, hdistinct⟩ := hinv.last hrun
  refine ⟨fun k t m rest now wait s₁ now' s₂ hk hitems hfresh hwait hothers hlock => ?_,
    fun j id now s' hs hfound => ?_⟩
  · rw [run_cons] at hwait
    obtain ⟨s₀, htake, hwait⟩ := Option.bind_eq_some_iff.1 hwait
    -- The thread holds the message until it takes the lock, whatever the others do.
    have hheld : s₀.threads[k]? = some (.holding m) := by
      have hlt := (List.getElem?_eq_some_iff.1 hk).1
      simp only [step, hk, Option.bind_some, advanceThread, RingBuf.recv_of_cons hitems, hfresh,
        if_true] at htake
      cases htake
      exact List.getElem?_set_self hlt
    obtain ⟨hacc₁, hheld₁⟩ := holding_of_wait (hacc.step htake) hheld hothers hwait
    refine ⟨hacc₁.handled.passedOn_eq_nil hheld₁, hacc₁.enrolled.fns, fun since => ?_⟩
    exact (always_dispatched hacc₁ hheld₁ hlock since).mono fun u hu => ⟨hu.exact, hu.passedOn_eq⟩
  · obtain ⟨l, hl, rfl⟩ := exists_of_removeListener hfound
    refine ⟨l, hl, rfl, fun since => ?_⟩
    cases step_stepped hs with
    | polled _ hpoll => cases hpoll
    | removed _ hfree =>
      have hgone : ∀ clients, Traffic.Gone l.fn
          { (s.removeListener l.id).2 with clients : SharedReader }.toTraffic :=
        fun _ => gone_removeListener hacc.enrolled hdistinct hfree hl
      have hcalls : (s.removeListener l.id).2.calls l.fn = s.calls l.fn := by
        rw [toTraffic_removeListener]
        rfl
      exact (always_gone (hgone _) since).mono fun _ hu => hu.trans hcalls

/-- A third listener is added while the thread waits for the lock: it is dispatched to as well. The
first one, had it been removed instead, is not called. -/
theorem dispatch_to_a_late_listener :
    ∃ s s₁ s₂ s' : SharedReader,
      run step (new 4 none 2)
        [.call 0 (.addListener 7) 0, .client 0 0, .client 0 0, .client 0 0,
          .call 1 (.addListener 8) 0, .client 1 0, .thread 0 0, .arrive 1] = some s ∧
      run step s [.thread 0 1, .call 1 (.addListener 9) 1] = some s₁ ∧
      s₁.step (.thread 0 1) = some s₂ ∧
      (∀ since, Always step (fun u => u.passedOn 0 ++ u.pending 0 0 = [0, 1, 2] ∧
        ((∀ left, u.threads[0]? ≠ some (.calling 0 left)) → u.passedOn 0 = [0, 1, 2])) s₂ since) ∧
      s.step (.call 0 (.removeListener 7) 1) = some s' ∧
      ∀ since, Always step (fun u => u.calls 0 = 0) s' since := by
  obtain ⟨hexact, hgone⟩ := listener_dispatch 4 none 2
    [.call 0 (.addListener 7) 0, .client 0 0, .client 0 0, .client 0 0,
      .call 1 (.addListener 8) 0, .client 1 0, .thread 0 0, .arrive 1] _ (by decide) rfl
  obtain ⟨l, hl, hid, hcalls⟩ := hgone 0 7 1 _ rfl rfl
  have hfn : l.fn = 0 := by
    change l ∈ [(⟨7, 0⟩ : Listener), ⟨8, 1⟩] at hl
    rcases List.mem_pair.1 hl with rfl | rfl
    · rfl
    · cases hid
  rw [hfn] at hcalls
  exact ⟨_, _, _, _, rfl, rfl, rfl,
    (hexact 0 1 0 [] 1 [.call 1 (.addListener 9) 1] _ 1 _ rfl rfl rfl
    rfl (by simp) rfl).2.2, rfl, hcalls⟩

end SharedReader

end Rounac

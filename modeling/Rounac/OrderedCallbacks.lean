import Rounac.TakenInOrder

/-!
# One dispatcher and ordered callbacks

`add_listener` spawns a background thread when it finds the flag not set, and a thread ends when it
finds so itself. A removal and an addition between two looks of a thread hide the change from it,
and two threads take messages from the ring. There is one dispatcher, and every listener gets its
messages in order, in exactly the runs in which a thread is spawned only when every earlier one has
ended (`one_dispatcher_iff`).
-/

namespace Rounac

open OverwriteRing SwapRemove StepSystem TaskPool

namespace Traffic

/-- At most one background thread runs. -/
def AtMostOne (a : Traffic) : Prop := a.threads.countP (·.isRunning) ≤ 1

/-- Each listener was passed messages in their order of arrival. -/
def InOrder (a : Traffic) : Prop :=
  ∀ fn, ((a.passed.filter fun p => p.1 == fn).map Prod.snd).Pairwise (· < ·)

/-- The one thread is ahead of everything passed before. -/
structure Ordered (a : Traffic) : Prop where
  one : a.AtMostOne
  fns : (a.listeners.map Listener.fn).Nodup
  below : ∀ l ∈ a.listeners, l.fn < a.nextFn
  holding : ∀ t ∈ a.threads, ∀ m, t = .holding m → ∀ p ∈ a.passed, p.2 < m
  calling : ∀ t ∈ a.threads, ∀ m rest, t = .calling m rest →
    rest.Nodup ∧ ∀ p ∈ a.passed, p.2 ≤ m ∧ (p.2 = m → p.1 ∉ rest)
  inOrder : a.InOrder

/-- Passing a message to a listener that got only older ones keeps the order. -/
theorem InOrder.pass {a : Traffic} (h : a.InOrder) {fn : ListenerFn} {m : MsgId}
    (hlt : ∀ p ∈ a.passed, p.1 = fn → p.2 < m) :
    InOrder { a with passed := a.passed ++ [(fn, m)] } := by
  intro fn'
  rw [List.filter_append, List.map_append, List.pairwise_append]
  refine ⟨h fn', ?_, fun m₁ hm₁ m₂ hm₂ => ?_⟩
  · by_cases hfn : fn = fn' <;> simp [hfn]
  · obtain ⟨p, hp, rfl⟩ := List.mem_map.1 hm₁
    obtain ⟨q, hq, rfl⟩ := List.mem_map.1 hm₂
    obtain ⟨hp, hpfn⟩ := List.mem_filter.1 hp
    obtain ⟨hq, hqfn⟩ := List.mem_filter.1 hq
    cases List.mem_singleton.1 hq
    exact hlt p hp ((beq_iff_eq.1 hpfn).trans (beq_iff_eq.1 hqfn).symm)

/-- After a step of the running thread the others have ended, and it alone matters. -/
theorem Ordered.set {a b : Traffic} (h : a.Ordered) {k : ℕ} {t t' : BgThread}
    (hk : a.threads[k]? = some t) (hrun : t.isRunning = true)
    (hlisteners : b.listeners = a.listeners)
    (hnext : b.nextFn = a.nextFn) (hholding : ∀ m, t' = .holding m → ∀ p ∈ b.passed, p.2 < m)
    (hcalling : ∀ m rest, t' = .calling m rest →
      rest.Nodup ∧ ∀ p ∈ b.passed, p.2 ≤ m ∧ (p.2 = m → p.1 ∉ rest))
    (horder : b.InOrder) : Ordered { b with threads := a.threads.set k t' } := by
  obtain ⟨rest, hold, hnew⟩ := exists_rest hk t'
  have hended := forall_rest_of_countP_le_one hold hrun h.one
  have hothers : ∀ u ∈ a.threads.set k t', u = t' ∨ u.isRunning = false := by
    intro u hu
    exact (List.mem_cons.1 (hnew.mem_iff.1 hu)).imp_right (hended u)
  refine ⟨?_, hlisteners ▸ h.fns, ?_, fun u hu m hum => ?_, fun u hu m rest hum => ?_, horder⟩
  · have hone : (a.threads.set k t').countP (·.isRunning) ≤ 1 := by
      rw [hnew.countP_eq, List.countP_cons, List.countP_eq_zero.2 fun u hu => by simp [hended u hu]]
      split_ifs <;> omega
    exact hone
  · rw [hlisteners, hnext]
    exact h.below
  · rcases hothers u hu with rfl | hend
    · exact hholding m hum
    · subst hum
      cases hend
  · rcases hothers u hu with rfl | hend
    · exact hcalling m rest hum
    · subst hum
      cases hend

theorem Ordered.turn {a b : Traffic} (h : a.Ordered) (hnum : a.Numbered) (hhand : a.Handled)
    {k : ℕ} {t t' : BgThread} (hk : a.threads[k]? = some t) (hturn : t.Turn a t' b) :
    Ordered { b with threads := a.threads.set k t' } := by
  have hmem := mem_of_getElem? hk
  cases hturn with
  | idle hrun howes hnone =>
    refine h.set hk hrun rfl rfl ?_ ?_ h.inOrder
    · rintro m rfl
      cases hnone
    · rintro m rest rfl
      cases hnone
  | expired hitems => exact h.set hk rfl rfl rfl (by simp) (by simp) h.inOrder
  | @took t m rest hitems =>
    refine h.set hk rfl rfl rfl (fun m' hm' p hp => ?_) (by simp) h.inOrder
    cases hm'
    exact hnum.older _ (hhand.passed p hp).1 (t, m) (by simp [hitems])
  | @locked m hfree =>
    refine h.set hk rfl rfl rfl (by simp) (fun m' rest hm' => ?_) h.inOrder
    cases hm'
    refine ⟨h.fns, fun p hp => ?_⟩
    have hlt := h.holding _ hmem m rfl p hp
    exact ⟨hlt.le, fun heq => absurd heq hlt.ne⟩
  | @called m fn rest =>
    obtain ⟨hnodup, hpast⟩ := h.calling _ hmem m (fn :: rest) rfl
    rw [List.nodup_cons] at hnodup
    refine h.set hk rfl rfl rfl (by simp) (fun m' rest' hm' => ?_) (h.inOrder.pass ?_)
    · cases hm'
      refine ⟨hnodup.2, fun p hp => ?_⟩
      rcases List.mem_append.1 hp with hp | hp
      · exact ⟨(hpast p hp).1, fun heq => List.not_mem_of_not_mem_cons ((hpast p hp).2 heq)⟩
      · cases List.mem_singleton.1 hp
        exact ⟨Nat.le_refl m, fun _ => hnodup.1⟩
    · -- The listener has not been passed `m` yet.
      intro p hp hfn
      obtain ⟨hle, hne⟩ := hpast p hp
      refine Nat.lt_of_le_of_ne hle fun heq => hne heq ?_
      rw [hfn]
      exact List.mem_cons_self

end Traffic

namespace SharedReader

/-- A background thread is spawned when every earlier one has ended. -/
def SpawnsAlone (s : SharedReader) : ReaderStep → Prop
  | .client j _ => s.clients[j]? = some .spawning → ∀ t ∈ s.threads, t.isRunning = false
  | _ => True

theorem Move.ordered {s : SharedReader} {l : ReaderStep} {b : Traffic} (hm : s.Move l b)
    (hnum : s.Numbered) (hhand : s.Handled) (halone : s.SpawnsAlone l) (h : s.Ordered) :
    b.Ordered := by
  cases hm with
  | idle | arrived | expired | read => exact ⟨h.1, h.2, h.3, h.4, h.5, h.6⟩
  | turned hk hturn => exact h.turn hnum hhand hk hturn
  | @removed _ id hfree =>
    have henrolled := Traffic.Enrolled.removed ⟨h.fns, h.below⟩ id
    exact ⟨h.one, henrolled.fns, henrolled.below, h.holding, h.calling, h.inOrder⟩
  | @added _ id hfree =>
    have henrolled := Traffic.Enrolled.added ⟨h.fns, h.below⟩ id
    exact ⟨h.one, henrolled.fns, henrolled.below, h.holding, h.calling, h.inOrder⟩
  | spawned hj =>
    have hended := halone hj
    have hmem : ∀ t ∈ s.threads ++ [.head], t ∈ s.threads ∨ t = .head := by simp
    refine ⟨?_, h.fns, h.below, fun t ht m htm => ?_, fun t ht m rest htm => ?_, h.inOrder⟩
    · have h0 : s.threads.countP (·.isRunning) = 0 :=
        List.countP_eq_zero.2 fun t ht => by simp [hended t ht]
      show (s.threads ++ [BgThread.head]).countP (·.isRunning) ≤ 1
      rw [List.countP_append, h0]
      simp [BgThread.isRunning]
    · rcases hmem t ht with ht | rfl
      · exact h.holding t ht m htm
      · cases htm
    · rcases hmem t ht with ht | rfl
      · exact h.calling t ht m rest htm
      · cases htm

theorem ordered_new (capacity : ℕ) (expiration : Option Duration) (n : ℕ) :
    (new capacity expiration n).Ordered := by
  constructor <;> simp [new, Traffic.AtMostOne, Traffic.InOrder]

/-- A thread that is spawned next to a running one makes two. -/
theorem spawnsAlone_of_atMostOne {s s' : SharedReader} {l : ReaderStep} (hs : s.step l = some s')
    (hone : s'.AtMostOne) : s.SpawnsAlone l := by
  cases l with
  | client j now =>
    intro hj
    simp only [step, hj, Option.bind_some, advanceClient, Option.map_some] at hs
    cases hs
    have hcount : (s.threads ++ [BgThread.head]).countP (·.isRunning) ≤ 1 := hone
    rw [List.countP_append] at hcount
    have h0 : s.threads.countP (·.isRunning) = 0 := by
      simpa [BgThread.isRunning] using hcount
    intro t ht
    simpa using List.countP_eq_zero.1 h0 t ht
  | arrive | disconnect | call | thread => trivial

/-- **One background thread, and callbacks in order of arrival, in exactly the runs in which a
thread is spawned only when every earlier one has ended**, for any number of clients. -/
theorem one_dispatcher_iff (capacity : ℕ) (expiration : Option Duration) (n : ℕ)
    (ls : List ReaderStep) :
    Always step (fun s => s.AtMostOne ∧ s.InOrder) (new capacity expiration n) ls ↔
      EachStep step SpawnsAlone (new capacity expiration n) ls := by
  refine always_iff_eachStep (fun s => s.Numbered ∧ s.Handled ∧ s.Ordered)
    (fun s h => ⟨h.2.2.one, h.2.2.inOrder⟩) (fun s l s' h hop hs => ?_)
    (fun s l s' _ hs h' => spawnsAlone_of_atMostOne hs h'.1) ls
    ⟨numbered_new capacity expiration n, handled_new capacity expiration n,
      ordered_new capacity expiration n⟩
  have hm := step_move hs
  exact ⟨hm.numbered h.1, hm.handled h.1 h.2.1, hm.ordered h.1 h.2.1 hop h.2.2⟩

/-- The only listener is removed and another one added while the background thread waits for a
message: two threads run, and the listener gets the second message first. -/
theorem two_dispatchers_reorder :
    ∃ s : SharedReader,
      run step (new 4 none 1)
        [.call 0 (.addListener 7) 0, .client 0 0, .client 0 0, .client 0 0, .thread 0 0,
          .call 0 (.removeListener 7) 0, .call 0 (.addListener 8) 0, .client 0 0, .client 0 0,
          .client 0 0, .thread 1 0, .arrive 1, .arrive 2, .thread 0 2, .thread 1 2, .thread 1 2,
          .thread 1 2, .thread 1 2, .thread 0 2, .thread 0 2] = some s ∧
      s.passed = [(1, 1), (1, 0)] ∧ ¬ s.AtMostOne ∧ ¬ s.InOrder := by
  refine ⟨_, rfl, rfl, ?_, fun h => ?_⟩
  · unfold Traffic.AtMostOne
    decide
  · exact absurd (h 1) (by decide)

end SharedReader

end Rounac

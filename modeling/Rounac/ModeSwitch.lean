import Rounac.Lib.TaskPool
import Rounac.TakenInOrder

/-!
# Messages and the switch between listening and polling

A message leaves the ring in the hands of a client, which returns it, or of a background thread,
which passes it to the listeners it finds when it has the lock. It is lost exactly when the thread
finds no listener: `no_message_lost_iff`. A client that removes its last listener only while every
background thread is about to look at the flag loses nothing (`no_message_lost_of_quiet_removals`).
-/

namespace Rounac

open OverwriteRing SwapRemove StepSystem TaskPool

namespace BgThread

theorem inHand_of_owes {t : BgThread} {m : MsgId} (h : t.owes = some m) : t.inHand = some m := by
  cases t with
  | calling m' rest =>
    cases rest with
    | nil => cases h
    | cons fn rest => exact h
  | holding m' => exact h
  | head | receiving | exited => cases h

end BgThread

namespace Traffic

/-- Every message taken was returned, or passed to a listener, or a background thread has yet to
pass it to one. -/
def NoneLost (a : Traffic) : Prop :=
  ∀ m ∈ a.taken, m ∈ a.returned ∨ (∃ fn, (fn, m) ∈ a.passed) ∨ ∃ t ∈ a.threads, t.owes = some m

/-- A message that a thread got to no listener is lost for good. -/
theorem Handled.lost {a : Traffic} (h : a.Handled) {k : ℕ} {m : MsgId}
    (hk : a.threads[k]? = some (.holding m)) :
    ¬ NoneLost { a with threads := a.threads.set k (.calling m []) } := by
  intro hlost
  obtain ⟨rest, hold, hnew⟩ := exists_rest hk (.calling m [])
  have hmem := mem_of_getElem? hk
  rcases hlost m (h.taken _ hmem m rfl) with hret | ⟨fn, hpass⟩ | ⟨u, hu, howes⟩
  · exact (h.returned m hret).2 _ hmem rfl
  · exact (h.passed _ hpass).2 _ hmem rfl
  · rcases List.mem_cons.1 (hnew.mem_iff.1 hu) with rfl | hu
    · cases howes
    · exact h.inHand_rest hold rfl u hu (BgThread.inHand_of_owes howes)

/-- A thread passes on what it owes, or still owes it. -/
theorem NoneLost.set {a b : Traffic} (h : a.NoneLost) {k : ℕ} {t t' : BgThread}
    (hk : a.threads[k]? = some t) (htaken : b.taken = a.taken) (hreturned : b.returned = a.returned)
    (hpassed : a.passed ⊆ b.passed)
    (howes : ∀ m, t.owes = some m → t'.owes = some m ∨ ∃ fn, (fn, m) ∈ b.passed) :
    NoneLost { b with threads := a.threads.set k t' } := by
  intro m hm
  rcases h m (htaken ▸ hm) with hret | ⟨fn, hpass⟩ | ⟨u, hu, huowes⟩
  · exact .inl (hreturned ▸ hret)
  · exact .inr (.inl ⟨fn, hpassed hpass⟩)
  · by_cases hut : u = t
    · subst hut
      rcases howes m huowes with howes | hpass
      · exact .inr (.inr ⟨t', mem_set_self hk t', howes⟩)
      · exact .inr (.inl hpass)
    · exact .inr (.inr ⟨u, mem_set_of_ne hk hu hut t', huowes⟩)

theorem NoneLost.turn {a b : Traffic} (h : a.NoneLost) {k : ℕ} {t t' : BgThread}
    (hk : a.threads[k]? = some t) (hsome : ∀ m, t = .holding m → a.listeners ≠ [])
    (hturn : t.Turn a t' b) : NoneLost { b with threads := a.threads.set k t' } := by
  cases hturn with
  | idle hrun howes hhand =>
    exact h.set hk rfl rfl (List.Subset.refl _) fun m hm => absurd (howes.symm.trans hm) (by simp)
  | expired hitems => exact h.set hk rfl rfl (List.Subset.refl _) fun m hm => nomatch hm
  | @locked m hfree =>
    refine h.set hk rfl rfl (List.Subset.refl _) fun m' hm' => .inl ?_
    have hne := hsome m rfl
    cases hl : a.listeners with
    | nil => exact absurd hl hne
    | cons l ls => exact hm'
  | @called m fn rest =>
    refine h.set hk rfl rfl (List.subset_append_left _ _) fun m' hm' => .inr ⟨fn, ?_⟩
    cases hm'
    exact List.mem_append_right _ List.mem_cons_self
  | @took t m rest hitems =>
    have hold :
        NoneLost { a with ring := a.ring.advance, threads := a.threads.set k (.holding m) } :=
      h.set hk rfl rfl (List.Subset.refl _) fun m' hm' => nomatch hm'
    intro m' hm'
    rcases List.mem_append.1 hm' with hm' | hm'
    · exact hold m' hm'
    · cases List.mem_singleton.1 hm'
      exact .inr (.inr ⟨_, mem_set_self hk _, rfl⟩)

end Traffic

namespace SharedReader

/-- A background thread that dispatches a message finds a listener. -/
def DispatchesToSomebody (s : SharedReader) : ReaderStep → Prop
  | .thread k _ => ∀ m, s.threads[k]? = some (.holding m) → s.listeners ≠ []
  | _ => True

theorem Move.noneLost {s : SharedReader} {l : ReaderStep} {b : Traffic} (hm : s.Move l b)
    (hsome : s.DispatchesToSomebody l) (h : s.NoneLost) : b.NoneLost := by
  cases hm with
  | idle | arrived | added | removed | expired => exact h
  | turned hk hturn => exact h.turn hk (fun m hm => hsome m (hm ▸ hk)) hturn
  | spawned =>
    intro m hm
    refine (h m hm).imp_right (Or.imp_right ?_)
    rintro ⟨t, ht, howes⟩
    exact ⟨t, List.mem_append_left _ ht, howes⟩
  | read =>
    intro m hm
    rcases List.mem_append.1 hm with hm | hm
    · exact (h m hm).imp_left (List.mem_append_left _)
    · exact .inl (List.mem_append_right _ hm)

/-- A dispatch that finds no listener loses the message. -/
theorem dispatchesToSomebody_of_noneLost {s s' : SharedReader} {l : ReaderStep} (h : s.Handled)
    (hs : s.step l = some s') (hlost : s'.NoneLost) : s.DispatchesToSomebody l := by
  cases l with
  | thread k now =>
    intro m hk hnone
    simp only [step, hk, Option.bind_some, advanceThread] at hs
    split_ifs at hs with hlock
    · cases hs
    · cases hs
      refine h.lost hk ?_
      simpa [hnone] using hlost
  | arrive | disconnect | call | client => trivial

/-- **No message is lost, in exactly the runs in which every dispatch of a message finds a
listener**, for any number of clients, listeners and background threads. -/
theorem no_message_lost_iff (capacity : ℕ) (expiration : Option Duration) (n : ℕ)
    (ls : List ReaderStep) :
    Always step (fun s => s.NoneLost) (new capacity expiration n) ls ↔
      EachStep step DispatchesToSomebody (new capacity expiration n) ls := by
  have hinv := always_handled capacity expiration n ls
  constructor
  · intro hkept
    refine EachStep.of_always_post (fun s l s' h hs h' => ?_) (hinv.and hkept)
    exact dispatchesToSomebody_of_noneLost h.1 hs h'.2
  · intro hsome
    refine Always.of_inv (fun s l s' h hop hs => (step_move hs).noneLost hop h) ?_ hsome
    intro m hm
    cases hm

/-- A message that arrives while the background thread waits for one, after the only listener was
removed, is taken by that thread and lost. -/
theorem message_lost_after_removal :
    ∃ s : SharedReader,
      run step (new 4 none 1)
        [.call 0 (.addListener 7) 0, .client 0 0, .client 0 0, .client 0 0, .thread 0 0,
          .call 0 (.removeListener 7) 0, .arrive 1, .thread 0 1, .thread 0 1, .thread 0 1,
          .thread 0 1] = some s ∧
      s.taken = [0] ∧ s.returned = [] ∧ s.passed = [] ∧ s.threads = [.exited] ∧
      s.callbacksActive = false ∧ s.ring.items = [] ∧ ¬ s.NoneLost := by
  refine ⟨_, rfl, rfl, rfl, rfl, rfl, rfl, rfl, fun h => ?_⟩
  rcases h 0 List.mem_cons_self with hret | ⟨fn, hpass⟩ | ⟨t, ht, howes⟩
  · cases hret
  · cases hpass
  · cases List.mem_singleton.1 ht
    cases howes

/-! ## What a client can do about it -/

/-- The thread has looked at the flag and not come back to it. -/
def isPast : BgThread → Bool
  | .receiving | .holding _ | .calling _ _ => true
  | .head | .exited => false

/-- The client has pushed a listener and not yet made sure of a background thread. -/
def isAdding : Client → Bool
  | .added | .starting | .spawning => true
  | .idle | .polling _ => false

/-- The removal of the last listener finds every background thread about to look at the flag. -/
def RemovesLastQuietly (s : SharedReader) : ReaderStep → Prop
  | .call _ (.removeListener id) _ =>
      (s.removeListener id).2.listeners = [] → ∀ t ∈ s.threads, ¬ isPast t
  | _ => True

/-- Without listeners, the reader is not in callback mode, and nobody relies on it to be. -/
def Settled (s : SharedReader) : Prop :=
  s.listeners = [] →
    s.callbacksActive = false ∧ (∀ c ∈ s.clients, ¬ isAdding c) ∧ ∀ t ∈ s.threads, ¬ isPast t

theorem callbacksActive_removeListener {s : SharedReader} {id : BitVec 32}
    (h : (s.removeListener id).2.listeners = []) :
    (s.removeListener id).2.callbacksActive = false ∨
      s.listeners = [] ∧ (s.removeListener id).2.callbacksActive = s.callbacksActive := by
  unfold removeListener removeFirst at h ⊢
  cases hf : s.listeners.findIdx? (fun b => b.id == id) with
  | none =>
    rw [hf] at h
    exact .inr ⟨by simpa using h, by simp⟩
  | some i =>
    rw [hf] at h
    left
    dsimp only at h ⊢
    have hnil : swapRemove s.listeners i = [] := by
      split_ifs at h <;> exact h
    simp [hnil, setCallbackMode]

theorem isAdding_poll (s : SharedReader) (call : PollCall) : isAdding (s.poll call).1 = false := by
  unfold poll
  cases s.inCallbackMode <;> rfl

theorem advanceClient_polling {s : SharedReader} {now : Instant} {call : PollCall}
    {next : Client × SharedReader} (h : s.advanceClient now (.polling call) = some next) :
    isAdding next.1 = false ∧ next.2.threads = s.threads ∧
      next.2.callbacksActive = s.callbacksActive := by
  simp only [advanceClient] at h
  by_cases hover : call.isOver s.expiration
  · rw [if_pos hover] at h
    cases h
    exact ⟨rfl, rfl, rfl⟩
  · rw [if_neg hover] at h
    split at h
    · split at h <;> cases h <;> exact ⟨rfl, rfl, rfl⟩
    · split_ifs at h
      cases h
      exact ⟨rfl, rfl, rfl⟩

theorem advanceThread_of_head {s : SharedReader} {now : Instant} (hoff : s.callbacksActive = false)
    {t : BgThread} {next : BgThread × SharedReader} (ht : ¬ isPast t)
    (h : s.advanceThread now t = some next) : next = (.exited, s) := by
  cases t with
  | head => cases h; rw [hoff]; rfl
  | exited => cases h
  | receiving | holding | calling => exact absurd rfl ht

theorem Settled.step {s s' : SharedReader} {l : ReaderStep} (h : s.Settled)
    (hone : s.clients.length = 1) (hquiet : s.RemovesLastQuietly l) (hs : s.step l = some s') :
    s'.Settled := by
  cases step_stepped hs with
  | arrived | disconnected => exact h
  | added =>
    intro hnil
    simp [pushListener] at hnil
  | @removed j id now hidle =>
    intro hnil
    refine ⟨?_, ?_, ?_⟩
    · rcases callbacksActive_removeListener hnil with hoff | ⟨hempty, hsame⟩
      · exact hoff
      · exact hsame.trans (h hempty).1
    · -- The one client is in no call.
      obtain ⟨c, hc⟩ := List.length_eq_one_iff.1 hone
      rw [hc] at hidle
      cases j with
      | zero => cases hidle; simp [hc, isAdding]
      | succ j => cases hidle
    · intro t ht
      have hthreads := congrArg Traffic.threads (toTraffic_removeListener s id)
      exact hquiet hnil t (hthreads ▸ ht)
  | polled =>
    intro hnil
    obtain ⟨hoff, hadd, hpast⟩ := h hnil
    exact ⟨hoff, forall_mem_set hadd (by simp [isAdding_poll]), hpast⟩
  | @client j now c next hj hnext =>
    have hmem := mem_of_getElem? hj
    cases c with
    | idle => cases hnext
    | added | starting | spawning =>
      cases hnext
      intro hnil
      exact absurd rfl ((h hnil).2.1 _ hmem)
    | polling call =>
      obtain ⟨hlist, -, hclients⟩ := advanceClient_frame hnext
      obtain ⟨hnot, hthreads, hmode⟩ := advanceClient_polling hnext
      intro hnil
      obtain ⟨hoff, hadd, hpast⟩ := h (hlist ▸ hnil)
      refine ⟨hmode.trans hoff, ?_, fun t ht => hpast t (hthreads ▸ ht)⟩
      show ∀ c ∈ next.2.clients.set j next.1, ¬ isAdding c
      rw [hclients]
      exact forall_mem_set hadd (by simp [hnot])
  | @thread k now t next hk hnext =>
    intro hnil
    obtain ⟨hoff, hadd, hpast⟩ := h ((advanceThread_turn hnext).1.listeners_eq ▸ hnil)
    cases advanceThread_of_head hoff (hpast t (mem_of_getElem? hk)) hnext
    exact ⟨hoff, hadd, forall_mem_set hpast (by simp [isPast])⟩

theorem length_clients_step {s s' : SharedReader} {l : ReaderStep} (hs : s.step l = some s') :
    s'.clients.length = s.clients.length := by
  cases step_stepped hs with
  | arrived | disconnected => rfl
  | added | removed | polled => exact List.length_set
  | client hj hnext =>
    exact List.length_set.trans (congrArg List.length (advanceClient_frame hnext).2.2)
  | thread hk hnext => exact congrArg List.length (advanceThread_frame hnext).2

/-- **One client that removes its last listener only while every background thread is about to look
at the flag loses no message.** -/
theorem no_message_lost_of_quiet_removals (capacity : ℕ) (expiration : Option Duration)
    (ls : List ReaderStep)
    (hquiet : EachStep step RemovesLastQuietly (new capacity expiration 1) ls) :
    Always step (fun s => s.NoneLost) (new capacity expiration 1) ls := by
  refine (no_message_lost_iff capacity expiration 1 ls).2 ?_
  have hinv : Always step (fun s => s.clients.length = 1 ∧ s.Settled)
      (new capacity expiration 1) ls := by
    refine Always.of_inv (fun s l s' h hop hs => ?_) ⟨rfl, ?_⟩ hquiet
    · exact ⟨(length_clients_step hs).trans h.1, h.2.step h.1 hop hs⟩
    · intro _
      simp [new, isAdding]
  refine EachStep.of_always (fun s l h _ => ?_) hinv hquiet
  cases l with
  | thread k now =>
    intro m hk hnil
    exact (h.2 hnil).2.2 _ (mem_of_getElem? hk) rfl
  | arrive | disconnect | call | client => trivial

end SharedReader

end Rounac

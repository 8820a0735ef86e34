import Rounac.Networks.Connection
import Rounac.Networks.Listeners

/-!
# Expired messages

With an expiration, a message that is older when it is checked is dropped. Four loops do that, with
exits of their own: `read`, `read_timeout`, `try_read` and the dispatch of `add_listener`. All four
take messages off the front of the ring, and what they return or dispatch is what survives of those
they took (`survivors`), in order. `expiration_drops_only_expired` says so, with what each leaves in
the ring.

In callback mode the polling calls do not come to their loops: they err and leave the ring alone.
-/

namespace Rounac

open StepSystem OverwriteRing

/-! ## Survivors -/

section

variable {Val : Type}

/-- What is within the expiration window at its check, of some messages and the times at which they
were checked. -/
def survivors (expiration : Duration) (checked : List (Stamped Val × Instant)) : List Val :=
  (checked.filter fun c => c.2 - c.1.1 ≤ expiration).map fun c => c.1.2

variable {expiration : Duration}

theorem survivors_cons_of_le {c : Stamped Val × Instant} (h : c.2 - c.1.1 ≤ expiration)
    (checked : List (Stamped Val × Instant)) :
    survivors expiration (c :: checked) = c.1.2 :: survivors expiration checked := by
  simp only [survivors, List.filter_cons, h, decide_true, if_true, List.map_cons]

theorem survivors_cons_of_lt {c : Stamped Val × Instant} (h : ¬ c.2 - c.1.1 ≤ expiration)
    (checked : List (Stamped Val × Instant)) :
    survivors expiration (c :: checked) = survivors expiration checked := by
  simp only [survivors, List.filter_cons, h, decide_false, Bool.false_eq_true, if_false]

theorem survivors_append (xs ys : List (Stamped Val × Instant)) :
    survivors expiration (xs ++ ys) = survivors expiration xs ++ survivors expiration ys := by
  simp [survivors]

/-! ## Polling calls -/

/-- The first `n` messages, checked at successive clock readings. -/
def checks (clock : ℕ → Instant) (items : List (Stamped Val)) (n : ℕ) :
    List (Stamped Val × Instant) :=
  (items.take n).mapIdx fun k x => (x, clock k)

def ReadRes.messages : ReadRes Val → List Val
  | .msg v => [v]
  | _ => []

/-- A polling call took the first `n` messages and ended with `res`: what survives of them is what
it returned, and a message that it returned is the last one it took. -/
structure Sifts (expiration : Duration) (clock : ℕ → Instant) (items : List (Stamped Val)) (n : ℕ)
    (res : ReadRes Val) : Prop where
  bound : n ≤ items.length
  returned : survivors expiration (checks clock items n) = res.messages
  last : ∀ v, res = .msg v → ∃ t, (items.take n).getLast? = some (t, v)

variable {clock : ℕ → Instant} {items : List (Stamped Val)} {x : Stamped Val} {n : ℕ}
  {res : ReadRes Val}

theorem Sifts.nothing_taken (h : ∀ v, res ≠ .msg v) : Sifts expiration clock items 0 res where
  bound := Nat.zero_le _
  returned := by
    cases res with
    | msg v => exact absurd rfl (h v)
    | nothing | err | waiting => rfl
  last v hv := absurd hv (h v)

theorem Sifts.fresh (h : clock 0 - x.1 ≤ expiration) (items : List (Stamped Val)) :
    Sifts expiration clock (x :: items) 1 (.msg x.2) where
  bound := by rw [List.length_cons]; omega
  returned := survivors_cons_of_le (c := (x, clock 0)) h []
  last v hv := by
    cases hv
    exact ⟨x.1, rfl⟩

theorem Sifts.expired (h : Sifts expiration (fun k => clock (k + 1)) items n res)
    (hx : ¬ clock 0 - x.1 ≤ expiration) : Sifts expiration clock (x :: items) (n + 1) res where
  bound := by
    have hbound := h.bound
    rw [List.length_cons]
    omega
  returned := by
    rw [← h.returned, checks, List.take_succ_cons, List.mapIdx_cons]
    exact survivors_cons_of_lt (c := (x, clock 0)) hx _
  last v hv := by
    obtain ⟨t, ht⟩ := h.last v hv
    refine ⟨t, ?_⟩
    rw [List.take_succ_cons, List.getLast?_cons, ht]
    rfl

def Recv.isGot : Recv Val → Bool
  | .got _ _ => true
  | _ => false

/-- The answers of a ring with unread messages, and then `tail`. -/
def answers (items : List (Stamped Val)) (tail : List (Recv Val)) (clock : ℕ → Instant) :
    Script Val :=
  (items.map (fun x => Recv.got x.1 x.2) ++ tail).mapIdx fun k a => (a, clock k)

theorem answers_cons (x : Stamped Val) (items : List (Stamped Val)) (tail : List (Recv Val))
    (clock : ℕ → Instant) :
    answers (x :: items) tail clock =
      (.got x.1 x.2, clock 0) :: answers items tail fun k => clock (k + 1) := by
  simp only [answers, List.map_cons, List.cons_append, List.mapIdx_cons]

/-- The messages that are left of a script. -/
def unreadOf (left : Script Val) : ℕ := (left.filter fun a => a.1.isGot).length

theorem unreadOf_answers (items : List (Stamped Val)) {tail : List (Recv Val)}
    (htail : tail = [] ∨ tail = [.nothing] ∨ tail = [.disconnected]) (clock : ℕ → Instant) :
    unreadOf (answers items tail clock) = items.length := by
  induction items generalizing clock with
  | nil => rcases htail with rfl | rfl | rfl <;> rfl
  | cons x items ih =>
    rw [answers_cons]
    exact congrArg Nat.succ (ih _)

namespace PollCall

theorem loop_of_isOver {call : PollCall} (h : call.isOver (some expiration) = true)
    (script : Script Val) : loop (some expiration) call script = (.nothing, script) := by
  cases script with
  | nil => rw [loop, if_pos h]
  | cons a rest => rw [loop, if_pos h]

variable (expiration) in
theorem loop_tail (call : PollCall) {tail : List (Recv Val)}
    (htail : tail = [] ∨ tail = [.nothing] ∨ tail = [.disconnected]) (clock : ℕ → Instant) :
    (∀ v, (loop (some expiration) call (answers [] tail clock)).1 ≠ .msg v) ∧
      unreadOf (loop (some expiration) call (answers [] tail clock)).2 = 0 := by
  by_cases hover : call.isOver (some expiration)
  · rw [loop_of_isOver hover]
    exact ⟨fun v => by simp, unreadOf_answers [] htail clock⟩
  · rcases htail with rfl | rfl | rfl
    · simp [answers, loop, hover, unreadOf]
    · cases call <;> simp [answers, loop, hover, receive, unreadOf]
    · simp [answers, loop, hover, receive, unreadOf]

variable (expiration) in
/-- **A polling call sifts the messages**, and has taken them all when `try_read` ends without
one. -/
theorem loop_sifts (call : PollCall) (items : List (Stamped Val)) {tail : List (Recv Val)}
    (htail : tail = [] ∨ tail = [.nothing] ∨ tail = [.disconnected]) (clock : ℕ → Instant) :
    ∃ n, Sifts expiration clock items n (loop (some expiration) call (answers items tail clock)).1 ∧
      unreadOf (loop (some expiration) call (answers items tail clock)).2 = items.length - n ∧
      (call = .tryRead →
        (∀ v, (loop (some expiration) call (answers items tail clock)).1 ≠ .msg v) →
        n = items.length) := by
  induction items generalizing call clock with
  | nil =>
    obtain ⟨hnone, hleft⟩ := loop_tail expiration call htail clock
    exact ⟨0, .nothing_taken hnone, hleft, fun _ _ => rfl⟩
  | cons x items ih =>
    by_cases hover : call.isOver (some expiration)
    · -- `read_timeout` has no time left.
      rw [loop_of_isOver hover]
      refine ⟨0, .nothing_taken fun v h => (by cases h), unreadOf_answers _ htail clock, ?_⟩
      intro htry
      rw [htry] at hover
      cases hover
    · rw [answers_cons, loop, if_neg hover]
      by_cases hfresh : clock 0 - x.1 ≤ expiration
      · have hreceive : call.receive (some expiration) (.got x.1 x.2) (clock 0) =
            .inr (.msg x.2) := by
          simp only [receive, isFresh, hfresh, decide_true, if_true]
        simp only [hreceive]
        refine ⟨1, .fresh hfresh items, ?_, fun _ hno => absurd rfl (hno x.2)⟩
        rw [unreadOf_answers items htail, List.length_cons, Nat.add_sub_cancel]
      · have hreceive : call.receive (some expiration) (.got x.1 x.2) (clock 0) =
            .inl (call.retry (clock 0)) := by
          simp only [receive, isFresh, hfresh, decide_false, Bool.false_eq_true, if_false]
        simp only [hreceive]
        obtain ⟨n, hsifts, hleft, hall⟩ := ih (call.retry (clock 0)) fun k => clock (k + 1)
        refine ⟨n + 1, hsifts.expired hfresh, ?_, fun htry hno => ?_⟩
        · rw [hleft, List.length_cons, Nat.add_sub_add_right]
        · subst htry
          rw [hall rfl hno, List.length_cons]

end PollCall

/-- The polling calls of a reader. -/
inductive Polling
  | read
  | tryRead
  | readTimeout (timeout : Duration) (start : Instant)
deriving DecidableEq, Repr

def Polling.toCall : Polling → PollCall
  | .read => .read
  | .tryRead => .tryRead
  | .readTimeout timeout start => .readTimeout timeout start timeout

namespace AsbReader

variable {r : AsbReader} {asb : NetAsb Val}

/-- A polling call while nothing arrives, and what it leaves of the script. -/
def poll (r : AsbReader) (asb : NetAsb Val) (clock : ℕ → Instant) :
    Polling → ReadRes Val × Script Val
  | .read => r.read (r.script asb clock [])
  | .tryRead => r.tryRead (r.script asb clock [.nothing])
  | .readTimeout timeout start => r.readTimeout timeout start (r.script asb clock [.nothing])

/-- The unread messages after a polling call. -/
def unreadAfter (r : AsbReader) (asb : NetAsb Val) (clock : ℕ → Instant) (call : Polling) :
    List (Stamped Val) :=
  r.unread (asb.consume r (r.poll asb clock call).2)

/-- A call that leaves `k` messages of its script leaves the last `k` in the ring. -/
theorem unread_consume (r : AsbReader) (asb : NetAsb Val) (left : Script Val) :
    r.unread (asb.consume r left) =
      (r.unread asb).drop ((r.unread asb).length - unreadOf left) := by
  show (Function.update asb.rings r.buffer
    (RingBuf.advance^[(r.unread asb).length - unreadOf left] (asb.rings r.buffer))
      r.buffer).items = _
  rw [Function.update_self, RingBuf.items_iterate_advance]
  rfl

variable (asb) in
theorem poll_eq_loop (hpoll : r.callbacksActive = false) (clock : ℕ → Instant) (call : Polling) :
    ∃ tail, (tail = [] ∨ tail = [.nothing] ∨ tail = [.disconnected]) ∧
      r.poll asb clock call =
        PollCall.loop r.expiration call.toCall (answers (r.unread asb) tail clock) := by
  have hscript : ∀ idle : List (Recv Val), idle = [] ∨ idle = [.nothing] →
      ∃ tail, (tail = [] ∨ tail = [.nothing] ∨ tail = [.disconnected]) ∧
        r.script asb clock idle = answers (r.unread asb) tail clock := by
    intro idle hidle
    refine ⟨_, ?_, rfl⟩
    split_ifs
    · exact .inr (.inr rfl)
    · exact hidle.imp_right .inl
  cases call with
  | read =>
    obtain ⟨tail, htail, heq⟩ := hscript [] (.inl rfl)
    exact ⟨tail, htail, by rw [poll, read_eq_loop hpoll, heq]; rfl⟩
  | tryRead =>
    obtain ⟨tail, htail, heq⟩ := hscript [.nothing] (.inr rfl)
    exact ⟨tail, htail, by rw [poll, tryRead_eq_loop hpoll, heq]; rfl⟩
  | readTimeout timeout start =>
    obtain ⟨tail, htail, heq⟩ := hscript [.nothing] (.inr rfl)
    exact ⟨tail, htail, by rw [poll, readTimeout_eq_loop hpoll, heq]; rfl⟩

/-- **The polling calls drop only expired messages.** -/
theorem poll_sifts (hpoll : r.callbacksActive = false) (hexp : r.expiration = some expiration)
    (clock : ℕ → Instant) (call : Polling) :
    ∃ n, Sifts expiration clock (r.unread asb) n (r.poll asb clock call).1 ∧
      r.unreadAfter asb clock call = (r.unread asb).drop n ∧
      (call = .tryRead → (∀ v, (r.poll asb clock call).1 ≠ .msg v) →
        r.unreadAfter asb clock call = []) := by
  obtain ⟨tail, htail, hloop⟩ := poll_eq_loop asb hpoll clock call
  rw [hexp] at hloop
  obtain ⟨n, hsifts, hleft, hall⟩ :=
    PollCall.loop_sifts expiration call.toCall (r.unread asb) htail clock
  rw [← hloop] at hsifts hleft hall
  have hafter : r.unreadAfter asb clock call = (r.unread asb).drop n := by
    rw [unreadAfter, unread_consume, hleft, Nat.sub_sub_self hsifts.bound]
  refine ⟨n, hsifts, hafter, fun htry hno => ?_⟩
  rw [hafter, hall (by rw [htry]; rfl) hno]
  exact List.drop_length

/-- In callback mode a polling call errs, and takes nothing. -/
theorem poll_of_callbacks (hcallbacks : r.callbacksActive = true) (clock : ℕ → Instant)
    (call : Polling) :
    (∃ e, (r.poll asb clock call).1 = .err e) ∧
      r.unreadAfter asb clock call = r.unread asb := by
  -- The guard comes first: the call ends with its whole script unread.
  have hscript : ∀ idle : List (Recv Val), idle = [] ∨ idle = [.nothing] →
      r.unread (asb.consume r (r.script asb clock idle)) = r.unread asb := by
    intro idle hidle
    have htail : (if r.disconnected asb then [Recv.disconnected] else idle) = [] ∨
        (if r.disconnected asb then [Recv.disconnected] else idle) = [.nothing] ∨
        (if r.disconnected asb then [Recv.disconnected] else idle) = [.disconnected] := by
      split_ifs
      · exact .inr (.inr rfl)
      · exact hidle.imp_right .inl
    have hall : unreadOf (r.script asb clock idle) = (r.unread asb).length :=
      unreadOf_answers _ htail clock
    rw [unread_consume, hall, Nat.sub_self, List.drop_zero]
  have herr : r.callbackModeError = .error (.illErr "Reader has active listeners") :=
    if_pos hcallbacks
  cases call with
  | read =>
    simp only [unreadAfter, poll, read, herr]
    exact ⟨⟨_, rfl⟩, hscript [] (.inl rfl)⟩
  | tryRead =>
    simp only [unreadAfter, poll, tryRead, herr]
    exact ⟨⟨_, rfl⟩, hscript [.nothing] (.inr rfl)⟩
  | readTimeout timeout start =>
    simp only [unreadAfter, poll, readTimeout, herr]
    exact ⟨⟨_, rfl⟩, hscript [.nothing] (.inr rfl)⟩

end AsbReader

end

/-! ## The dispatch loop -/

def dispatches (fns : List ListenerFn) (ms : List MsgId) : List (ListenerFn × MsgId) :=
  ms.flatMap fun m => fns.map fun fn => (fn, m)

/-- The callbacks that a background thread is yet to make with its message. -/
def BgThread.pending (fns : List ListenerFn) : BgThread → List (ListenerFn × MsgId)
  | .holding m => fns.map fun fn => (fn, m)
  | .calling m rest => rest.map fun fn => (fn, m)
  | _ => []

namespace SharedReader

variable {s s' s'' : SharedReader} {k : ℕ} {t t' t'' : BgThread} {nows : List Instant}
  {expiration : Duration}

/-- The listeners' functions, in the order of the list. -/
def fns (s : SharedReader) : List ListenerFn := s.listeners.map Listener.fn

/-- The `k`-th background thread got from `t` to `t'`, and the ring and the list of listeners with
it from `s` to `s'`, at the clock readings `nows`. It took the messages `checked` off the ring, each
with the reading at its check. What survives of them goes to every listener, in order: it was passed
to them, or is about to be. -/
structure DispatchRun (expiration : Duration) (k : ℕ) (nows : List Instant) (s : SharedReader)
    (t : BgThread) (checked : List (Stamped MsgId × Instant)) (s' : SharedReader)
    (t' : BgThread) : Prop where
  thread : s'.threads[k]? = some t'
  listeners : s'.listeners = s.listeners
  expiring : s'.expiration = s.expiration
  removed : checked.map Prod.fst ++ s'.ring.items = s.ring.items
  clock : (checked.map Prod.snd).Sublist nows
  passed : s'.passed ++ t'.pending s.fns =
    s.passed ++ t.pending s.fns ++ dispatches s.fns (survivors expiration checked)

theorem DispatchRun.refl (hk : s.threads[k]? = some t) :
    DispatchRun expiration k [] s t [] s t :=
  ⟨hk, rfl, rfl, rfl, List.Sublist.slnil, (List.append_nil _).symm⟩

theorem DispatchRun.trans {nows' : List Instant} {xs ys : List (Stamped MsgId × Instant)}
    (h : DispatchRun expiration k nows s t xs s' t')
    (h' : DispatchRun expiration k nows' s' t' ys s'' t'') :
    DispatchRun expiration k (nows ++ nows') s t (xs ++ ys) s'' t'' where
  thread := h'.thread
  listeners := h'.listeners.trans h.listeners
  expiring := h'.expiring.trans h.expiring
  removed := by rw [List.map_append, List.append_assoc, h'.removed, h.removed]
  clock := by
    rw [List.map_append]
    exact h.clock.append h'.clock
  passed := by
    have hfns : s'.fns = s.fns := congrArg (List.map Listener.fn) h.listeners
    have hpassed := h'.passed
    rw [hfns, h.passed] at hpassed
    rw [hpassed, survivors_append, dispatches, dispatches, dispatches, List.flatMap_append,
      List.append_assoc _ (List.flatMap _ _)]

theorem DispatchRun.idle {now : Instant} (hthread : s'.threads[k]? = some t')
    (hlisteners : s'.listeners = s.listeners) (hexp : s'.expiration = s.expiration)
    (hring : s'.ring = s.ring)
    (hpassed : s'.passed ++ t'.pending s.fns = s.passed ++ t.pending s.fns) :
    DispatchRun expiration k [now] s t [] s' t' where
  thread := hthread
  listeners := hlisteners
  expiring := hexp
  removed := by rw [hring]; rfl
  clock := List.nil_sublist _
  passed := hpassed.trans (List.append_nil _).symm

/-- One step of the thread: it takes at most the message at the front of the ring. -/
theorem dispatchRun_step {now : Instant} (hexp : s.expiration = some expiration)
    (hk : s.threads[k]? = some t) (h : s.step (.thread k now) = some s') :
    ∃ checked t', DispatchRun expiration k [now] s t checked s' t' := by
  obtain ⟨hlt, -⟩ := List.getElem?_eq_some_iff.1 hk
  simp only [step, hk, Option.bind_some] at h
  obtain ⟨next, hnext, rfl⟩ := Option.map_eq_some_iff.1 h
  have hset : (s.threads.set k next.1)[k]? = some next.1 := List.getElem?_set_self hlt
  cases t with
  | head =>
    cases hnext
    refine ⟨[], _, .idle hset rfl rfl rfl ?_⟩
    cases s.callbacksActive <;> rfl
  | receiving =>
    simp only [advanceThread] at hnext
    cases hr : s.ring.recv with
    | none =>
      rw [hr] at hnext
      cases hnext
      refine ⟨[], _, .idle hset rfl rfl rfl ?_⟩
      cases s.connected <;> rfl
    | some got =>
      obtain ⟨⟨stamp, m⟩, ring⟩ := got
      obtain ⟨rest, hitems, rfl⟩ := RingBuf.exists_of_recv hr
      rw [hr] at hnext
      dsimp only at hnext
      have htook : [((stamp, m), now)].map Prod.fst ++ s.ring.advance.items = s.ring.items := by
        rw [RingBuf.items_advance, hitems]
        rfl
      have hcheck : isFresh s.expiration stamp now = decide (now - stamp ≤ expiration) := by
        rw [hexp]
        rfl
      -- The message is checked once, at the reading of the clock of this very step.
      by_cases hfresh : now - stamp ≤ expiration
      · rw [if_pos (hcheck.trans (decide_eq_true hfresh))] at hnext
        cases hnext
        refine ⟨[((stamp, m), now)], _, hset, rfl, rfl, htook, List.Sublist.refl _, ?_⟩
        rw [survivors_cons_of_le hfresh]
        simp [BgThread.pending, dispatches, survivors]
      · rw [if_neg (by rw [hcheck, decide_eq_true_iff]; exact hfresh)] at hnext
        cases hnext
        refine ⟨[((stamp, m), now)], _, hset, rfl, rfl, htook, List.Sublist.refl _, ?_⟩
        rw [survivors_cons_of_lt hfresh]
        exact (List.append_nil _).symm
  | holding m =>
    simp only [advanceThread] at hnext
    split_ifs at hnext
    cases hnext
    exact ⟨[], _, .idle hset rfl rfl rfl rfl⟩
  | calling m rest =>
    cases rest with
    | nil =>
      cases hnext
      exact ⟨[], _, .idle hset rfl rfl rfl rfl⟩
    | cons fn rest =>
      cases hnext
      exact ⟨[], _, .idle hset rfl rfl rfl (List.append_assoc _ _ _)⟩
  | exited => cases hnext

/-- **The dispatch loop drops only expired messages**, however long it runs. -/
theorem exists_dispatchRun (hexp : s.expiration = some expiration) (hk : s.threads[k]? = some t)
    (h : run step s (nows.map (.thread k)) = some s') :
    ∃ checked t', DispatchRun expiration k nows s t checked s' t' := by
  induction nows generalizing s t with
  | nil =>
    cases h
    exact ⟨[], t, .refl hk⟩
  | cons now nows ih =>
    obtain ⟨s₁, hs₁, hrun⟩ := Option.bind_eq_some_iff.1 h
    obtain ⟨xs, t₁, hstep⟩ := dispatchRun_step hexp hk hs₁
    obtain ⟨ys, t', hrest⟩ := ih (hstep.expiring.trans hexp) hstep.thread hrun
    exact ⟨xs ++ ys, t', hstep.trans hrest⟩

/-- With a listener, every message that survives is passed on. -/
theorem DispatchRun.mem_passed {checked : List (Stamped MsgId × Instant)}
    (h : DispatchRun expiration k nows s t checked s' t') (hfns : s.fns ≠ []) {m : MsgId}
    (hm : m ∈ survivors expiration checked) : ∃ fn, (fn, m) ∈ s'.passed ++ t'.pending s.fns := by
  obtain ⟨fn, hfn⟩ := List.exists_mem_of_ne_nil s.fns hfns
  refine ⟨fn, ?_⟩
  rw [h.passed]
  refine List.mem_append_right _ (List.mem_flatMap.2 ⟨m, hm, ?_⟩)
  exact List.mem_map_of_mem hfn

end SharedReader

/-- **Under an expiration only expired messages are lost**, in the polling calls outside callback
mode and in the dispatch loop. In callback mode the polling calls err, and lose nothing. -/
theorem expiration_drops_only_expired (Val : Type) (expiration : Duration) :
    (∀ (r : AsbReader) (asb : NetAsb Val) (clock : ℕ → Instant) (call : Polling),
      r.expiration = some expiration → r.callbacksActive = false →
      ∃ n, Sifts expiration clock (r.unread asb) n (r.poll asb clock call).1 ∧
        r.unreadAfter asb clock call = (r.unread asb).drop n ∧
        (call = .tryRead → (∀ v, (r.poll asb clock call).1 ≠ .msg v) →
          r.unreadAfter asb clock call = [])) ∧
    (∀ (r : AsbReader) (asb : NetAsb Val) (clock : ℕ → Instant) (call : Polling),
      r.callbacksActive = true →
      (∃ e, (r.poll asb clock call).1 = .err e) ∧
        r.unreadAfter asb clock call = r.unread asb) ∧
    ∀ (s s' : SharedReader) (k : ℕ) (t : BgThread) (nows : List Instant),
      s.expiration = some expiration → s.threads[k]? = some t →
      run SharedReader.step s (nows.map (.thread k)) = some s' →
      ∃ checked t', SharedReader.DispatchRun expiration k nows s t checked s' t' ∧
        (s.fns ≠ [] → ∀ m ∈ survivors expiration checked,
          ∃ fn, (fn, m) ∈ s'.passed ++ t'.pending s.fns) := by
  refine ⟨fun r asb clock call hexp hpoll => AsbReader.poll_sifts hpoll hexp clock call,
    fun r asb clock call hcallbacks => AsbReader.poll_of_callbacks hcallbacks clock call, ?_⟩
  intro s s' k t nows hexp hk hrun
  obtain ⟨checked, t', h⟩ := SharedReader.exists_dispatchRun hexp hk hrun
  exact ⟨checked, t', h, fun hfns m hm => h.mem_passed hfns hm⟩

/-- A reader with an expiration, in callback mode or not. -/
def expiringReader (callbacksActive : Bool) : AsbReader where
  buffer := 0
  expiration := some 5
  ringmaster := 0
  mySenderId := 0
  net := ⟨0, .loopback "topic"⟩
  callbacksActive
  counter := "topic"
  ty := ⟨0⟩

/-- Its ring: at `10` the first message has expired, and the second has not. -/
def twoUnread : NetAsb Unit :=
  { (.new : NetAsb Unit) with rings := fun _ => ⟨2, [(0, ()), (8, ())], Nat.le_refl 2⟩ }

/-- The same two messages before a dispatch loop, with one listener. -/
def twoToDispatch : SharedReader :=
  { SharedReader.new 2 (some 5) 1 with
    ring := ⟨2, [(0, 0), (8, 1)], Nat.le_refl 2⟩
    listeners := [⟨7, 0⟩]
    threads := [.head]
    callbacksActive := true }

/-- The three cases, on two messages of which one has expired. -/
theorem expired_one_of_two :
    (∃ n, Sifts 5 (fun _ => 10) [(0, ()), (8, ())] n
        ((expiringReader false).poll twoUnread (fun _ => 10) .tryRead).1 ∧
      (expiringReader false).unreadAfter twoUnread (fun _ => 10) .tryRead =
        [(0, ()), (8, ())].drop n) ∧
    (∃ e, ((expiringReader true).poll twoUnread (fun _ => 10) .read).1 = .err e) ∧
    ∃ s' checked t',
      SharedReader.DispatchRun 5 0 [10, 10, 10, 10, 10, 10] twoToDispatch .head checked s' t' := by
  refine ⟨?_, ?_, ?_⟩
  · obtain ⟨n, hsifts, hafter, -⟩ := (expiration_drops_only_expired Unit 5).1
      (expiringReader false) twoUnread (fun _ => 10) .tryRead rfl rfl
    exact ⟨n, hsifts, hafter⟩
  · exact ((expiration_drops_only_expired Unit 5).2.1 (expiringReader true) twoUnread
      (fun _ => 10) .read rfl).1
  · obtain ⟨checked, t', h, -⟩ := (expiration_drops_only_expired Unit 5).2.2 twoToDispatch _ 0 .head
      [10, 10, 10, 10, 10, 10] rfl rfl rfl
    exact ⟨_, checked, t', h⟩

/-- In callback mode `try_read` errs and leaves the ring as it is. -/
theorem try_read_errs_without_emptying :
    ((expiringReader true).poll twoUnread (fun _ => 10) .tryRead).1 =
        .err (.illErr "Reader has active listeners") ∧
      (expiringReader true).unreadAfter twoUnread (fun _ => 10) .tryRead = [(0, ()), (8, ())] :=
  ⟨rfl, rfl⟩

end Rounac

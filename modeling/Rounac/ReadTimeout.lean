import Rounac.Lib.TimedRing
import Rounac.Networks.Reader

/-!
# The two paths of `read_timeout`

With an expiration `read_timeout` is a loop that receives while time remains, without one it is a
single receive. On messages that do not expire the two do the same, unless the timeout is zero: then
the loop is not entered and the call reports nothing, where the other path reports a disconnection,
or takes a message if the library's receive does so without time (`readTimeout_paths_agree_iff`).

`readTimeoutOn` is the call on a ring with its future, for any `recv_timeout` of the library. It
does what `AsbReader.readTimeout` does on the answers that this ring gives (`readTimeout_answers`).
-/

namespace Rounac

open OverwriteRing

namespace AsbReader

variable {Val : Type}

/-! ## The call on a channel -/

section

variable (lib : RecvTimeout (Stamped Val))

/-- The loop of `read_timeout` under an expiration. `clock` is what the call reads off the clock
after a receive that came back at a given time. -/
def readTimeoutLoopOn (clock : Instant → Instant) (expiration timeout : Duration) (start : Instant)
    (remaining : Duration) (c : Channel (Stamped Val)) : Res (Option Val) × Channel (Stamped Val) :=
  if remaining = 0 then (.ok none, c)
  else
    match _h : lib.recv remaining c with
    | (.got x, c') =>
      if clock c'.now - x.1 ≤ expiration then (.ok (some x.2), c')
      else
        readTimeoutLoopOn clock expiration timeout start (timeout - (clock c'.now - start)) c'
    | (.timeout, c') => (.ok none, c')
    | (.disconnected, c') => (.err closedErr, c')
    | (.panicked, c') => (.panicked, c')
termination_by c.size
decreasing_by exact lib.shrinks _h

/-- `read_timeout`, without an expiration. -/
def readTimeoutPlainOn (timeout : Duration) (c : Channel (Stamped Val)) :
    Res (Option Val) × Channel (Stamped Val) :=
  match lib.recv timeout c with
  | (.got x, c') => (.ok (some x.2), c')
  | (.timeout, c') => (.ok none, c')
  | (.disconnected, c') => (.err closedErr, c')
  | (.panicked, c') => (.panicked, c')

/-- `read_timeout` on a channel. -/
def readTimeoutOn (r : AsbReader) (clock : Instant → Instant) (timeout : Duration)
    (c : Channel (Stamped Val)) : Res (Option Val) × Channel (Stamped Val) :=
  match r.callbackModeError with
  | .error e => (.err e, c)
  | .ok () =>
    match r.expiration with
    | some expiration => readTimeoutLoopOn lib clock expiration timeout c.now timeout c
    | none => readTimeoutPlainOn lib timeout c

end

/-- What a call that came to an end returned. -/
def result : ReadRes Val → Option (Res (Option Val))
  | .msg v => some (.ok (some v))
  | .nothing => some (.ok none)
  | .err e => some (.err e)
  | .waiting => none

/-! ## The answers of the channel -/

variable {lib : RecvTimeout (Stamped Val)} {clock : Instant → Instant}
  {expiration timeout remaining : Duration} {start : Instant} {c c' : Channel (Stamped Val)}
  {x : Stamped Val}

theorem readTimeoutLoopOn_zero :
    readTimeoutLoopOn lib clock expiration timeout start 0 c = (.ok none, c) := by
  rw [readTimeoutLoopOn, if_pos rfl]

theorem readTimeoutLoopOn_eq (hpos : remaining ≠ 0) :
    readTimeoutLoopOn lib clock expiration timeout start remaining c =
      match lib.recv remaining c with
      | (.got x, c') =>
        if clock c'.now - x.1 ≤ expiration then (.ok (some x.2), c')
        else
          readTimeoutLoopOn lib clock expiration timeout start (timeout - (clock c'.now - start)) c'
      | (.timeout, c') => (.ok none, c')
      | (.disconnected, c') => (.err closedErr, c')
      | (.panicked, c') => (.panicked, c') := by
  rw [readTimeoutLoopOn, if_neg hpos]
  split <;> rename_i heq <;> rw [heq]

variable (lib clock expiration timeout start) in
/-- The loop ends: with a panic, or on the answers that the channel gives. -/
theorem exists_answers_loop (n : ℕ) (hsize : c.size < n) (remaining : Duration) :
    (readTimeoutLoopOn lib clock expiration timeout start remaining c).1 = .panicked ∨
    ∃ script : Script Val, result (readTimeoutLoop expiration timeout start remaining script).1 =
      some (readTimeoutLoopOn lib clock expiration timeout start remaining c).1 := by
  induction n generalizing c remaining with
  | zero => omega
  | succ n ih =>
    by_cases h0 : remaining = 0
    · subst h0
      exact .inr ⟨[], by rw [readTimeoutLoopOn_zero]; rfl⟩
    · rw [readTimeoutLoopOn_eq h0]
      rcases h : lib.recv remaining c with ⟨answer, c'⟩
      cases answer with
      | got x =>
        dsimp only
        by_cases hfresh : clock c'.now - x.1 ≤ expiration
        · refine .inr ⟨[(.got x.1 x.2, clock c'.now)], ?_⟩
          rw [readTimeoutLoop, if_neg h0, if_pos hfresh, if_pos hfresh]
          rfl
        · -- The message has expired, and the loop goes on with one less to come.
          have hlt := lib.shrinks h
          rw [if_neg hfresh]
          refine (ih (c := c') (by omega) (timeout - (clock c'.now - start))).imp_right ?_
          rintro ⟨script, hscript⟩
          refine ⟨(.got x.1 x.2, clock c'.now) :: script, ?_⟩
          rw [readTimeoutLoop, if_neg h0, if_neg hfresh, hscript]
      | timeout =>
        refine .inr ⟨[(.nothing, 0)], ?_⟩
        rw [readTimeoutLoop, if_neg h0]
        rfl
      | disconnected =>
        refine .inr ⟨[(.disconnected, 0)], ?_⟩
        rw [readTimeoutLoop, if_neg h0]
        rfl
      | panicked => exact .inl rfl

/-- On a channel, `read_timeout` is what it is on the channel's answers, unless it panics. -/
theorem readTimeout_answers (lib : RecvTimeout (Stamped Val)) (r : AsbReader)
    (clock : Instant → Instant) (timeout : Duration) (c : Channel (Stamped Val)) :
    (r.readTimeoutOn lib clock timeout c).1 = .panicked ∨
    ∃ script : Script Val, result (r.readTimeout timeout c.now script).1 =
      some (r.readTimeoutOn lib clock timeout c).1 := by
  unfold readTimeout readTimeoutOn
  cases r.callbackModeError with
  | error e => exact .inr ⟨[], rfl⟩
  | ok u =>
    cases r.expiration with
    | some expiration =>
      exact exists_answers_loop lib clock expiration timeout c.now _ (Nat.lt_succ_self c.size)
        timeout
    | none =>
      unfold readTimeoutPlainOn
      rcases lib.recv timeout c with ⟨answer, c'⟩
      cases answer with
      | got x => exact .inr ⟨[(.got x.1 x.2, 0)], rfl⟩
      | timeout => exact .inr ⟨[(.nothing, 0)], rfl⟩
      | disconnected => exact .inr ⟨[(.disconnected, 0)], rfl⟩
      | panicked => exact .inl rfl

/-! ## The two paths -/

/-- The message that a receive comes back with, if any, has not expired when it is checked. -/
def NoneExpired (lib : RecvTimeout (Stamped Val)) (clock : Instant → Instant)
    (expiration timeout : Duration) (c : Channel (Stamped Val)) : Prop :=
  ∀ x c', lib.recv timeout c = (.got x, c') → clock c'.now - x.1 ≤ expiration

theorem readTimeoutLoopOn_eq_plain (hpos : timeout ≠ 0)
    (hfresh : NoneExpired lib clock expiration timeout c) :
    readTimeoutLoopOn lib clock expiration timeout start timeout c =
      readTimeoutPlainOn lib timeout c := by
  unfold readTimeoutPlainOn
  rw [readTimeoutLoopOn_eq hpos]
  rcases h : lib.recv timeout c with ⟨answer, c'⟩
  cases answer with
  | got x =>
    dsimp only
    rw [if_pos (hfresh x c' h)]
  | timeout | disconnected | panicked => rfl

/-- Without time the single receive reports nothing when nothing is there, or when it takes no
message without time. -/
theorem readTimeoutPlainOn_zero_iff {eager : Bool} (hlib : lib.AtZero eager) :
    readTimeoutPlainOn lib 0 c = (.ok none, c) ↔
      c.ring.items = [] ∧ c.connected = true ∨ c.ring.items ≠ [] ∧ eager = false := by
  unfold readTimeoutPlainOn
  cases hitems : c.ring.items with
  | nil =>
    cases hopen : c.connected with
    | true => simp [hlib.idle hitems hopen]
    | false => simp [hlib.closed hitems hopen]
  | cons x xs => cases eager <;> simp [hlib.waiting hitems]

/-- **The paths of `read_timeout` agree unless the timeout is zero while something is there**: a
disconnection, or a message that the library's receive takes without time. -/
theorem readTimeout_paths_agree_iff (lib : RecvTimeout (Stamped Val)) {eager : Bool}
    (hlib : lib.AtZero eager) (r : AsbReader) (clock : Instant → Instant)
    (expiration timeout : Duration) (c : Channel (Stamped Val))
    (hfresh : NoneExpired lib clock expiration timeout c) :
    { r with expiration := some expiration }.readTimeoutOn lib clock timeout c =
        { r with expiration := none }.readTimeoutOn lib clock timeout c ↔
      r.callbacksActive = true ∨ timeout ≠ 0 ∨ c.ring.items = [] ∧ c.connected = true ∨
        c.ring.items ≠ [] ∧ eager = false := by
  by_cases hcallbacks : r.callbacksActive = true
  · have hagree : { r with expiration := some expiration }.readTimeoutOn lib clock timeout c =
        { r with expiration := none }.readTimeoutOn lib clock timeout c := by
      simp only [readTimeoutOn, callbackModeError, if_pos hcallbacks]
    exact ⟨fun _ => .inl hcallbacks, fun _ => hagree⟩
  · rw [or_iff_right hcallbacks]
    simp only [readTimeoutOn, callbackModeError, if_neg hcallbacks]
    by_cases h0 : timeout = 0
    · subst h0
      rw [readTimeoutLoopOn_zero, eq_comm, readTimeoutPlainOn_zero_iff hlib]
      exact ⟨.inr, fun h => h.resolve_left fun hne => hne rfl⟩
    · rw [readTimeoutLoopOn_eq_plain h0 hfresh]
      exact ⟨fun _ => .inl h0, fun _ => rfl⟩

/-- A ring with one message, received at the time now. -/
def oneMessage : Channel (Stamped Unit) where
  ring := ⟨1, [(0, ())], Nat.le_refl 1⟩
  connected := true
  now := 0
  schedule := []

/-- An empty ring that has lost its senders. -/
def severed : Channel (Stamped Unit) where
  ring := .empty 1
  connected := false
  now := 0
  schedule := []

/-- A reader that polls. -/
def polling : AsbReader where
  buffer := 0
  expiration := none
  ringmaster := 0
  mySenderId := 0
  net := ⟨0, .loopback "topic"⟩
  callbacksActive := false
  counter := "topic"
  ty := ⟨0⟩

/-- With a timeout of one, the message is read on both paths. -/
theorem readTimeout_paths_agree_oneMessage :
    { polling with expiration := some 5 }.readTimeoutOn (.ofRing false) id 1 oneMessage =
      { polling with expiration := none }.readTimeoutOn (.ofRing false) id 1 oneMessage := by
  refine (readTimeout_paths_agree_iff _ (RecvTimeout.ofRing_atZero false) polling id 5 1 oneMessage
    fun x c' h => ?_).2 (.inr (.inl Nat.one_ne_zero))
  rw [RecvTimeout.ofRing_of_cons (rfl : oneMessage.ring.items = [(0, ())])
    (.inl Nat.one_ne_zero)] at h
  cases h
  decide

/-- With a timeout of zero, only the path without expiration reports that the ring is closed,
whether the library's receive takes messages without time or not. -/
theorem zero_timeout_misses_disconnection :
    (NoneExpired (.ofRing false) id 5 0 severed ∧
      ({ polling with expiration := some 5 }.readTimeoutOn (.ofRing false) id 0 severed).1 =
        .ok none ∧
      ({ polling with expiration := none }.readTimeoutOn (.ofRing false) id 0 severed).1 =
        .err closedErr) ∧
    NoneExpired (.ofRing true) id 5 0 severed ∧
      ({ polling with expiration := some 5 }.readTimeoutOn (.ofRing true) id 0 severed).1 =
        .ok none ∧
      ({ polling with expiration := none }.readTimeoutOn (.ofRing true) id 0 severed).1 =
        .err closedErr := by
  have hloop : ∀ lib : RecvTimeout (Stamped Unit),
      (readTimeoutLoopOn lib id 5 0 0 0 severed).1 = .ok none := fun lib => by
    rw [readTimeoutLoopOn_zero]
  have hnone : ∀ {eager : Bool}, NoneExpired (.ofRing eager) id 5 0 severed := by
    intro eager x c' h
    rw [(RecvTimeout.ofRing_atZero eager).closed rfl rfl] at h
    cases h
  exact ⟨⟨hnone, hloop _, rfl⟩, hnone, hloop _, rfl⟩

end AsbReader

end Rounac

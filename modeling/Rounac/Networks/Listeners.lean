import Rounac.Lib.StepSystem
import Rounac.Networks.Reader

/-!
# Listeners and background threads

`AsbReader::add_listener`, `remove_listener` and the polling calls of `src/networks.rs`, as steps of
the client threads that share a reader and of the background threads that `add_listener` spawned.
`SharedReader` is the reader's ring, flag and list of listeners with the place every thread has
reached. Each look at the flag, receive, and locked section is a step; a dispatch holds the list's
lock from its first callback to its last, and each callback is a step.

Messages and listeners are known by the addresses of their `Arc` and `Box`. Three logs, which
nothing reads, record which messages were taken unexpired, returned by a read, and passed to a
listener.

A polling call is a loop around receives (`PollCall.loop`), and so are `read`, `try_read` and
`read_timeout` (`read_eq_loop`, `tryRead_eq_loop`, `readTimeout_eq_loop`).
-/

namespace Rounac

open OverwriteRing SwapRemove StepSystem

/-! ## Polling calls -/

/-- Whether a message received at `t` is within the expiration window. -/
def isFresh (expiration : Option Duration) (t now : Instant) : Bool :=
  match expiration with
  | some expiration => now - t ≤ expiration
  | none => true

/-- A polling call past its look at the flag. `read_timeout` keeps the time that remains. -/
inductive PollCall
  | read
  | tryRead
  | readTimeout (timeout : Duration) (start : Instant) (remaining : Duration)
deriving DecidableEq, Repr

namespace PollCall

variable {Val : Type}

/-- `read_timeout` on a reader with an expiration does not receive when no time remains. -/
def isOver (expiration : Option Duration) : PollCall → Bool
  | .readTimeout _ _ remaining => expiration.isSome && remaining == 0
  | _ => false

/-- The call after it discarded an expired message. -/
def retry (now : Instant) : PollCall → PollCall
  | .readTimeout timeout start _ => .readTimeout timeout start (timeout - (now - start))
  | call => call

/-- What a call makes of the answer to a receive: it goes on, or it returns. -/
def receive (expiration : Option Duration) (call : PollCall) (answer : Recv Val) (now : Instant) :
    PollCall ⊕ ReadRes Val :=
  match answer, call with
  | .got t msg, call =>
      if isFresh expiration t now then .inr (.msg msg) else .inl (call.retry now)
  | .nothing, .read => .inr (.err AsbReader.closedErr)
  | .nothing, _ => .inr .nothing
  | .disconnected, _ => .inr (.err AsbReader.closedErr)

/-- A call that runs alone, on the answers to its receives. -/
def loop (expiration : Option Duration) : PollCall → Script Val → ReadRes Val × Script Val
  | call, script =>
    if call.isOver expiration then (.nothing, script)
    else
      match script with
      | [] => (.waiting, [])
      | (answer, now) :: rest =>
        match call.receive expiration answer now with
        | .inl call => loop expiration call rest
        | .inr res => (res, rest)
termination_by structural _ script => script

end PollCall

namespace AsbReader

variable {Val : Type} {r : AsbReader}

theorem readLoop_eq_loop (expiration : Duration) (script : Script Val) :
    readLoop expiration script = PollCall.loop (some expiration) .read script := by
  induction script with
  | nil => rfl
  | cons a rest ih =>
    obtain ⟨answer, now⟩ := a
    cases answer with
    | got t msg =>
      rw [readLoop, ih]
      by_cases hfresh : now - t ≤ expiration <;>
        simp [PollCall.loop, PollCall.isOver, PollCall.receive, PollCall.retry, isFresh, hfresh]
    | nothing | disconnected => rfl

theorem tryReadLoop_eq_loop (expiration : Duration) (script : Script Val) :
    tryReadLoop expiration script = PollCall.loop (some expiration) .tryRead script := by
  induction script with
  | nil => rfl
  | cons a rest ih =>
    obtain ⟨answer, now⟩ := a
    cases answer with
    | got t msg =>
      rw [tryReadLoop, ih]
      by_cases hfresh : now - t ≤ expiration <;>
        simp [PollCall.loop, PollCall.isOver, PollCall.receive, PollCall.retry, isFresh, hfresh]
    | nothing | disconnected => rfl

theorem readTimeoutLoop_eq_loop (expiration timeout : Duration) (start : Instant)
    (remaining : Duration) (script : Script Val) :
    readTimeoutLoop expiration timeout start remaining script =
      PollCall.loop (some expiration) (.readTimeout timeout start remaining) script := by
  induction script generalizing remaining with
  | nil =>
    by_cases h0 : remaining = 0 <;> simp [readTimeoutLoop, PollCall.loop, PollCall.isOver, h0]
  | cons a rest ih =>
    obtain ⟨answer, now⟩ := a
    by_cases h0 : remaining = 0
    · cases answer <;> simp [readTimeoutLoop, PollCall.loop, PollCall.isOver, h0]
    · cases answer with
      | got t msg =>
        rw [readTimeoutLoop, ih]
        by_cases hfresh : now - t ≤ expiration <;>
          simp [PollCall.loop, PollCall.isOver, PollCall.receive, PollCall.retry, isFresh, hfresh,
            h0]
      | nothing | disconnected =>
        simp [readTimeoutLoop, PollCall.loop, PollCall.isOver, PollCall.receive, h0]

/-- `read` is the loop of its receives. -/
theorem read_eq_loop (h : r.callbacksActive = false) (script : Script Val) :
    r.read script = PollCall.loop r.expiration .read script := by
  unfold read
  rw [callbackModeError_of_polling h]
  cases r.expiration with
  | none => rcases script with _ | ⟨⟨_ | _ | _, now⟩, rest⟩ <;> rfl
  | some expiration => exact readLoop_eq_loop expiration script

theorem tryRead_eq_loop (h : r.callbacksActive = false) (script : Script Val) :
    r.tryRead script = PollCall.loop r.expiration .tryRead script := by
  unfold tryRead
  rw [callbackModeError_of_polling h]
  cases r.expiration with
  | none => rcases script with _ | ⟨⟨_ | _ | _, now⟩, rest⟩ <;> rfl
  | some expiration => exact tryReadLoop_eq_loop expiration script

theorem readTimeout_eq_loop (h : r.callbacksActive = false) (timeout : Duration) (start : Instant)
    (script : Script Val) :
    r.readTimeout timeout start script =
      PollCall.loop r.expiration (.readTimeout timeout start timeout) script := by
  unfold readTimeout
  rw [callbackModeError_of_polling h]
  cases r.expiration with
  | none => rcases script with _ | ⟨⟨_ | _ | _, now⟩, rest⟩ <;> rfl
  | some expiration => exact readTimeoutLoop_eq_loop expiration timeout start timeout script

end AsbReader

/-! ## Readers with listeners -/

/-- The address of an `Arc<T>` in a ring. -/
abbrev MsgId := ℕ

/-- The address of a `Box<dyn AsbListener<T>>`. -/
abbrev ListenerFn := ℕ

/-- `Listener<T>`: the id that `add_listener` returned, and the function. -/
structure Listener where
  id : BitVec 32
  fn : ListenerFn
deriving DecidableEq, Repr

/-- What a background thread does next. -/
inductive BgThread
  /-- Look at the flag. -/
  | head
  /-- `recv_timeout`. -/
  | receiving
  /-- Lock the listeners, with an unexpired message. -/
  | holding (m : MsgId)
  /-- Call the rest of the listeners; the lock is held. -/
  | calling (m : MsgId) (rest : List ListenerFn)
  | exited
deriving DecidableEq, Repr

namespace BgThread

def isCalling : BgThread → Bool
  | calling _ _ => true
  | _ => false

/-- The thread has not ended. -/
def isRunning : BgThread → Bool
  | exited => false
  | _ => true

/-- The message in a thread's hands. -/
def inHand : BgThread → Option MsgId
  | holding m | calling m _ => some m
  | _ => none

/-- The message that a thread has yet to pass to a listener. -/
def owes : BgThread → Option MsgId
  | holding m | calling m (_ :: _) => some m
  | _ => none

end BgThread

/-- What a client thread does next on the reader. -/
inductive Client
  /-- It is in no call. -/
  | idle
  /-- In `add_listener`, which has pushed its listener: look at the flag. -/
  | added
  /-- Set the flag, which was not set. -/
  | starting
  /-- Spawn the background thread. -/
  | spawning
  /-- In a polling call, past its look at the flag. -/
  | polling (call : PollCall)
deriving DecidableEq, Repr

/-- The calls on a reader. -/
inductive ClientCall
  | addListener (id : BitVec 32)
  | removeListener (id : BitVec 32)
  | read
  | tryRead
  | readTimeout (timeout : Duration)

/-- The ring and the list of listeners of a reader, with its background threads and the logs. -/
structure Traffic where
  ring : RingBuf (Stamped MsgId)
  nextMsg : MsgId
  listeners : List Listener
  nextFn : ListenerFn
  threads : List BgThread
  taken : List MsgId
  returned : List MsgId
  passed : List (ListenerFn × MsgId)

/-- An `AsbReader` in the hands of client threads. `connected` tells whether its ring has a
sender. -/
structure SharedReader extends Traffic where
  expiration : Option Duration
  connected : Bool
  callbacksActive : Bool
  clients : List Client

/-- A message arrives or the sender goes away; a client begins a call or takes its next step in one;
a background thread takes its next step. `now` is what a clock reading in the step gives. -/
inductive ReaderStep
  | arrive (t : Instant)
  | disconnect
  | call (j : ℕ) (call : ClientCall) (now : Instant)
  | client (j : ℕ) (now : Instant)
  | thread (k : ℕ) (now : Instant)

/-- The listeners' lock is held. -/
def Traffic.isLocked (a : Traffic) : Bool := a.threads.any (·.isCalling)

namespace SharedReader

/-- A new reader with `n` client threads. -/
def new (capacity : ℕ) (expiration : Option Duration) (n : ℕ) : SharedReader where
  ring := .empty capacity
  nextMsg := 0
  listeners := []
  nextFn := 0
  threads := []
  taken := []
  returned := []
  passed := []
  expiration
  connected := true
  callbacksActive := false
  clients := List.replicate n .idle

/-- `in_callback_mode`. -/
def inCallbackMode (s : SharedReader) : Bool := s.callbacksActive

/-- `set_callback_mode`. -/
def setCallbackMode (s : SharedReader) (active : Bool) : SharedReader :=
  { s with callbacksActive := active }

/-- The locked section of `add_listener`. -/
def pushListener (s : SharedReader) (id : BitVec 32) : SharedReader :=
  { s with listeners := s.listeners ++ [⟨id, s.nextFn⟩], nextFn := s.nextFn + 1 }

/-- `remove_listener`, which is locked throughout. -/
def removeListener (s : SharedReader) (id : BitVec 32) : Bool × SharedReader :=
  let (found, listeners) := removeFirst (fun b => b.id == id) s.listeners
  let s := { s with listeners }
  (found, if found && listeners.isEmpty then s.setCallbackMode false else s)

/-- The look at the flag in a polling call, which fails in callback mode. -/
def poll (s : SharedReader) (call : PollCall) : Client × SharedReader :=
  (if s.inCallbackMode then .idle else .polling call, s)

def begin (s : SharedReader) (now : Instant) : ClientCall → Option (Client × SharedReader)
  | .addListener id => if s.isLocked then none else some (.added, s.pushListener id)
  | .removeListener id => if s.isLocked then none else some (.idle, (s.removeListener id).2)
  | .read => some (s.poll .read)
  | .tryRead => some (s.poll .tryRead)
  | .readTimeout timeout => some (s.poll (.readTimeout timeout now timeout))

def advanceClient (s : SharedReader) (now : Instant) : Client → Option (Client × SharedReader)
  | .idle => none
  | .added => some (if s.inCallbackMode then .idle else .starting, s)
  | .starting => some (.spawning, s.setCallbackMode true)
  | .spawning => some (.idle, { s with threads := s.threads ++ [.head] })
  | .polling call =>
    if call.isOver s.expiration then some (.idle, s)
    else
      match s.ring.recv with
      | some ((t, m), ring) =>
        let s := { s with ring }
        match call.receive s.expiration (.got t m) now with
        | .inl call => some (.polling call, s)
        | .inr _ => some (.idle, { s with taken := s.taken ++ [m], returned := s.returned ++ [m] })
      | none =>
        -- `recv` waits while there is a sender; the other two return.
        if s.connected && call == .read then none else some (.idle, s)

def advanceThread (s : SharedReader) (now : Instant) : BgThread → Option (BgThread × SharedReader)
  | .head => some (if s.callbacksActive then .receiving else .exited, s)
  | .receiving =>
    match s.ring.recv with
    | some ((t, m), ring) =>
      let s := { s with ring }
      if isFresh s.expiration t now then some (.holding m, { s with taken := s.taken ++ [m] })
      else some (.head, s)
    | none => some (if s.connected then .head else .exited, s)
  | .holding m => if s.isLocked then none else some (.calling m (s.listeners.map Listener.fn), s)
  | .calling m (fn :: rest) => some (.calling m rest, { s with passed := s.passed ++ [(fn, m)] })
  | .calling _ [] => some (.head, s)
  | .exited => none

def step (s : SharedReader) : ReaderStep → Option SharedReader
  | .arrive t =>
      if s.connected then
        some { s with ring := s.ring.send (t, s.nextMsg), nextMsg := s.nextMsg + 1 }
      else none
  | .disconnect => some { s with connected := false }
  | .call j call now =>
      s.clients[j]?.bind fun c =>
        if c = .idle then
          (s.begin now call).map fun next =>
            { next.2 with clients := next.2.clients.set j next.1 }
        else none
  | .client j now =>
      s.clients[j]?.bind fun c =>
        (s.advanceClient now c).map fun next =>
          { next.2 with clients := next.2.clients.set j next.1 }
  | .thread k now =>
      s.threads[k]?.bind fun t =>
        (s.advanceThread now t).map fun next =>
          { next.2 with threads := next.2.threads.set k next.1 }

end SharedReader

/-! ## What one step can do -/

/-- The polling call that a client's call is, if it is one. -/
def ClientCall.polls (now : Instant) : ClientCall → Option PollCall
  | .read => some .read
  | .tryRead => some .tryRead
  | .readTimeout timeout => some (.readTimeout timeout now timeout)
  | .addListener _ | .removeListener _ => none

/-- The steps of a background thread, on the ring, the listeners and the logs. -/
inductive BgThread.Turn (a : Traffic) : BgThread → BgThread → Traffic → Prop
  | idle {t t' : BgThread} (hrun : t.isRunning) (howes : t.owes = none) (hhand : t'.inHand = none) :
      Turn a t t' a
  | expired {x : Stamped MsgId} {rest : List (Stamped MsgId)} (h : a.ring.items = x :: rest) :
      Turn a .receiving .head { a with ring := a.ring.advance }
  | took {t : Instant} {m : MsgId} {rest : List (Stamped MsgId)}
      (h : a.ring.items = (t, m) :: rest) :
      Turn a .receiving (.holding m)
        { a with ring := a.ring.advance, taken := a.taken ++ [m] }
  | locked {m : MsgId} (hfree : a.isLocked = false) :
      Turn a (.holding m) (.calling m (a.listeners.map Listener.fn)) a
  | called {m : MsgId} {fn : ListenerFn} {rest : List ListenerFn} :
      Turn a (.calling m (fn :: rest)) (.calling m rest) { a with passed := a.passed ++ [(fn, m)] }

theorem BgThread.Turn.listeners_eq {a b : Traffic} {t t' : BgThread} (h : t.Turn a t' b) :
    b.listeners = a.listeners := by
  cases h <;> rfl

theorem BgThread.Turn.nextFn_eq {a b : Traffic} {t t' : BgThread} (h : t.Turn a t' b) :
    b.nextFn = a.nextFn := by
  cases h <;> rfl

namespace SharedReader

/-- The steps, on the ring, the listeners, the background threads and the logs. -/
inductive Move (s : SharedReader) : ReaderStep → Traffic → Prop
  | idle {l : ReaderStep} : Move s l s.toTraffic
  | arrived {t : Instant} :
      Move s (.arrive t)
        { s.toTraffic with ring := s.ring.send (t, s.nextMsg), nextMsg := s.nextMsg + 1 }
  | added {l : ReaderStep} {id : BitVec 32} (hfree : s.isLocked = false) :
      Move s l
        { s.toTraffic with listeners := s.listeners ++ [⟨id, s.nextFn⟩], nextFn := s.nextFn + 1 }
  | removed {l : ReaderStep} {id : BitVec 32} (hfree : s.isLocked = false) :
      Move s l
        { s.toTraffic with listeners := (removeFirst (fun b => b.id == id) s.listeners).2 }
  | spawned {j : ℕ} {now : Instant} (hj : s.clients[j]? = some .spawning) :
      Move s (.client j now) { s.toTraffic with threads := s.threads ++ [.head] }
  | expired {l : ReaderStep} {x : Stamped MsgId} {rest : List (Stamped MsgId)}
      (h : s.ring.items = x :: rest) : Move s l { s.toTraffic with ring := s.ring.advance }
  | read {l : ReaderStep} {t : Instant} {m : MsgId} {rest : List (Stamped MsgId)}
      (h : s.ring.items = (t, m) :: rest) :
      Move s l
        { s.toTraffic with
          ring := s.ring.advance, taken := s.taken ++ [m], returned := s.returned ++ [m] }
  | turned {k : ℕ} {now : Instant} {t t' : BgThread} {b : Traffic} (hk : s.threads[k]? = some t)
      (h : t.Turn s.toTraffic t' b) :
      Move s (.thread k now) { b with threads := s.threads.set k t' }

theorem toTraffic_removeListener (s : SharedReader) (id : BitVec 32) :
    (s.removeListener id).2.toTraffic =
      { s.toTraffic with listeners := (removeFirst (fun b => b.id == id) s.listeners).2 } := by
  unfold removeListener
  dsimp only
  split_ifs <;> rfl

theorem clients_removeListener (s : SharedReader) (id : BitVec 32) :
    (s.removeListener id).2.clients = s.clients := by
  unfold removeListener
  dsimp only
  split_ifs <;> rfl

theorem advanceThread_turn {s : SharedReader} {now : Instant} {t : BgThread}
    {next : BgThread × SharedReader} (h : s.advanceThread now t = some next) :
    t.Turn s.toTraffic next.1 next.2.toTraffic ∧ next.2.threads = s.threads := by
  cases t with
  | head =>
    cases h
    refine ⟨.idle rfl rfl ?_, rfl⟩
    cases s.callbacksActive <;> rfl
  | receiving =>
    simp only [advanceThread] at h
    cases hr : s.ring.recv with
    | none =>
      rw [hr] at h
      cases h
      refine ⟨.idle rfl rfl ?_, rfl⟩
      cases s.connected <;> rfl
    | some got =>
      obtain ⟨⟨t, m⟩, ring⟩ := got
      obtain ⟨rest, hitems, rfl⟩ := RingBuf.exists_of_recv hr
      rw [hr] at h
      dsimp only at h
      split_ifs at h <;> cases h
      · exact ⟨.took hitems, rfl⟩
      · exact ⟨.expired hitems, rfl⟩
  | holding m =>
    simp only [advanceThread] at h
    split_ifs at h with hlock
    cases h
    exact ⟨.locked (by simpa using hlock), rfl⟩
  | calling m rest =>
    cases rest with
    | nil => cases h; exact ⟨.idle rfl rfl rfl, rfl⟩
    | cons fn rest => cases h; exact ⟨.called, rfl⟩
  | exited => cases h

theorem advanceClient_frame {s : SharedReader} {now : Instant} {c : Client}
    {next : Client × SharedReader} (h : s.advanceClient now c = some next) :
    next.2.listeners = s.listeners ∧ next.2.nextFn = s.nextFn ∧ next.2.clients = s.clients := by
  cases c with
  | idle => cases h
  | added | starting | spawning => cases h; exact ⟨rfl, rfl, rfl⟩
  | polling call =>
    simp only [advanceClient] at h
    by_cases hover : call.isOver s.expiration
    · rw [if_pos hover] at h
      cases h
      exact ⟨rfl, rfl, rfl⟩
    · rw [if_neg hover] at h
      split at h
      · split at h <;> cases h <;> exact ⟨rfl, rfl, rfl⟩
      · split_ifs at h
        cases h
        exact ⟨rfl, rfl, rfl⟩

theorem advanceThread_frame {s : SharedReader} {now : Instant} {t : BgThread}
    {next : BgThread × SharedReader} (h : s.advanceThread now t = some next) :
    next.2.callbacksActive = s.callbacksActive ∧ next.2.clients = s.clients := by
  cases t with
  | receiving =>
    simp only [advanceThread] at h
    split at h
    · split_ifs at h <;> cases h <;> exact ⟨rfl, rfl⟩
    · cases h; exact ⟨rfl, rfl⟩
  | holding m =>
    simp only [advanceThread] at h
    split_ifs at h
    cases h
    exact ⟨rfl, rfl⟩
  | calling m rest => cases rest <;> cases h <;> exact ⟨rfl, rfl⟩
  | head => cases h; exact ⟨rfl, rfl⟩
  | exited => cases h

/-- A step of a reader, with what must hold before it. -/
inductive Stepped (s : SharedReader) : ReaderStep → SharedReader → Prop
  | arrived {t : Instant} (hconn : s.connected = true) :
      Stepped s (.arrive t)
        { s with ring := s.ring.send (t, s.nextMsg), nextMsg := s.nextMsg + 1 }
  | disconnected : Stepped s .disconnect { s with connected := false }
  | added {j : ℕ} {id : BitVec 32} {now : Instant} (hidle : s.clients[j]? = some .idle)
      (hfree : s.isLocked = false) :
      Stepped s (.call j (.addListener id) now)
        { s.pushListener id with clients := s.clients.set j .added }
  | removed {j : ℕ} {id : BitVec 32} {now : Instant} (hidle : s.clients[j]? = some .idle)
      (hfree : s.isLocked = false) :
      Stepped s (.call j (.removeListener id) now)
        { (s.removeListener id).2 with clients := s.clients.set j .idle }
  | polled {j : ℕ} {call : ClientCall} {now : Instant} {poll : PollCall}
      (hidle : s.clients[j]? = some .idle) (hpoll : call.polls now = some poll) :
      Stepped s (.call j call now) { s with clients := s.clients.set j (s.poll poll).1 }
  | client {j : ℕ} {now : Instant} {c : Client} {next : Client × SharedReader}
      (hj : s.clients[j]? = some c) (hnext : s.advanceClient now c = some next) :
      Stepped s (.client j now) { next.2 with clients := next.2.clients.set j next.1 }
  | thread {k : ℕ} {now : Instant} {t : BgThread} {next : BgThread × SharedReader}
      (hk : s.threads[k]? = some t) (hnext : s.advanceThread now t = some next) :
      Stepped s (.thread k now) { next.2 with threads := next.2.threads.set k next.1 }

theorem step_stepped {s s' : SharedReader} {l : ReaderStep} (h : s.step l = some s') :
    s.Stepped l s' := by
  cases l with
  | arrive t =>
    simp only [step] at h
    split_ifs at h with hconn
    cases h
    exact .arrived hconn
  | disconnect => cases h; exact .disconnected
  | call j call now =>
    obtain ⟨c, hj, h⟩ := Option.bind_eq_some_iff.1 h
    split_ifs at h with hidle
    obtain ⟨next, hnext, rfl⟩ := Option.map_eq_some_iff.1 h
    subst hidle
    cases call with
    | addListener id =>
      simp only [begin] at hnext
      split_ifs at hnext with hlock
      cases hnext
      exact .added hj (by simpa using hlock)
    | removeListener id =>
      simp only [begin] at hnext
      split_ifs at hnext with hlock
      cases hnext
      rw [clients_removeListener]
      exact .removed hj (by simpa using hlock)
    | read | tryRead | readTimeout => cases hnext; exact .polled hj rfl
  | client j now =>
    obtain ⟨c, hj, h⟩ := Option.bind_eq_some_iff.1 h
    obtain ⟨next, hnext, rfl⟩ := Option.map_eq_some_iff.1 h
    exact .client hj hnext
  | thread k now =>
    obtain ⟨t, hk, h⟩ := Option.bind_eq_some_iff.1 h
    obtain ⟨next, hnext, rfl⟩ := Option.map_eq_some_iff.1 h
    exact .thread hk hnext

theorem step_move {s s' : SharedReader} {l : ReaderStep} (h : s.step l = some s') :
    s.Move l s'.toTraffic := by
  cases step_stepped h with
  | arrived => exact .arrived
  | disconnected => exact .idle
  | added _ hfree => exact .added hfree
  | @removed j id now _ hfree =>
    show s.Move _ (s.removeListener id).2.toTraffic
    rw [toTraffic_removeListener]
    exact .removed hfree
  | polled => exact .idle
  | @client j now c next hj hnext =>
    cases c with
    | idle => cases hnext
    | added => cases hnext; exact .idle
    | starting => cases hnext; exact .idle
    | spawning => cases hnext; exact .spawned hj
    | polling call =>
      simp only [advanceClient] at hnext
      by_cases hover : call.isOver s.expiration
      · rw [if_pos hover] at hnext
        cases hnext
        exact .idle
      · rw [if_neg hover] at hnext
        cases hr : s.ring.recv with
        | none =>
          rw [hr] at hnext
          dsimp only at hnext
          split_ifs at hnext
          cases hnext
          exact .idle
        | some got =>
          obtain ⟨⟨t, m⟩, ring⟩ := got
          obtain ⟨rest, hitems, rfl⟩ := RingBuf.exists_of_recv hr
          rw [hr] at hnext
          dsimp only at hnext
          split at hnext <;> cases hnext
          · exact .expired hitems
          · exact .read hitems
  | @thread k now t next hk hnext =>
    obtain ⟨hturn, hthreads⟩ := advanceThread_turn hnext
    have hmove : s.Move (.thread k now)
        { next.2.toTraffic with threads := s.threads.set k next.1 } := .turned hk hturn
    rwa [← hthreads] at hmove

end SharedReader

/-! ## Listeners are told apart by their functions -/

namespace Traffic

/-- The listeners are distinct, and were made before the next one. -/
structure Enrolled (a : Traffic) : Prop where
  fns : (a.listeners.map Listener.fn).Nodup
  below : ∀ l ∈ a.listeners, l.fn < a.nextFn

theorem Enrolled.added {a : Traffic} (h : a.Enrolled) (id : BitVec 32) :
    Enrolled { a with listeners := a.listeners ++ [⟨id, a.nextFn⟩], nextFn := a.nextFn + 1 } where
  fns := nodup_append_singleton h.fns fun l hl => (h.below l hl).ne
  below l hl := by
    rcases List.mem_append.1 hl with hl | hl
    · exact Nat.lt_succ_of_lt (h.below l hl)
    · cases List.mem_singleton.1 hl
      exact Nat.lt_succ_self _

theorem Enrolled.removed {a : Traffic} (h : a.Enrolled) (id : BitVec 32) :
    Enrolled { a with listeners := (removeFirst (fun b => b.id == id) a.listeners).2 } where
  fns := nodup_removeFirst h.fns
  below l hl := h.below l (mem_of_mem_removeFirst hl)

end Traffic

namespace SharedReader

theorem Move.enrolled {s : SharedReader} {l : ReaderStep} {b : Traffic} (hm : s.Move l b)
    (h : s.Enrolled) : b.Enrolled := by
  cases hm with
  | idle | arrived | expired | read | spawned => exact ⟨h.1, h.2⟩
  | turned hk hturn => cases hturn <;> exact ⟨h.1, h.2⟩
  | added hfree => exact h.added _
  | removed hfree => exact h.removed _

end SharedReader

end Rounac

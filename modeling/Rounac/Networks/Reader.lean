import Rounac.Networks.Asb

/-!
# Readers

`AsbReader` of `src/networks.rs`, and its three polling calls. A polling call is a loop around
receives on the reader's ring; it is modelled as a function of the answers these receives give,
each with the clock reading the loop takes after it. A script that ends leaves the call waiting.

The answers a ring gives while nothing arrives are its unread messages, and then disconnection when
the ring has no sender left.
-/

namespace Rounac

open OverwriteRing

/-- `AsbReaderNet`: the network's side of a reader, with the bus topic. -/
inductive AsbReaderNet
  | amqp (topic : String)
  | mqtt (topic : String)
  | loopback (topic : String)
  | null
deriving DecidableEq, Repr

def AsbReaderNet.topic : AsbReaderNet → Option String
  | .amqp topic | .mqtt topic | .loopback topic => some topic
  | .null => none

/-- The broker request that the removal of a registry entry makes, by the network handle dropped
last. -/
def AsbReaderNet.cancel : AsbReaderNet → Entry → Option BrokerRequest
  | .amqp _, last => some (.basicCancel last.tag)
  | .mqtt _, last => some (.unsubscribe last.tag)
  | _, _ => none

/-- An `Arc<AsbReaderNet>`, shared by a reader and its clones. -/
structure NetArc where
  id : ℕ
  net : AsbReaderNet
deriving DecidableEq, Repr

/-- `AsbReader<T>`, with `T` as the field `ty`. `counter` names the client topic whose possession
counter the reader holds. -/
structure AsbReader where
  buffer : RingId
  expiration : Option Duration
  ringmaster : MasterId
  mySenderId : SenderId
  net : NetArc
  callbacksActive : Bool
  counter : String
  ty : TypeId
deriving DecidableEq, Repr

/-- What a receive on a ring answers: a message, nothing (empty, or the timeout passed), or that
all senders are gone. -/
inductive Recv (Val : Type)
  | got (t : Instant) (msg : Val)
  | nothing
  | disconnected

/-- The answers to the receives of a call, each with the clock reading after it. -/
abbrev Script (Val : Type) := List (Recv Val × Instant)

/-- How a polling call ends. -/
inductive ReadRes (Val : Type)
  | msg (v : Val)
  | nothing
  | err (e : CalError)
  | waiting

namespace AsbReader

variable {Val : Type}

/-- `callback_mode_error`. -/
def callbackModeError (r : AsbReader) : Except CalError Unit :=
  if r.callbacksActive then .error (.illErr "Reader has active listeners") else .ok ()

/-- The error of a polling call on a closed ring. -/
def closedErr : CalError := .otherErr "Reader closed unexpectedly"

/-- The loop of `read` under an expiration. -/
def readLoop (expiration : Duration) : Script Val → ReadRes Val × Script Val
  | [] => (.waiting, [])
  | (.got t msg, now) :: rest =>
      if now - t ≤ expiration then (.msg msg, rest) else readLoop expiration rest
  | (_, _) :: rest => (.err closedErr, rest)

/-- `read`. -/
def read (r : AsbReader) (script : Script Val) : ReadRes Val × Script Val :=
  match r.callbackModeError with
  | .error e => (.err e, script)
  | .ok () =>
    match r.expiration with
    | some expiration => readLoop expiration script
    | none =>
      match script with
      | [] => (.waiting, [])
      | (.got _ msg, _) :: rest => (.msg msg, rest)
      | (_, _) :: rest => (.err closedErr, rest)

/-- The loop of `try_read` under an expiration. -/
def tryReadLoop (expiration : Duration) : Script Val → ReadRes Val × Script Val
  | [] => (.waiting, [])
  | (.got t msg, now) :: rest =>
      if now - t ≤ expiration then (.msg msg, rest) else tryReadLoop expiration rest
  | (.nothing, _) :: rest => (.nothing, rest)
  | (.disconnected, _) :: rest => (.err closedErr, rest)

/-- `try_read`. -/
def tryRead (r : AsbReader) (script : Script Val) : ReadRes Val × Script Val :=
  match r.callbackModeError with
  | .error e => (.err e, script)
  | .ok () =>
    match r.expiration with
    | some expiration => tryReadLoop expiration script
    | none =>
      match script with
      | [] => (.waiting, [])
      | (.got _ msg, _) :: rest => (.msg msg, rest)
      | (.nothing, _) :: rest => (.nothing, rest)
      | (.disconnected, _) :: rest => (.err closedErr, rest)

/-- The loop of `read_timeout` under an expiration: `start` is when the call began, `remaining`
the time it still has. It does not receive at all once nothing remains. -/
def readTimeoutLoop (expiration timeout : Duration) (start : Instant) :
    Duration → Script Val → ReadRes Val × Script Val
  | remaining, script =>
    if remaining = 0 then (.nothing, script)
    else
      match script with
      | [] => (.waiting, [])
      | (.got t msg, now) :: rest =>
          if now - t ≤ expiration then (.msg msg, rest)
          else readTimeoutLoop expiration timeout start (timeout - (now - start)) rest
      | (.nothing, _) :: rest => (.nothing, rest)
      | (.disconnected, _) :: rest => (.err closedErr, rest)
termination_by structural _ script => script

/-- `read_timeout`, for a `timeout` that ends on the clock: where `start + timeout` is no `Instant`
the receive panics. -/
def readTimeout (r : AsbReader) (timeout : Duration) (start : Instant) (script : Script Val) :
    ReadRes Val × Script Val :=
  match r.callbackModeError with
  | .error e => (.err e, script)
  | .ok () =>
    match r.expiration with
    | some expiration => readTimeoutLoop expiration timeout start timeout script
    | none =>
      match script with
      | [] => (.waiting, [])
      | (.got _ msg, _) :: rest => (.msg msg, rest)
      | (.nothing, _) :: rest => (.nothing, rest)
      | (.disconnected, _) :: rest => (.err closedErr, rest)

/-- Whether the reader's ring has lost its sender: the sender of a ring is held by the reader's
ringmaster only. -/
def disconnected (r : AsbReader) (asb : NetAsb Val) : Bool :=
  !((asb.masters r.ringmaster).senders.any fun sender => sender.2 == r.buffer)

def unread (r : AsbReader) (asb : NetAsb Val) : List (Stamped Val) := (asb.rings r.buffer).items

/-- The answers of the reader's ring while nothing arrives: `clock k` is read after the `k`-th
receive, and `idle` is what a receive on the empty, connected ring answers, if it does. -/
def script (r : AsbReader) (asb : NetAsb Val) (clock : ℕ → Instant) (idle : List (Recv Val)) :
    Script Val :=
  ((r.unread asb).map (fun x => Recv.got x.1 x.2) ++
    (if r.disconnected asb then [Recv.disconnected] else idle)).mapIdx fun k a => (a, clock k)

theorem callbackModeError_of_polling {r : AsbReader} (h : r.callbacksActive = false) :
    r.callbackModeError = .ok () := by
  simp [callbackModeError, h]

theorem disconnected_iff (r : AsbReader) (asb : NetAsb Val) :
    r.disconnected asb = true ↔ ∀ s ∈ (asb.masters r.ringmaster).senders, s.2 ≠ r.buffer := by
  simp [disconnected]

/-- What an idle, connected ring answers: `recv` does not return, the others report nothing. -/
theorem script_of_unread_nil {r : AsbReader} {asb : NetAsb Val} (h : r.unread asb = [])
    (clock : ℕ → Instant) (idle : List (Recv Val)) :
    r.script asb clock idle =
      (if r.disconnected asb then [Recv.disconnected] else idle).mapIdx
        fun k a => (a, clock k) := by
  simp [script, h]

end AsbReader

end Rounac

import Rounac.Lib.WrapCounter
import Rounac.Lib.SwapRemove
import Rounac.MsgSerde

/-!
# Network utilities

`src/networks/utils.rs`: the connection status, the possession counter behind the topic table, and
the ringmaster that fans a topic's messages out to its readers' rings.

Rings live in a heap and are named by `RingId`. A `RingSender` is owned by the ringmaster it was
registered with, so a ring has a sender exactly while a ringmaster lists it.
-/

namespace Rounac

open SwapRemove

/-! ## Status -/

/-- Possible states of the ASB. -/
inductive AsbConnStatus
  | initializing
  | normal
  | degraded
  | inoperable
  | failed
deriving DecidableEq, Repr

/-- `StatusCallbackManager::set_status` on the stored status: store unless it is already there. -/
def setStatus (current new : AsbConnStatus) : AsbConnStatus :=
  if current ≠ new then new else current

@[simp] theorem setStatus_eq (current new : AsbConnStatus) : setStatus current new = new := by
  unfold setStatus
  split_ifs with h
  · rfl
  · exact not_not.1 h

/-! ## Possession counters -/

/-- The atomic count that the `PossessCtr` values descending from one `new` share. -/
structure PossessCtr where
  count : BitVec 64
deriving DecidableEq, Repr

namespace PossessCtr

/-- `PossessCtr::new`: one owner. -/
def new : PossessCtr := ⟨1⟩

/-- `PossessCtr::is_unique`. -/
def isUnique (c : PossessCtr) : Bool := c.count == 1

/-- `impl Clone for PossessCtr`, on the shared count. -/
def clone (c : PossessCtr) : PossessCtr := ⟨c.count + 1⟩

/-- `impl Drop for PossessCtr`, on the shared count. -/
def drop (c : PossessCtr) : PossessCtr := ⟨c.count - 1⟩

/-- The count after `n` owners have been counted. -/
def ofOwners (n : ℕ) : PossessCtr := ⟨WrapCounter.counted 64 n⟩

@[simp] theorem clone_ofOwners (n : ℕ) : (ofOwners n).clone = ofOwners (n + 1) :=
  congrArg mk (WrapCounter.counted_add_one n)

@[simp] theorem drop_clone (c : PossessCtr) : c.clone.drop = c :=
  congrArg PossessCtr.mk (BitVec.add_sub_cancel c.count 1)

@[simp] theorem drop_ofOwners_succ (n : ℕ) : (ofOwners (n + 1)).drop = ofOwners n :=
  congrArg mk (WrapCounter.counted_sub_one (Nat.succ_pos n))

theorem isUnique_ofOwners_wrap : (ofOwners (2 ^ 64 + 1)).isUnique = true := by
  simp only [isUnique, ofOwners, beq_iff_eq]
  exact (WrapCounter.counted_eq_one_iff (by omega) _).2 (by decide)

end PossessCtr

/-! ## Ringmasters -/

abbrev RingId := ℕ

/-- The random number under which a sender is registered. -/
abbrev SenderId := BitVec 32

/-- `ReaderSender<T>`: the id of a sender with the ring it sends to. -/
abbrev ReaderSender := SenderId × RingId

/-- What a sender puts into a ring: the receive time and the message. -/
abbrev Stamped (Val : Type) := Instant × Val

/-- `ReaderRingMaster<T>`. The type `T` is the field `ty`: behind `dyn RingMaster` it is known
only by its `TypeId`. -/
structure ReaderRingMaster where
  ty : TypeId
  senders : List ReaderSender
  wireFormat : WireFormat
  qos : QosSettings
  lastReceived : Option Instant
  shutdownFuse : Bool

namespace ReaderRingMaster

/-- `ReaderRingMaster::new`. -/
def new (ty : TypeId) (wireFormat : WireFormat) (qos : QosSettings) : ReaderRingMaster where
  ty
  senders := []
  wireFormat
  qos
  lastReceived := none
  shutdownFuse := false

/-- `add_sender`; `id` is what `rand::random` returned. -/
def addSender (m : ReaderRingMaster) (id : SenderId) (ring : RingId) : ReaderRingMaster :=
  { m with senders := m.senders ++ [(id, ring)] }

/-- `remove_sender`. -/
def removeSender (m : ReaderRingMaster) (id : SenderId) : Bool × ReaderRingMaster :=
  let (found, senders) := removeFirst (fun b => b.1 == id) m.senders
  (found, { m with senders })

/-- The time-based filter of `distribute_msg`: the ringmaster with the receive time remembered, or
`none` when the message is dropped. -/
def filterTime (m : ReaderRingMaster) (recvTime : Instant) : Option ReaderRingMaster :=
  match m.qos.timeBasedFilter with
  | none => some m
  | some t =>
    match m.lastReceived with
    | some last =>
      if recvTime - last < t then none else some { m with lastReceived := some recvTime }
    | none => some { m with lastReceived := some recvTime }

variable {Val : Type}

/-- `distribute_msg`: the ringmaster afterwards, and the sends it makes, in order. -/
def distributeMsg (qx : QuickXml Val) (m : ReaderRingMaster) (recvTime : Instant)
    (data : ByteArray) : ReaderRingMaster × List (RingId × Stamped Val) :=
  match m.filterTime recvTime with
  | none => (m, [])
  | some m =>
    -- An undecodable message has already moved the filter.
    match deserializeMsg qx m.ty m.wireFormat data with
    | .error _ => (m, [])
    | .ok msg => (m, m.senders.map fun sender => (sender.2, (recvTime, msg)))

/-- `shutdown`. -/
def shutdown (m : ReaderRingMaster) : ReaderRingMaster :=
  { m with senders := [], shutdownFuse := true }

/-- `into_arc_any().downcast::<ReaderRingMaster<T>>()`: succeeds on a ringmaster of type `T`. -/
def downcast (m : ReaderRingMaster) (T : TypeId) : Bool := m.ty == T

/-! ### What the operations leave alone -/

@[simp] theorem senders_new (T : TypeId) (w : WireFormat) (q : QosSettings) :
    (new T w q).senders = [] := rfl

@[simp] theorem ty_new (T : TypeId) (w : WireFormat) (q : QosSettings) : (new T w q).ty = T := rfl

@[simp] theorem ty_shutdown (m : ReaderRingMaster) : m.shutdown.ty = m.ty := rfl

@[simp] theorem senders_shutdown (m : ReaderRingMaster) : m.shutdown.senders = [] := rfl

theorem filterTime_eq {m m' : ReaderRingMaster} {t : Instant} (h : m.filterTime t = some m') :
    m' = { m with lastReceived := m'.lastReceived } := by
  unfold filterTime at h
  split at h
  · cases h; rfl
  · split at h
    · split_ifs at h; cases h; rfl
    · cases h; rfl

theorem distributeMsg_fst (qx : QuickXml Val) (m : ReaderRingMaster) (t : Instant)
    (data : ByteArray) :
    (m.distributeMsg qx t data).1 =
      { m with lastReceived := (m.distributeMsg qx t data).1.lastReceived } := by
  unfold distributeMsg
  cases h : m.filterTime t with
  | none => rfl
  | some m' =>
    have hm' := filterTime_eq h
    dsimp only
    cases deserializeMsg qx m'.ty m'.wireFormat data with
    | error _ => exact hm'
    | ok _ => exact hm'

@[simp] theorem ty_distributeMsg (qx : QuickXml Val) (m : ReaderRingMaster) (t : Instant)
    (data : ByteArray) : (m.distributeMsg qx t data).1.ty = m.ty := by
  rw [distributeMsg_fst]

@[simp] theorem senders_distributeMsg (qx : QuickXml Val) (m : ReaderRingMaster) (t : Instant)
    (data : ByteArray) : (m.distributeMsg qx t data).1.senders = m.senders := by
  rw [distributeMsg_fst]

end ReaderRingMaster

end Rounac

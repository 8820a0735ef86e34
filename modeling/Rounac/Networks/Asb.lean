import Mathlib.Logic.Function.Basic
import Rounac.Lib.OverwriteRing
import Rounac.Networks.Utils

/-!
# The network ASBs and their reader registry

`src/networks/{amqp,mqtt,loopback}.rs`. The three ASBs keep the same registry: a map from bus
topic to a ringmaster, a 16-bit count of its readers and a tag, and a shutdown fuse. `NetAsb` is
that state, together with the heap it points into (ringmasters, rings) and the requests made to
the broker. The functions the three files write alike are defined once on `NetAsb`; each network
keeps its own name for them. They differ in what the removal of the last reader asks the broker.
-/

namespace Rounac

open OverwriteRing

/-- The address of an `Arc`'d ringmaster. -/
abbrev MasterId := ℕ

/-- `rumqttc::QoS`, as far as it is used. -/
inductive MqttQos
  | atMostOnce
  | atLeastOnce
deriving DecidableEq, Repr

/-- The requests made to a broker. -/
inductive BrokerRequest
  | queueDeclare (queue : String)
  | queueBind (queue exchange routingKey : String)
  | basicConsume (queue : String) (autoAck : Bool)
  | basicCancel (consumerTag : String)
  | basicPublish (exchange routingKey : String) (data : ByteArray)
  | subscribe (topic : String) (qos : MqttQos)
  | unsubscribe (topic : String)
  | publish (topic : String) (qos : MqttQos) (data : ByteArray)

def BrokerRequest.isCancel : BrokerRequest → Bool
  | .basicCancel _ | .unsubscribe _ => true
  | _ => false

/-- A value of the registry: `(Arc<dyn RingMaster>, AtomicU16, String)`. -/
structure Entry where
  ringmaster : MasterId
  count : BitVec 16
  tag : String
deriving DecidableEq, Repr

/-- An ASB with the heap behind it. `masters`, `rings` and the network handles are allocated at
the addresses `nextMaster`, `nextRing` and `nextNet`. -/
structure NetAsb (Val : Type) where
  readers : StrMap Entry
  shutdownFuse : Bool
  masters : MasterId → ReaderRingMaster
  nextMaster : MasterId
  rings : RingId → RingBuf (Stamped Val)
  nextRing : RingId
  nextNet : ℕ
  requests : List BrokerRequest

namespace NetAsb

variable {Val : Type}

/-- `AmqpAsb::new`, `MqttAsb::new`, `LoopbackAsb::new`. -/
def new : NetAsb Val where
  readers := ∅
  shutdownFuse := false
  masters := fun _ => .new ⟨0⟩ .xml .default
  nextMaster := 0
  rings := fun _ => .empty 0
  nextRing := 0
  nextNet := 0
  requests := []

/-! ## Heap and broker -/

def modifyMaster (asb : NetAsb Val) (m : MasterId) (f : ReaderRingMaster → ReaderRingMaster) :
    NetAsb Val :=
  { asb with masters := Function.update asb.masters m (f (asb.masters m)) }

/-- `Arc::new` of a ringmaster. -/
def newMaster (asb : NetAsb Val) (master : ReaderRingMaster) : MasterId × NetAsb Val :=
  (asb.nextMaster,
    { asb with
      masters := Function.update asb.masters asb.nextMaster master
      nextMaster := asb.nextMaster + 1 })

/-- `ring_bounded` at a capacity above zero. -/
def ringBounded (asb : NetAsb Val) (capacity : ℕ) : RingId × NetAsb Val :=
  (asb.nextRing,
    { asb with
      rings := Function.update asb.rings asb.nextRing (.empty capacity)
      nextRing := asb.nextRing + 1 })

/-- `ring_bounded`: `none` at capacity zero, where it panics. -/
def ringBoundedOrPanic (asb : NetAsb Val) (capacity : ℕ) : Option (RingId × NetAsb Val) :=
  if capacity = 0 then none else some (asb.ringBounded capacity)

/-- `Arc::new` of an `AsbReaderNet`. -/
def newNet (asb : NetAsb Val) : ℕ × NetAsb Val :=
  (asb.nextNet, { asb with nextNet := asb.nextNet + 1 })

def request (asb : NetAsb Val) (r : BrokerRequest) : NetAsb Val :=
  { asb with requests := asb.requests ++ [r] }

/-- Put a list of messages into their rings, in order. -/
def sendAll (rings : RingId → RingBuf (Stamped Val)) :
    List (RingId × Stamped Val) → RingId → RingBuf (Stamped Val)
  | [] => rings
  | (ρ, x) :: sends => sendAll (Function.update rings ρ ((rings ρ).send x)) sends

/-! ## The registry -/

/-- `get_clone_for`. -/
def getCloneFor (asb : NetAsb Val) (topic : String) : Option MasterId :=
  (asb.readers.lookup topic).map Entry.ringmaster

/-- The `readers.insert` at the end of a first subscription, with count zero. -/
def insertReader (asb : NetAsb Val) (topic : String) (m : MasterId) (tag : String) : NetAsb Val :=
  { asb with readers := asb.readers.insert topic ⟨m, 0, tag⟩ }

/-- `add_reader`: `none` when there is no entry for the topic. -/
def addReader (asb : NetAsb Val) (topic : String) : Option (NetAsb Val) :=
  match asb.readers.lookup topic with
  | some t => some { asb with readers := asb.readers.insert topic { t with count := t.count + 1 } }
  | none => none

/-- The locked section of `del_reader`: `none` when there is no entry for the topic, and otherwise
the entry, if this removed it. -/
def delReaderLocked (asb : NetAsb Val) (topic : String) : Option (Option Entry × NetAsb Val) :=
  match asb.readers.lookup topic with
  | none => none
  | some t =>
    if t.count = 1 then
      some (some t, { asb.modifyMaster t.ringmaster .shutdown with
        readers := asb.readers.erase topic })
    else
      some (none, { asb with readers := asb.readers.insert topic { t with count := t.count - 1 } })

/-- `del_reader`: after the locked section the last reader's entry is cancelled at the broker. -/
def delReader (cancel : Entry → Option BrokerRequest) (asb : NetAsb Val) (topic : String) :
    Option Bool × NetAsb Val :=
  match asb.delReaderLocked topic with
  | none => (none, asb)
  | some (some last, asb) => (some true, ((cancel last).map asb.request).getD asb)
  | some (none, asb) => (some false, asb)

/-- `handle_msg`. -/
def handleMsg (qx : QuickXml Val) (asb : NetAsb Val) (topic : String) (now : Instant)
    (data : ByteArray) : NetAsb Val :=
  if asb.shutdownFuse then asb
  else
    match asb.readers.lookup topic with
    | none => asb
    | some t =>
      let (master, sends) := (asb.masters t.ringmaster).distributeMsg qx now data
      { asb with
        masters := Function.update asb.masters t.ringmaster master
        rings := sendAll asb.rings sends }

/-- The loop of `shutdown` over `readers.values()`. -/
def shutdownMasters (masters : MasterId → ReaderRingMaster) :
    List (Sigma fun _ : String => Entry) → MasterId → ReaderRingMaster
  | [] => masters
  | t :: ts =>
      shutdownMasters
        (Function.update masters t.2.ringmaster (masters t.2.ringmaster).shutdown) ts

/-- `shutdown`. -/
def shutdown (asb : NetAsb Val) : NetAsb Val :=
  { asb with
    masters := shutdownMasters asb.masters asb.readers.entries
    readers := ∅
    shutdownFuse := true }

/-! ## What the operations leave alone -/

@[simp] theorem modifyMaster_masters_self (asb : NetAsb Val) (m : MasterId)
    (f : ReaderRingMaster → ReaderRingMaster) :
    (asb.modifyMaster m f).masters m = f (asb.masters m) := by
  simp [modifyMaster]

theorem modifyMaster_masters_of_ne (asb : NetAsb Val) {m k : MasterId} (h : k ≠ m)
    (f : ReaderRingMaster → ReaderRingMaster) :
    (asb.modifyMaster m f).masters k = asb.masters k := by
  simp [modifyMaster, h]

theorem ty_modifyMaster (asb : NetAsb Val) (m : MasterId) {f : ReaderRingMaster → ReaderRingMaster}
    (hf : ∀ r, (f r).ty = r.ty) (k : MasterId) :
    ((asb.modifyMaster m f).masters k).ty = (asb.masters k).ty := by
  by_cases hk : k = m
  · subst hk; rw [modifyMaster_masters_self, hf]
  · rw [modifyMaster_masters_of_ne asb hk]

theorem shutdownMasters_apply (ts : List (Sigma fun _ : String => Entry)) :
    ∀ (masters : MasterId → ReaderRingMaster) (m : MasterId),
      shutdownMasters masters ts m =
        if ∃ t ∈ ts, t.2.ringmaster = m then (masters m).shutdown else masters m := by
  induction ts with
  | nil => intro masters m; simp [shutdownMasters]
  | cons t ts ih =>
    intro masters m
    rw [shutdownMasters, ih]
    by_cases hm : t.2.ringmaster = m
    · subst hm
      simp [ReaderRingMaster.shutdown]
    · simp only [Function.update_of_ne (Ne.symm hm), List.exists_mem_cons_iff, hm, false_or]

/-- After `shutdown` every registered ringmaster has lost its senders. -/
theorem senders_shutdown {asb : NetAsb Val} {topic : String} {t : Entry}
    (h : asb.readers.lookup topic = some t) :
    (asb.shutdown.masters t.ringmaster).senders = [] := by
  have hmem : (⟨topic, t⟩ : Sigma fun _ : String => Entry) ∈ asb.readers.entries :=
    AList.mem_lookup_iff.1 h
  simp only [shutdown, shutdownMasters_apply]
  rw [if_pos ⟨_, hmem, rfl⟩]
  rfl

theorem senders_shutdown_subset (asb : NetAsb Val) (m : MasterId) :
    (asb.shutdown.masters m).senders ⊆ (asb.masters m).senders := by
  simp only [shutdown, shutdownMasters_apply]
  split_ifs
  · simp
  · exact fun _ h => h

@[simp] theorem ty_shutdown (asb : NetAsb Val) (m : MasterId) :
    (asb.shutdown.masters m).ty = (asb.masters m).ty := by
  simp only [shutdown, shutdownMasters_apply]
  split_ifs <;> rfl

end NetAsb

/-! ## The three networks -/

namespace AmqpAsb

variable {Val : Type}

abbrev getCloneFor (asb : NetAsb Val) (topic : String) := asb.getCloneFor topic

abbrev addReader (asb : NetAsb Val) (topic : String) := asb.addReader topic

/-- `AmqpAsb::del_reader` cancels the consumer of the removed entry. -/
def delReader (asb : NetAsb Val) (topic : String) : Option Bool × NetAsb Val :=
  asb.delReader (fun last => some (.basicCancel last.tag)) topic

abbrev handleMsg (qx : QuickXml Val) (asb : NetAsb Val) (topic : String) (now : Instant)
    (data : ByteArray) := asb.handleMsg qx topic now data

abbrev shutdown (asb : NetAsb Val) := asb.shutdown

end AmqpAsb

namespace MqttAsb

variable {Val : Type}

abbrev getCloneFor (asb : NetAsb Val) (topic : String) := asb.getCloneFor topic

abbrev addReader (asb : NetAsb Val) (topic : String) := asb.addReader topic

/-- `MqttAsb::del_reader` unsubscribes from the removed entry's bus topic. -/
def delReader (asb : NetAsb Val) (topic : String) : Option Bool × NetAsb Val :=
  asb.delReader (fun last => some (.unsubscribe last.tag)) topic

abbrev handleMsg (qx : QuickXml Val) (asb : NetAsb Val) (topic : String) (now : Instant)
    (data : ByteArray) := asb.handleMsg qx topic now data

abbrev shutdown (asb : NetAsb Val) := asb.shutdown

end MqttAsb

namespace LoopbackAsb

variable {Val : Type}

abbrev getCloneFor (asb : NetAsb Val) (topic : String) := asb.getCloneFor topic

abbrev addReader (asb : NetAsb Val) (topic : String) := asb.addReader topic

/-- `LoopbackAsb::del_reader` has no broker to tell. -/
def delReader (asb : NetAsb Val) (topic : String) : Option Bool × NetAsb Val :=
  asb.delReader (fun _ => none) topic

abbrev handleMsg (qx : QuickXml Val) (asb : NetAsb Val) (topic : String) (now : Instant)
    (data : ByteArray) := asb.handleMsg qx topic now data

abbrev shutdown (asb : NetAsb Val) := asb.shutdown

/-- `LoopbackAsb::publish`. -/
def publish (qx : QuickXml Val) (asb : NetAsb Val) (topic : String) (now : Instant)
    (data : ByteArray) : Except CalError (NetAsb Val) :=
  if asb.shutdownFuse then .error (.netErr "ASB has been shut down.")
  else .ok (handleMsg qx asb topic now data)

end LoopbackAsb

end Rounac

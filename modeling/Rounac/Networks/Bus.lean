import Rounac.Networks.Listeners
import Rounac.Networks.Plane

/-!
# An ASB with its readers

The calls on an ASB (`Plane`) and what is done with every reader (`SharedReader`), in one system.
They meet in the rings. `add_sender` makes a ring, and with it the reader that receives from it; a
message that a call sends into the ring arrives at the reader; a reader whose sender is dropped is
disconnected; and what a reader receives leaves the ring.

A ring is in both parts, as a queue of messages in `Plane` and of the addresses of messages in
`SharedReader`.
-/

namespace Rounac

open StepSystem SwapRemove OverwriteRing LockOrder

/-- What a reader is made with: its expiration, and the client threads that share it. -/
structure ReaderKind where
  expiration : Option Duration
  clients : ℕ

/-- An ASB and the readers of its rings. -/
structure Bus (Val : Type) where
  plane : Plane Val
  readers : RingId → SharedReader

/-- A call on the ASB begins or goes on, or something is done with the reader of a ring. -/
inductive BusStep (Val : Type)
  | call (t : AsbTask Val)
  | run (i : ℕ) (now : Instant)
  | reader (ρ : RingId) (l : ReaderStep)

/-- The clients and the background threads of a reader take the step. -/
def ReaderStep.isOwn : ReaderStep → Bool
  | arrive _ | disconnect => false
  | _ => true

/-- A message arrives in the reader's ring. -/
def SharedReader.arrived (s : SharedReader) (t : Instant) : SharedReader :=
  { s with ring := s.ring.send (t, s.nextMsg), nextMsg := s.nextMsg + 1 }

/-- The ring of the reader `r` has one message more than that of `r'`. -/
def SharedReader.received (r r' : SharedReader) : Bool :=
  r'.ring.items.length < r.ring.items.length

namespace AsbTask

variable {Val : Type}

/-- The rings whose senders the next step of a task drops. -/
def drops (asb : NetAsb Val) : AsbTask Val → List RingId
  | removing _ t => (asb.masters t.ringmaster).senders.map Prod.snd
  | clearing (m :: _) => (asb.masters m).senders.map Prod.snd
  | removeSender m id => (((asb.masters m).senders.find? (·.1 == id)).map Prod.snd).toList
  | _ => []

/-- What the next step of a task makes of the reader `r` of the ring `ρ`. -/
def readerAfter (made : RingId → ReaderKind) (asb : NetAsb Val) (ρ : RingId) (r : SharedReader) :
    AsbTask Val → SharedReader
  | sending _ x _ (ρ' :: _) => if ρ = ρ' then r.arrived x.1 else r
  | addSender _ _ capacity =>
    if ρ = asb.nextRing then .new capacity (made ρ).expiration (made ρ).clients else r
  | t => if ρ ∈ t.drops asb then { r with connected := false } else r

end AsbTask

namespace Bus

variable {Val : Type}

/-- An ASB without readers. Those to be made are all there from the start, as the ringmasters
are. -/
def new (kinds : MasterId → TypeId × WireFormat × QosSettings) : Bus Val where
  plane := .new kinds
  readers := fun _ => .new 0 none 0

variable (qx : QuickXml Val) (made : RingId → ReaderKind)

def step (s : Bus Val) : BusStep Val → Option (Bus Val)
  | .call t => (s.plane.step qx (.call t)).map fun plane => { s with plane }
  | .run i now =>
    (s.plane.tasks[i]?).bind fun t =>
      (s.plane.step qx (.run i now)).map fun plane =>
        { plane, readers := fun ρ => t.readerAfter made s.plane.asb ρ (s.readers ρ) }
  | .reader ρ l =>
    if ρ < s.plane.asb.nextRing ∧ l.isOwn = true then
      ((s.readers ρ).step l).map fun r =>
        { plane :=
            if (s.readers ρ).received r then
              { s.plane with asb := s.plane.asb.fan qx (.recv ρ) }
            else s.plane
          readers := Function.update s.readers ρ r }
    else none

end Bus

/-! ## What a step does -/

theorem SharedReader.step_ring {s s' : SharedReader} {l : ReaderStep} (hown : l.isOwn = true)
    (h : s.step l = some s') :
    s'.nextMsg = s.nextMsg ∧
      (s'.ring = s.ring ∨ s'.ring = s.ring.advance ∧ s.ring.items ≠ []) := by
  have hmove := step_move h
  generalize s'.toTraffic = b at hmove
  cases hmove with
  | idle | added | removed | spawned => exact ⟨rfl, .inl rfl⟩
  | arrived => cases hown
  | expired hitems | read hitems =>
    exact ⟨rfl, .inr ⟨rfl, by rw [hitems]; exact List.cons_ne_nil _ _⟩⟩
  | turned hk hturn =>
    cases hturn with
    | idle | locked | called => exact ⟨rfl, .inl rfl⟩
    | expired hitems | took hitems =>
      exact ⟨rfl, .inr ⟨rfl, by rw [hitems]; exact List.cons_ne_nil _ _⟩⟩

theorem SharedReader.advanceClient_connected {s : SharedReader} {now : Instant} {c : Client}
    {next : Client × SharedReader} (h : s.advanceClient now c = some next) :
    next.2.connected = s.connected := by
  cases c with
  | idle => cases h
  | added | starting | spawning => cases h; rfl
  | polling call =>
    simp only [advanceClient] at h
    by_cases hover : call.isOver s.expiration
    · rw [if_pos hover] at h
      cases h
      rfl
    · rw [if_neg hover] at h
      split at h
      · split at h <;> (cases h; rfl)
      · split_ifs at h
        cases h
        rfl

theorem SharedReader.advanceThread_connected {s : SharedReader} {now : Instant} {t : BgThread}
    {next : BgThread × SharedReader} (h : s.advanceThread now t = some next) :
    next.2.connected = s.connected := by
  cases t with
  | receiving =>
    simp only [advanceThread] at h
    split at h
    · split_ifs at h <;> (cases h; rfl)
    · cases h; rfl
  | holding m =>
    simp only [advanceThread] at h
    split_ifs at h
    cases h
    rfl
  | calling m rest => cases rest <;> (cases h; rfl)
  | head => cases h; rfl
  | exited => cases h

theorem SharedReader.step_connected {s s' : SharedReader} {l : ReaderStep} (hown : l.isOwn = true)
    (h : s.step l = some s') : s'.connected = s.connected := by
  cases step_stepped h with
  | arrived | disconnected => cases hown
  | added | polled => rfl
  | removed =>
    show ((s.removeListener _).2).connected = s.connected
    unfold removeListener
    dsimp only
    split_ifs <;> rfl
  | client hj hnext => exact advanceClient_connected hnext
  | thread hk hnext => exact advanceThread_connected hnext

end Rounac

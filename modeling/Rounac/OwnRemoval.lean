import Rounac.Networks.Listeners
import Rounac.Networks.StatusManager
import Rounac.SenderRemoval

/-!
# Removals by drawn ids

Senders, listeners and status listeners are registered under 32-bit ids from `rand::random`, which
nobody compares with the ids in use, and are removed by them. The removal takes out the first
element that has the id. It is the element of its own registration as long as the ids differ, and
exactly so long:

* the listeners of a reader, while every `add_listener` draws an id that none before it drew;
* the status listeners of a connection, likewise;
* the senders of the ringmasters, which drops of readers remove, while every reader that is made
  gets an id that no live reader of its ringmaster has.

(`removals_hit_their_own_iff`.)
-/

namespace Rounac

open StepSystem SwapRemove DrawnIds

/-! ## Listeners of a reader -/

def ReaderStep.draws : ReaderStep → Option (BitVec 32)
  | .call _ (.addListener id) _ => some id
  | _ => none

namespace SharedReader

variable {s s' : SharedReader} {l : ReaderStep}

def elements (s : SharedReader) : List (BitVec 32 × ℕ) := s.listeners.map fun l => (l.id, l.fn)

/-- With the ids that `add_listener` returned one after another, `ids`: a removal with one of them
takes out the listener of that call, if it is there, and no other. Listeners are numbered by the
calls that added them. -/
def RemovesOwn (ids : List (BitVec 32)) (s : SharedReader) : Prop :=
  ∀ k id, ids[k]? = some id →
    (s.removeListener id).2.listeners.Perm (s.listeners.filter fun l => l.fn ≠ k)

theorem removeListener_listeners (s : SharedReader) (id : BitVec 32) :
    (s.removeListener id).2.listeners = (removeFirst (fun b => b.id == id) s.listeners).2 := by
  have h := toTraffic_removeListener s id
  exact congrArg Traffic.listeners h

theorem elements_removeListener (s : SharedReader) (id : BitVec 32) :
    (s.removeListener id).2.elements = (removeFirst (fun x => x.1 == id) s.elements).2 := by
  rw [elements, elements, removeListener_listeners, removeFirst_map]
  rfl

theorem removesOwn_iff (ids : List (BitVec 32)) (s : SharedReader) :
    s.RemovesOwn ids ↔ (listing ids s.elements).Exact := by
  have hinj : Function.Injective fun l : Listener => (l.id, l.fn) := by
    intro a b h
    cases a
    cases h
    rfl
  simp only [RemovesOwn, removeListener_listeners]
  exact (exact_listing_map_iff hinj ids s.listeners).symm

theorem lists : Lists SharedReader.step elements (fun s => s.nextFn) ReaderStep.draws where
  added := by
    intro s l s' id h hdraw
    cases step_stepped h with
    | added =>
      cases hdraw
      refine ⟨?_, rfl⟩
      simp [elements, pushListener]
    | @polled j call now poll hidle hpoll => cases call <;> cases hpoll <;> cases hdraw
    | arrived | disconnected | removed | client | thread => cases hdraw
  kept := by
    intro s l s' h hdraw
    have hsame : ∀ {t : SharedReader},
        t.listeners = s.listeners → t.elements.Subperm s.elements := by
      intro t ht
      rw [elements, elements, ht]
    cases step_stepped h with
    | arrived | disconnected | polled => exact ⟨hsame rfl, rfl⟩
    | added => cases hdraw
    | @removed j id =>
      constructor
      · show (s.removeListener id).2.elements.Subperm s.elements
        rw [elements_removeListener]
        exact removeFirst_subperm _ _
      · show (s.removeListener id).2.toTraffic.nextFn = s.nextFn
        rw [toTraffic_removeListener]
    | client hj hnext =>
      obtain ⟨hlisteners, hfn, -⟩ := advanceClient_frame hnext
      exact ⟨hsame hlisteners, hfn⟩
    | thread hk hnext =>
      have hturn := (advanceThread_turn hnext).1
      exact ⟨hsame hturn.listeners_eq, hturn.nextFn_eq⟩

/-- **A removal of a listener hits its own registration exactly while the ids drawn differ.** -/
theorem removesOwn_iff_fresh (capacity : ℕ) (expiration : Option Duration) (n : ℕ)
    (ls : List ReaderStep) :
    Always (withPast step) (fun s => s.1.RemovesOwn (s.2.filterMap ReaderStep.draws))
        (new capacity expiration n, []) ls ↔
      EachStep (withPast step)
        (fun s l => ∀ id, l.draws = some id → id ∉ s.2.filterMap ReaderStep.draws)
        (new capacity expiration n, []) ls := by
  have hexact := lists.exact_iff (s := new capacity expiration n) rfl rfl ls
  simp only [removesOwn_iff]
  exact hexact

end SharedReader

/-! ## Status listeners -/

def StatusStep.draws : StatusStep → Option (BitVec 32)
  | .addListener id => some id
  | _ => none

namespace StatusManager

def elements (s : StatusManager) : List (BitVec 32 × ℕ) :=
  s.statusListeners.map fun l => (l.id, l.fn)

/-- With the ids that `add_listener` returned one after another, `ids`: a removal with one of them
takes out the listener of that call, if it is there, and no other. -/
def RemovesOwn (ids : List (BitVec 32)) (s : StatusManager) : Prop :=
  ∀ k id, ids[k]? = some id →
    (s.removeListener id).2.statusListeners.Perm (s.statusListeners.filter fun l => l.fn ≠ k)

theorem elements_removeListener (s : StatusManager) (id : BitVec 32) :
    (s.removeListener id).2.elements = (removeFirst (fun x => x.1 == id) s.elements).2 := by
  rw [elements, elements, removeFirst_map]
  rfl

theorem removesOwn_iff (ids : List (BitVec 32)) (s : StatusManager) :
    s.RemovesOwn ids ↔ (listing ids s.elements).Exact := by
  have hinj : Function.Injective fun l : StatusListener => (l.id, l.fn) := by
    intro a b h
    cases a
    cases h
    rfl
  exact (exact_listing_map_iff hinj ids s.statusListeners).symm

theorem lists : Lists StatusManager.step elements (fun s => s.nextFn) StatusStep.draws where
  added := by
    intro s a s' id h hdraw
    cases a with
    | addListener id' =>
      cases hdraw
      cases h
      exact ⟨by simp [elements, addListener, issue], rfl⟩
    | setStatus | advance | removeListener | deliver => cases hdraw
  kept := by
    intro s a s' h hdraw
    have hmove := step_move h
    cases hmove with
    | called | loaded | stored | notified | delivered => exact ⟨List.Subperm.refl _, rfl⟩
    | added => cases hdraw
    | @removed id =>
      refine ⟨?_, rfl⟩
      rw [elements_removeListener]
      exact removeFirst_subperm _ _

/-- **A removal of a status listener hits its own registration exactly while the ids drawn
differ.** -/
theorem removesOwn_iff_fresh (as : List StatusStep) :
    Always (withPast step) (fun s => s.1.RemovesOwn (s.2.filterMap StatusStep.draws)) (new, []) as ↔
      EachStep (withPast step)
        (fun s a => ∀ id, a.draws = some id → id ∉ s.2.filterMap StatusStep.draws)
        (new, []) as := by
  have hexact := lists.exact_iff (s := new) rfl rfl as
  simp only [removesOwn_iff]
  exact hexact

end StatusManager

/-! ## All three -/

section

variable {Val : Type} {qx : QuickXml Val} {config : AsbConfig} {svcName : String}

/-- **Removals hit their own registrations exactly while ids differ**: the listeners of a reader and
the status listeners of a connection while no id is drawn twice, the senders while none gets an id
that a live reader of its ringmaster has. -/
theorem removals_hit_their_own_iff :
    (∀ (capacity : ℕ) (expiration : Option Duration) (n : ℕ) (ls : List ReaderStep),
      Always (withPast SharedReader.step)
          (fun s => s.1.RemovesOwn (s.2.filterMap ReaderStep.draws))
          (SharedReader.new capacity expiration n, []) ls ↔
        EachStep (withPast SharedReader.step)
          (fun s l => ∀ id, l.draws = some id → id ∉ s.2.filterMap ReaderStep.draws)
          (SharedReader.new capacity expiration n, []) ls) ∧
    (∀ as : List StatusStep,
      Always (withPast StatusManager.step)
          (fun s => s.1.RemovesOwn (s.2.filterMap StatusStep.draws)) (StatusManager.new, []) as ↔
        EachStep (withPast StatusManager.step)
          (fun s a => ∀ id, a.draws = some id → id ∉ s.2.filterMap StatusStep.draws)
          (StatusManager.new, []) as) ∧
    ∀ (kind : NetworkKind) (exchange : Option String) (ops : List (Op Val)),
      Always (AsbConnection.step qx config svcName) AsbConnection.DropsOwn
          (.connected kind exchange) ops ↔
        EachStep (AsbConnection.step qx config svcName) (AsbConnection.FreshSender config svcName)
          (.connected kind exchange) ops :=
  ⟨SharedReader.removesOwn_iff_fresh, StatusManager.removesOwn_iff_fresh,
    AsbConnection.dropsOwn_iff_fresh⟩

end

/-- A reader and a clone of it with the same id: the drop of the clone disconnects the reader. And
of two status listeners with the same id, the second one's removal takes out the first. -/
theorem same_ids_remove_others :
    ¬ Always (AsbConnection.step .unit (.withBusTopics "svc" []) "svc") AsbConnection.DropsOwn
      (.connected .mqtt none : AsbConnection Unit)
      [.createReader ⟨0⟩ "t" .accepting 1, .cloneReader 0 1] ∧
    (∃ (c : AsbConnection Unit) (r : AsbReader),
      run (AsbConnection.step .unit (.withBusTopics "svc" []) "svc") (.connected .mqtt none)
        [.createReader ⟨0⟩ "t" .accepting 1, .cloneReader 0 1, .dropReader 1] = some c ∧
      c.readers = [r] ∧ r.disconnected c.asb = true) ∧
    ¬ Always (withPast StatusManager.step)
      (fun s => s.1.RemovesOwn (s.2.filterMap StatusStep.draws)) (StatusManager.new, [])
      [.addListener 7, .addListener 7] := by
  refine ⟨fun h => ?_, ⟨_, _, rfl, rfl, by decide⟩, fun h => ?_⟩
  · have hfresh := (AsbConnection.dropsOwn_iff_fresh .mqtt none _).1 h
    exact absurd rfl ((((hfresh _ rfl).2 _ rfl).1 _ _ (.cloned rfl)) _ List.mem_cons_self rfl)
  · have hfresh := (StatusManager.removesOwn_iff_fresh _).1 h
    exact ((hfresh _ rfl).2 _ rfl).1 7 rfl (by decide)

end Rounac

import Rounac.FanOut
import Rounac.Lib.LockOrder

/-!
# The operations on an ASB, lock by lock

`handle_msg`, `add_reader`, `del_reader` and `shutdown` of `src/networks/{amqp,mqtt,loopback}.rs`
with the ringmaster functions of `src/networks/utils.rs` that they call, as threads that run at
once. A `AsbTask` is one call and where it stands; it moves from one lock to the next, and
`AsbTask.exec` is what it does once it has the lock it wants.

The locks are the registry's `readers` and every ringmaster's `senders`. The mutex
`last_received` is taken and given back within one step.
-/

namespace Rounac

open StepSystem OverwriteRing LockOrder

/-- The locks that are held from one step to the next. -/
inductive PlaneLock
  | readers
  | senders (m : MasterId)
deriving DecidableEq, Repr

/-- A call, and where it stands. -/
inductive AsbTask (Val : Type)
  /-- `handle_msg`, before it looks at the fuse. -/
  | handleMsg (topic : String) (data : ByteArray)
  /-- It has seen the fuse whole, and wants `readers`. -/
  | passed (topic : String) (data : ByteArray)
  /-- It holds `readers`, has found the ringmaster and taken the time. -/
  | found (m : MasterId) (now : Instant) (data : ByteArray)
  /-- The time-based filter has admitted the message. -/
  | admitted (m : MasterId) (now : Instant) (data : ByteArray)
  /-- The message is decoded; it wants the senders. -/
  | decoded (m : MasterId) (x : Stamped Val)
  /-- It also holds the senders, and has sent to the first of them. -/
  | sending (m : MasterId) (x : Stamped Val) (sent rest : List RingId)
  /-- All senders have the message. -/
  | delivered (m : MasterId) (x : Stamped Val) (sent : List RingId)
  /-- The message went nowhere. -/
  | dropped
  /-- `add_reader`. -/
  | addReader (topic : String)
  /-- `del_reader`. -/
  | delReader (topic : String)
  /-- `del_reader` of the last reader: it holds `readers`, and wants the senders. -/
  | removing (topic : String) (t : Entry)
  /-- `shutdown`. -/
  | shutdown
  /-- `shutdown` holds `readers`, and has these ringmasters left. -/
  | clearing (ms : List MasterId)
  /-- `readers.write().unwrap().insert(..)` at the end of a first subscription. -/
  | insert (topic : String) (m : MasterId) (tag : String)
  /-- `add_sender`, with a new ring. -/
  | addSender (m : MasterId) (id : SenderId) (capacity : ℕ)
  /-- `remove_sender`. -/
  | removeSender (m : MasterId) (id : SenderId)
  /-- Any of the others, when it has returned. -/
  | returned

namespace AsbTask

variable {Val : Type}

/-- The task is a call that has done nothing yet. -/
def isCall : AsbTask Val → Bool
  | handleMsg .. | addReader .. | delReader .. | shutdown | insert .. | addSender ..
  | removeSender .. => true
  | _ => false

def isFinished : AsbTask Val → Bool
  | delivered .. | dropped | returned => true
  | _ => false

def holds : AsbTask Val → List (PlaneLock × Access)
  | found .. | admitted .. | decoded .. => [(.readers, .read)]
  | sending m .. => [(.readers, .read), (.senders m, .read)]
  | removing .. | clearing .. => [(.readers, .write)]
  | _ => []

def wants : AsbTask Val → Option (PlaneLock × Access)
  | passed .. | addReader .. => some (.readers, .read)
  | delReader .. | shutdown | insert .. => some (.readers, .write)
  | decoded m _ => some (.senders m, .read)
  | removing _ t => some (.senders t.ringmaster, .write)
  | clearing (m :: _) => some (.senders m, .write)
  | addSender m .. | removeSender m _ => some (.senders m, .write)
  | _ => none

/-- What a task sends in its next step. -/
def push : AsbTask Val → Option (RingId × Stamped Val)
  | sending _ x _ (ρ :: _) => some (ρ, x)
  | _ => none

def sent : AsbTask Val → List (RingId × Stamped Val)
  | sending _ x sent _ | delivered _ x sent => sent.map (·, x)
  | _ => []

variable (qx : QuickXml Val) (now : Instant)

/-- The next step of a task that has the lock it wants. `now` is what the clock shows. -/
def exec (asb : NetAsb Val) : AsbTask Val → Option (NetAsb Val × AsbTask Val)
  | handleMsg topic data =>
    some (asb, if asb.shutdownFuse then dropped else passed topic data)
  | passed topic data =>
    match asb.readers.lookup topic with
    | none => some (asb, dropped)
    | some t => some (asb, found t.ringmaster now data)
  | found m now data =>
    match (asb.masters m).filterTime now with
    | none => some (asb, dropped)
    | some master =>
      some ({ asb with masters := Function.update asb.masters m master }, admitted m now data)
  | admitted m now data =>
    match deserializeMsg qx (asb.masters m).ty (asb.masters m).wireFormat data with
    | .error _ => some (asb, dropped)
    | .ok msg => some (asb, decoded m (now, msg))
  | decoded m x => some (asb, sending m x [] ((asb.masters m).senders.map Prod.snd))
  | sending m x sent (ρ :: rest) =>
    some ({ asb with rings := Function.update asb.rings ρ ((asb.rings ρ).send x) },
      sending m x (sent ++ [ρ]) rest)
  | sending m x sent [] => some (asb, delivered m x sent)
  | addReader topic => some ((asb.addReader topic).getD asb, returned)
  | delReader topic =>
    match asb.readers.lookup topic with
    | none => some (asb, returned)
    | some t =>
      if t.count = 1 then some (asb, removing topic t)
      else some ({ asb with readers := asb.readers.insert topic { t with count := t.count - 1 } },
        returned)
  | removing topic t =>
    some ({ asb.modifyMaster t.ringmaster .shutdown with readers := asb.readers.erase topic },
      returned)
  | shutdown => some (asb, clearing (asb.readers.entries.map (·.2.ringmaster)))
  | clearing (m :: ms) => some (asb.modifyMaster m .shutdown, clearing ms)
  | clearing [] => some ({ asb with readers := ∅, shutdownFuse := true }, returned)
  | insert topic m tag => some (asb.insertReader topic m tag, returned)
  | addSender m id capacity => some (asb.fan qx (.addSender m id capacity), returned)
  | removeSender m id => some (asb.fan qx (.removeSender m id), returned)
  | delivered .. | dropped | returned => none

end AsbTask

/-- A send that was made: by which task, into which ring. -/
structure Push (Val : Type) where
  task : ℕ
  ring : RingId
  msg : Stamped Val

/-- An ASB and the calls made on it. `pushes` is a record of the sends so far, which no step
reads. -/
structure Plane (Val : Type) where
  asb : NetAsb Val
  tasks : List (AsbTask Val)
  pushes : List (Push Val)

/-- What happens: a call begins, a reader receives, or a task goes on. -/
inductive PlaneStep (Val : Type)
  | call (t : AsbTask Val)
  | recv (ρ : RingId)
  | run (i : ℕ) (now : Instant)

def planeLocking (Val : Type) : Locking (AsbTask Val) PlaneLock where
  holds := AsbTask.holds
  wants := AsbTask.wants
  finished := AsbTask.isFinished
  holds_finished t h := by cases t <;> first | rfl | cases h
  wants_finished t h := by cases t <;> first | rfl | cases h

namespace Plane

variable {Val : Type}

/-- An ASB on which nothing was called. A ringmaster that nobody knows yet has no senders and does
nothing, so the ringmasters to be made are all there from the start. -/
def new (kinds : MasterId → TypeId × WireFormat × QosSettings) : Plane Val where
  asb := { NetAsb.new with masters := fun m => .new (kinds m).1 (kinds m).2.1 (kinds m).2.2 }
  tasks := []
  pushes := []

def Grants (s : Plane Val) (t : AsbTask Val) : Prop := (planeLocking Val).Grants s.tasks t

instance (s : Plane Val) (t : AsbTask Val) : Decidable (s.Grants t) :=
  inferInstanceAs (Decidable ((planeLocking Val).Grants s.tasks t))

/-- The record of what the task `i`, which stands at `t`, sends next. -/
def record (i : ℕ) (t : AsbTask Val) : List (Push Val) :=
  t.push.toList.map fun p => ⟨i, p.1, p.2⟩

/-- The sends of one task, in order. -/
def pushedBy (s : Plane Val) (i : ℕ) : List (RingId × Stamped Val) :=
  (s.pushes.filter (·.task = i)).map fun p => (p.ring, p.msg)

/-- The sends into one ring, in order. -/
def pushedInto (s : Plane Val) (ρ : RingId) : List (Stamped Val) :=
  (s.pushes.filter (·.ring = ρ)).map Push.msg

variable (qx : QuickXml Val)

def step (s : Plane Val) : PlaneStep Val → Option (Plane Val)
  | .call t => if t.isCall then some { s with tasks := s.tasks ++ [t] } else none
  | .recv ρ => some { s with asb := s.asb.fan qx (.recv ρ) }
  | .run i now =>
    match s.tasks[i]? with
    | none => none
    | some t =>
      if s.Grants t then
        (t.exec qx now s.asb).map fun (asb, t') =>
          { asb, tasks := s.tasks.set i t', pushes := s.pushes ++ record i t }
      else none

end Plane

/-! ## What a step does -/

theorem NetAsb.modifyMaster_apply {Val : Type} (asb : NetAsb Val) (m k : MasterId)
    (f : ReaderRingMaster → ReaderRingMaster) :
    (asb.modifyMaster m f).masters k = if k = m then f (asb.masters k) else asb.masters k := by
  split_ifs with hk
  · rw [hk, NetAsb.modifyMaster_masters_self]
  · exact NetAsb.modifyMaster_masters_of_ne asb hk f

namespace AsbTask

variable {Val : Type} {qx : QuickXml Val} {now : Instant} {asb asb' : NetAsb Val}
  {t t' : AsbTask Val}

/-- What the next step of a task makes of the ringmaster `k`. -/
def masterAfter (asb : NetAsb Val) (k : MasterId) : AsbTask Val → ReaderRingMaster
  | found m now _ =>
    if k = m then ((asb.masters k).filterTime now).getD (asb.masters k) else asb.masters k
  | removing _ t => if k = t.ringmaster then (asb.masters k).shutdown else asb.masters k
  | clearing (m :: _) => if k = m then (asb.masters k).shutdown else asb.masters k
  | addSender m id _ => if k = m then (asb.masters k).addSender id asb.nextRing else asb.masters k
  | removeSender m id => if k = m then ((asb.masters k).removeSender id).2 else asb.masters k
  | _ => asb.masters k

/-- What it makes of the registry. -/
def readersAfter (asb : NetAsb Val) : AsbTask Val → StrMap Entry
  | addReader topic =>
    match asb.readers.lookup topic with
    | some t => asb.readers.insert topic { t with count := t.count + 1 }
    | none => asb.readers
  | delReader topic =>
    match asb.readers.lookup topic with
    | some t =>
      if t.count = 1 then asb.readers
      else asb.readers.insert topic { t with count := t.count - 1 }
    | none => asb.readers
  | removing topic _ => asb.readers.erase topic
  | clearing [] => ∅
  | insert topic m tag => asb.readers.insert topic ⟨m, 0, tag⟩
  | _ => asb.readers

/-- The step is the last of `shutdown`. -/
def blowsFuse : AsbTask Val → Bool
  | clearing [] => true
  | _ => false

/-- It makes a ring. -/
def makesRing : AsbTask Val → Bool
  | addSender .. => true
  | _ => false

/-- What it makes of the ring `ρ`. -/
def ringAfter (asb : NetAsb Val) (ρ : RingId) : AsbTask Val → RingBuf (Stamped Val)
  | sending _ x _ (ρ' :: _) => if ρ = ρ' then (asb.rings ρ).send x else asb.rings ρ
  | addSender _ _ capacity => if ρ = asb.nextRing then .empty capacity else asb.rings ρ
  | _ => asb.rings ρ

/-- What a task's step does to the ASB. -/
structure Effect (asb asb' : NetAsb Val) (t : AsbTask Val) : Prop where
  masters : ∀ k, asb'.masters k = t.masterAfter asb k
  readers : asb'.readers = t.readersAfter asb
  fuse : asb'.shutdownFuse = (t.blowsFuse || asb.shutdownFuse)
  rings : ∀ ρ, asb'.rings ρ = t.ringAfter asb ρ
  nextRing : asb'.nextRing = asb.nextRing + t.makesRing.toNat

theorem exec_effect (h : t.exec qx now asb = some (asb', t')) : Effect asb asb' t := by
  cases t with
  | handleMsg | decoded | shutdown | insert =>
    cases h
    exact ⟨fun _ => rfl, rfl, rfl, fun _ => rfl, rfl⟩
  | passed topic data | admitted m now' data =>
    simp only [exec] at h
    split at h <;> (cases h; exact ⟨fun _ => rfl, rfl, rfl, fun _ => rfl, rfl⟩)
  | found m now' data =>
    simp only [exec] at h
    cases hm : (asb.masters m).filterTime now' with
    | none =>
      rw [hm] at h
      cases h
      -- The filter refuses: no ringmaster changes.
      refine ⟨fun k => ?_, rfl, rfl, fun _ => rfl, rfl⟩
      simp only [masterAfter]
      split_ifs with hk
      · rw [hk, hm, Option.getD_none]
      · rfl
    | some master =>
      rw [hm] at h
      cases h
      refine ⟨fun k => ?_, rfl, rfl, fun _ => rfl, rfl⟩
      simp only [masterAfter, Function.update_apply]
      split_ifs with hk
      · rw [hk, hm, Option.getD_some]
      · rfl
  | sending m x sent rest =>
    cases rest with
    | nil => cases h; exact ⟨fun _ => rfl, rfl, rfl, fun _ => rfl, rfl⟩
    | cons ρ rest =>
      cases h
      refine ⟨fun _ => rfl, rfl, rfl, fun k => ?_, rfl⟩
      simp only [ringAfter, Function.update_apply]
      split_ifs with hk
      · rw [hk]
      · rfl
  | addReader topic =>
    cases h
    simp only [NetAsb.addReader]
    cases hlookup : asb.readers.lookup topic with
    | none => exact ⟨fun _ => rfl, by simp [readersAfter, hlookup], rfl, fun _ => rfl, rfl⟩
    | some t => exact ⟨fun _ => rfl, by simp [readersAfter, hlookup], rfl, fun _ => rfl, rfl⟩
  | delReader topic =>
    simp only [exec] at h
    cases hlookup : asb.readers.lookup topic with
    | none =>
      rw [hlookup] at h
      cases h
      exact ⟨fun _ => rfl, by simp [readersAfter, hlookup], rfl, fun _ => rfl, rfl⟩
    | some t =>
      rw [hlookup] at h
      have hafter : (delReader topic : AsbTask Val).readersAfter asb =
          if t.count = 1 then asb.readers else asb.readers.insert topic
            { t with count := t.count - 1 } := by
        rw [readersAfter, hlookup]
      dsimp only at h
      split_ifs at h hafter with hcount
      · cases h; exact ⟨fun _ => rfl, hafter.symm, rfl, fun _ => rfl, rfl⟩
      · cases h; exact ⟨fun _ => rfl, hafter.symm, rfl, fun _ => rfl, rfl⟩
  | removing topic t =>
    cases h
    exact ⟨fun k => NetAsb.modifyMaster_apply asb _ k _, rfl, rfl, fun _ => rfl, rfl⟩
  | clearing ms =>
    cases ms with
    | nil => cases h; exact ⟨fun _ => rfl, rfl, rfl, fun _ => rfl, rfl⟩
    | cons m ms =>
      cases h
      exact ⟨fun k => NetAsb.modifyMaster_apply asb m k _, rfl, rfl, fun _ => rfl, rfl⟩
  | addSender m id capacity =>
    cases h
    refine ⟨fun k => NetAsb.modifyMaster_apply (asb.ringBounded capacity).2 m k
      (·.addSender id asb.nextRing), rfl, rfl, fun ρ => ?_, rfl⟩
    exact Function.update_apply asb.rings asb.nextRing _ ρ
  | removeSender m id =>
    cases h
    exact ⟨fun k => NetAsb.modifyMaster_apply asb m k fun r => (r.removeSender id).2, rfl, rfl,
      fun _ => rfl, rfl⟩
  | delivered | dropped | returned => cases h

theorem eq_sending_of_push {ρ : RingId} {x : Stamped Val} (h : t.push = some (ρ, x)) :
    ∃ m sent rest, t = sending m x sent (ρ :: rest) := by
  cases t with
  | sending m x' sent rest =>
    cases rest with
    | nil => cases h
    | cons ρ' rest => cases h; exact ⟨m, sent, rest, rfl⟩
  | _ => cases h

theorem eq_addSender_of_makesRing (h : t.makesRing = true) :
    ∃ m id capacity, t = addSender m id capacity := by
  cases t with
  | addSender m id capacity => exact ⟨m, id, capacity, rfl⟩
  | _ => cases h

theorem ringAfter_of_push_eq_none (hpush : t.push = none) (hring : t.makesRing = false)
    (ρ : RingId) : t.ringAfter asb ρ = asb.rings ρ := by
  cases t with
  | sending m x sent rest =>
    cases rest with
    | nil => rfl
    | cons => cases hpush
  | addSender => cases hring
  | _ => rfl

/-- Only a task that wants a ringmaster's senders for itself changes them. -/
theorem Effect.senders (h : Effect asb asb' t) {k : MasterId}
    (hk : t.wants ≠ some (.senders k, .write)) :
    (asb'.masters k).senders = (asb.masters k).senders := by
  rw [h.masters]
  cases t with
  | found m now' data =>
    simp only [masterAfter]
    split_ifs
    · cases hm : (asb.masters k).filterTime now' with
      | none => rfl
      | some master =>
        rw [Option.getD_some, ReaderRingMaster.filterTime_eq hm]
    · rfl
  | removing topic t => rw [masterAfter, if_neg (by rintro rfl; exact hk rfl)]
  | clearing ms =>
    cases ms with
    | nil => rfl
    | cons m ms => rw [masterAfter, if_neg (by rintro rfl; exact hk rfl)]
  | addSender m id capacity => rw [masterAfter, if_neg (by rintro rfl; exact hk rfl)]
  | removeSender m id => rw [masterAfter, if_neg (by rintro rfl; exact hk rfl)]
  | _ => rfl

theorem exec_sent (h : t.exec qx now asb = some (asb', t')) :
    t'.sent = t.sent ++ t.push.toList := by
  cases t with
  | handleMsg topic data =>
    cases h
    split_ifs <;> rfl
  | passed topic data | found topic now' data | admitted m now' data =>
    simp only [exec] at h
    split at h <;> (cases h; rfl)
  | sending m x sent rest =>
    cases rest with
    | nil => cases h; exact (List.append_nil _).symm
    | cons ρ rest => cases h; exact List.map_append
  | delReader topic =>
    simp only [exec] at h
    split at h
    · cases h; rfl
    · split_ifs at h <;> (cases h; rfl)
  | clearing ms => cases ms <;> (cases h; rfl)
  | _ => cases h <;> rfl

/-- How a task comes to be sending. -/
theorem exec_eq_sending {m : MasterId} {x : Stamped Val} {sent rest : List RingId}
    (h : t.exec qx now asb = some (asb', sending m x sent rest)) :
    t = decoded m x ∧ sent = [] ∧ rest = (asb.masters m).senders.map Prod.snd ∨
      ∃ ρ done, t = sending m x done (ρ :: rest) ∧ sent = done ++ [ρ] := by
  cases t with
  | handleMsg topic data =>
    simp only [exec, Option.some.injEq, Prod.mk.injEq] at h
    split_ifs at h <;> cases h.2
  | passed topic data | found topic now' data | admitted m now' data =>
    simp only [exec] at h
    split at h <;> cases h
  | decoded m' x' => cases h; exact .inl ⟨rfl, rfl, rfl⟩
  | sending m' x' sent' rest' =>
    cases rest' with
    | nil => cases h
    | cons ρ rest' => cases h; exact .inr ⟨ρ, sent', rfl, rfl⟩
  | delReader topic =>
    simp only [exec] at h
    split at h
    · cases h
    · split_ifs at h <;> cases h
  | clearing ms => cases ms <;> cases h
  | _ => cases h

theorem exec_holds (h : t.exec qx now asb = some (asb', t')) :
    ∀ k ∈ t'.holds, k ∈ t.holds ∨ t.wants = some k := by
  cases t with
  | handleMsg topic data =>
    cases h
    split_ifs <;> (intro k hk; cases hk)
  | passed topic data =>
    simp only [exec] at h
    split at h
    · cases h
      intro k hk
      cases hk
    · cases h
      intro k hk
      exact .inr (congrArg some (List.mem_singleton.1 hk)).symm
  | found m now' data | admitted m now' data =>
    simp only [exec] at h
    split at h
    · cases h
      intro k hk
      cases hk
    · cases h
      exact fun k hk => .inl hk
  | decoded m x =>
    cases h
    intro k hk
    rcases List.mem_cons.1 hk with rfl | hk
    · exact .inl List.mem_cons_self
    · exact .inr (congrArg some (List.mem_singleton.1 hk)).symm
  | sending m x sent rest =>
    cases rest with
    | nil =>
      cases h
      intro k hk
      cases hk
    | cons ρ rest =>
      cases h
      exact fun k hk => .inl hk
  | delReader topic =>
    simp only [exec] at h
    split at h
    · cases h
      intro k hk
      cases hk
    · split_ifs at h
      · cases h
        intro k hk
        exact .inr (congrArg some (List.mem_singleton.1 hk)).symm
      · cases h
        intro k hk
        cases hk
  | shutdown =>
    cases h
    intro k hk
    exact .inr (congrArg some (List.mem_singleton.1 hk)).symm
  | clearing ms =>
    cases ms with
    | nil =>
      cases h
      intro k hk
      cases hk
    | cons m ms =>
      cases h
      exact fun k hk => .inl hk
  | delivered | dropped | returned => cases h
  | _ =>
    cases h
    intro k hk
    cases hk

variable (qx now asb) in
theorem exec_isSome (h : t.isFinished = false) : (t.exec qx now asb).isSome := by
  cases t with
  | passed topic data | found topic now' data | admitted m now' data =>
    simp only [exec]
    split <;> rfl
  | sending m x sent rest => cases rest <;> rfl
  | delReader topic =>
    simp only [exec]
    split
    · rfl
    · split_ifs <;> rfl
  | clearing ms => cases ms <;> rfl
  | delivered | dropped | returned => cases h
  | _ => rfl

end AsbTask

/-! ## The order of the locks -/

/-- The registry comes before the senders. -/
def PlaneLock.rank : PlaneLock → ℕ
  | readers => 0
  | senders _ => 1

theorem AsbTask.ordered {Val : Type} (t : AsbTask Val) :
    (planeLocking Val).Ordered PlaneLock.rank t := by
  intro w hw k hk
  cases t with
  | decoded m x =>
    cases hw
    cases List.mem_singleton.1 hk
    exact Nat.zero_lt_one
  | removing topic t =>
    cases hw
    cases List.mem_singleton.1 hk
    exact Nat.zero_lt_one
  | clearing ms =>
    cases ms with
    | nil => cases hw
    | cons m ms =>
      cases hw
      cases List.mem_singleton.1 hk
      exact Nat.zero_lt_one
  | found | admitted | sending => cases hw
  | _ => cases hk

namespace Plane

variable {Val : Type} {qx : QuickXml Val} {s s' : Plane Val}

theorem step_call {t : AsbTask Val} (h : s.step qx (.call t) = some s') :
    t.isCall = true ∧ s' = { s with tasks := s.tasks ++ [t] } := by
  simp only [step] at h
  split_ifs at h with ht
  cases h
  exact ⟨ht, rfl⟩

theorem step_run {i : ℕ} {now : Instant} (h : s.step qx (.run i now) = some s') :
    ∃ t t', s.tasks[i]? = some t ∧ s.Grants t ∧ t.exec qx now s.asb = some (s'.asb, t') ∧
      s'.tasks = s.tasks.set i t' ∧ s'.pushes = s.pushes ++ record i t := by
  simp only [step] at h
  cases hi : s.tasks[i]? with
  | none =>
    rw [hi] at h
    cases h
  | some t =>
    rw [hi] at h
    dsimp only at h
    split_ifs at h with hgrants
    obtain ⟨⟨asb, t'⟩, hexec, rfl⟩ := Option.map_eq_some_iff.1 h
    exact ⟨t, t', rfl, hgrants, hexec, rfl, rfl⟩

theorem holds_of_isCall {t : AsbTask Val} (h : t.isCall = true) : t.holds = [] := by
  cases t <;> first | rfl | cases h

theorem exclusive_step {a : PlaneStep Val} (he : (planeLocking Val).Exclusive s.tasks)
    (h : s.step qx a = some s') : (planeLocking Val).Exclusive s'.tasks := by
  cases a with
  | call t =>
    obtain ⟨ht, rfl⟩ := step_call h
    exact he.append (holds_of_isCall ht)
  | recv ρ =>
    cases h
    exact he
  | run i now =>
    obtain ⟨t, t', hi, hgrants, hexec, htasks, -⟩ := step_run h
    rw [htasks]
    exact he.set hi hgrants (AsbTask.exec_holds hexec)

theorem exclusive_new (kinds : MasterId → TypeId × WireFormat × QosSettings) :
    (planeLocking Val).Exclusive (new kinds).tasks := List.Pairwise.nil

end Plane

end Rounac

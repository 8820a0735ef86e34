import Rounac.Lib.SpacedFilter
import Rounac.Lib.StepSystem
import Rounac.Networks.Asb

/-!
# Fan-out

The registry hands a message of a bus topic to the topic's ringmaster, which filters it by time,
decodes it and pushes it to every sender. Seen from one sender, none of the other senders matters:
what is pushed into its ring is what passes the topic's filter and decodes, from its registration
on (`fan_out`).

* `FanOp`, `NetAsb.fan` — messages, registrations, removals and receives, in any order.
* `NetAsb.Routed` — topics have ringmasters of their own and senders ids and rings of their own.
* `NetAsb.Registered` — a sender is the only one on its ring.
* `NetAsb.pushed` — the messages a run pushes into a ring.
* `NetAsb.acts` — what a run does to a ring, pushes and receives.
-/

namespace Rounac

open StepSystem SpacedFilter SwapRemove OverwriteRing

variable {Val : Type} {qx : QuickXml Val}

/-! ## One message at a ringmaster -/

variable (qx) in
/-- A raw message with its receive time, decoded. -/
def decodedAs (T : TypeId) (format : WireFormat) (x : Instant × ByteArray) : Option (Stamped Val) :=
  match deserializeMsg qx T format x.2 with
  | .ok msg => some (x.1, msg)
  | .error _ => none

namespace ReaderRingMaster

variable (qx) in
/-- What a ringmaster lets out of a sequence of raw messages. -/
def lets (m : ReaderRingMaster) (xs : List (Instant × ByteArray)) : List (Stamped Val) :=
  (admittedBy m.qos.timeBasedFilter m.lastReceived xs).filterMap
    (decodedAs qx m.ty m.wireFormat)

/-- The ringmaster with other senders. -/
def withSenders (m : ReaderRingMaster) (senders : List ReaderSender) : ReaderRingMaster :=
  { m with senders }

/-- The ringmaster after a sequence of raw messages. -/
def after (m : ReaderRingMaster) (xs : List (Instant × ByteArray)) : ReaderRingMaster :=
  { m with lastReceived := lastBy m.qos.timeBasedFilter m.lastReceived xs }

theorem after_nil (m : ReaderRingMaster) : m.after [] = m := by
  unfold after
  rw [lastBy_nil]

theorem after_append (m : ReaderRingMaster) (xs ys : List (Instant × ByteArray)) :
    m.after (xs ++ ys) = (m.after xs).after ys := by
  unfold after
  rw [lastBy_append]

theorem lets_append (m : ReaderRingMaster) (xs ys : List (Instant × ByteArray)) :
    m.lets qx (xs ++ ys) = m.lets qx xs ++ (m.after xs).lets qx ys := by
  unfold lets after
  rw [admittedBy_append, List.filterMap_append]

/-- What a ringmaster lets out depends on its senders in no way. -/
theorem lets_withSenders (m : ReaderRingMaster) (senders : List ReaderSender)
    (xs : List (Instant × ByteArray)) : (m.withSenders senders).lets qx xs = m.lets qx xs := rfl

/-- **Distribution of one message**: the filter moves on, and every sender gets what is let out. -/
theorem distributeMsg_eq (m : ReaderRingMaster) (t : Instant) (data : ByteArray) :
    m.distributeMsg qx t data = (m.after [(t, data)],
      (m.lets qx [(t, data)]).flatMap fun x => m.senders.map fun s => (s.2, x)) := by
  have hlets : ∀ k, m.filterTime t = some k → m.distributeMsg qx t data =
      (k, ([(t, data)].filterMap (decodedAs qx m.ty m.wireFormat)).flatMap
        fun x => m.senders.map fun s => (s.2, x)) := by
    intro k hk
    have hkm := filterTime_eq hk
    have hsenders : k.senders = m.senders := by rw [hkm]
    have hty : k.ty = m.ty := by rw [hkm]
    have hformat : k.wireFormat = m.wireFormat := by rw [hkm]
    unfold distributeMsg decodedAs
    rw [hk]
    dsimp only
    rw [hsenders, hty, hformat]
    cases hde : deserializeMsg qx m.ty m.wireFormat data <;> simp [hde]
  unfold lets after
  cases hfilter : m.qos.timeBasedFilter with
  | none => exact hlets m (by simp [filterTime, hfilter])
  | some gap =>
    cases hlast : m.lastReceived with
    | none =>
      rw [hlets { m with lastReceived := some t } (by simp [filterTime, hfilter, hlast])]
      simp only [admittedBy, lastBy, admitted, lastAdmitted, passes, if_true]
    | some last =>
      by_cases hgap : t - last < gap
      · have hno : ¬ gap ≤ t - last := Nat.not_le.2 hgap
        have hdrop : m.filterTime t = none := by simp [filterTime, hfilter, hlast, hgap]
        simp only [distributeMsg, hdrop, admittedBy, lastBy, admitted, lastAdmitted, passes, hno,
          decide_false, Bool.false_eq_true, if_false, List.filterMap_nil, List.flatMap_nil]
        rw [← hlast]
      · have hyes : gap ≤ t - last := Nat.not_lt.1 hgap
        rw [hlets { m with lastReceived := some t } (by simp [filterTime, hfilter, hlast, hgap])]
        simp only [admittedBy, lastBy, admitted, lastAdmitted, passes, hyes, decide_true, if_true]

end ReaderRingMaster

/-! ## Runs -/

/-- What happens to an ASB's rings: a message arrives, a sender with a new ring is registered, a
sender is removed, a receive takes from a ring. -/
inductive FanOp
  | handleMsg (topic : String) (now : Instant) (data : ByteArray)
  | addSender (m : MasterId) (id : SenderId) (capacity : ℕ)
  | removeSender (m : MasterId) (id : SenderId)
  | recv (ρ : RingId)

namespace NetAsb

variable (qx) in
def fan (asb : NetAsb Val) : FanOp → NetAsb Val
  | .handleMsg topic now data => asb.handleMsg qx topic now data
  | .addSender m id capacity =>
    (asb.ringBounded capacity).2.modifyMaster m (·.addSender id (asb.ringBounded capacity).1)
  | .removeSender m id => asb.modifyMaster m fun k => (k.removeSender id).2
  | .recv ρ => { asb with rings := Function.update asb.rings ρ (asb.rings ρ).advance }

variable (qx) in
/-- The sends an operation makes, in order. -/
def sends (asb : NetAsb Val) : FanOp → List (RingId × Stamped Val)
  | .handleMsg topic now data =>
    if asb.shutdownFuse then []
    else
      match asb.readers.lookup topic with
      | none => []
      | some t => ((asb.masters t.ringmaster).distributeMsg qx now data).2
  | _ => []

variable (qx) in
/-- The messages a run pushes into the ring `ρ`, in order. -/
def pushed (ρ : RingId) : NetAsb Val → List FanOp → List (Stamped Val)
  | _, [] => []
  | asb, op :: ops =>
    ((asb.sends qx op).filter (·.1 = ρ)).map Prod.snd ++ pushed ρ (asb.fan qx op) ops

variable (qx) in
def fanAll (asb : NetAsb Val) (ops : List FanOp) : NetAsb Val := ops.foldl (fan qx) asb

end NetAsb

/-- The message of the topic that an operation brings, with its receive time. -/
def FanOp.arrival (topic : String) : FanOp → Option (Instant × ByteArray)
  | .handleMsg t now data => if t = topic then some (now, data) else none
  | _ => none

def arrivals (topic : String) (ops : List FanOp) : List (Instant × ByteArray) :=
  ops.filterMap (FanOp.arrival topic)

theorem arrivals_cons (topic : String) (op : FanOp) (ops : List FanOp) :
    arrivals topic (op :: ops) = (op.arrival topic).toList ++ arrivals topic ops := by
  unfold arrivals
  rw [List.filterMap_cons]
  cases op.arrival topic <;> rfl

namespace NetAsb

/-! ## Routing -/

/-- The ASB is open, topics have ringmasters of their own, and senders have ids of their own and
rings in use. -/
structure Routed (asb : NetAsb Val) : Prop where
  fuse : asb.shutdownFuse = false
  apart : ∀ {t t' e e'}, asb.readers.lookup t = some e → asb.readers.lookup t' = some e' →
    e.ringmaster = e'.ringmaster → t = t'
  allocated : ∀ m, ∀ s ∈ (asb.masters m).senders, s.2 < asb.nextRing
  ids : ∀ m, ((asb.masters m).senders.map Prod.fst).Nodup

/-- A registration draws an id that the ringmaster does not have. -/
def FreshId (asb : NetAsb Val) : FanOp → Prop
  | .addSender m id _ => id ∉ (asb.masters m).senders.map Prod.fst
  | _ => True

instance (asb : NetAsb Val) : DecidablePred asb.FreshId
  | .addSender m id _ => inferInstanceAs (Decidable (id ∉ (asb.masters m).senders.map Prod.fst))
  | .handleMsg .. | .removeSender .. | .recv .. => inferInstanceAs (Decidable True)

/-- What an operation does to the senders of the ringmaster `k`. -/
def sendersAfter (asb : NetAsb Val) (k : MasterId) : FanOp → List ReaderSender
  | .addSender m id _ =>
    if k = m then (asb.masters k).senders ++ [(id, asb.nextRing)] else (asb.masters k).senders
  | .removeSender m id =>
    if k = m then (removeFirst (fun b => b.1 == id) (asb.masters k).senders).2
    else (asb.masters k).senders
  | _ => (asb.masters k).senders

theorem fan_senders (asb : NetAsb Val) (op : FanOp) (k : MasterId) :
    ((asb.fan qx op).masters k).senders = asb.sendersAfter k op := by
  cases op with
  | handleMsg topic now data =>
    show ((asb.handleMsg qx topic now data).masters k).senders = (asb.masters k).senders
    unfold handleMsg
    split_ifs
    · rfl
    · cases asb.readers.lookup topic with
      | none => rfl
      | some t =>
        by_cases hk : k = t.ringmaster
        · subst hk
          simp
        · simp [Function.update_of_ne hk]
  | addSender m id capacity =>
    simp only [fan, sendersAfter]
    by_cases hk : k = m
    · subst hk
      rw [if_pos rfl, modifyMaster_masters_self]
      rfl
    · rw [if_neg hk, modifyMaster_masters_of_ne _ hk]
      rfl
  | removeSender m id =>
    simp only [fan, sendersAfter]
    by_cases hk : k = m
    · subst hk
      rw [if_pos rfl, modifyMaster_masters_self]
      rfl
    · rw [if_neg hk, modifyMaster_masters_of_ne _ hk]
  | recv ρ => rfl

theorem fan_readers (asb : NetAsb Val) (op : FanOp) : (asb.fan qx op).readers = asb.readers := by
  cases op with
  | handleMsg topic now data =>
    show (asb.handleMsg qx topic now data).readers = asb.readers
    unfold handleMsg
    split_ifs
    · rfl
    · cases asb.readers.lookup topic <;> rfl
  | addSender | removeSender | recv => rfl

theorem fan_fuse (asb : NetAsb Val) (op : FanOp) :
    (asb.fan qx op).shutdownFuse = asb.shutdownFuse := by
  cases op with
  | handleMsg topic now data =>
    show (asb.handleMsg qx topic now data).shutdownFuse = asb.shutdownFuse
    unfold handleMsg
    split_ifs
    · rfl
    · cases asb.readers.lookup topic <;> rfl
  | addSender | removeSender | recv => rfl

theorem nextRing_le_fan (asb : NetAsb Val) (op : FanOp) :
    asb.nextRing ≤ (asb.fan qx op).nextRing := by
  cases op with
  | handleMsg topic now data =>
    show asb.nextRing ≤ (asb.handleMsg qx topic now data).nextRing
    unfold handleMsg
    split_ifs
    · exact Nat.le_refl _
    · cases asb.readers.lookup topic <;> exact Nat.le_refl _
  | addSender => exact Nat.le_succ _
  | removeSender | recv => exact Nat.le_refl _

theorem Routed.fan {asb : NetAsb Val} {op : FanOp} (h : asb.Routed) (hop : asb.FreshId op) :
    (asb.fan qx op).Routed where
  fuse := (fan_fuse asb op).trans h.fuse
  apart := by
    rw [fan_readers]
    exact h.apart
  allocated := by
    intro m s hs
    rw [fan_senders] at hs
    have hold : s ∈ (asb.masters m).senders → s.2 < (asb.fan qx op).nextRing := fun hs =>
      Nat.lt_of_lt_of_le (h.allocated m s hs) (nextRing_le_fan asb op)
    cases op with
    | handleMsg | recv => exact hold hs
    | addSender m' id capacity =>
      simp only [sendersAfter] at hs
      split_ifs at hs
      · rcases List.mem_append.1 hs with hs | hs
        · exact hold hs
        · obtain rfl := List.mem_singleton.1 hs
          exact Nat.lt_succ_self _
      · exact hold hs
    | removeSender m' id =>
      simp only [sendersAfter] at hs
      split_ifs at hs
      · exact hold (mem_of_mem_removeFirst hs)
      · exact hold hs
  ids := by
    intro m
    rw [fan_senders]
    cases op with
    | handleMsg | recv => exact h.ids m
    | addSender m' id capacity =>
      simp only [sendersAfter]
      split_ifs with hm
      · subst hm
        rw [List.map_append, List.map_cons, List.map_nil]
        exact List.Nodup.append (h.ids m) (List.nodup_singleton _)
          (List.disjoint_singleton.2 hop)
      · exact h.ids m
    | removeSender m' id =>
      simp only [sendersAfter]
      split_ifs
      · exact nodup_removeFirst (h.ids m)
      · exact h.ids m

/-! ## One sender -/

/-- The sender `id` of the ringmaster `m` is registered, and is the only one on the ring `ρ`. -/
structure Registered (asb : NetAsb Val) (m : MasterId) (id : SenderId) (ρ : RingId) : Prop where
  mem : (id, ρ) ∈ (asb.masters m).senders
  alone : ∀ k, ∀ s ∈ (asb.masters k).senders, s.2 = ρ → k = m ∧ s.1 = id
  allocated : ρ < asb.nextRing

theorem registered_addSender {asb : NetAsb Val} (h : asb.Routed) (m : MasterId) (id : SenderId)
    (capacity : ℕ) :
    (asb.fan qx (.addSender m id capacity)).Registered m id asb.nextRing where
  mem := by
    rw [fan_senders, sendersAfter, if_pos rfl]
    exact List.mem_append_right _ (List.mem_singleton.2 rfl)
  alone := by
    intro k s hs hring
    rw [fan_senders, sendersAfter] at hs
    have hold : s ∉ (asb.masters k).senders := fun hs =>
      absurd (h.allocated k s hs) (by rw [hring]; exact Nat.lt_irrefl _)
    split_ifs at hs with hk
    · rcases List.mem_append.1 hs with hs | hs
      · exact absurd hs hold
      · obtain rfl := List.mem_singleton.1 hs
        exact ⟨hk, rfl⟩
    · exact absurd hs hold
  allocated := Nat.lt_succ_self _

theorem Registered.fan {asb : NetAsb Val} {m : MasterId} {id : SenderId} {ρ : RingId} {op : FanOp}
    (h : asb.Routed) (hreg : asb.Registered m id ρ) (hkeep : op ≠ .removeSender m id) :
    (asb.fan qx op).Registered m id ρ where
  mem := by
    rw [fan_senders]
    cases op with
    | handleMsg | recv => exact hreg.mem
    | addSender m' id' capacity =>
      simp only [sendersAfter]
      split_ifs
      · exact List.mem_append_left _ hreg.mem
      · exact hreg.mem
    | removeSender m' id' =>
      simp only [sendersAfter]
      split_ifs with hm
      · subst hm
        refine (mem_removeFirst_key_iff (h.ids m)).2 ⟨hreg.mem, fun hid => hkeep ?_⟩
        rw [show id' = id from hid.symm]
      · exact hreg.mem
  alone := by
    intro k s hs hring
    rw [fan_senders] at hs
    refine hreg.alone k s ?_ hring
    cases op with
    | handleMsg | recv => exact hs
    | addSender m' id' capacity =>
      simp only [sendersAfter] at hs
      split_ifs at hs
      · rcases List.mem_append.1 hs with hs | hs
        · exact hs
        · -- The new sender is on a new ring.
          obtain rfl := List.mem_singleton.1 hs
          exact absurd hreg.allocated (by rw [← hring]; exact Nat.lt_irrefl _)
      · exact hs
    | removeSender m' id' =>
      simp only [sendersAfter] at hs
      split_ifs at hs
      · exact mem_of_mem_removeFirst hs
      · exact hs
  allocated := Nat.lt_of_lt_of_le hreg.allocated (nextRing_le_fan asb op)

theorem filter_ring_eq {senders : List ReaderSender} {id : SenderId} {ρ : RingId}
    (hnd : (senders.map Prod.fst).Nodup) (hmem : (id, ρ) ∈ senders)
    (halone : ∀ s ∈ senders, s.2 = ρ → s.1 = id) : senders.filter (·.2 = ρ) = [(id, ρ)] := by
  induction senders with
  | nil => cases hmem
  | cons s senders ih =>
    obtain ⟨hs, hnd⟩ := List.nodup_cons.1 hnd
    by_cases hring : s.2 = ρ
    · have hid : s.1 = id := halone s List.mem_cons_self hring
      have hrest : senders.filter (·.2 = ρ) = [] := by
        refine List.filter_eq_nil_iff.2 fun k hk hkring => ?_
        have hkid := halone k (List.mem_cons_of_mem _ hk) (by simpa using hkring)
        exact hs (by rw [hid, ← hkid]; exact List.mem_map_of_mem hk)
      rw [List.filter_cons_of_pos (by simpa using hring), hrest, ← hid, ← hring]
    · have hmem' : (id, ρ) ∈ senders := by
        rcases List.mem_cons.1 hmem with he | hmem
        · exact absurd (congrArg Prod.snd he).symm hring
        · exact hmem
      rw [List.filter_cons_of_neg (by simpa using hring)]
      exact ih hnd hmem' fun k hk => halone k (List.mem_cons_of_mem _ hk)

theorem push_of_filter {senders : List ReaderSender} {ρ : RingId} {s : ReaderSender}
    (h : senders.filter (·.2 = ρ) = [s]) (xs : List (Stamped Val)) :
    ((xs.flatMap fun x => senders.map fun s => (s.2, x)).filter (·.1 = ρ)).map Prod.snd = xs := by
  induction xs with
  | nil => rfl
  | cons x xs ih =>
    have hone : ((senders.map fun s => (s.2, x)).filter (·.1 = ρ)).map Prod.snd = [x] := by
      rw [List.filter_map]
      show ((senders.filter (·.2 = ρ)).map fun s => (s.2, x)).map Prod.snd = [x]
      rw [h]
      rfl
    rw [List.flatMap_cons, List.filter_append, List.map_append, ih, hone]
    rfl

/-- **What one operation pushes into the ring of a registered sender**: what the topic's ringmaster
lets out of the topic's messages. -/
theorem sends_of_registered {asb : NetAsb Val} {topic : String} {e : Entry} {id : SenderId}
    {ρ : RingId} (h : asb.Routed) (he : asb.readers.lookup topic = some e)
    (hreg : asb.Registered e.ringmaster id ρ) (op : FanOp) :
    ((asb.sends qx op).filter (·.1 = ρ)).map Prod.snd =
      (asb.masters e.ringmaster).lets qx (op.arrival topic).toList := by
  cases op with
  | handleMsg t now data =>
    simp only [sends, h.fuse, Bool.false_eq_true, if_false, FanOp.arrival]
    by_cases ht : t = topic
    · subst ht
      rw [he, if_pos rfl]
      dsimp only
      rw [ReaderRingMaster.distributeMsg_eq]
      exact push_of_filter (filter_ring_eq (h.ids e.ringmaster) hreg.mem
        fun s hs hring => (hreg.alone e.ringmaster s hs hring).2) _
    · rw [if_neg ht]
      cases he' : asb.readers.lookup t with
      | none => simp [ReaderRingMaster.lets]
      | some e' =>
        -- Another topic's ringmaster has no sender on the ring.
        have hother : ∀ s ∈ (asb.masters e'.ringmaster).senders, s.2 ≠ ρ := fun s hs hring =>
          ht (h.apart he' he (hreg.alone e'.ringmaster s hs hring).1)
        have hnil : (((asb.masters e'.ringmaster).distributeMsg qx now data).2).filter (·.1 = ρ) =
            [] := by
          rw [ReaderRingMaster.distributeMsg_eq]
          refine List.filter_eq_nil_iff.2 fun y hy => ?_
          obtain ⟨x, -, hy⟩ := List.mem_flatMap.1 hy
          obtain ⟨s, hs, rfl⟩ := List.mem_map.1 hy
          simpa using hother s hs
        dsimp only
        rw [hnil]
        simp [ReaderRingMaster.lets]
  | addSender | removeSender | recv => simp [sends, FanOp.arrival, ReaderRingMaster.lets]

variable (qx) in
theorem fan_master {asb : NetAsb Val} {topic : String} {e : Entry} (h : asb.Routed)
    (he : asb.readers.lookup topic = some e) (op : FanOp) :
    ∃ senders, (asb.fan qx op).masters e.ringmaster =
      ((asb.masters e.ringmaster).after (op.arrival topic).toList).withSenders senders := by
  cases op with
  | handleMsg t now data =>
    refine ⟨(asb.masters e.ringmaster).senders, ?_⟩
    show (asb.handleMsg qx t now data).masters e.ringmaster = _
    simp only [handleMsg, h.fuse, Bool.false_eq_true, if_false, FanOp.arrival]
    by_cases ht : t = topic
    · subst ht
      rw [he, if_pos rfl]
      dsimp only
      rw [Function.update_self, ReaderRingMaster.distributeMsg_eq]
      rfl
    · rw [if_neg ht]
      show _ = ((asb.masters e.ringmaster).after []).withSenders _
      rw [ReaderRingMaster.after_nil]
      cases he' : asb.readers.lookup t with
      | none => rfl
      | some e' =>
        -- Two topics never share a ringmaster.
        exact Function.update_of_ne (fun hm => ht (h.apart he' he hm.symm)) _ _
  | addSender m id capacity =>
    refine ⟨((asb.fan qx (.addSender m id capacity)).masters e.ringmaster).senders, ?_⟩
    show _ = ((asb.masters e.ringmaster).after []).withSenders _
    rw [ReaderRingMaster.after_nil]
    simp only [fan]
    by_cases hm : e.ringmaster = m
    · rw [hm, modifyMaster_masters_self]
      rfl
    · rw [modifyMaster_masters_of_ne _ hm]
      rfl
  | removeSender m id =>
    refine ⟨((asb.fan qx (.removeSender m id)).masters e.ringmaster).senders, ?_⟩
    show _ = ((asb.masters e.ringmaster).after []).withSenders _
    rw [ReaderRingMaster.after_nil]
    simp only [fan]
    by_cases hm : e.ringmaster = m
    · rw [hm, modifyMaster_masters_self]
      rfl
    · rw [modifyMaster_masters_of_ne _ hm]
      rfl
  | recv ρ =>
    refine ⟨(asb.masters e.ringmaster).senders, ?_⟩
    show _ = ((asb.masters e.ringmaster).after []).withSenders _
    rw [ReaderRingMaster.after_nil]
    rfl

/-! ## Runs -/

variable (qx) in
/-- Operations are never disabled. -/
def fanStep (asb : NetAsb Val) (op : FanOp) : Option (NetAsb Val) := some (asb.fan qx op)

variable (qx) in
theorem run_fanStep (asb : NetAsb Val) (ops : List FanOp) :
    run (fanStep qx) asb ops = some (asb.fanAll qx ops) := by
  induction ops generalizing asb with
  | nil => rfl
  | cons op ops ih => exact ih (asb.fan qx op)

theorem eachStep_fan_cons {G : NetAsb Val → FanOp → Prop} {asb : NetAsb Val} {op : FanOp}
    {ops : List FanOp} (h : EachStep (fanStep qx) G asb (op :: ops)) :
    G asb op ∧ EachStep (fanStep qx) G (asb.fan qx op) ops := h _ rfl

/-- The filter of a topic's ringmaster after a run has seen the topic's messages. -/
theorem fanAll_master {asb : NetAsb Val} {topic : String} {e : Entry} {ops : List FanOp}
    (h : asb.Routed) (he : asb.readers.lookup topic = some e)
    (hids : EachStep (fanStep qx) FreshId asb ops) :
    (asb.fanAll qx ops).Routed ∧ (asb.fanAll qx ops).readers.lookup topic = some e ∧
      ∃ senders, (asb.fanAll qx ops).masters e.ringmaster =
        ((asb.masters e.ringmaster).after (arrivals topic ops)).withSenders senders := by
  induction ops generalizing asb with
  | nil =>
    refine ⟨h, he, (asb.masters e.ringmaster).senders, ?_⟩
    show _ = ((asb.masters e.ringmaster).after []).withSenders _
    rw [ReaderRingMaster.after_nil]
    rfl
  | cons op ops ih =>
    obtain ⟨hop, hrest⟩ := eachStep_fan_cons hids
    obtain ⟨hrouted, hlookup, senders, hm⟩ := ih (h.fan hop) (by rw [fan_readers]; exact he) hrest
    obtain ⟨senders', hm'⟩ := fan_master qx h he op
    refine ⟨hrouted, hlookup, senders, ?_⟩
    show ((asb.fan qx op).fanAll qx ops).masters e.ringmaster = _
    rw [hm, hm', arrivals_cons, ReaderRingMaster.after_append]
    rfl

/-- **What a run pushes into the ring of a registered sender.** -/
theorem pushed_eq {asb : NetAsb Val} {topic : String} {e : Entry} {id : SenderId} {ρ : RingId}
    {ops : List FanOp} (h : asb.Routed) (he : asb.readers.lookup topic = some e)
    (hreg : asb.Registered e.ringmaster id ρ) (hids : EachStep (fanStep qx) FreshId asb ops)
    (hkeep : ∀ op ∈ ops, op ≠ .removeSender e.ringmaster id) :
    pushed qx ρ asb ops = (asb.masters e.ringmaster).lets qx (arrivals topic ops) := by
  induction ops generalizing asb with
  | nil => simp [pushed, arrivals, ReaderRingMaster.lets]
  | cons op ops ih =>
    obtain ⟨hop, hrest⟩ := eachStep_fan_cons hids
    have hreg' : (asb.fan qx op).Registered e.ringmaster id ρ :=
      hreg.fan h (hkeep op List.mem_cons_self)
    have hstep := ih (h.fan hop) (by rw [fan_readers]; exact he) hreg' hrest
      fun o ho => hkeep o (List.mem_cons_of_mem _ ho)
    obtain ⟨senders, hm⟩ := fan_master qx h he op
    rw [pushed, sends_of_registered h he hreg op, hstep, hm, arrivals_cons,
      ReaderRingMaster.lets_append]
    rfl

/-! ## The rings -/

/-- The receive an operation makes on the ring `ρ`. -/
def recvsOn (ρ : RingId) : FanOp → List (Act (Stamped Val))
  | .recv ρ' => if ρ' = ρ then [.recv] else []
  | _ => []

variable (qx) in
/-- What an operation does to the ring `ρ`. -/
def actsOn (ρ : RingId) (asb : NetAsb Val) (op : FanOp) : List (Act (Stamped Val)) :=
  (((asb.sends qx op).filter (·.1 = ρ)).map Prod.snd).map .send ++ recvsOn ρ op

theorem sent_actsOn (ρ : RingId) (asb : NetAsb Val) (op : FanOp) :
    sent (actsOn qx ρ asb op) = ((asb.sends qx op).filter (·.1 = ρ)).map Prod.snd := by
  have hrecv : sent (recvsOn ρ op : List (Act (Stamped Val))) = [] := by
    cases op with
    | handleMsg | addSender | removeSender => rfl
    | recv ρ' =>
      simp only [recvsOn]
      split_ifs <;> rfl
  rw [actsOn, sent_append, sent_map_send, hrecv, List.append_nil]

theorem sendAll_apply (sends : List (RingId × Stamped Val)) (ρ : RingId) :
    ∀ rings : RingId → RingBuf (Stamped Val), sendAll rings sends ρ =
      (((sends.filter (·.1 = ρ)).map Prod.snd).map Act.send).foldl Act.apply (rings ρ) := by
  induction sends with
  | nil => intro rings; rfl
  | cons s sends ih =>
    intro rings
    obtain ⟨k, x⟩ := s
    rw [sendAll, ih]
    by_cases hk : k = ρ
    · subst hk
      simp [Act.apply]
    · simp [hk, Function.update_of_ne (Ne.symm hk)]

theorem fan_rings {asb : NetAsb Val} {ρ : RingId} (hρ : ρ < asb.nextRing) (op : FanOp) :
    (asb.fan qx op).rings ρ = (actsOn qx ρ asb op).foldl Act.apply (asb.rings ρ) := by
  cases op with
  | handleMsg topic now data =>
    simp only [actsOn, recvsOn, List.append_nil]
    rw [← sendAll_apply]
    simp only [fan, handleMsg, sends]
    split_ifs
    · rfl
    · cases asb.readers.lookup topic <;> rfl
  | addSender m id capacity =>
    exact Function.update_of_ne (Nat.ne_of_lt hρ) _ _
  | removeSender m id => rfl
  | recv ρ' =>
    simp only [fan, actsOn, recvsOn, sends, List.filter_nil, List.map_nil, List.nil_append]
    by_cases hk : ρ' = ρ
    · subst hk
      rw [Function.update_self, if_pos rfl]
      rfl
    · rw [Function.update_of_ne (Ne.symm hk), if_neg hk]
      rfl

variable (qx) in
/-- What a run does to the ring `ρ`: the messages pushed into it and the receives, in order. -/
def acts (ρ : RingId) : NetAsb Val → List FanOp → List (Act (Stamped Val))
  | _, [] => []
  | asb, op :: ops => actsOn qx ρ asb op ++ acts ρ (asb.fan qx op) ops

theorem sent_acts (ρ : RingId) (asb : NetAsb Val) (ops : List FanOp) :
    sent (acts qx ρ asb ops) = pushed qx ρ asb ops := by
  induction ops generalizing asb with
  | nil => rfl
  | cons op ops ih => rw [acts, pushed, sent_append, sent_actsOn, ih]

variable (qx) in
/-- **A ring after a run** is the ring before it with the run's pushes and receives applied. -/
theorem fanAll_rings {asb : NetAsb Val} {ρ : RingId} (ops : List FanOp) (hρ : ρ < asb.nextRing) :
    (asb.fanAll qx ops).rings ρ = (acts qx ρ asb ops).foldl Act.apply (asb.rings ρ) := by
  induction ops generalizing asb with
  | nil => rfl
  | cons op ops ih =>
    rw [acts, List.foldl_append, ← fan_rings hρ op]
    exact ih (Nat.lt_of_lt_of_le hρ (nextRing_le_fan asb op))

/-- **Fan-out is complete, ordered and isolated.** In a run that registers a sender and keeps it,
what is pushed into its ring is what the topic's filter, as the messages before the registration
left it, admits of the topic's messages since, as far as they decode; in order, and with their
receive times. The ring is these pushes and the run's receives applied to an empty ring, so that
what is unread is a suffix of what was pushed, no longer than the capacity. -/
theorem fan_out (asb : NetAsb Val) (topic : String) (e : Entry) (id : SenderId) (capacity : ℕ)
    (before since : List FanOp) (h : asb.Routed) (he : asb.readers.lookup topic = some e)
    (hids : EachStep (fanStep qx) FreshId asb
      (before ++ .addSender e.ringmaster id capacity :: since))
    (hkeep : ∀ op ∈ since, op ≠ .removeSender e.ringmaster id) :
    let m := asb.masters e.ringmaster
    let ρ := (asb.fanAll qx before).nextRing
    let registered := (asb.fanAll qx before).fan qx (.addSender e.ringmaster id capacity)
    let last := lastBy m.qos.timeBasedFilter m.lastReceived (arrivals topic before)
    pushed qx ρ registered since =
      (admittedBy m.qos.timeBasedFilter last (arrivals topic since)).filterMap
        (decodedAs qx m.ty m.wireFormat) ∧
    (registered.fanAll qx since).rings ρ =
      (acts qx ρ registered since).foldl Act.apply (.empty capacity) ∧
    sent (acts qx ρ registered since) = pushed qx ρ registered since ∧
    ((registered.fanAll qx since).rings ρ).items <:+ pushed qx ρ registered since ∧
    ((registered.fanAll qx since).rings ρ).items.length ≤ capacity := by
  have hbefore : EachStep (fanStep qx) FreshId asb before := hids.left
  have hsince : EachStep (fanStep qx) FreshId (asb.fanAll qx before)
      (.addSender e.ringmaster id capacity :: since) := hids.of_append (run_fanStep qx asb before)
  obtain ⟨hrouted, hlookup, senders, hm⟩ := fanAll_master h he hbefore
  obtain ⟨hop, hrest⟩ := eachStep_fan_cons hsince
  intro m ρ registered last
  have hlookup' : registered.readers.lookup topic = some e := (fan_readers _ _).symm ▸ hlookup
  have hreg : registered.Registered e.ringmaster id ρ :=
    registered_addSender hrouted e.ringmaster id capacity
  obtain ⟨senders', hm'⟩ := fan_master qx hrouted hlookup
    (.addSender e.ringmaster id capacity)
  -- The ring starts empty, and from there only its own sends and receives touch it.
  have hempty : registered.rings ρ = .empty capacity := Function.update_self _ _ _
  have hring : (registered.fanAll qx since).rings ρ =
      (acts qx ρ registered since).foldl Act.apply (.empty capacity) := by
    rw [fanAll_rings qx since hreg.allocated, hempty]
  refine ⟨?_, hring, sent_acts ρ registered since, ?_, ?_⟩
  · rw [pushed_eq (hrouted.fan hop) hlookup' hreg hrest hkeep]
    show (((asb.fanAll qx before).fan qx (.addSender e.ringmaster id capacity)).masters
      e.ringmaster).lets qx (arrivals topic since) = _
    have hquiet : (FanOp.arrival topic (.addSender e.ringmaster id capacity)).toList = [] := rfl
    rw [hm', hm, hquiet, ReaderRingMaster.after_nil, ReaderRingMaster.lets_withSenders,
      ReaderRingMaster.lets_withSenders]
    rfl
  · rw [hring, ← sent_acts]
    have hnil : (.empty capacity : RingBuf (Stamped Val)).items <:+ [] := List.nil_suffix
    exact items_suffix_sent hnil _
  · refine ((registered.fanAll qx since).rings ρ).bounded.trans (Nat.le_of_eq ?_)
    rw [hring]
    exact capacity_foldl _ _

def ofTopic (topic : String) (qos : QosSettings) : NetAsb Val :=
  ((new : NetAsb Val).newMaster (.new ⟨0⟩ .xml qos)).2.insertReader topic 0 topic

theorem senders_ofTopic (topic : String) (qos : QosSettings) (m : MasterId) :
    ((ofTopic topic qos : NetAsb Val).masters m).senders = [] := by
  by_cases hm : m = 0
  · subst hm
    rfl
  · simp [ofTopic, insertReader, newMaster, new, Function.update_of_ne hm]

theorem routed_ofTopic (topic : String) (qos : QosSettings) :
    (ofTopic topic qos : NetAsb Val).Routed where
  fuse := rfl
  apart := by
    have honly : ∀ {t e},
        (ofTopic topic qos : NetAsb Val).readers.lookup t = some e → t = topic := by
      intro t e he
      by_contra hne
      exact absurd ((AList.lookup_insert_ne hne).symm.trans he) (by simp [new, newMaster])
    intro t t' e e' he he' _
    exact (honly he).trans (honly he').symm
  allocated := by
    intro m s hs
    rw [senders_ofTopic] at hs
    cases hs
  ids := by
    intro m
    rw [senders_ofTopic]
    exact List.nodup_nil

/-- A second reader under a time filter of 5: the messages at 8 and 21 pass, the one at 12 does
not, and the one at 3 came before its registration. -/
theorem fan_out_filtered :
    let asb : NetAsb Unit := ofTopic "t" { QosSettings.default with timeBasedFilter := some 5 }
    let registered := (asb.fanAll .unit [.addSender 0 1 4, .handleMsg "t" 3 "<msg/>".toUTF8]).fan
      .unit (.addSender 0 2 4)
    pushed .unit 1 registered [.handleMsg "t" 8 "<msg/>".toUTF8, .removeSender 0 1,
      .handleMsg "t" 12 "<msg/>".toUTF8, .recv 1, .handleMsg "u" 20 "<msg/>".toUTF8,
      .handleMsg "t" 21 "<msg/>".toUTF8] = [(8, ()), (21, ())] := by
  intro asb registered
  refine (fan_out asb "t" ⟨0, 0, "t"⟩ 2 4 [.addSender 0 1 4, .handleMsg "t" 3 "<msg/>".toUTF8]
    _ (routed_ofTopic _ _) (AList.lookup_insert _) ?_ ?_).1.trans ?_
  · decide
  · intro op hop
    simp only [List.mem_cons, List.not_mem_nil, or_false] at hop
    rcases hop with rfl | rfl | rfl | rfl | rfl | rfl <;> simp
  · decide

end NetAsb

end Rounac

import Rounac.ConcurrentFanOut

/-!
# Nothing is lost or made up in transit

A message that a ringmaster's filter admits, and that decodes, is in transit to the topic's readers
until it is sent to them. For one reader and the time it is registered, the account is balanced in
every interleaving (`transit_balanced`): what was sent into its ring and what is in transit to it
are what was in transit before and what the filter let out since, in some order. The ring itself is
what these sends and its receives make of it (`Fills`). The filter takes the messages one after the
other, so what it lets out is spaced as if nothing else ran.

When no message is admitted while another of the same ringmaster is in transit, as under MQTT, where
one task handles all messages, the order is that of the filter (`transit_in_order`). Then a ring
gets what it gets when messages are handled one at a time.
-/

namespace Rounac

open StepSystem SpacedFilter OverwriteRing LockOrder

variable {Val : Type} {qx : QuickXml Val}

/-! ## The filter of a ringmaster -/

namespace ReaderRingMaster

theorem filterTime_cases (r : ReaderRingMaster) (x : Instant × ByteArray) :
    r.filterTime x.1 = none ∧ r.after [x] = r ∧
        admittedBy r.qos.timeBasedFilter r.lastReceived [x] = [] ∨
      r.filterTime x.1 = some (r.after [x]) ∧
        admittedBy r.qos.timeBasedFilter r.lastReceived [x] = [x] := by
  unfold after filterTime
  cases hfilter : r.qos.timeBasedFilter with
  | none => exact .inr ⟨rfl, rfl⟩
  | some gap =>
    cases hlast : r.lastReceived with
    | none => exact .inr ⟨rfl, rfl⟩
    | some last =>
      by_cases hgap : x.1 - last < gap
      · have hno : passes gap (some last) x.1 = false := by simp [passes, hgap]
        refine .inl ⟨if_pos hgap, ?_, by simp [admittedBy, admitted, hno]⟩
        simp only [lastBy, lastAdmitted, hno, Bool.false_eq_true, if_false]
        rw [← hlast]
      · have hyes : passes gap (some last) x.1 = true := by simp [passes, Nat.not_lt.1 hgap]
        refine .inr ⟨?_, by simp [admittedBy, admitted, hyes]⟩
        simp only [if_neg hgap, lastBy, lastAdmitted, hyes, if_true]

variable (qx) in
theorem lets_nil (r : ReaderRingMaster) : r.lets qx [] = [] := by
  rw [lets, admittedBy_nil, List.filterMap_nil]

variable (qx) in
/-- What the filter lets out of one message is the message, decoded, or nothing. -/
theorem lets_singleton (r : ReaderRingMaster) (x : Instant × ByteArray) :
    r.lets qx [x] = if (r.filterTime x.1).isSome then
      (decodedAs qx r.ty r.wireFormat x).toList else [] := by
  unfold lets
  rcases r.filterTime_cases x with ⟨hfilter, -, hpasses⟩ | ⟨hfilter, hpasses⟩
  · rw [hfilter, hpasses]
    rfl
  · rw [hfilter, hpasses, Option.isSome_some, if_pos rfl]
    cases hx : decodedAs qx r.ty r.wireFormat x <;> simp [hx]

/-- The ringmasters filter and decode alike. -/
structure LetsAlike (r r' : ReaderRingMaster) : Prop where
  ty : r'.ty = r.ty
  wireFormat : r'.wireFormat = r.wireFormat
  qos : r'.qos = r.qos
  lastReceived : r'.lastReceived = r.lastReceived

theorem LetsAlike.lets_eq {r r' : ReaderRingMaster} (h : LetsAlike r r')
    (xs : List (Instant × ByteArray)) : r'.lets qx xs = r.lets qx xs := by
  unfold lets
  rw [h.ty, h.wireFormat, h.qos, h.lastReceived]

end ReaderRingMaster

namespace AsbTask

/-- The message that a task is about to hand to the filter of the ringmaster `m`. -/
def arrival (m : MasterId) : AsbTask Val → Option (Instant × ByteArray)
  | found k now data => if k = m then some (now, data) else none
  | _ => none

variable (qx) in
/-- What a task has in transit from the ringmaster `m`, `r` being its state, to the ring `ρ`. -/
def inTransit (r : ReaderRingMaster) (m : MasterId) (ρ : RingId) : AsbTask Val → List (Stamped Val)
  | admitted k now data =>
    if k = m then (decodedAs qx r.ty r.wireFormat (now, data)).toList else []
  | decoded k x => if k = m then [x] else []
  | sending k x _ rest => if k = m ∧ ρ ∈ rest then [x] else []
  | _ => []

variable {now : Instant} {asb asb' : NetAsb Val} {t t' : AsbTask Val}

/-- A ringmaster's filter moves on by what arrives, and nothing else of it that matters to messages
changes. -/
theorem Effect.letsAlike (h : Effect asb asb' t) (m : MasterId) :
    ((asb.masters m).after (t.arrival m).toList).LetsAlike (asb'.masters m) := by
  have hnil : ∀ r : ReaderRingMaster, (r.after []).LetsAlike r := by
    intro r
    rw [ReaderRingMaster.after_nil]
    exact ⟨rfl, rfl, rfl, rfl⟩
  rw [h.masters]
  cases t with
  | found k now' data =>
    simp only [masterAfter, arrival]
    by_cases hk : m = k
    · subst hk
      rw [if_pos rfl, if_pos rfl, Option.toList_some]
      rcases (asb.masters m).filterTime_cases (now', data) with ⟨hdrop, hsame, -⟩ | ⟨hpasses, -⟩
      · rw [hdrop, hsame, Option.getD_none]
        exact ⟨rfl, rfl, rfl, rfl⟩
      · rw [hpasses, Option.getD_some]
        exact ⟨rfl, rfl, rfl, rfl⟩
    · rw [if_neg hk, if_neg (Ne.symm hk)]
      exact hnil _
  | removing topic e =>
    simp only [masterAfter, arrival, Option.toList_none, ReaderRingMaster.after_nil]
    split_ifs <;> exact ⟨rfl, rfl, rfl, rfl⟩
  | clearing ms =>
    cases ms with
    | nil => exact hnil _
    | cons k ms =>
      simp only [masterAfter, arrival, Option.toList_none, ReaderRingMaster.after_nil]
      split_ifs <;> exact ⟨rfl, rfl, rfl, rfl⟩
  | addSender k id capacity =>
    simp only [masterAfter, arrival, Option.toList_none, ReaderRingMaster.after_nil]
    split_ifs <;> exact ⟨rfl, rfl, rfl, rfl⟩
  | removeSender k id =>
    simp only [masterAfter, arrival, Option.toList_none, ReaderRingMaster.after_nil]
    split_ifs <;> exact ⟨rfl, rfl, rfl, rfl⟩
  | _ => exact hnil _

/-- **The account of one task**: what it sends into the ring and has in transit after its step is
what it had in transit before, and what the filter lets out in the step. -/
theorem exec_inTransit {m : MasterId} {ρ : RingId} (h : t.exec qx now asb = some (asb', t'))
    (hmem : ρ ∈ (asb.masters m).senders.map Prod.snd)
    (hsend : ∀ k x sent rest, t = sending k x sent rest → ρ ∈ rest → k = m ∧ rest.Nodup) :
    (t.push.toList.filter (·.1 = ρ)).map Prod.snd ++ t'.inTransit qx (asb.masters m) m ρ =
      t.inTransit qx (asb.masters m) m ρ ++ (asb.masters m).lets qx (t.arrival m).toList := by
  have hnil := ReaderRingMaster.lets_nil qx (asb.masters m)
  cases t with
  | handleMsg topic data =>
    cases h
    split_ifs <;> exact hnil.symm
  | passed topic data =>
    simp only [exec] at h
    split at h <;> (cases h; exact hnil.symm)
  | found k now' data =>
    simp only [exec] at h
    by_cases hk : k = m
    · subst hk
      simp only [arrival, if_pos, Option.toList_some, push, Option.toList_none, List.filter_nil,
        List.map_nil, List.nil_append, ReaderRingMaster.lets_singleton]
      cases hm : (asb.masters k).filterTime now' with
      | none =>
        rw [hm] at h
        cases h
        rfl
      | some master =>
        rw [hm] at h
        cases h
        simp [inTransit]
    · simp only [arrival, if_neg hk, Option.toList_none, hnil]
      split at h
      · cases h
        rfl
      · cases h
        simp [inTransit, hk, push]
  | admitted k now' data =>
    simp only [exec] at h
    by_cases hk : k = m
    · subst hk
      cases hd : deserializeMsg qx (asb.masters k).ty (asb.masters k).wireFormat data with
      | error e =>
        rw [hd] at h
        cases h
        simp [inTransit, arrival, push, decodedAs, hd, hnil]
      | ok msg =>
        rw [hd] at h
        cases h
        simp [inTransit, arrival, push, decodedAs, hd, hnil]
    · split at h <;> (cases h; simp [inTransit, arrival, push, hk, hnil])
  | decoded k x =>
    cases h
    by_cases hk : k = m
    · subst hk
      simp [inTransit, arrival, push, hnil, hmem]
    · simp [inTransit, arrival, push, hk, hnil]
  | sending k x sent rest =>
    cases rest with
    | nil => cases h; simp [inTransit, arrival, push, hnil]
    | cons ρ' rest =>
      cases h
      have hρ' := hsend k x sent (ρ' :: rest) rfl
      simp only [push, arrival, inTransit, Option.toList_some, Option.toList_none, hnil,
        List.append_nil, List.mem_cons]
      by_cases hρ : ρ' = ρ
      · subst hρ
        obtain ⟨hk, hnd⟩ := hρ' List.mem_cons_self
        -- The ring is due once, so with this send it is due no more.
        have hnot := (List.nodup_cons.1 hnd).1
        simp [hk, hnot]
      · have hne : ρ ≠ ρ' := Ne.symm hρ
        simp [hρ, hne]
  | delReader topic =>
    simp only [exec] at h
    split at h
    · cases h; exact hnil.symm
    · split_ifs at h <;> (cases h; exact hnil.symm)
  | clearing ms => cases ms <;> (cases h; exact hnil.symm)
  | delivered | dropped | returned => cases h
  | _ => cases h; exact hnil.symm

end AsbTask

namespace Plane

variable {s s' : Plane Val} {m : MasterId} {ρ : RingId}

variable (qx) in
/-- The messages in transit from the ringmaster `m` to the ring `ρ`. -/
def inTransit (s : Plane Val) (m : MasterId) (ρ : RingId) : List (Stamped Val) :=
  s.tasks.flatMap (AsbTask.inTransit qx (s.asb.masters m) m ρ)

/-- The message that a step hands to the filter of the ringmaster `m`. -/
def arrival (s : Plane Val) (m : MasterId) : PlaneStep Val → Option (Instant × ByteArray)
  | .run i _ => (s.tasks[i]?).bind (AsbTask.arrival m)
  | .call _ | .recv _ => none

variable (qx) in
/-- The messages that a run hands to the filter of the ringmaster `m`, in order. -/
def arrivals (m : MasterId) : Plane Val → List (PlaneStep Val) → List (Instant × ByteArray)
  | _, [] => []
  | s, a :: steps =>
    match s.step qx a with
    | none => []
    | some s' => (s.arrival m a).toList ++ arrivals m s' steps

/-- The ring has a sender at the ringmaster. -/
def Listens (m : MasterId) (ρ : RingId) (s : Plane Val) : Prop :=
  ρ ∈ (s.asb.masters m).senders.map Prod.snd

instance : DecidablePred (Listens m ρ : Plane Val → Prop) := fun s =>
  inferInstanceAs (Decidable (ρ ∈ (s.asb.masters m).senders.map Prod.snd))

theorem arrivals_cons {a : PlaneStep Val} {steps : List (PlaneStep Val)}
    (h : s.step qx a = some s') :
    arrivals qx m s (a :: steps) = (s.arrival m a).toList ++ arrivals qx m s' steps := by
  rw [arrivals, h]

theorem inTransit_congr {r r' : ReaderRingMaster} (hty : r'.ty = r.ty)
    (hformat : r'.wireFormat = r.wireFormat) (t : AsbTask Val) :
    t.inTransit qx r' m ρ = t.inTransit qx r m ρ := by
  cases t with
  | admitted k now data => rw [AsbTask.inTransit, AsbTask.inTransit, hty, hformat]
  | _ => rfl

/-- A message on its way to the ring is on its way from the ringmaster where the ring has its
sender. -/
theorem FansOut.sends_once (hf : s.FansOut) (hl : s.Listens m ρ) {i : ℕ} {t : AsbTask Val}
    (hi : s.tasks[i]? = some t) :
    ∀ k x sent rest, t = .sending k x sent rest → ρ ∈ rest → k = m ∧ rest.Nodup := by
  rintro k x sent rest rfl hρ
  have haudience := hf.audience k x sent rest (List.mem_of_getElem? hi)
  have hnodup := hf.owned.alone k
  rw [← haudience] at hnodup
  refine ⟨?_, hnodup.of_append_right⟩
  have hk : ρ ∈ (s.asb.masters k).senders.map Prod.snd := by
    rw [← haudience]
    exact List.mem_append_right _ hρ
  obtain ⟨r, hr, hrρ⟩ := List.mem_map.1 hk
  obtain ⟨q, hq, hqρ⟩ := List.mem_map.1 hl
  exact hf.owned.apart k m r hr q hq (hrρ.trans hqρ.symm)

theorem letsAlike_step {a : PlaneStep Val} (h : s.step qx a = some s') (m : MasterId) :
    ((s.asb.masters m).after (s.arrival m a).toList).LetsAlike (s'.asb.masters m) := by
  cases a with
  | call t =>
    obtain ⟨-, rfl⟩ := step_call h
    rw [arrival, Option.toList_none, ReaderRingMaster.after_nil]
    exact ⟨rfl, rfl, rfl, rfl⟩
  | recv ρ =>
    cases h
    rw [arrival, Option.toList_none, ReaderRingMaster.after_nil]
    exact ⟨rfl, rfl, rfl, rfl⟩
  | run i now =>
    obtain ⟨t, t', hi, -, hexec, -, -⟩ := step_run h
    rw [arrival, hi, Option.bind_some]
    exact (AsbTask.exec_effect hexec).letsAlike m

theorem lets_arrivals_cons {a : PlaneStep Val} {steps : List (PlaneStep Val)}
    (h : s.step qx a = some s') :
    (s.asb.masters m).lets qx (arrivals qx m s (a :: steps)) =
      (s.asb.masters m).lets qx (s.arrival m a).toList ++
        (s'.asb.masters m).lets qx (arrivals qx m s' steps) := by
  rw [arrivals_cons h, ReaderRingMaster.lets_append, (letsAlike_step h m).lets_eq]

/-- **The account of one step.** -/
theorem transit_step {a : PlaneStep Val} (hf : s.FansOut) (hl : s.Listens m ρ)
    (h : s.step qx a = some s') :
    ∃ sends, s'.pushedInto ρ = s.pushedInto ρ ++ sends ∧
      (sends ++ s'.inTransit qx m ρ).Perm
        (s.inTransit qx m ρ ++ (s.asb.masters m).lets qx (s.arrival m a).toList) := by
  have halike := letsAlike_step h m
  have hcongr : AsbTask.inTransit qx (s'.asb.masters m) m ρ =
      AsbTask.inTransit qx (s.asb.masters m) m ρ :=
    funext fun t => inTransit_congr halike.ty halike.wireFormat t
  cases a with
  | call t =>
    obtain ⟨ht, rfl⟩ := step_call h
    have hnone : t.inTransit qx (s.asb.masters m) m ρ = [] := by
      cases t <;> first | rfl | cases ht
    refine ⟨[], (List.append_nil _).symm, ?_⟩
    rw [arrival, Option.toList_none, ReaderRingMaster.lets_nil, inTransit, List.flatMap_append]
    simp [hnone, inTransit]
  | recv ρ' =>
    cases h
    refine ⟨[], (List.append_nil _).symm, ?_⟩
    rw [arrival, Option.toList_none, ReaderRingMaster.lets_nil, List.append_nil, List.nil_append]
    exact List.Perm.refl _
  | run i now =>
    obtain ⟨t, t', hi, -, hexec, htasks, hpushes⟩ := step_run h
    refine ⟨_, pushedInto_of_pushes hpushes ρ, ?_⟩
    -- Only the task that runs changes, so the balance of the step is that of its task.
    have hone := AsbTask.exec_inTransit hexec hl (hf.sends_once hl hi)
    obtain ⟨rest, hold, hnew⟩ := TaskPool.exists_rest hi t'
    rw [arrival, hi, Option.bind_some, inTransit, inTransit, htasks, hcongr]
    have hbefore := hold.flatMap_right (AsbTask.inTransit qx (s.asb.masters m) m ρ)
    have hafter := hnew.flatMap_right (AsbTask.inTransit qx (s.asb.masters m) m ρ)
    rw [List.flatMap_cons] at hbefore hafter
    refine (hafter.append_left _).trans ?_
    rw [← List.append_assoc, hone, List.append_assoc]
    refine (List.Perm.append_left _ List.perm_append_comm).trans ?_
    rw [← List.append_assoc]
    exact hbefore.symm.append_right _

/-! ## Runs -/

theorem transit_run {steps : List (PlaneStep Val)} (hf : s.FansOut)
    (hl : Always (step qx) (Listens m ρ) s steps) (hrun : run (step qx) s steps = some s') :
    (s'.pushedInto ρ ++ s'.inTransit qx m ρ).Perm
      (s.pushedInto ρ ++ s.inTransit qx m ρ ++
        (s.asb.masters m).lets qx (arrivals qx m s steps)) := by
  induction steps generalizing s with
  | nil =>
    cases hrun
    rw [arrivals, ReaderRingMaster.lets_nil, List.append_nil]
  | cons a steps ih =>
    rw [run_cons] at hrun
    obtain ⟨u, hu, hrun⟩ := Option.bind_eq_some_iff.1 hrun
    obtain ⟨sends, hpushed, hstep⟩ := transit_step hf hl.head hu
    have hrest := ih (hf.step hu) (hl.2 u hu) hrun
    rw [lets_arrivals_cons hu]
    refine hrest.trans ?_
    rw [hpushed, ← List.append_assoc]
    refine List.Perm.append_right _ ?_
    rw [List.append_assoc, List.append_assoc]
    exact hstep.append_left _

/-- **Nothing is lost, made up or sent twice in transit**, in any interleaving: over a time in which
the ring has its sender at the ringmaster, what was sent into it, with what is still in transit to
it, is what was in transit to it, with what the ringmaster's filter let out since. What is sent is
in the ring, until it is received or overwritten. -/
theorem transit_balanced (kinds : MasterId → TypeId × WireFormat × QosSettings)
    (before since : List (PlaneStep Val)) {s s' : Plane Val} (m : MasterId) (ρ : RingId)
    (hs : run (step qx) (new kinds) before = some s) (hs' : run (step qx) s since = some s')
    (hl : Always (step qx) (Listens m ρ) s since) :
    Fills qx ρ s since s' ∧
      (s'.pushedInto ρ ++ s'.inTransit qx m ρ).Perm
        (s.pushedInto ρ ++ s.inTransit qx m ρ ++
          (s.asb.masters m).lets qx (arrivals qx m s since)) := by
  have hfans := fansOut_run hs
  exact ⟨fills_run (hfans.owned.lt_of_mem hl.head) hs', transit_run hfans hl hs'⟩

def oneReader : List (PlaneStep Unit) :=
  [.call (.insert "t" 0 "t"), .run 0 0, .call (.addSender 0 7 4), .run 1 0]

/-- Two messages; the second is handed to the filter after the first, and sent before it. -/
def overlapping : List (PlaneStep Unit) :=
  [.call (.handleMsg "t" "<msg/>".toUTF8), .call (.handleMsg "t" "<msg/>".toUTF8),
    .run 2 0, .run 3 0, .run 2 1, .run 3 2, .run 2 0, .run 3 0, .run 3 0, .run 3 0, .run 3 0,
    .run 2 0, .run 2 0, .run 2 0]

/-- Two overlapping messages reach the ring in the other order. -/
theorem transit_balanced_overlap : ∃ s s' : Plane Unit,
    s'.pushedInto 0 = [(2, ()), (1, ())] ∧ (s'.asb.rings 0).items = [(2, ()), (1, ())] ∧
    Fills .unit 0 s overlapping s' ∧
    (s'.pushedInto 0 ++ s'.inTransit .unit 0 0).Perm (s.pushedInto 0 ++ s.inTransit .unit 0 0 ++
      (s.asb.masters 0).lets .unit [(1, "<msg/>".toUTF8), (2, "<msg/>".toUTF8)]) := by
  refine ⟨_, _, ?_, ?_, @transit_balanced Unit .unit (fun _ => (⟨0⟩, .xml, .default)) oneReader
    overlapping _ _ 0 0 rfl rfl ?_⟩
  · decide
  · decide
  · decide

end Plane

/-! ## One message at a time -/

/-- The message has passed the filter of the ringmaster `m`, and is not sent to all yet. -/
def AsbTask.isPast (m : MasterId) : AsbTask Val → Bool
  | admitted k .. | decoded k _ | sending k .. => k == m
  | _ => false

variable (qx) in
theorem AsbTask.length_inTransit_le (r : ReaderRingMaster) (m : MasterId) (ρ : RingId)
    (t : AsbTask Val) : (t.inTransit qx r m ρ).length ≤ if t.isPast m then 1 else 0 := by
  cases t with
  | admitted k now data =>
    simp only [inTransit, isPast, beq_iff_eq]
    split_ifs
    · cases decodedAs qx r.ty r.wireFormat (now, data) <;> simp
    · exact Nat.le_refl _
  | decoded k x =>
    simp only [inTransit, isPast, beq_iff_eq]
    split_ifs <;> exact Nat.le_refl _
  | sending k x sent rest =>
    simp only [inTransit, isPast, beq_iff_eq]
    split_ifs with hboth hk hk
    · exact Nat.le_refl _
    · exact absurd hboth.1 hk
    · exact Nat.zero_le _
    · exact Nat.le_refl _
  | _ => exact Nat.zero_le _

/-- A message gets past the filter when it is handed to it. -/
theorem AsbTask.isPast_exec {now : Instant} {asb asb' : NetAsb Val} {t t' : AsbTask Val}
    {m : MasterId} (h : t.exec qx now asb = some (asb', t')) (ht' : t'.isPast m = true) :
    t.isPast m = true ∨ (t.arrival m).isSome = true := by
  cases t with
  | found k now' data =>
    simp only [exec] at h
    split at h
    · cases h
      cases ht'
    · cases h
      refine .inr ?_
      rw [arrival, if_pos (beq_iff_eq.1 ht')]
      rfl
  | admitted k now' data =>
    simp only [exec] at h
    split at h
    · cases h
      cases ht'
    · cases h
      exact .inl ht'
  | decoded k x =>
    cases h
    exact .inl ht'
  | sending k x sent rest =>
    cases rest with
    | nil => cases h; cases ht'
    | cons ρ rest => cases h; exact .inl ht'
  | handleMsg topic data =>
    cases h
    split_ifs at ht' <;> cases ht'
  | passed topic data =>
    simp only [exec] at h
    split at h <;> (cases h; cases ht')
  | delReader topic =>
    simp only [exec] at h
    split at h
    · cases h; cases ht'
    · split_ifs at h <;> (cases h; cases ht')
  | clearing ms => cases ms <;> (cases h; cases ht')
  | delivered | dropped | returned => cases h
  | _ => cases h; cases ht'

namespace Plane

variable {s s' : Plane Val} {m : MasterId} {ρ : RingId}

def past (s : Plane Val) (m : MasterId) : ℕ := s.tasks.countP (·.isPast m)

/-- A message is handed to the ringmaster's filter only when none is past it. -/
def OneAtATime (m : MasterId) (s : Plane Val) (a : PlaneStep Val) : Prop :=
  (s.arrival m a).isSome = true → s.past m = 0

instance (m : MasterId) (s : Plane Val) (a : PlaneStep Val) : Decidable (OneAtATime m s a) :=
  inferInstanceAs (Decidable (_ → _))

variable (qx) in
theorem length_inTransit_le (s : Plane Val) (m : MasterId) (ρ : RingId) :
    (s.inTransit qx m ρ).length ≤ s.past m := by
  unfold inTransit past
  generalize s.asb.masters m = r
  induction s.tasks with
  | nil => exact Nat.le_refl _
  | cons t tasks ih =>
    have ht := AsbTask.length_inTransit_le qx r m ρ t
    rw [List.flatMap_cons, List.length_append, List.countP_cons]
    omega

theorem past_step {a : PlaneStep Val} (hp : s.past m ≤ 1) (ha : OneAtATime m s a)
    (h : s.step qx a = some s') : s'.past m ≤ 1 := by
  cases a with
  | call t =>
    obtain ⟨ht, rfl⟩ := step_call h
    have hnot : t.isPast m = false := by cases t <;> first | rfl | cases ht
    simpa [past, List.countP_append, hnot] using hp
  | recv ρ =>
    cases h
    exact hp
  | run i now =>
    obtain ⟨t, t', hi, -, hexec, htasks, -⟩ := step_run h
    have hcount := TaskPool.countP_set (·.isPast m) hi t'
    rw [OneAtATime, arrival, hi, Option.bind_some] at ha
    unfold past at *
    rw [htasks]
    by_cases ht' : t'.isPast m
    · rcases AsbTask.isPast_exec hexec ht' with ht | harrival
      · simp only [ht, ht', if_true] at hcount
        omega
      · have hzero := ha harrival
        simp only [ht', if_true] at hcount
        omega
    · simp only [ht', if_false, Bool.false_eq_true] at hcount
      omega

theorem eq_of_perm {α : Type} {xs ys : List α} (h : xs.Perm ys) (hlen : ys.length ≤ 1) :
    xs = ys := by
  match ys, hlen with
  | [], _ => exact h.eq_nil
  | [y], _ => exact List.perm_singleton.1 h

variable (qx) in
theorem length_lets_le (r : ReaderRingMaster) (x : Option (Instant × ByteArray)) :
    (r.lets qx x.toList).length ≤ if x.isSome then 1 else 0 := by
  cases x with
  | none =>
    rw [Option.toList_none, ReaderRingMaster.lets_nil]
    exact Nat.le_refl _
  | some x =>
    rw [Option.toList_some, ReaderRingMaster.lets_singleton, Option.isSome_some, if_pos rfl]
    split_ifs
    · cases decodedAs qx r.ty r.wireFormat x <;> simp
    · exact Nat.zero_le _

theorem transit_run_in_order {steps : List (PlaneStep Val)} (hf : s.FansOut) (hp : s.past m ≤ 1)
    (hl : Always (step qx) (Listens m ρ) s steps)
    (hone : EachStep (step qx) (OneAtATime m) s steps) (hrun : run (step qx) s steps = some s') :
    s'.pushedInto ρ ++ s'.inTransit qx m ρ =
      s.pushedInto ρ ++ s.inTransit qx m ρ ++
        (s.asb.masters m).lets qx (arrivals qx m s steps) := by
  induction steps generalizing s with
  | nil =>
    cases hrun
    rw [arrivals, ReaderRingMaster.lets_nil, List.append_nil]
  | cons a steps ih =>
    rw [run_cons] at hrun
    obtain ⟨u, hu, hrun⟩ := Option.bind_eq_some_iff.1 hrun
    obtain ⟨ha, hone⟩ := hone u hu
    obtain ⟨sends, hpushed, hstep⟩ := transit_step hf hl.head hu
    have hrest := ih (hf.step hu) (past_step hp ha hu) (hl.2 u hu) hone hrun
    -- The account of the step is of one message at most.
    have hlen : (s.inTransit qx m ρ ++
        (s.asb.masters m).lets qx (s.arrival m a).toList).length ≤ 1 := by
      have hin := length_inTransit_le qx s m ρ
      have hlets := length_lets_le qx (s.asb.masters m) (s.arrival m a)
      rw [List.length_append]
      by_cases harrival : (s.arrival m a).isSome = true
      · have hzero := ha harrival
        rw [if_pos harrival] at hlets
        omega
      · rw [if_neg harrival] at hlets
        omega
    have heq := eq_of_perm hstep hlen
    rw [hrest, hpushed, lets_arrivals_cons hu, List.append_assoc (s.pushedInto ρ) sends, heq]
    simp only [List.append_assoc]

/-- **One at a time, messages go through in order.** When every message is handed to the
ringmaster's filter with no other one past it, what is sent into a ring, and then what is in transit
to it, is what was and what the filter let out since, in that order: what messages that are handled
in one piece leave in a ring. -/
theorem transit_in_order (kinds : MasterId → TypeId × WireFormat × QosSettings)
    (before since : List (PlaneStep Val)) {s s' : Plane Val} (m : MasterId) (ρ : RingId)
    (hs : run (step qx) (new kinds) before = some s) (hs' : run (step qx) s since = some s')
    (hl : Always (step qx) (Listens m ρ) s since)
    (hone : EachStep (step qx) (OneAtATime m) (new kinds) (before ++ since)) :
    Fills qx ρ s since s' ∧
      s'.pushedInto ρ ++ s'.inTransit qx m ρ =
        s.pushedInto ρ ++ s.inTransit qx m ρ ++
          (s.asb.masters m).lets qx (arrivals qx m s since) := by
  have hfans := fansOut_run hs
  have hpast : Always (step qx) (fun s => s.past m ≤ 1) (new kinds) before :=
    .of_inv (fun _ _ _ hp ha h => past_step hp ha h) (Nat.zero_le _) hone.left
  exact ⟨fills_run (hfans.owned.lt_of_mem hl.head) hs',
    transit_run_in_order hfans (hpast.last hs) hl (hone.of_append hs) hs'⟩

/-- Two messages, one after the other. -/
def inTurn : List (PlaneStep Unit) :=
  [.call (.handleMsg "t" "<msg/>".toUTF8), .call (.handleMsg "t" "<msg/>".toUTF8),
    .run 2 0, .run 3 0, .run 2 1, .run 2 0, .run 2 0, .run 2 0, .run 2 0, .run 2 0,
    .run 3 2, .run 3 0]

/-- The first message is in the ring, and the second on the way to it. -/
theorem transit_in_order_twice : ∃ s s' : Plane Unit,
    Fills .unit 0 s inTurn s' ∧
    s'.pushedInto 0 ++ s'.inTransit .unit 0 0 = s.pushedInto 0 ++ s.inTransit .unit 0 0 ++
      (s.asb.masters 0).lets .unit [(1, "<msg/>".toUTF8), (2, "<msg/>".toUTF8)] := by
  refine ⟨_, _, @transit_in_order Unit .unit (fun _ => (⟨0⟩, .xml, .default)) oneReader inTurn
    _ _ 0 0 rfl rfl ?_ ?_⟩
  · decide
  · decide

end Plane

end Rounac

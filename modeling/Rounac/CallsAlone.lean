import Rounac.Networks.Plane

/-!
# A call by itself

A call that meets no other one does what its function does in one piece (`alone_eq_atomic`): the
steps of `AsbTask.exec`, one after the other, are `NetAsb.handleMsg`, `NetAsb.delReaderLocked`,
`NetAsb.shutdown` and so on.
-/

namespace Rounac

open StepSystem OverwriteRing LockOrder

variable {Val : Type} {qx : QuickXml Val} {now : Instant}

variable (qx now) in
/-- A call in one piece. -/
def AsbTask.atomic (asb : NetAsb Val) : AsbTask Val → NetAsb Val
  | handleMsg topic data => asb.handleMsg qx topic now data
  | addReader topic => (asb.addReader topic).getD asb
  | delReader topic => ((asb.delReaderLocked topic).map Prod.snd).getD asb
  | shutdown => asb.shutdown
  | insert topic m tag => asb.insertReader topic m tag
  | addSender m id capacity => asb.fan qx (.addSender m id capacity)
  | removeSender m id => asb.fan qx (.removeSender m id)
  | _ => asb

/-! ## Steps of one task -/

variable (qx now) in
/-- A task comes to another point by steps of its own. -/
def Comes : NetAsb Val × AsbTask Val → NetAsb Val × AsbTask Val → Prop :=
  Relation.ReflTransGen fun p q => p.2.exec qx now p.1 = some q

namespace AsbTask

variable {asb asb' : NetAsb Val} {t t' : AsbTask Val}

theorem comes_of_exec (h : t.exec qx now asb = some (asb', t')) :
    Comes qx now (asb, t) (asb', t') :=
  Relation.ReflTransGen.single h

theorem comes_cons {asb₁ : NetAsb Val} {t₁ : AsbTask Val} (h : t.exec qx now asb = some (asb₁, t₁))
    (h' : Comes qx now (asb₁, t₁) (asb', t')) : Comes qx now (asb, t) (asb', t') :=
  Relation.ReflTransGen.head h h'

theorem comes_sending (m : MasterId) (x : Stamped Val) (sent rest : List RingId) :
    Comes qx now (asb, sending m x sent rest)
      ({ asb with rings := NetAsb.sendAll asb.rings (rest.map (·, x)) },
        delivered m x (sent ++ rest)) := by
  induction rest generalizing asb sent with
  | nil =>
    rw [List.append_nil]
    exact comes_of_exec rfl
  | cons ρ rest ih =>
    have hrest := @ih { asb with rings := Function.update asb.rings ρ ((asb.rings ρ).send x) }
      (sent ++ [ρ])
    rw [List.append_assoc] at hrest
    exact comes_cons rfl hrest

theorem comes_clearing (ts : List (Sigma fun _ : String => Entry)) :
    Comes qx now (asb, clearing (ts.map (·.2.ringmaster)))
      ({ asb with
        masters := NetAsb.shutdownMasters asb.masters ts, readers := ∅, shutdownFuse := true },
        returned) := by
  induction ts generalizing asb with
  | nil => exact comes_of_exec rfl
  | cons t ts ih => exact comes_cons rfl (@ih (asb.modifyMaster t.2.ringmaster .shutdown))

theorem comes_found (m : MasterId) (data : ByteArray) :
    ∃ t' : AsbTask Val, t'.isFinished = true ∧ Comes qx now (asb, found m now data)
      ({ asb with
        masters := Function.update asb.masters m ((asb.masters m).distributeMsg qx now data).1
        rings := NetAsb.sendAll asb.rings ((asb.masters m).distributeMsg qx now data).2 }, t') := by
  unfold ReaderRingMaster.distributeMsg
  cases hfilter : (asb.masters m).filterTime now with
  | none =>
    refine ⟨dropped, rfl, ?_⟩
    have hexec : (found m now data).exec qx now asb = some (asb, dropped) := by
      simp only [exec, hfilter]
    rw [Function.update_eq_self]
    exact comes_of_exec hexec
  | some r =>
    have hexec : (found m now data).exec qx now asb =
        some ({ asb with masters := Function.update asb.masters m r }, admitted m now data) := by
      simp only [exec, hfilter]
    dsimp only
    cases hmsg : deserializeMsg qx r.ty r.wireFormat data with
    | error e =>
      refine ⟨dropped, rfl, comes_cons hexec (comes_of_exec ?_)⟩
      simp only [exec, Function.update_self, hmsg]
      rfl
    | ok msg =>
      refine ⟨delivered m (now, msg) ([] ++ r.senders.map Prod.snd), rfl, comes_cons hexec ?_⟩
      have hdecode : (admitted m now data).exec qx now
          { asb with masters := Function.update asb.masters m r } =
          some ({ asb with masters := Function.update asb.masters m r }, decoded m (now, msg)) := by
        simp only [exec, Function.update_self, hmsg]
      have hlock : (decoded m (now, msg)).exec qx now
          { asb with masters := Function.update asb.masters m r } =
          some ({ asb with masters := Function.update asb.masters m r },
            sending m (now, msg) [] (r.senders.map Prod.snd)) := by
        simp only [exec, Function.update_self]
      have hsend := @comes_sending Val qx now
        { asb with masters := Function.update asb.masters m r } m (now, msg) []
        (r.senders.map Prod.snd)
      rw [List.map_map] at hsend
      exact comes_cons hdecode (comes_cons hlock hsend)

theorem comes_handleMsg (topic : String) (data : ByteArray) :
    ∃ t' : AsbTask Val, t'.isFinished = true ∧
      Comes qx now (asb, handleMsg topic data) (asb.handleMsg qx topic now data, t') := by
  unfold NetAsb.handleMsg
  by_cases hfuse : asb.shutdownFuse = true
  · refine ⟨dropped, rfl, ?_⟩
    rw [if_pos hfuse]
    exact comes_of_exec (by rw [exec, if_pos hfuse])
  · have hpass : (handleMsg topic data : AsbTask Val).exec qx now asb =
        some (asb, passed topic data) := by rw [exec, if_neg hfuse]
    rw [if_neg hfuse]
    cases hlookup : asb.readers.lookup topic with
    | none =>
      refine ⟨dropped, rfl, comes_cons hpass (comes_of_exec ?_)⟩
      simp only [exec, hlookup]
    | some t =>
      obtain ⟨t', hfin, hfound⟩ := @comes_found Val qx now asb t.ringmaster data
      refine ⟨t', hfin, comes_cons hpass (comes_cons ?_ hfound)⟩
      simp only [exec, hlookup]

theorem comes_delReader (topic : String) :
    Comes qx now (asb, delReader topic)
      (((asb.delReaderLocked topic).map Prod.snd).getD asb, returned) := by
  unfold NetAsb.delReaderLocked
  cases hlookup : asb.readers.lookup topic with
  | none => exact comes_of_exec (by simp only [exec, hlookup]; rfl)
  | some t =>
    dsimp only
    by_cases hcount : t.count = 1
    · have hlast : (delReader topic : AsbTask Val).exec qx now asb =
          some (asb, removing topic t) := by
        simp only [exec, hlookup]
        rw [if_pos hcount]
      rw [if_pos hcount]
      exact comes_cons hlast (comes_of_exec rfl)
    · rw [if_neg hcount]
      refine comes_of_exec ?_
      simp only [exec, hlookup]
      rw [if_neg hcount]
      rfl

/-- Every call ends, and has done what it does in one piece. -/
theorem comes_atomic (h : t.isCall = true) :
    ∃ t' : AsbTask Val, t'.isFinished = true ∧
      Comes qx now (asb, t) (t.atomic qx now asb, t') := by
  cases t with
  | handleMsg topic data => exact comes_handleMsg topic data
  | delReader topic => exact ⟨returned, rfl, comes_delReader topic⟩
  | shutdown => exact ⟨returned, rfl, comes_cons rfl (comes_clearing asb.readers.entries)⟩
  | addReader | insert | addSender | removeSender => exact ⟨returned, rfl, comes_of_exec rfl⟩
  | _ => cases h

end AsbTask

namespace Plane

theorem grants_alone {done : List (AsbTask Val)} (hdone : ∀ u ∈ done, u.isFinished = true)
    (t : AsbTask Val) (asb : NetAsb Val) (pushes : List (Push Val)) :
    Grants ⟨asb, done ++ [t], pushes⟩ t := by
  intro w hw u hu k hk hkw
  rcases List.mem_append.1 hu with hu | hu
  · have hnone : k ∈ ([] : List (PlaneLock × Access)) := by
      rw [← (planeLocking Val).holds_finished u (hdone u hu)]
      exact hk
    cases hnone
  · -- What it holds is not what it wants.
    cases List.mem_singleton.1 hu
    have hrank := AsbTask.ordered t w hw k hk
    rw [hkw] at hrank
    exact absurd hrank (Nat.lt_irrefl _)

/-- The steps of a task by itself are steps of the ASB. -/
theorem run_of_comes {done : List (AsbTask Val)} (hdone : ∀ u ∈ done, u.isFinished = true)
    {p q : NetAsb Val × AsbTask Val} (h : Comes qx now p q) (pushes : List (Push Val)) :
    ∃ n pushes', run (step qx) ⟨p.1, done ++ [p.2], pushes⟩
      (List.replicate n (.run done.length now)) = some ⟨q.1, done ++ [q.2], pushes'⟩ := by
  induction h using Relation.ReflTransGen.head_induction_on generalizing pushes with
  | refl => exact ⟨0, pushes, rfl⟩
  | @head p r hstep _ ih =>
    obtain ⟨n, pushes', hrun⟩ := ih (pushes ++ record done.length p.2)
    refine ⟨n + 1, pushes', ?_⟩
    have hone : step qx ⟨p.1, done ++ [p.2], pushes⟩ (.run done.length now) =
        some ⟨r.1, done ++ [r.2], pushes ++ record done.length p.2⟩ := by
      simp only [step, List.getElem?_concat_length]
      rw [if_pos (grants_alone hdone p.2 p.1 pushes), hstep]
      simp
    rw [List.replicate_succ, run_cons, hone]
    exact hrun

/-- **A call that meets no other does what it does in one piece**, and returns. -/
theorem alone_eq_atomic (s : Plane Val) (t : AsbTask Val)
    (hdone : ∀ u ∈ s.tasks, u.isFinished = true)
    (ht : t.isCall = true) :
    ∃ n s', run (step qx) s (.call t :: List.replicate n (.run s.tasks.length now)) = some s' ∧
      s'.asb = t.atomic qx now s.asb ∧ ∀ u ∈ s'.tasks, u.isFinished = true := by
  obtain ⟨t', hfin, hcomes⟩ := @AsbTask.comes_atomic Val qx now s.asb t ht
  obtain ⟨n, pushes', hrun⟩ := run_of_comes hdone hcomes s.pushes
  have hcall : s.step qx (.call t) = some { s with tasks := s.tasks ++ [t] } := if_pos ht
  refine ⟨n, ⟨t.atomic qx now s.asb, s.tasks ++ [t'], pushes'⟩, ?_, rfl, ?_⟩
  · rw [run_cons, hcall]
    exact hrun
  · intro u hu
    rcases List.mem_append.1 hu with hu | hu
    · exact hdone u hu
    · rw [List.mem_singleton.1 hu]
      exact hfin

/-- A shutdown by itself, with a topic registered and an earlier message dropped. -/
theorem alone_eq_atomic_shutdown :
    ∃ n s', run (step .unit) ⟨NetAsb.ofTopic "t" .default, [.dropped], []⟩
        (.call .shutdown :: List.replicate n (.run 1 0)) = some s' ∧
      s'.asb = AsbTask.atomic .unit 0 (NetAsb.ofTopic "t" .default) .shutdown ∧
      ∀ u ∈ s'.tasks, u.isFinished = true := by
  refine alone_eq_atomic ⟨NetAsb.ofTopic "t" .default, [.dropped], []⟩ .shutdown ?_ rfl
  intro u hu
  rw [List.mem_singleton.1 hu]
  rfl

end Plane

end Rounac

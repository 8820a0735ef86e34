import Rounac.Lib.TaskPool
import Rounac.Networks.Plane

/-!
# Fan-out amid other calls

A message is sent to a topic's readers one by one, while other messages arrive, readers come and
go, and the ASB may be shut down. It holds the ringmaster's senders for as long as it takes, so
whatever else runs, it is sent exactly once to each of the senders that were registered when it
began, and these are the ones registered when it ends (`exactly_once`). A ring is what these sends
and the receives from it make of an empty ring.
-/

namespace Rounac

open StepSystem SwapRemove OverwriteRing LockOrder

variable {Val : Type} {qx : QuickXml Val}

/-! ## Rings of one's own -/

/-- Every ring in use has one sender, at one ringmaster. -/
structure NetAsb.Owned (asb : NetAsb Val) : Prop where
  allocated : ∀ m, ∀ r ∈ (asb.masters m).senders, r.2 < asb.nextRing
  alone : ∀ m, ((asb.masters m).senders.map Prod.snd).Nodup
  apart : ∀ m k, ∀ r ∈ (asb.masters m).senders, ∀ q ∈ (asb.masters k).senders, r.2 = q.2 → m = k

theorem NetAsb.Owned.lt_of_mem {asb : NetAsb Val} (ho : asb.Owned) {m : MasterId} {ρ : RingId}
    (hm : ρ ∈ (asb.masters m).senders.map Prod.snd) : ρ < asb.nextRing := by
  obtain ⟨r, hr, rfl⟩ := List.mem_map.1 hm
  exact ho.allocated m r hr

namespace AsbTask

variable {now : Instant} {asb asb' : NetAsb Val} {t t' : AsbTask Val}

theorem Effect.mem_senders (h : Effect asb asb' t) {k : MasterId} {r : ReaderSender}
    (hr : r ∈ (asb'.masters k).senders) :
    r ∈ (asb.masters k).senders ∨
      ∃ capacity, t = addSender k r.1 capacity ∧ r.2 = asb.nextRing := by
  by_cases hw : t.wants = some (.senders k, .write)
  · rw [h.masters] at hr
    cases t with
    | removing topic e =>
      cases hw
      rw [masterAfter, if_pos rfl] at hr
      cases hr
    | clearing ms =>
      cases ms with
      | nil => cases hw
      | cons m ms =>
        cases hw
        rw [masterAfter, if_pos rfl] at hr
        cases hr
    | addSender m id capacity =>
      cases hw
      rw [masterAfter, if_pos rfl] at hr
      rcases List.mem_append.1 hr with hr | hr
      · exact .inl hr
      · cases List.mem_singleton.1 hr
        exact .inr ⟨capacity, rfl, rfl⟩
    | removeSender m id =>
      cases hw
      rw [masterAfter, if_pos rfl] at hr
      exact .inl (mem_of_mem_removeFirst hr)
    | _ => cases hw
  · rw [h.senders hw] at hr
    exact .inl hr

theorem Effect.nodup (h : Effect asb asb' t) (ho : asb.Owned) (k : MasterId) :
    ((asb'.masters k).senders.map Prod.snd).Nodup := by
  by_cases hw : t.wants = some (.senders k, .write)
  · rw [h.masters]
    cases t with
    | removing topic e =>
      cases hw
      rw [masterAfter, if_pos rfl]
      exact List.nodup_nil
    | clearing ms =>
      cases ms with
      | nil => cases hw
      | cons m ms =>
        cases hw
        rw [masterAfter, if_pos rfl]
        exact List.nodup_nil
    | addSender m id capacity =>
      cases hw
      rw [masterAfter, if_pos rfl]
      exact nodup_append_singleton (ho.alone k) fun r hr =>
        Nat.ne_of_lt (ho.allocated k r hr)
    | removeSender m id =>
      cases hw
      rw [masterAfter, if_pos rfl]
      exact nodup_removeFirst (ho.alone k)
    | _ => cases hw
  · rw [h.senders hw]
    exact ho.alone k

theorem Effect.owned (h : Effect asb asb' t) (ho : asb.Owned) : asb'.Owned where
  allocated := by
    intro m r hr
    rw [h.nextRing]
    rcases h.mem_senders hr with hr | ⟨capacity, rfl, hring⟩
    · exact Nat.lt_add_right _ (ho.allocated m r hr)
    · rw [hring]
      exact Nat.lt_succ_self _
  alone := h.nodup ho
  apart := by
    intro m k r hr q hq hring
    rcases h.mem_senders hr with hr | ⟨capacity, rfl, hnew⟩
    · rcases h.mem_senders hq with hq | ⟨capacity, -, hnew⟩
      · exact ho.apart m k r hr q hq hring
      · exact absurd (ho.allocated m r hr) (by rw [hring, hnew]; exact Nat.lt_irrefl _)
    · rcases h.mem_senders hq with hq | ⟨capacity', heq, -⟩
      · exact absurd (ho.allocated k q hq) (by rw [← hring, hnew]; exact Nat.lt_irrefl _)
      · injection heq

end AsbTask

namespace Plane

variable {s s' : Plane Val}

theorem owned_step {a : PlaneStep Val} (ho : s.asb.Owned) (h : s.step qx a = some s') :
    s'.asb.Owned := by
  cases a with
  | call t =>
    obtain ⟨-, rfl⟩ := step_call h
    exact ho
  | recv ρ =>
    cases h
    exact ⟨ho.allocated, ho.alone, ho.apart⟩
  | run i now =>
    obtain ⟨t, t', -, -, hexec, -, -⟩ := step_run h
    exact (AsbTask.exec_effect hexec).owned ho

/-! ## What was sent -/

/-- What a task has sent is what is recorded of it, and tasks that are not there sent nothing. -/
def Recorded (s : Plane Val) : Prop :=
  ∀ i, s.pushedBy i = ((s.tasks[i]?).map AsbTask.sent).getD []

/-- A message that is being sent goes to the senders registered, each once. -/
def Audience (s : Plane Val) : Prop :=
  ∀ m x sent rest, AsbTask.sending m x sent rest ∈ s.tasks →
    sent ++ rest = (s.asb.masters m).senders.map Prod.snd

theorem pushedBy_of_pushes {i j : ℕ} {t : AsbTask Val} (h : s'.pushes = s.pushes ++ record i t) :
    s'.pushedBy j = s.pushedBy j ++ if i = j then t.push.toList else [] := by
  unfold pushedBy record at *
  rw [h, List.filter_append, List.map_append]
  congr 1
  cases t.push with
  | none => split_ifs <;> rfl
  | some p => by_cases hij : i = j <;> simp [hij]

theorem pushedInto_of_pushes {i : ℕ} {t : AsbTask Val} (h : s'.pushes = s.pushes ++ record i t)
    (ρ : RingId) :
    s'.pushedInto ρ = s.pushedInto ρ ++ (t.push.toList.filter (·.1 = ρ)).map Prod.snd := by
  unfold pushedInto record at *
  rw [h, List.filter_append, List.map_append]
  congr 1
  cases t.push with
  | none => rfl
  | some p => by_cases hp : p.1 = ρ <;> simp [hp]

theorem Recorded.step {a : PlaneStep Val} (hr : s.Recorded) (h : s.step qx a = some s') :
    s'.Recorded := by
  intro j
  cases a with
  | call t =>
    obtain ⟨ht, rfl⟩ := step_call h
    have hsent : t.sent = [] := by cases t <;> first | rfl | cases ht
    show s.pushedBy j = (((s.tasks ++ [t])[j]?).map AsbTask.sent).getD []
    rw [hr j, List.getElem?_append]
    split_ifs with hj
    · rfl
    · rw [List.getElem?_eq_none (Nat.le_of_not_lt hj), List.getElem?_singleton]
      split_ifs
      · exact hsent.symm
      · rfl
  | recv ρ =>
    cases h
    exact hr j
  | run i now =>
    obtain ⟨t, t', hi, -, hexec, htasks, hpushes⟩ := step_run h
    rw [pushedBy_of_pushes hpushes, hr j, htasks]
    by_cases hij : i = j
    · subst hij
      rw [List.getElem?_set_self (List.getElem?_eq_some_iff.1 hi).1, hi, if_pos rfl]
      exact (AsbTask.exec_sent hexec).symm
    · rw [List.getElem?_set_ne hij, if_neg hij, List.append_nil]

/-- While a message is being sent, the senders stay: its task holds them. -/
theorem senders_run {i : ℕ} {now : Instant} (h : s.step qx (.run i now) = some s') {m : MasterId}
    {x : Stamped Val} {sent rest : List RingId} (hu : AsbTask.sending m x sent rest ∈ s.tasks) :
    (s'.asb.masters m).senders = (s.asb.masters m).senders := by
  obtain ⟨t, t', -, hgrants, hexec, -, -⟩ := step_run h
  refine (AsbTask.exec_effect hexec).senders fun hw => ?_
  have hfree := hgrants _ hw
  exact Locking.not_free_write hu (List.mem_cons_of_mem _ List.mem_cons_self) hfree

theorem Audience.step {a : PlaneStep Val} (ha : s.Audience) (h : s.step qx a = some s') :
    s'.Audience := by
  intro m x sent rest hu
  cases a with
  | call t =>
    obtain ⟨ht, rfl⟩ := step_call h
    rcases List.mem_append.1 hu with hu | hu
    · exact ha m x sent rest hu
    · cases List.mem_singleton.1 hu
      cases ht
  | recv ρ =>
    cases h
    exact ha m x sent rest hu
  | run i now =>
    obtain ⟨t, t', hi, -, hexec, htasks, -⟩ := step_run h
    rw [htasks] at hu
    rcases List.mem_or_eq_of_mem_set hu with hu | rfl
    · rw [senders_run h hu]
      exact ha m x sent rest hu
    · rcases AsbTask.exec_eq_sending hexec with ⟨rfl, rfl, rfl⟩ | ⟨ρ, done, rfl, rfl⟩
      · have hasb : s.asb = s'.asb := congrArg Prod.fst (Option.some.inj hexec)
        rw [← hasb, List.nil_append]
      · have hmasters : s'.asb.masters m = s.asb.masters m := (AsbTask.exec_effect hexec).masters m
        rw [hmasters, List.append_assoc]
        exact ha m x done (ρ :: rest) (List.mem_of_getElem? hi)

/-- No ring is sent a message twice. -/
def NoRepeat (s : Plane Val) : Prop := ∀ t ∈ s.tasks, (t.sent.map Prod.fst).Nodup

theorem map_fst_sent {x : Stamped Val} (rings : List RingId) :
    (rings.map (·, x)).map Prod.fst = rings := by
  rw [List.map_map]
  exact List.map_id _

theorem NoRepeat.step {a : PlaneStep Val} (hn : s.NoRepeat) (ha : s'.Audience)
    (ho : s'.asb.Owned) (h : s.step qx a = some s') : s'.NoRepeat := by
  cases a with
  | call t =>
    obtain ⟨ht, rfl⟩ := step_call h
    have hsent : t.sent = [] := by cases t <;> first | rfl | cases ht
    intro u hu
    rcases List.mem_append.1 hu with hu | hu
    · exact hn u hu
    · rw [List.mem_singleton.1 hu, hsent]
      exact List.nodup_nil
  | recv ρ =>
    cases h
    exact hn
  | run i now =>
    obtain ⟨t, t', hi, -, hexec, htasks, -⟩ := step_run h
    have hi' : t' ∈ s'.tasks := by
      rw [htasks]
      exact TaskPool.mem_set_self hi t'
    rw [NoRepeat, htasks]
    refine TaskPool.forall_mem_set hn ?_
    cases t' with
    | sending m x sent rest =>
      rw [AsbTask.sent, map_fst_sent]
      -- Sent and unsent together are the list of the ringmaster, which has no ring twice.
      have hall := ho.alone m
      rw [← ha m x sent rest hi'] at hall
      exact hall.of_append_left
    | delivered m x sent =>
      have hsame := AsbTask.exec_sent hexec
      have hquiet : t.push = none := by
        cases t with
        | sending m' x' sent' rest' =>
          cases rest' with
          | nil => rfl
          | cons ρ rest' => cases congrArg Prod.snd (Option.some.inj hexec)
        | _ => rfl
      rw [hsame, hquiet, Option.toList_none, List.append_nil]
      exact hn t (List.mem_of_getElem? hi)
    | _ => exact List.nodup_nil

/-! ## Runs -/

/-- The invariant of the fan-out. -/
structure FansOut (s : Plane Val) : Prop where
  owned : s.asb.Owned
  recorded : s.Recorded
  audience : s.Audience
  noRepeat : s.NoRepeat

theorem fansOut_new (kinds : MasterId → TypeId × WireFormat × QosSettings) :
    (new kinds : Plane Val).FansOut where
  owned := ⟨fun _ _ h => (by cases h), fun _ => List.nodup_nil, fun _ _ _ h => (by cases h)⟩
  recorded _ := rfl
  audience _ _ _ _ h := by cases h
  noRepeat _ h := by cases h

theorem FansOut.step {a : PlaneStep Val} (hf : s.FansOut) (h : s.step qx a = some s') :
    s'.FansOut := by
  have howned := owned_step hf.owned h
  have haudience := hf.audience.step h
  exact ⟨howned, hf.recorded.step h, haudience, hf.noRepeat.step haudience howned h⟩

theorem fansOut_run {kinds : MasterId → TypeId × WireFormat × QosSettings}
    {steps : List (PlaneStep Val)} (hrun : run (step qx) (new kinds) steps = some s) :
    s.FansOut :=
  (Always.of_step (fun _ _ _ hf h => FansOut.step hf h) steps (fansOut_new kinds)).last hrun

/-! ## The rings -/

/-- What a step does to the ring `ρ`. -/
def actsOn (s : Plane Val) (ρ : RingId) : PlaneStep Val → List (Act (Stamped Val))
  | .call _ => []
  | .recv ρ' => if ρ' = ρ then [.recv] else []
  | .run i _ =>
    ((((s.tasks[i]?).bind AsbTask.push).toList.filter (·.1 = ρ)).map Prod.snd).map .send

variable (qx) in
/-- What a run does to the ring `ρ`: the messages sent into it and the receives, in order. -/
def acts (ρ : RingId) : Plane Val → List (PlaneStep Val) → List (Act (Stamped Val))
  | _, [] => []
  | s, a :: steps =>
    match s.step qx a with
    | none => []
    | some s' => s.actsOn ρ a ++ acts ρ s' steps

theorem acts_cons {ρ : RingId} {a : PlaneStep Val} {steps : List (PlaneStep Val)}
    (h : s.step qx a = some s') :
    acts qx ρ s (a :: steps) = s.actsOn ρ a ++ acts qx ρ s' steps := by
  rw [acts, h]

theorem pushedInto_step {a : PlaneStep Val} (h : s.step qx a = some s') (ρ : RingId) :
    s'.pushedInto ρ = s.pushedInto ρ ++ sent (s.actsOn ρ a) := by
  cases a with
  | call t =>
    obtain ⟨-, rfl⟩ := step_call h
    exact (List.append_nil _).symm
  | recv ρ' =>
    cases h
    simp only [actsOn]
    split_ifs <;> exact (List.append_nil _).symm
  | run i now =>
    obtain ⟨t, t', hi, -, -, -, hpushes⟩ := step_run h
    rw [pushedInto_of_pushes hpushes, actsOn, sent_map_send, hi, Option.bind_some]

theorem nextRing_le_step {a : PlaneStep Val} (h : s.step qx a = some s') :
    s.asb.nextRing ≤ s'.asb.nextRing := by
  cases a with
  | call t =>
    obtain ⟨-, rfl⟩ := step_call h
    exact Nat.le_refl _
  | recv ρ =>
    cases h
    exact Nat.le_refl _
  | run i now =>
    obtain ⟨t, t', -, -, hexec, -, -⟩ := step_run h
    rw [(AsbTask.exec_effect hexec).nextRing]
    exact Nat.le_add_right _ _

/-- What is sent goes into the ring. -/
theorem rings_step {a : PlaneStep Val} (h : s.step qx a = some s') {ρ : RingId}
    (hρ : ρ < s.asb.nextRing) :
    s'.asb.rings ρ = (s.actsOn ρ a).foldl Act.apply (s.asb.rings ρ) := by
  cases a with
  | call t =>
    obtain ⟨-, rfl⟩ := step_call h
    rfl
  | recv ρ' =>
    cases h
    show Function.update s.asb.rings ρ' (s.asb.rings ρ').advance ρ = _
    rw [Function.update_apply, actsOn]
    by_cases hto : ρ' = ρ
    · rw [if_pos hto.symm, if_pos hto, hto]
      rfl
    · rw [if_neg (Ne.symm hto), if_neg hto]
      rfl
  | run i now =>
    obtain ⟨t, t', hi, -, hexec, -, -⟩ := step_run h
    rw [(AsbTask.exec_effect hexec).rings, actsOn, hi, Option.bind_some]
    cases hpush : t.push with
    | none =>
      cases hring : t.makesRing with
      | false => exact AsbTask.ringAfter_of_push_eq_none hpush hring ρ
      | true =>
        obtain ⟨m, id, capacity, rfl⟩ := AsbTask.eq_addSender_of_makesRing hring
        -- A ring that is made has the next number, so `ρ` is left alone.
        exact if_neg (Nat.ne_of_lt hρ)
    | some p =>
      obtain ⟨ρ', x⟩ := p
      obtain ⟨m, sent, rest, rfl⟩ := AsbTask.eq_sending_of_push hpush
      rw [AsbTask.ringAfter, Option.toList_some]
      by_cases hto : ρ' = ρ
      · subst hto
        simp [Act.apply]
      · simp [hto, Ne.symm hto]

/-- A ring is made empty, and nothing is sent into it before. -/
theorem rings_made {a : PlaneStep Val} (hf : s.FansOut) (h : s.step qx a = some s') {ρ : RingId}
    (hold : s.asb.nextRing ≤ ρ) :
    (∀ capacity, (s.actsOn ρ a).foldl Act.apply (.empty capacity) = .empty capacity) ∧
      (ρ < s'.asb.nextRing → ∃ capacity, s'.asb.rings ρ = .empty capacity) := by
  cases a with
  | call t =>
    obtain ⟨-, rfl⟩ := step_call h
    exact ⟨fun _ => rfl, fun hρ => absurd hρ (Nat.not_lt.2 hold)⟩
  | recv ρ' =>
    cases h
    refine ⟨fun capacity => ?_, fun hρ => absurd hρ (Nat.not_lt.2 hold)⟩
    rw [actsOn]
    split_ifs <;> rfl
  | run i now =>
    obtain ⟨t, t', hi, -, hexec, -, -⟩ := step_run h
    have heffect := AsbTask.exec_effect hexec
    constructor
    · intro capacity
      rw [actsOn, hi, Option.bind_some]
      cases hpush : t.push with
      | none => rfl
      | some p =>
        obtain ⟨ρ', x⟩ := p
        obtain ⟨m, sent, rest, rfl⟩ := AsbTask.eq_sending_of_push hpush
        -- A message is sent to rings with a sender only.
        have hall := hf.audience m x sent (ρ' :: rest) (List.mem_of_getElem? hi)
        have hlt : ρ' < s.asb.nextRing := by
          refine hf.owned.lt_of_mem (m := m) ?_
          rw [← hall]
          exact List.mem_append_right _ List.mem_cons_self
        rw [Option.toList_some, List.filter_cons_of_neg]
        · rfl
        · simpa using Nat.ne_of_lt (Nat.lt_of_lt_of_le hlt hold)
    · intro hρ
      rw [heffect.nextRing] at hρ
      cases hring : t.makesRing with
      | false =>
        rw [hring] at hρ
        exact absurd hρ (Nat.not_lt.2 hold)
      | true =>
        rw [hring] at hρ
        obtain ⟨m, id, capacity, rfl⟩ := AsbTask.eq_addSender_of_makesRing hring
        refine ⟨capacity, ?_⟩
        rw [heffect.rings, AsbTask.ringAfter, if_pos (Nat.le_antisymm (Nat.le_of_lt_succ hρ) hold)]

theorem pushedInto_run {steps : List (PlaneStep Val)} (hrun : run (step qx) s steps = some s')
    (ρ : RingId) : s'.pushedInto ρ = s.pushedInto ρ ++ sent (acts qx ρ s steps) := by
  induction steps generalizing s with
  | nil =>
    cases hrun
    exact (List.append_nil _).symm
  | cons a steps ih =>
    rw [run_cons] at hrun
    obtain ⟨u, hu, hrun⟩ := Option.bind_eq_some_iff.1 hrun
    rw [acts_cons hu, sent_append, ← List.append_assoc, ← pushedInto_step hu, ih hrun]

theorem rings_run {steps : List (PlaneStep Val)} (hrun : run (step qx) s steps = some s')
    {ρ : RingId} (hρ : ρ < s.asb.nextRing) :
    s'.asb.rings ρ = (acts qx ρ s steps).foldl Act.apply (s.asb.rings ρ) := by
  induction steps generalizing s with
  | nil =>
    cases hrun
    rfl
  | cons a steps ih =>
    rw [run_cons] at hrun
    obtain ⟨u, hu, hrun⟩ := Option.bind_eq_some_iff.1 hrun
    rw [acts_cons hu, List.foldl_append, ← rings_step hu hρ]
    exact ih hrun (Nat.lt_of_lt_of_le hρ (nextRing_le_step hu))

variable (qx) in
/-- From `s` to `s'` the ring `ρ` is what the sends and receives of the steps make of it, and the
log of what was sent into it gains these sends. -/
structure Fills (ρ : RingId) (s : Plane Val) (steps : List (PlaneStep Val)) (s' : Plane Val) :
    Prop where
  ring : s'.asb.rings ρ = (acts qx ρ s steps).foldl Act.apply (s.asb.rings ρ)
  log : s'.pushedInto ρ = s.pushedInto ρ ++ sent (acts qx ρ s steps)

theorem fills_run {steps : List (PlaneStep Val)} {ρ : RingId} (hρ : ρ < s.asb.nextRing)
    (hrun : run (step qx) s steps = some s') : Fills qx ρ s steps s' :=
  ⟨rings_run hrun hρ, pushedInto_run hrun ρ⟩

/-- A ring made in a run is what its sends and receives make of an empty ring. -/
theorem rings_made_run {steps : List (PlaneStep Val)} {ρ : RingId} (hf : s.FansOut)
    (hold : s.asb.nextRing ≤ ρ) (hrun : run (step qx) s steps = some s')
    (hρ : ρ < s'.asb.nextRing) :
    ∃ capacity, s'.asb.rings ρ = (acts qx ρ s steps).foldl Act.apply (.empty capacity) := by
  induction steps generalizing s with
  | nil =>
    cases hrun
    exact absurd hρ (Nat.not_lt.2 hold)
  | cons a steps ih =>
    rw [run_cons] at hrun
    obtain ⟨u, hu, hrun⟩ := Option.bind_eq_some_iff.1 hrun
    obtain ⟨hidle, hmade⟩ := rings_made hf hu hold
    rw [acts_cons hu]
    simp only [List.foldl_append, hidle]
    by_cases hnew : ρ < u.asb.nextRing
    · obtain ⟨capacity, hempty⟩ := hmade hnew
      refine ⟨capacity, ?_⟩
      rw [← hempty]
      exact rings_run hrun hnew
    · exact ih (hf.step hu) (Nat.not_lt.1 hnew) hrun

/-- What is known of every call at every moment: the sends recorded of it are one to each of some
rings, and while it is sending, these and the rings to come are those of the senders registered. -/
def ExactlyOnce (s : Plane Val) : Prop :=
  ∀ i t, s.tasks[i]? = some t →
    s.pushedBy i = t.sent ∧ (t.sent.map Prod.fst).Nodup ∧
      ∀ m x sent rest, t = .sending m x sent rest →
        sent ++ rest = (s.asb.masters m).senders.map Prod.snd

/-- A call that ends its sending has sent the message to the senders registered, once to each. -/
def EndsComplete (s : Plane Val) : PlaneStep Val → Prop
  | .run i _ => ∀ m x sent, s.tasks[i]? = some (.sending m x sent []) →
      s.pushedBy i = (s.asb.masters m).senders.map fun r => (r.2, x)
  | _ => True

/-- **Every message is sent exactly once to every reader there is**, in every interleaving of
messages, registrations, removals, drops and a shutdown. A ring is what these sends and its receives
make of an empty ring. -/
theorem exactly_once (kinds : MasterId → TypeId × WireFormat × QosSettings)
    (steps : List (PlaneStep Val)) :
    Always (step qx) ExactlyOnce (new kinds) steps ∧
      EachStep (step qx) EndsComplete (new kinds) steps ∧
      ∀ s, run (step qx) (new kinds) steps = some s → ∀ ρ < s.asb.nextRing,
        s.pushedInto ρ = sent (acts qx ρ (new kinds) steps) ∧
          ∃ capacity, s.asb.rings ρ =
            (acts qx ρ (new kinds) steps).foldl Act.apply (.empty capacity) := by
  have hinv : Always (step qx) FansOut (new kinds) steps :=
    .of_step (fun s a s' hf h => hf.step h) steps (fansOut_new kinds)
  refine ⟨?_, ?_, fun s hrun ρ hρ => ⟨pushedInto_run hrun ρ, ?_⟩⟩
  · refine hinv.mono fun s hf i t hi => ⟨?_, ?_, ?_⟩
    · rw [hf.recorded i, hi]
      rfl
    · exact hf.noRepeat t (List.mem_of_getElem? hi)
    · intro m x sent rest ht
      subst ht
      exact hf.audience m x sent rest (List.mem_of_getElem? hi)
  · refine EachStep.of_always_post (fun s a s' hf _ _ => ?_) hinv
    cases a with
    | run i now =>
      intro m x sent hi
      have hall := hf.audience m x sent [] (List.mem_of_getElem? hi)
      rw [List.append_nil] at hall
      rw [hf.recorded i, hi, Option.map_some, Option.getD_some, AsbTask.sent, hall, List.map_map]
      rfl
    | call | recv => trivial
  · exact rings_made_run (fansOut_new kinds) (Nat.zero_le ρ) hrun hρ

end Plane

end Rounac

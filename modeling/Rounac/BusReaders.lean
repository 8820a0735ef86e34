import Rounac.InTransit
import Rounac.Networks.Bus

/-!
# Readers on a bus

Whatever the calls on the ASB and the threads of all readers do, each reader lives the life that
`SharedReader` describes of it alone: it is where a run of its own leads, in which messages arrive
when calls send them into its ring, and its sender goes away when a call drops it
(`readers_on_their_own`). So what holds of the runs of a reader holds of every reader on the bus.

The ring of the reader and the ring that calls send into are one ring: they hold the same messages,
here by their numbers and there by themselves. The reader finds it connected exactly while a
ringmaster lists its sender.
-/

namespace Rounac

open StepSystem SwapRemove OverwriteRing LockOrder

variable {Val : Type} {qx : QuickXml Val} {made : RingId → ReaderKind}

/-! ## Senders and what drops them -/

/-- A ringmaster lists a sender of the ring. -/
def NetAsb.Lists (asb : NetAsb Val) (ρ : RingId) : Prop :=
  ∃ m, ρ ∈ (asb.masters m).senders.map Prod.snd

theorem NetAsb.Owned.not_mem_of_ne {asb : NetAsb Val} (ho : asb.Owned) {m k : MasterId} {ρ : RingId}
    (hkm : k ≠ m) (hk : ρ ∈ (asb.masters k).senders.map Prod.snd) :
    ρ ∉ (asb.masters m).senders.map Prod.snd := by
  intro hm
  obtain ⟨r, hr, hrρ⟩ := List.mem_map.1 hk
  obtain ⟨q, hq, hqρ⟩ := List.mem_map.1 hm
  exact hkm (ho.apart k m r hr q hq (hrρ.trans hqρ.symm))

namespace AsbTask

variable {now : Instant} {asb asb' : NetAsb Val} {t t' : AsbTask Val}

theorem Effect.mem_senders_iff (h : Effect asb asb' t) (ho : asb.Owned)
    (hring : t.makesRing = false) (k : MasterId) (ρ : RingId) :
    ρ ∈ (asb'.masters k).senders.map Prod.snd ↔
      ρ ∈ (asb.masters k).senders.map Prod.snd ∧ ρ ∉ t.drops asb := by
  -- A ring is on one list only, so what other ringmasters drop is not on this one.
  have hkeep : ∀ m, k ≠ m → ρ ∈ (asb.masters k).senders.map Prod.snd →
      ρ ∉ (asb.masters m).senders.map Prod.snd := fun m hkm hk => ho.not_mem_of_ne hkm hk
  by_cases hw : t.wants = some (.senders k, .write)
  · rw [h.masters]
    cases t with
    | removing topic e =>
      cases hw
      simp [masterAfter, drops]
    | clearing ms =>
      cases ms with
      | nil => cases hw
      | cons m ms =>
        cases hw
        simp [masterAfter, drops]
    | removeSender m id =>
      cases hw
      rw [masterAfter, if_pos rfl]
      exact mem_map_removeFirst_iff (ho.alone k)
    | addSender => cases hring
    | _ => cases hw
  · rw [h.senders hw]
    refine (and_iff_left_of_imp fun hk => ?_).symm
    cases t with
    | removing topic e => exact hkeep _ (by rintro rfl; exact hw rfl) hk
    | clearing ms =>
      cases ms with
      | nil => exact List.not_mem_nil
      | cons m ms => exact hkeep m (by rintro rfl; exact hw rfl) hk
    | removeSender m id =>
      have hne : k ≠ m := by
        rintro rfl
        exact hw rfl
      intro hdrop
      obtain ⟨r, hr, rfl⟩ := Option.map_eq_some_iff.1 (Option.mem_toList.1 hdrop)
      exact hkeep m hne hk (List.mem_map_of_mem (List.mem_of_find?_eq_some hr))
    | _ => exact List.not_mem_nil

theorem Effect.lists_iff (h : Effect asb asb' t) (ho : asb.Owned) (hring : t.makesRing = false)
    (ρ : RingId) : asb'.Lists ρ ↔ asb.Lists ρ ∧ ρ ∉ t.drops asb := by
  unfold NetAsb.Lists
  simp only [h.mem_senders_iff ho hring, exists_and_right]

theorem Effect.lists_addSender {m : MasterId} {id : SenderId} {capacity : ℕ}
    (h : Effect asb asb' (addSender m id capacity)) (ρ : RingId) :
    asb'.Lists ρ ↔ asb.Lists ρ ∨ ρ = asb.nextRing := by
  have hmem : ∀ k, ρ ∈ (asb'.masters k).senders.map Prod.snd ↔
      ρ ∈ (asb.masters k).senders.map Prod.snd ∨ k = m ∧ ρ = asb.nextRing := by
    intro k
    rw [h.masters, masterAfter]
    split_ifs with hk
    · simp [ReaderRingMaster.addSender, hk]
    · simp [hk]
  unfold NetAsb.Lists
  simp only [hmem, exists_or, exists_eq_left]

theorem readerAfter_of_push_eq_none (hpush : t.push = none) (hring : t.makesRing = false)
    (ρ : RingId) (r : SharedReader) :
    t.readerAfter made asb ρ r = if ρ ∈ t.drops asb then { r with connected := false } else r := by
  cases t with
  | sending m x sent rest =>
    cases rest with
    | nil => rfl
    | cons => cases hpush
  | addSender => cases hring
  | _ => rfl

/-- What the next step of a task does with the reader of the ring `ρ`. -/
def touches (asb : NetAsb Val) (ρ : RingId) : AsbTask Val → Option ReaderStep
  | sending _ x _ (ρ' :: _) => if ρ = ρ' then some (.arrive x.1) else none
  | t => if ρ ∈ t.drops asb then some .disconnect else none

theorem touches_of_push_eq_none {ρ : RingId} (h : t.push = none) :
    t.touches asb ρ = if ρ ∈ t.drops asb then some .disconnect else none := by
  cases t with
  | sending m x sent rest =>
    cases rest with
    | nil => rfl
    | cons => cases h
  | _ => rfl

theorem isOwn_of_touches {ρ : RingId} {l : ReaderStep} (h : t.touches asb ρ = some l) :
    l.isOwn = false := by
  cases hpush : t.push with
  | none =>
    rw [touches_of_push_eq_none hpush] at h
    split_ifs at h
    cases h
    rfl
  | some p =>
    obtain ⟨m, sent, rest, rfl⟩ := eq_sending_of_push hpush
    simp only [touches] at h
    split_ifs at h
    cases h
    rfl

end AsbTask

namespace Bus

variable {s s' : Bus Val} {ρ : RingId}

/-! ## One ring -/

/-- A message as its reader knows it: by its number among those sent. -/
def numbered (p : Stamped Val × MsgId) : Stamped MsgId := (p.1.1, p.2)

/-- The ring that calls send into and the ring of its reader are one. -/
structure Joined (s : Bus Val) (ρ : RingId) : Prop where
  ring : ∃ ring : RingBuf (Stamped Val × MsgId), ring.items <:+ (s.plane.pushedInto ρ).zipIdx ∧
    s.plane.asb.rings ρ = ring.map Prod.fst ∧ (s.readers ρ).ring = ring.map numbered
  nextMsg : (s.readers ρ).nextMsg = (s.plane.pushedInto ρ).length
  connected : (s.readers ρ).connected = true ↔ s.plane.asb.Lists ρ

/-- The invariant of a bus. -/
structure Linked (s : Bus Val) : Prop where
  fansOut : s.plane.FansOut
  fresh : ∀ p ∈ s.plane.pushes, p.ring < s.plane.asb.nextRing
  joined : ∀ ρ < s.plane.asb.nextRing, s.Joined ρ

theorem linked_new (kinds : MasterId → TypeId × WireFormat × QosSettings) :
    (new kinds : Bus Val).Linked where
  fansOut := Plane.fansOut_new kinds
  fresh _ h := by cases h
  joined ρ hρ := absurd hρ (Nat.not_lt_zero ρ)

theorem Linked.pushedInto_eq_nil (h : s.Linked) (hρ : s.plane.asb.nextRing ≤ ρ) :
    s.plane.pushedInto ρ = [] := by
  unfold Plane.pushedInto
  rw [List.map_eq_nil_iff, List.filter_eq_nil_iff]
  intro p hp heq
  have hlt := h.fresh p hp
  rw [of_decide_eq_true heq] at hlt
  exact absurd hlt (Nat.not_lt.2 hρ)

/-! ## Steps -/

theorem step_run {i : ℕ} {now : Instant} (h : s.step qx made (.run i now) = some s') :
    ∃ t, s.plane.tasks[i]? = some t ∧ s.plane.step qx (.run i now) = some s'.plane ∧
      s'.readers = fun ρ => t.readerAfter made s.plane.asb ρ (s.readers ρ) := by
  obtain ⟨t, ht, h⟩ := Option.bind_eq_some_iff.1 h
  obtain ⟨plane, hplane, rfl⟩ := Option.map_eq_some_iff.1 h
  exact ⟨t, ht, hplane, rfl⟩

theorem step_reader {l : ReaderStep} (h : s.step qx made (.reader ρ l) = some s') :
    ρ < s.plane.asb.nextRing ∧ l.isOwn = true ∧ (s.readers ρ).step l = some (s'.readers ρ) ∧
      s'.plane = (if (s.readers ρ).received (s'.readers ρ) then
        { s.plane with asb := s.plane.asb.fan qx (.recv ρ) } else s.plane) ∧
      ∀ k, k ≠ ρ → s'.readers k = s.readers k := by
  simp only [step] at h
  split_ifs at h with hown
  obtain ⟨r, hr, rfl⟩ := Option.map_eq_some_iff.1 h
  refine ⟨hown.1, hown.2, ?_, ?_, fun k hk => Function.update_of_ne hk _ _⟩
  · rw [hr]
    exact congrArg some (Function.update_self ρ r s.readers).symm
  · simp only [Function.update_self]

/-- A receive is a step of the ASB's model. -/
theorem step_reader_plane {l : ReaderStep} (h : s.step qx made (.reader ρ l) = some s') :
    s'.plane = s.plane ∨ s.plane.step qx (.recv ρ) = some s'.plane := by
  obtain ⟨-, -, -, hplane, -⟩ := step_reader h
  rw [hplane]
  split_ifs
  · exact .inr rfl
  · exact .inl rfl

theorem step_plane {a : BusStep Val} (h : s.step qx made a = some s') :
    s'.plane = s.plane ∨ ∃ b, s.plane.step qx b = some s'.plane := by
  cases a with
  | call t =>
    obtain ⟨plane, hplane, rfl⟩ := Option.map_eq_some_iff.1 h
    exact .inr ⟨_, hplane⟩
  | run i now =>
    obtain ⟨-, -, hplane, -⟩ := step_run h
    exact .inr ⟨_, hplane⟩
  | reader ρ l => exact (step_reader_plane h).imp_right fun hrecv => ⟨_, hrecv⟩

theorem Linked.fresh_step {a : BusStep Val} (hl : s.Linked) (h : s.step qx made a = some s') :
    ∀ p ∈ s'.plane.pushes, p.ring < s'.plane.asb.nextRing := by
  cases a with
  | call t =>
    obtain ⟨plane, hplane, rfl⟩ := Option.map_eq_some_iff.1 h
    obtain ⟨-, rfl⟩ := Plane.step_call hplane
    exact hl.fresh
  | reader ρ l =>
    rcases step_reader_plane h with hsame | hrecv
    · rw [hsame]
      exact hl.fresh
    · rw [← Option.some.inj hrecv]
      exact hl.fresh
  | run i now =>
    obtain ⟨-, -, hplane, -⟩ := step_run h
    obtain ⟨t, t', hi, -, hexec, -, hpushes⟩ := Plane.step_run hplane
    rw [hpushes, (AsbTask.exec_effect hexec).nextRing]
    intro p hp
    rcases List.mem_append.1 hp with hp | hp
    · exact Nat.lt_add_right _ (hl.fresh p hp)
    · -- A message is sent into a ring that is registered.
      obtain ⟨⟨ρ, x⟩, hpush, rfl⟩ := List.mem_map.1 hp
      obtain ⟨m, sent, rest, rfl⟩ := AsbTask.eq_sending_of_push (Option.mem_toList.1 hpush)
      have hall := hl.fansOut.audience m x sent (ρ :: rest) (List.mem_of_getElem? hi)
      refine Nat.lt_add_right _ (hl.fansOut.owned.lt_of_mem (m := m) ?_)
      rw [← hall]
      exact List.mem_append_right _ List.mem_cons_self

/-- A message that is sent arrives at the reader. -/
theorem Joined.arrived (hj : s.Joined ρ) {x : Stamped Val}
    (hrings : s'.plane.asb.rings ρ = (s.plane.asb.rings ρ).send x)
    (hpushed : s'.plane.pushedInto ρ = s.plane.pushedInto ρ ++ [x])
    (hreader : s'.readers ρ = (s.readers ρ).arrived x.1)
    (hlists : s'.plane.asb.Lists ρ ↔ s.plane.asb.Lists ρ) : s'.Joined ρ := by
  obtain ⟨ring, hsuffix, hplane, hring⟩ := hj.ring
  refine ⟨⟨ring.send (x, (s.readers ρ).nextMsg), ?_, ?_, ?_⟩, ?_, ?_⟩
  · rw [hpushed, List.zipIdx_append, hj.nextMsg, Nat.zero_add]
    exact suffix_apply hsuffix (.send _)
  · rw [hrings, hplane, RingBuf.map_send]
  · rw [hreader, RingBuf.map_send, ← hring]
    rfl
  · rw [hreader, hpushed, List.length_append, ← hj.nextMsg]
    rfl
  · rw [hreader, hlists, ← hj.connected]
    rfl

theorem Joined.same (hj : s.Joined ρ)
    (hrings : s'.plane.asb.rings ρ = s.plane.asb.rings ρ)
    (hpushed : s'.plane.pushedInto ρ = s.plane.pushedInto ρ)
    (hreader : s'.readers ρ = s.readers ρ)
    (hlists : s'.plane.asb.Lists ρ ↔ s.plane.asb.Lists ρ) : s'.Joined ρ := by
  refine ⟨?_, ?_, ?_⟩
  · rw [hrings, hpushed, hreader]
    exact hj.ring
  · rw [hpushed, hreader]
    exact hj.nextMsg
  · rw [hlists, hreader]
    exact hj.connected

theorem Joined.dropped (hj : s.Joined ρ)
    (hrings : s'.plane.asb.rings ρ = s.plane.asb.rings ρ)
    (hpushed : s'.plane.pushedInto ρ = s.plane.pushedInto ρ)
    (hreader : s'.readers ρ = { s.readers ρ with connected := false })
    (hlists : ¬ s'.plane.asb.Lists ρ) : s'.Joined ρ := by
  refine ⟨?_, ?_, ?_⟩
  · rw [hrings, hpushed, hreader]
    exact hj.ring
  · rw [hpushed, hreader]
    exact hj.nextMsg
  · rw [hreader]
    simp [hlists]

/-- What a step of the bus does with the reader of a ring. -/
def felt (ρ : RingId) (s : Bus Val) : BusStep Val → Option ReaderStep
  | .call _ => none
  | .run i _ => (s.plane.tasks[i]?).bind (AsbTask.touches s.plane.asb ρ)
  | .reader k l => if ρ = k then some l else none

/-- What a step of a call does to a ring that was there, and to its reader. -/
inductive RingTurn (ρ : RingId) (s s' : Bus Val) : Option ReaderStep → Prop
  | quiet (hrings : s'.plane.asb.rings ρ = s.plane.asb.rings ρ)
      (hpushed : s'.plane.pushedInto ρ = s.plane.pushedInto ρ)
      (hreader : s'.readers ρ = s.readers ρ)
      (hlists : s'.plane.asb.Lists ρ ↔ s.plane.asb.Lists ρ) : RingTurn ρ s s' none
  | dropped (hrings : s'.plane.asb.rings ρ = s.plane.asb.rings ρ)
      (hpushed : s'.plane.pushedInto ρ = s.plane.pushedInto ρ)
      (hreader : s'.readers ρ = { s.readers ρ with connected := false })
      (hlists : ¬ s'.plane.asb.Lists ρ) : RingTurn ρ s s' (some .disconnect)
  | arrived {x : Stamped Val} (hrings : s'.plane.asb.rings ρ = (s.plane.asb.rings ρ).send x)
      (hpushed : s'.plane.pushedInto ρ = s.plane.pushedInto ρ ++ [x])
      (hreader : s'.readers ρ = (s.readers ρ).arrived x.1)
      (hlists : s'.plane.asb.Lists ρ ↔ s.plane.asb.Lists ρ) (hlisted : s.plane.asb.Lists ρ) :
      RingTurn ρ s s' (some (.arrive x.1))

theorem Linked.ringTurn {i : ℕ} {now : Instant} (hl : s.Linked) (hρ : ρ < s.plane.asb.nextRing)
    (h : s.step qx made (.run i now) = some s') :
    RingTurn ρ s s' (s.felt ρ (.run i now)) := by
  obtain ⟨t, ht, hplane, hreaders⟩ := step_run h
  obtain ⟨u, t', hi, -, hexec, -, hpushes⟩ := Plane.step_run hplane
  cases ht.symm.trans hi
  have heffect := AsbTask.exec_effect hexec
  have hrings := heffect.rings ρ
  have hpushed := Plane.pushedInto_of_pushes hpushes ρ
  have hreader : s'.readers ρ = t.readerAfter made s.plane.asb ρ (s.readers ρ) := by rw [hreaders]
  rw [felt, hi, Option.bind_some]
  cases hring : t.makesRing with
  | true =>
    obtain ⟨m, id, capacity, rfl⟩ := AsbTask.eq_addSender_of_makesRing hring
    -- The ring that is made has a fresh number, so it is not `ρ`.
    have hold := Nat.ne_of_lt hρ
    simp only [AsbTask.ringAfter, if_neg hold] at hrings
    simp only [AsbTask.readerAfter, if_neg hold] at hreader
    refine .quiet hrings (by simpa [AsbTask.push] using hpushed) hreader ?_
    rw [heffect.lists_addSender, or_iff_left hold]
  | false =>
    have hlists := heffect.lists_iff hl.fansOut.owned hring ρ
    cases hpush : t.push with
    | none =>
      rw [hpush, Option.toList_none, List.filter_nil, List.map_nil, List.append_nil] at hpushed
      rw [AsbTask.ringAfter_of_push_eq_none hpush hring] at hrings
      rw [AsbTask.readerAfter_of_push_eq_none hpush hring] at hreader
      rw [AsbTask.touches_of_push_eq_none hpush]
      split_ifs at hreader ⊢ with hdrop
      · exact .dropped hrings hpushed hreader fun hlisted => (hlists.1 hlisted).2 hdrop
      · exact .quiet hrings hpushed hreader (hlists.trans (and_iff_left hdrop))
    | some p =>
      obtain ⟨ρ', x⟩ := p
      obtain ⟨m, sent, rest, rfl⟩ := AsbTask.eq_sending_of_push hpush
      simp only [AsbTask.push, Option.toList_some] at hpushed
      simp only [AsbTask.ringAfter] at hrings
      simp only [AsbTask.readerAfter] at hreader
      simp only [AsbTask.touches]
      replace hlists := hlists.trans (and_iff_left List.not_mem_nil)
      split_ifs at hrings hreader ⊢ with hto
      · subst hto
        -- A ring still to be sent to is on the list of the ringmaster that sends.
        have hall := hl.fansOut.audience m x sent (ρ :: rest) (List.mem_of_getElem? hi)
        have hmem : ρ ∈ (s.plane.asb.masters m).senders.map Prod.snd := by
          rw [← hall]
          exact List.mem_append_right _ List.mem_cons_self
        exact .arrived hrings (by simpa using hpushed) hreader hlists ⟨m, hmem⟩
      · exact .quiet hrings (by simpa [Ne.symm hto] using hpushed) hreader hlists

theorem Linked.joined_run {i : ℕ} {now : Instant} (hl : s.Linked)
    (h : s.step qx made (.run i now) = some s') (hρ : ρ < s'.plane.asb.nextRing) :
    s'.Joined ρ := by
  by_cases hold : ρ < s.plane.asb.nextRing
  · have hturn := hl.ringTurn hold h
    generalize s.felt ρ (.run i now) = l at hturn
    cases hturn with
    | quiet hrings hpushed hreader hlists =>
      exact (hl.joined ρ hold).same hrings hpushed hreader hlists
    | dropped hrings hpushed hreader hlists =>
      exact (hl.joined ρ hold).dropped hrings hpushed hreader hlists
    | arrived hrings hpushed hreader hlists =>
      exact (hl.joined ρ hold).arrived hrings hpushed hreader hlists
  · -- The ring is made, and with it the reader.
    obtain ⟨t, ht, hplane, hreaders⟩ := step_run h
    obtain ⟨u, t', hi, -, hexec, -, hpushes⟩ := Plane.step_run hplane
    cases ht.symm.trans hi
    have heffect := AsbTask.exec_effect hexec
    rw [heffect.nextRing] at hρ
    cases hring : t.makesRing with
    | false =>
      rw [hring] at hρ
      exact absurd hρ hold
    | true =>
      rw [hring] at hρ
      obtain ⟨m, id, capacity, rfl⟩ := AsbTask.eq_addSender_of_makesRing hring
      have hnew : ρ = s.plane.asb.nextRing :=
        Nat.le_antisymm (Nat.le_of_lt_succ hρ) (Nat.not_lt.1 hold)
      have hrings := heffect.rings ρ
      have hpushed := Plane.pushedInto_of_pushes hpushes ρ
      simp only [AsbTask.ringAfter, if_pos hnew] at hrings
      rw [hl.pushedInto_eq_nil (Nat.not_lt.1 hold)] at hpushed
      have hreader : s'.readers ρ = .new capacity (made ρ).expiration (made ρ).clients := by
        rw [hreaders]
        exact if_pos hnew
      refine ⟨⟨.empty capacity, List.nil_suffix, hrings, ?_⟩, ?_, ?_⟩
      · rw [hreader]
        rfl
      · rw [hreader, hpushed]
        rfl
      · rw [hreader, heffect.lists_addSender]
        exact iff_of_true rfl (.inr hnew)

theorem Linked.joined_reader {k : RingId} {l : ReaderStep} (hl : s.Linked)
    (h : s.step qx made (.reader k l) = some s') (hρ : ρ < s.plane.asb.nextRing) :
    s'.Joined ρ := by
  obtain ⟨-, hown, hstep, hplane, hothers⟩ := step_reader h
  have hj := hl.joined ρ hρ
  have hpushes : s'.plane.pushes = s.plane.pushes := by
    rw [hplane]
    split_ifs <;> rfl
  have hpushed : s'.plane.pushedInto ρ = s.plane.pushedInto ρ := by
    unfold Plane.pushedInto
    rw [hpushes]
  have hmasters : s'.plane.asb.masters = s.plane.asb.masters := by
    rw [hplane]
    split_ifs <;> rfl
  have hlists : s'.plane.asb.Lists ρ ↔ s.plane.asb.Lists ρ := by
    unfold NetAsb.Lists
    rw [hmasters]
  have hrings : s'.plane.asb.rings ρ =
      if (s.readers k).received (s'.readers k) ∧ ρ = k then (s.plane.asb.rings ρ).advance
      else s.plane.asb.rings ρ := by
    rw [hplane]
    -- The ring of the plane follows the reader's own: it advances when that one has.
    by_cases hrecv : (s.readers k).received (s'.readers k) = true
    · rw [if_pos hrecv]
      by_cases hk : ρ = k
      · rw [if_pos ⟨hrecv, hk⟩, hk]
        exact Function.update_self _ _ _
      · rw [if_neg fun hboth => hk hboth.2]
        exact Function.update_of_ne hk _ _
    · rw [if_neg hrecv, if_neg fun hboth => hrecv hboth.1]
  by_cases hk : ρ = k
  · subst hk
    obtain ⟨hnext, hring⟩ := SharedReader.step_ring hown hstep
    obtain ⟨ring, hsuffix, hsent, hread⟩ := hj.ring
    refine ⟨?_, by rw [hnext, hj.nextMsg, hpushed], ?_⟩
    · rw [hpushed, hrings]
      rcases hring with hsame | ⟨hadvance, hne⟩
      · have hno : (s.readers ρ).received (s'.readers ρ) = false := by
          simp [SharedReader.received, hsame]
        refine ⟨ring, hsuffix, ?_, hsame.trans hread⟩
        rw [if_neg (by simp [hno]), hsent]
      · have hyes : (s.readers ρ).received (s'.readers ρ) = true := by
          have hpos := List.length_pos_iff.2 hne
          simp only [SharedReader.received, hadvance, RingBuf.items_advance, List.length_tail,
            decide_eq_true_eq]
          omega
        refine ⟨ring.advance, (List.tail_suffix _).trans hsuffix, ?_, ?_⟩
        · rw [if_pos ⟨hyes, rfl⟩, hsent, RingBuf.map_advance]
        · rw [hadvance, hread, RingBuf.map_advance]
    · rw [SharedReader.step_connected hown hstep, hlists, hj.connected]
  · rw [if_neg fun hboth => hk hboth.2] at hrings
    exact hj.same hrings hpushed (hothers ρ hk) hlists

theorem Linked.step {a : BusStep Val} (hl : s.Linked) (h : s.step qx made a = some s') :
    s'.Linked where
  fansOut := by
    rcases step_plane h with hsame | ⟨b, hb⟩
    · rw [hsame]
      exact hl.fansOut
    · exact hl.fansOut.step hb
  fresh := hl.fresh_step h
  joined := by
    intro ρ hρ
    cases a with
    | call t =>
      obtain ⟨plane, hplane, rfl⟩ := Option.map_eq_some_iff.1 h
      obtain ⟨-, rfl⟩ := Plane.step_call hplane
      exact ⟨(hl.joined ρ hρ).ring, (hl.joined ρ hρ).nextMsg, (hl.joined ρ hρ).connected⟩
    | run i now => exact hl.joined_run h hρ
    | reader k l =>
      refine hl.joined_reader h ?_
      rcases step_reader_plane h with hsame | hrecv
      · rwa [hsame] at hρ
      · rwa [← Option.some.inj hrecv] at hρ

/-! ## The life of a reader -/

end Bus

def ReaderStep.arrival : ReaderStep → Option Instant
  | arrive t => some t
  | _ => none

namespace Bus

variable {s s' : Bus Val} {ρ : RingId}

variable (made) in
/-- The reader is where a run of its own leads, in which it is sent what calls send into its
ring. -/
def OwnRun (s : Bus Val) (ρ : RingId) : Prop :=
  ∃ capacity ls,
    StepSystem.run SharedReader.step (.new capacity (made ρ).expiration (made ρ).clients) ls =
        some (s.readers ρ) ∧
      ls.filterMap ReaderStep.arrival = (s.plane.pushedInto ρ).map Prod.fst

theorem eq_reader_of_felt {a : BusStep Val} {l : ReaderStep} (h : s.felt ρ a = some l)
    (hown : l.isOwn = true) : a = .reader ρ l := by
  cases a with
  | call => cases h
  | reader k l =>
    simp only [felt] at h
    split_ifs at h with hk
    cases h
    rw [hk]
  | run i now =>
    obtain ⟨t, -, htouch⟩ := Option.bind_eq_some_iff.1 h
    rw [AsbTask.isOwn_of_touches htouch] at hown
    cases hown

/-- A step of the bus is a step of the reader or none, if it does not make the reader. -/
theorem Linked.step_reader {a : BusStep Val} (hl : s.Linked) (hρ : ρ < s.plane.asb.nextRing)
    (h : s.step qx made a = some s') :
    s.felt ρ a = none ∧ s'.readers ρ = s.readers ρ ∧
        s'.plane.pushedInto ρ = s.plane.pushedInto ρ ∨
      ∃ l, s.felt ρ a = some l ∧ (s.readers ρ).step l = some (s'.readers ρ) ∧
        (s'.plane.pushedInto ρ).map Prod.fst =
          (s.plane.pushedInto ρ).map Prod.fst ++ l.arrival.toList := by
  cases a with
  | call t =>
    obtain ⟨plane, hplane, rfl⟩ := Option.map_eq_some_iff.1 h
    obtain ⟨-, rfl⟩ := Plane.step_call hplane
    exact .inl ⟨rfl, rfl, rfl⟩
  | reader k l =>
    obtain ⟨-, hown, hstep, hplane, hothers⟩ := Bus.step_reader h
    have hpushes : s'.plane.pushes = s.plane.pushes := by
      rw [hplane]
      split_ifs <;> rfl
    have hpushed : s'.plane.pushedInto ρ = s.plane.pushedInto ρ := by
      unfold Plane.pushedInto
      rw [hpushes]
    by_cases hk : ρ = k
    · subst hk
      have hnone : l.arrival = none := by cases l <;> first | rfl | cases hown
      refine .inr ⟨l, if_pos rfl, hstep, ?_⟩
      rw [hpushed, hnone, Option.toList_none, List.append_nil]
    · exact .inl ⟨if_neg hk, hothers ρ hk, hpushed⟩
  | run i now =>
    have hturn := hl.ringTurn hρ h
    generalize s.felt ρ (.run i now) = f at hturn ⊢
    cases hturn with
    | quiet hrings hpushed hreader hlists => exact .inl ⟨rfl, hreader, hpushed⟩
    | dropped hrings hpushed hreader hlists =>
      refine .inr ⟨.disconnect, rfl, ?_, ?_⟩
      · rw [hreader]
        rfl
      · rw [hpushed]
        exact (List.append_nil _).symm
    | @arrived x hrings hpushed hreader hlists hlisted =>
      -- The ring is registered, so the reader has a sender.
      have hconn := (hl.joined ρ hρ).connected.2 hlisted
      refine .inr ⟨.arrive x.1, rfl, ?_, ?_⟩
      · rw [hreader, SharedReader.step, if_pos hconn]
        rfl
      · rw [hpushed, List.map_append]
        rfl

theorem step_nextRing {a : BusStep Val} (h : s.step qx made a = some s') :
    s.plane.asb.nextRing ≤ s'.plane.asb.nextRing ∧
      (ρ < s'.plane.asb.nextRing → ¬ ρ < s.plane.asb.nextRing →
        ∃ capacity, s'.readers ρ = .new capacity (made ρ).expiration (made ρ).clients ∧
          s'.plane.pushes = s.plane.pushes) := by
  cases a with
  | call t =>
    obtain ⟨plane, hplane, rfl⟩ := Option.map_eq_some_iff.1 h
    obtain ⟨-, rfl⟩ := Plane.step_call hplane
    exact ⟨Nat.le_refl _, fun hρ hno => absurd hρ hno⟩
  | reader k l =>
    have hsame : s'.plane.asb.nextRing = s.plane.asb.nextRing := by
      rcases step_reader_plane h with hsame | hrecv
      · rw [hsame]
      · rw [← Option.some.inj hrecv]
        rfl
    rw [hsame]
    exact ⟨Nat.le_refl _, fun hρ hno => absurd hρ hno⟩
  | run i now =>
    obtain ⟨t, ht, hplane, hreaders⟩ := step_run h
    obtain ⟨u, t', hi, -, hexec, -, hpushes⟩ := Plane.step_run hplane
    cases ht.symm.trans hi
    rw [(AsbTask.exec_effect hexec).nextRing]
    refine ⟨Nat.le_add_right _ _, fun hρ hno => ?_⟩
    cases hring : t.makesRing with
    | false =>
      rw [hring] at hρ
      exact absurd hρ hno
    | true =>
      obtain ⟨m, id, capacity, rfl⟩ := AsbTask.eq_addSender_of_makesRing hring
      have hnew : ρ = s.plane.asb.nextRing :=
        Nat.le_antisymm (Nat.le_of_lt_succ hρ) (Nat.not_lt.1 hno)
      refine ⟨capacity, ?_, ?_⟩
      · rw [hreaders]
        exact if_pos hnew
      · rw [hpushes]
        exact List.append_nil _

theorem Linked.ownRun_step {a : BusStep Val} (hl : s.Linked)
    (hown : ∀ ρ < s.plane.asb.nextRing, s.OwnRun made ρ) (h : s.step qx made a = some s') :
    ∀ ρ < s'.plane.asb.nextRing, s'.OwnRun made ρ := by
  intro ρ hρ
  by_cases hold : ρ < s.plane.asb.nextRing
  · obtain ⟨capacity, ls, hrun, harrivals⟩ := hown ρ hold
    rcases hl.step_reader hold h with ⟨-, hreader, hpushed⟩ | ⟨l, -, hstep, hpushed⟩
    · exact ⟨capacity, ls, by rw [hrun, hreader], by rw [harrivals, hpushed]⟩
    · refine ⟨capacity, ls ++ [l], run_concat hrun hstep, ?_⟩
      rw [hpushed, List.filterMap_append, harrivals]
      cases l <;> rfl
  · obtain ⟨capacity, hreader, hpushes⟩ := (step_nextRing h).2 hρ hold
    refine ⟨capacity, [], by rw [hreader]; rfl, ?_⟩
    have hnil := hl.pushedInto_eq_nil (Nat.not_lt.1 hold)
    unfold Plane.pushedInto at hnil ⊢
    rw [hpushes, hnil]
    rfl

/-- **Every reader on the bus lives a life of its own**, in every interleaving of the calls on the
ASB with the threads of all readers. Once its ring is made, it is where some run of `SharedReader`
leads, in which it is sent, in order, what calls send into its ring; the ring it reads is the ring
they send into; and it is connected exactly while a ringmaster lists its sender. -/
theorem readers_on_their_own (kinds : MasterId → TypeId × WireFormat × QosSettings)
    (steps : List (BusStep Val)) :
    Always (step qx made)
      (fun s => ∀ ρ < s.plane.asb.nextRing, s.Joined ρ ∧ s.OwnRun made ρ) (new kinds) steps := by
  have hinv : Always (step qx made)
      (fun s => s.Linked ∧ ∀ ρ < s.plane.asb.nextRing, s.OwnRun made ρ) (new kinds) steps :=
    .of_step (fun s a s' hinv h => ⟨hinv.1.step h, hinv.1.ownRun_step hinv.2 h⟩) steps
      ⟨linked_new kinds, fun ρ hρ => absurd hρ (Nat.not_lt_zero ρ)⟩
  exact hinv.mono fun s hs ρ hρ => ⟨hs.1.joined ρ hρ, hs.2 ρ hρ⟩

end Bus

end Rounac

import Rounac.BusReaders
import Rounac.Lib.Picks
import Rounac.ListenerDispatch
import Rounac.OrderedCallbacks

/-!
# From a message on the ASB to a listener

A message goes through the ringmaster's filter, into a ring, out of it into the hands of a
background thread, and to the listeners. On the whole way nothing is made up and nothing doubled,
whatever else runs: what a listener hears is, each once at most, among what the filter let out
(`heard_once`). It hears it in the order of the filter when messages are handled one at a time and
one background thread runs (`heard_in_order`).
-/

namespace Rounac

open StepSystem TaskPool OverwriteRing LockOrder Picks

variable {Val : Type} {qx : QuickXml Val} {made : RingId → ReaderKind}

/-! ## A listener is called once for a message -/

namespace Traffic

/-- The messages a listener was called with. -/
def heardBy (a : Traffic) (fn : ListenerFn) : List MsgId :=
  (a.passed.filter fun p => p.1 == fn).map Prod.snd

/-- No listener was called twice with a message, or is about to be. -/
structure PassedOnce (a : Traffic) : Prop where
  passed : a.passed.Nodup
  calling : ∀ t ∈ a.threads, ∀ m rest, t = .calling m rest →
    rest.Nodup ∧ ∀ fn ∈ rest, (fn, m) ∉ a.passed

theorem PassedOnce.heardBy_nodup {a : Traffic} (h : a.PassedOnce) (fn : ListenerFn) :
    (a.heardBy fn).Nodup := by
  refine (h.passed.filter _).map_on fun p hp q hq heq => ?_
  have hpfn := (List.mem_filter.1 hp).2
  have hqfn := (List.mem_filter.1 hq).2
  exact Prod.ext ((beq_iff_eq.1 hpfn).trans (beq_iff_eq.1 hqfn).symm) heq

theorem PassedOnce.set {a b : Traffic} (h : a.PassedOnce) {k : ℕ} {t' : BgThread}
    (hpassed : b.passed = a.passed)
    (hcalling : ∀ m rest, t' = .calling m rest →
      rest.Nodup ∧ ∀ fn ∈ rest, (fn, m) ∉ a.passed) :
    PassedOnce { b with threads := a.threads.set k t' } where
  passed := hpassed ▸ h.passed
  calling := by
    rw [hpassed]
    exact forall_mem_set h.calling hcalling

theorem PassedOnce.turn {a b : Traffic} (h : a.PassedOnce) (hhand : a.Handled) (he : a.Enrolled)
    {k : ℕ} {t t' : BgThread} (hk : a.threads[k]? = some t) (hturn : t.Turn a t' b) :
    PassedOnce { b with threads := a.threads.set k t' } := by
  have hmem := mem_of_getElem? hk
  cases hturn with
  | idle hrun howes hnone =>
    refine h.set rfl ?_
    rintro m rest rfl
    cases hnone
  | expired hitems => exact h.set rfl (by simp)
  | took hitems => exact h.set rfl (by simp)
  | @locked m hfree =>
    refine h.set rfl ?_
    rintro m' rest heq
    cases heq
    -- Nothing is passed of a message whose thread waits for the lock.
    exact ⟨he.fns, fun fn _ hpassed => (hhand.passed (fn, m) hpassed).2 _ hmem rfl⟩
  | @called m fn rest =>
    obtain ⟨hnodup, hnew⟩ := h.calling _ hmem m (fn :: rest) rfl
    rw [List.nodup_cons] at hnodup
    obtain ⟨others, hold, hset⟩ := exists_rest hk (.calling m rest)
    refine ⟨?_, ?_⟩
    · refine List.nodup_append.2 ⟨h.passed, List.nodup_singleton _, fun p hp q hq heq => ?_⟩
      rw [heq, List.mem_singleton.1 hq] at hp
      exact hnew fn List.mem_cons_self hp
    · intro u hu m' rest' hu'
      rcases List.mem_cons.1 (hset.mem_iff.1 hu) with heq | hu
      · rw [hu'] at heq
        cases heq
        refine ⟨hnodup.2, fun fn' hfn' hp => ?_⟩
        rcases List.mem_append.1 hp with hp | hp
        · exact hnew fn' (List.mem_cons_of_mem _ hfn') hp
        · cases List.mem_singleton.1 hp
          exact hnodup.1 hfn'
      · obtain ⟨hnodup', hnew'⟩ :=
          h.calling u (hold.mem_iff.2 (List.mem_cons_of_mem _ hu)) m' rest' hu'
        refine ⟨hnodup', fun fn' hfn' hp => ?_⟩
        rcases List.mem_append.1 hp with hp | hp
        · exact hnew' fn' hfn' hp
        · -- No other thread has the message.
          cases List.mem_singleton.1 hp
          refine hhand.inHand_rest hold rfl u hu ?_
          rw [hu']
          rfl

end Traffic

namespace SharedReader

theorem Move.passedOnce {s : SharedReader} {l : ReaderStep} {b : Traffic} (hm : s.Move l b)
    (hhand : s.Handled) (he : s.Enrolled) (h : s.PassedOnce) : b.PassedOnce := by
  cases hm with
  | idle | arrived | added | removed | expired | read => exact ⟨h.passed, h.calling⟩
  | turned hk hturn => exact h.turn hhand he hk hturn
  | spawned =>
    refine ⟨h.passed, fun t ht m rest htm => ?_⟩
    rcases List.mem_append.1 ht with ht | ht
    · exact h.calling t ht m rest htm
    · rw [htm] at ht
      cases List.mem_singleton.1 ht

theorem passedOnce_new (capacity : ℕ) (expiration : Option Duration) (n : ℕ) :
    (new capacity expiration n).PassedOnce := by
  constructor <;> simp [new]

instance (s : SharedReader) (l : ReaderStep) : Decidable (s.SpawnsAlone l) :=
  match l with
  | .client j _ =>
    inferInstanceAs (Decidable
      (s.clients[j]? = some .spawning → ∀ t ∈ s.threads, t.isRunning = false))
  | .arrive _ | .disconnect | .call _ _ _ | .thread _ _ => inferInstanceAs (Decidable True)

end SharedReader

/-! ## What is handed to a ringmaster's filter on a bus -/

/-- The step on the ASB that a step of a bus is. -/
def BusStep.onPlane : BusStep Val → Option (PlaneStep Val)
  | call t => some (.call t)
  | run i now => some (.run i now)
  | reader .. => none

namespace Bus

variable {s s' : Bus Val} {m : MasterId} {ρ : RingId}

/-- The message that a step hands to the filter of the ringmaster `m`. -/
def arrival (m : MasterId) (s : Bus Val) (a : BusStep Val) : Option (Instant × ByteArray) :=
  a.onPlane.bind (s.plane.arrival m)

variable (qx made) in
/-- The messages that a run hands to the filter of the ringmaster `m`, in order. -/
def arrivals (m : MasterId) : Bus Val → List (BusStep Val) → List (Instant × ByteArray)
  | _, [] => []
  | s, a :: steps =>
    match s.step qx made a with
    | none => []
    | some s' => (s.arrival m a).toList ++ arrivals m s' steps

theorem arrivals_cons {a : BusStep Val} {steps : List (BusStep Val)}
    (h : s.step qx made a = some s') :
    arrivals qx made m s (a :: steps) = (s.arrival m a).toList ++ arrivals qx made m s' steps := by
  rw [arrivals, h]

/-- A message is handed to the ringmaster's filter only when none is past it. -/
def OneAtATime (m : MasterId) (s : Bus Val) (a : BusStep Val) : Prop :=
  (s.arrival m a).isSome = true → s.plane.past m = 0

instance (m : MasterId) (s : Bus Val) (a : BusStep Val) : Decidable (OneAtATime m s a) :=
  inferInstanceAs (Decidable (_ → _))

theorem exists_plane_steps {a : BusStep Val} (h : s.step qx made a = some s') :
    s'.plane = s.plane ∧ s.arrival m a = none ∨
      ∃ b, s.plane.step qx b = some s'.plane ∧ s.plane.arrival m b = s.arrival m a := by
  cases a with
  | call t =>
    obtain ⟨plane, hplane, rfl⟩ := Option.map_eq_some_iff.1 h
    exact .inr ⟨_, hplane, rfl⟩
  | run i now =>
    obtain ⟨-, -, hplane, -⟩ := step_run h
    exact .inr ⟨_, hplane, rfl⟩
  | reader ρ l =>
    rcases step_reader_plane h with hsame | hrecv
    · exact .inl ⟨hsame, rfl⟩
    · exact .inr ⟨_, hrecv, rfl⟩

/-- A run of a bus is a run of its plane, which hands the same messages to the filter. -/
theorem exists_plane_run {steps : List (BusStep Val)}
    (hrun : run (step qx made) s steps = some s') :
    ∃ bs, run (Plane.step qx) s.plane bs = some s'.plane ∧
      Plane.arrivals qx m s.plane bs = arrivals qx made m s steps ∧
      (∀ P : Plane Val → Prop, Always (step qx made) (fun s => P s.plane) s steps →
        Always (Plane.step qx) P s.plane bs) ∧
      (EachStep (step qx made) (OneAtATime m) s steps →
        EachStep (Plane.step qx) (Plane.OneAtATime m) s.plane bs) := by
  induction steps generalizing s with
  | nil =>
    cases hrun
    exact ⟨[], rfl, rfl, fun P hP => hP, fun _ => trivial⟩
  | cons a steps ih =>
    rw [run_cons] at hrun
    obtain ⟨u, hu, hrun⟩ := Option.bind_eq_some_iff.1 hrun
    obtain ⟨bs, hbs, harrivals, halways, heach⟩ := ih hrun
    rw [arrivals_cons hu]
    rcases exists_plane_steps (m := m) hu with ⟨hsame, hnone⟩ | ⟨b, hb, harrival⟩
    · rw [hsame] at hbs harrivals halways heach
      refine ⟨bs, hbs, by rw [hnone, harrivals]; rfl, fun P hP => halways P (hP.2 u hu),
        fun hone => heach (hone u hu).2⟩
    · refine ⟨b :: bs, ?_, ?_, fun P hP => ?_, fun hone => ?_⟩
      · rw [run_cons, hb]
        exact hbs
      · rw [Plane.arrivals_cons hb, harrival, harrivals]
      · exact (always_cons_iff hb).2 ⟨hP.head, halways P (hP.2 u hu)⟩
      · refine (eachStep_cons_iff hb).2 ⟨?_, heach (hone u hu).2⟩
        rw [Plane.OneAtATime, harrival]
        exact (hone u hu).1

/-! ## What a listener hears -/

/-- The messages that the listener `fn` of the reader of `ρ` was called with, in order. -/
def heard (s : Bus Val) (ρ : RingId) (fn : ListenerFn) : List (Stamped Val) :=
  picks (s.plane.pushedInto ρ) ((s.readers ρ).heardBy fn)

/-- What is known of the readers of a bus. -/
structure Heeds (s : Bus Val) : Prop where
  linked : s.Linked
  accounted : ∀ ρ < s.plane.asb.nextRing, (s.readers ρ).Accounted
  passedOnce : ∀ ρ < s.plane.asb.nextRing, (s.readers ρ).PassedOnce

theorem heeds_new (kinds : MasterId → TypeId × WireFormat × QosSettings) :
    (new kinds : Bus Val).Heeds where
  linked := linked_new kinds
  accounted ρ hρ := absurd hρ (Nat.not_lt_zero ρ)
  passedOnce ρ hρ := absurd hρ (Nat.not_lt_zero ρ)

theorem Linked.reader_inv {I : SharedReader → Prop} {a : BusStep Val} (hl : s.Linked)
    (h : s.step qx made a = some s')
    (hnew : ∀ capacity expiration n, I (.new capacity expiration n))
    (hstep : ∀ l r, ρ < s.plane.asb.nextRing → (l.isOwn = true → a = .reader ρ l) →
      (s.readers ρ).step l = some r → I (s.readers ρ) → I r)
    (hI : ρ < s.plane.asb.nextRing → I (s.readers ρ)) (hρ : ρ < s'.plane.asb.nextRing) :
    I (s'.readers ρ) := by
  by_cases hold : ρ < s.plane.asb.nextRing
  · rcases hl.step_reader hold h with ⟨-, hreader, -⟩ | ⟨l, hfelt, hr, -⟩
    · rw [hreader]
      exact hI hold
    · exact hstep l _ hold (eq_reader_of_felt hfelt) hr (hI hold)
  · obtain ⟨capacity, hreader, -⟩ := (step_nextRing h).2 hρ hold
    rw [hreader]
    exact hnew capacity _ _

theorem Heeds.step {a : BusStep Val} (hh : s.Heeds) (h : s.step qx made a = some s') :
    s'.Heeds where
  linked := hh.linked.step h
  accounted ρ hρ :=
    hh.linked.reader_inv h (I := SharedReader.Accounted) SharedReader.accounted_new
      (fun _ _ _ _ hr hI => hI.step hr) (hh.accounted ρ) hρ
  passedOnce ρ hρ :=
    hh.linked.reader_inv h (I := fun r => r.PassedOnce) SharedReader.passedOnce_new
      (fun _ _ hold _ hr hI => (SharedReader.step_move hr).passedOnce (hh.accounted ρ hold).handled
        (hh.accounted ρ hold).enrolled hI) (hh.passedOnce ρ) hρ

theorem Heeds.run {steps : List (BusStep Val)} (hh : s.Heeds)
    (hrun : StepSystem.run (Bus.step qx made) s steps = some s') : s'.Heeds :=
  (Always.of_step (fun _ _ _ hh h => Heeds.step hh h) steps hh).last hrun

theorem heeds_run {kinds : MasterId → TypeId × WireFormat × QosSettings}
    {steps : List (BusStep Val)} (hrun : run (step qx made) (new kinds) steps = some s) : s.Heeds :=
  (heeds_new kinds).run hrun

theorem Heeds.heardBy_lt (hh : s.Heeds) (hρ : ρ < s.plane.asb.nextRing) (fn : ListenerFn) :
    ∀ k ∈ (s.readers ρ).heardBy fn, k < (s.plane.pushedInto ρ).length := by
  intro k hk
  obtain ⟨p, hp, rfl⟩ := List.mem_map.1 hk
  have hacc := hh.accounted ρ hρ
  have htaken := (hacc.handled.passed p (List.mem_of_mem_filter hp)).1
  rw [← (hh.linked.joined ρ hρ).nextMsg]
  exact hacc.numbered.takenBelow _ htaken

theorem Heeds.lt_of_listens (hh : s.Heeds) (hm : s.plane.Listens m ρ) :
    ρ < s.plane.asb.nextRing := hh.linked.fansOut.owned.lt_of_mem hm

/-- What a listener heard was sent into the ring, each message once. -/
theorem Heeds.heard_subperm (hh : s.Heeds) (hρ : ρ < s.plane.asb.nextRing) (fn : ListenerFn) :
    (s.heard ρ fn).length = (s.readers ρ).calls fn ∧
      (s.heard ρ fn).Subperm (s.plane.pushedInto ρ) := by
  have hlt := hh.heardBy_lt hρ fn
  refine ⟨?_, picks_subperm ((hh.passedOnce ρ hρ).heardBy_nodup fn) hlt⟩
  rw [heard, length_picks hlt, Traffic.heardBy, List.length_map, Traffic.calls,
    List.countP_eq_length_filter]

/-- **Nothing is made up and nothing doubled between the ASB and a listener**, in any interleaving
of calls, readers and listeners: over a time in which a ring has its sender at a ringmaster, a
listener of the ring's reader has heard, for each of its calls, a message that was sent or in
transit before, or that the ringmaster's filter let out since, and no message more often than it
was let out. -/
theorem heard_once (kinds : MasterId → TypeId × WireFormat × QosSettings)
    (before since : List (BusStep Val)) {s s' : Bus Val} (m : MasterId) (ρ : RingId)
    (fn : ListenerFn) (hs : run (step qx made) (new kinds) before = some s)
    (hs' : run (step qx made) s since = some s')
    (hl : Always (step qx made) (fun s => s.plane.Listens m ρ) s since) :
    (s'.heard ρ fn).length = (s'.readers ρ).calls fn ∧
      (s'.heard ρ fn).Subperm (s.plane.pushedInto ρ ++ s.plane.inTransit qx m ρ ++
        (s.plane.asb.masters m).lets qx (arrivals qx made m s since)) := by
  have hheeds := heeds_run hs
  have hheeds' := hheeds.run hs'
  have hρ := hheeds'.lt_of_listens (hl.last hs')
  obtain ⟨bs, hbs, harrivals, halways, -⟩ := exists_plane_run (m := m) hs'
  have hbalance := Plane.transit_run hheeds.linked.fansOut (halways _ hl) hbs
  rw [harrivals] at hbalance
  obtain ⟨hcalls, hsub⟩ := hheeds'.heard_subperm hρ fn
  refine ⟨hcalls, hsub.trans ?_⟩
  exact (List.sublist_append_left _ _).subperm.trans hbalance.subperm

/-- A topic with one reader. -/
def oneReader : List (BusStep Unit) :=
  [.call (.insert "t" 0 "t"), .run 0 0, .call (.addSender 0 7 4), .run 1 0]

/-- A listener on the reader, and its background thread. -/
def oneListener : List (BusStep Unit) :=
  [.call 0 (.addListener 7) 0, .client 0 0, .client 0 0, .client 0 0, .thread 0 0].map (.reader 0)

/-- Two messages, one after the other. -/
def twoMessages : List (BusStep Unit) :=
  [.call (.handleMsg "t" "<msg/>".toUTF8), .call (.handleMsg "t" "<msg/>".toUTF8),
    .run 2 0, .run 2 1, .run 2 0, .run 2 0, .run 2 0, .run 2 0, .run 2 0,
    .run 3 0, .run 3 2, .run 3 0, .run 3 0, .run 3 0, .run 3 0]

/-- With a second background thread, a listener hears the second message first. -/
theorem heard_once_reordered : ∃ s s' : Bus Unit,
    s'.heard 0 1 = [(2, ()), (1, ())] ∧
    (s'.heard 0 1).length = (s'.readers 0).calls 1 ∧
    (s'.heard 0 1).Subperm (s.plane.pushedInto 0 ++ s.plane.inTransit .unit 0 0 ++
      (s.plane.asb.masters 0).lets .unit [(1, "<msg/>".toUTF8), (2, "<msg/>".toUTF8)]) := by
  refine ⟨_, _, ?_, @heard_once Unit .unit (fun _ => ⟨none, 1⟩)
    (fun _ => (⟨0⟩, .xml, .default)) (oneReader ++ oneListener ++
      [.call 0 (.removeListener 7) 0, .call 0 (.addListener 8) 0, .client 0 0, .client 0 0,
        .client 0 0, .thread 1 0].map (.reader 0))
    (twoMessages ++ [.thread 0 3, .thread 1 3, .thread 1 3, .thread 1 3, .thread 1 3,
      .thread 0 3, .thread 0 3].map (.reader 0)) _ _ 0 0 1 rfl rfl ?_⟩
  · decide
  · decide

/-! ## One message at a time, one background thread -/

/-- A background thread of the ring's reader is spawned when every earlier one has ended. -/
def SpawnsAlone (ρ : RingId) (s : Bus Val) : BusStep Val → Prop
  | .reader k l => k = ρ → (s.readers k).SpawnsAlone l
  | _ => True

instance (ρ : RingId) (s : Bus Val) (a : BusStep Val) : Decidable (SpawnsAlone ρ s a) :=
  match a with
  | .reader k l => inferInstanceAs (Decidable (k = ρ → (s.readers k).SpawnsAlone l))
  | .call _ | .run _ _ => inferInstanceAs (Decidable True)

theorem ordered_step {a : BusStep Val} (hh : s.Heeds) (halone : SpawnsAlone ρ s a)
    (ho : ρ < s.plane.asb.nextRing → (s.readers ρ).Ordered) (h : s.step qx made a = some s')
    (hρ : ρ < s'.plane.asb.nextRing) : (s'.readers ρ).Ordered := by
  refine hh.linked.reader_inv h (I := fun r => r.Ordered) SharedReader.ordered_new ?_ ho hρ
  intro l r hold hown hr hI
  have hacc := hh.accounted ρ hold
  refine (SharedReader.step_move hr).ordered hacc.numbered hacc.handled ?_ hI
  cases l with
  | client j now =>
    cases hown rfl
    exact halone rfl
  | arrive | disconnect | call | thread => trivial

theorem ordered_run {kinds : MasterId → TypeId × WireFormat × QosSettings}
    {steps : List (BusStep Val)} (hrun : run (step qx made) (new kinds) steps = some s)
    (halone : EachStep (step qx made) (SpawnsAlone ρ) (new kinds) steps)
    (hρ : ρ < s.plane.asb.nextRing) : (s.readers ρ).Ordered := by
  have hinv : Always (step qx made)
      (fun s => s.Heeds ∧ (ρ < s.plane.asb.nextRing → (s.readers ρ).Ordered)) (new kinds) steps :=
    .of_inv (fun s a s' hinv ha h => ⟨hinv.1.step h, ordered_step hinv.1 ha hinv.2 h⟩)
      ⟨heeds_new kinds, fun hρ => absurd hρ (Nat.not_lt_zero ρ)⟩ halone
  exact (hinv.last hrun).2 hρ

theorem sent_in_order {kinds : MasterId → TypeId × WireFormat × QosSettings}
    {before since : List (BusStep Val)} (hs : run (step qx made) (new kinds) before = some s)
    (hs' : run (step qx made) s since = some s')
    (hl : Always (step qx made) (fun s => s.plane.Listens m ρ) s since)
    (hone : EachStep (step qx made) (OneAtATime m) (new kinds) (before ++ since)) :
    s'.plane.pushedInto ρ ++ s'.plane.inTransit qx m ρ =
      s.plane.pushedInto ρ ++ s.plane.inTransit qx m ρ ++
        (s.plane.asb.masters m).lets qx (arrivals qx made m s since) := by
  obtain ⟨bs, hbs, -, -, hbefore⟩ := exists_plane_run (m := m) hs
  have hpast : Always (Plane.step qx) (fun s => s.past m ≤ 1) (Plane.new kinds) bs :=
    .of_inv (fun _ _ _ hp ha h => Plane.past_step hp ha h) (Nat.zero_le _) (hbefore hone.left)
  obtain ⟨cs, hcs, harrivals, halways, heach⟩ := exists_plane_run (m := m) hs'
  rw [← harrivals]
  exact Plane.transit_run_in_order (heeds_run hs).linked.fansOut (hpast.last hbs) (halways _ hl)
    (heach (hone.of_append hs)) hcs

/-- **A listener hears the messages in the order in which they went through the filter**, when each
is handed to the ringmaster's filter with no other one past it, and a background thread of the
reader is spawned when every earlier one has ended: what it has heard is, in order and some of it
left out, what was sent or in transit before and then what the filter let out. -/
theorem heard_in_order (kinds : MasterId → TypeId × WireFormat × QosSettings)
    (before since : List (BusStep Val)) {s s' : Bus Val} (m : MasterId) (ρ : RingId)
    (fn : ListenerFn) (hs : run (step qx made) (new kinds) before = some s)
    (hs' : run (step qx made) s since = some s')
    (hl : Always (step qx made) (fun s => s.plane.Listens m ρ) s since)
    (hone : EachStep (step qx made) (OneAtATime m) (new kinds) (before ++ since))
    (halone : EachStep (step qx made) (SpawnsAlone ρ) (new kinds) (before ++ since)) :
    (s'.heard ρ fn).Sublist (s.plane.pushedInto ρ ++ s.plane.inTransit qx m ρ ++
      (s.plane.asb.masters m).lets qx (arrivals qx made m s since)) := by
  have hrun : run (step qx made) (new kinds) (before ++ since) = some s' := by
    rw [run_append, hs]
    exact hs'
  have hheeds' := heeds_run hrun
  have hρ := hheeds'.lt_of_listens (hl.last hs')
  have hordered := ordered_run hrun halone hρ
  -- The reader took out in order what the ring was sent.
  have hheard : (s'.heard ρ fn).Sublist (s'.plane.pushedInto ρ) :=
    picks_sublist (hordered.inOrder fn) (hheeds'.heardBy_lt hρ fn)
  rw [← sent_in_order hs hs' hl hone]
  exact hheard.trans (List.sublist_append_left _ _)

/-- Two messages, heard in order. -/
theorem heard_in_order_two : ∃ s s' : Bus Unit,
    s'.heard 0 0 = [(1, ()), (2, ())] ∧
    (s'.heard 0 0).Sublist (s.plane.pushedInto 0 ++ s.plane.inTransit .unit 0 0 ++
      (s.plane.asb.masters 0).lets .unit [(1, "<msg/>".toUTF8), (2, "<msg/>".toUTF8)]) := by
  refine ⟨_, _, ?_, @heard_in_order Unit .unit (fun _ => ⟨none, 1⟩)
    (fun _ => (⟨0⟩, .xml, .default)) (oneReader ++ oneListener)
    (twoMessages ++ [.thread 0 3, .thread 0 3, .thread 0 3, .thread 0 3, .thread 0 3, .thread 0 3,
      .thread 0 3, .thread 0 3].map (.reader 0)) _ _ 0 0 0 rfl rfl ?_ ?_ ?_⟩
  · decide
  · decide
  · decide
  · decide

end Bus

end Rounac

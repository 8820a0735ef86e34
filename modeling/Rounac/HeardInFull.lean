import Rounac.ReaderLosses

/-!
# Nothing is lost without a reason

What the ringmaster's filter lets out while a listener is registered is heard by it, or still on the
way to it, or was lost in the reader: overwritten in a full ring, found expired, or taken by a
polling call (`heard_balanced`). So a listener of a reader that loses nothing hears, once all is at
rest, all that the filter let out, and in that order (`heard_in_full`).
-/

namespace Rounac

open StepSystem TaskPool OverwriteRing LockOrder Picks

variable {Val : Type} {qx : QuickXml Val} {made : RingId → ReaderKind}

namespace Bus

variable {s s' : Bus Val} {m : MasterId} {ρ : RingId} {fn : ListenerFn}

/-- The messages that a step takes from the listeners of the ring's reader, by their numbers. -/
def lost (ρ : RingId) (s : Bus Val) (a : BusStep Val) : List MsgId :=
  (s.felt ρ a).toList.flatMap (s.readers ρ).lost

variable (qx made) in
/-- The messages that a run takes from them. -/
def losses (ρ : RingId) : Bus Val → List (BusStep Val) → List MsgId
  | _, [] => []
  | s, a :: steps =>
    match s.step qx made a with
    | none => []
    | some s' => s.lost ρ a ++ losses ρ s' steps

theorem losses_cons {a : BusStep Val} {steps : List (BusStep Val)}
    (h : s.step qx made a = some s') :
    losses qx made ρ s (a :: steps) = s.lost ρ a ++ losses qx made ρ s' steps := by
  rw [losses, h]

theorem losses_eq_nil {steps : List (BusStep Val)}
    (h : EachStep (step qx made) (fun s a => s.lost ρ a = []) s steps) :
    losses qx made ρ s steps = [] := by
  induction steps generalizing s with
  | nil => rfl
  | cons a steps ih =>
    cases hstep : s.step qx made a with
    | none => rw [losses, hstep]
    | some u =>
      obtain ⟨hlost, hrest⟩ := h u hstep
      rw [losses_cons hstep, hlost, ih hrest]
      rfl

/-- The messages on the way to the listener `fn` of the reader of `ρ`. -/
def onTheWay (s : Bus Val) (ρ : RingId) (fn : ListenerFn) : List (Stamped Val) :=
  picks (s.plane.pushedInto ρ) ((s.readers ρ).ahead fn)

/-- The listener `fn` of the reader of `ρ` is registered. -/
def Registered (ρ : RingId) (fn : ListenerFn) (s : Bus Val) : Prop := (s.readers ρ).Registered fn

instance (ρ : RingId) (fn : ListenerFn) (s : Bus Val) : Decidable (Registered ρ fn s) :=
  inferInstanceAs (Decidable (Traffic.Registered _ _))

/-! ## By number -/

theorem balanced_step {a : BusStep Val} (hh : s.Heeds) (hρ : ρ < s.plane.asb.nextRing)
    (hreg : Registered ρ fn s) (h : s.step qx made a = some s') :
    ∃ k, (s'.readers ρ).nextMsg = (s.readers ρ).nextMsg + k ∧
      ((s'.readers ρ).heardBy fn ++ (s'.readers ρ).ahead fn ++ s.lost ρ a).Perm
        ((s.readers ρ).heardBy fn ++ (s.readers ρ).ahead fn ++
          List.range' (s.readers ρ).nextMsg k) := by
  rcases hh.linked.step_reader hρ h with ⟨hfelt, hreader, -⟩ | ⟨l, hfelt, hstep, -⟩
  · refine ⟨0, by rw [hreader]; rfl, ?_⟩
    rw [hreader, lost, hfelt]
    exact .refl _
  · have hlost : s.lost ρ a = (s.readers ρ).lost l := by simp [lost, hfelt]
    rw [hlost]
    exact ⟨_, SharedReader.step_balanced hstep hreg (hh.passedOnce ρ hρ)⟩

theorem balanced_run {steps : List (BusStep Val)} (hh : s.Heeds)
    (hρ : ρ < s.plane.asb.nextRing)
    (hreg : Always (step qx made) (Registered ρ fn) s steps)
    (hrun : run (step qx made) s steps = some s') :
    ∃ k, (s'.readers ρ).nextMsg = (s.readers ρ).nextMsg + k ∧
      ((s'.readers ρ).heardBy fn ++ (s'.readers ρ).ahead fn ++ losses qx made ρ s steps).Perm
        ((s.readers ρ).heardBy fn ++ (s.readers ρ).ahead fn ++
          List.range' (s.readers ρ).nextMsg k) := by
  induction steps generalizing s with
  | nil =>
    cases hrun
    exact ⟨0, rfl, .refl _⟩
  | cons a steps ih =>
    rw [run_cons] at hrun
    obtain ⟨u, hu, hrun⟩ := Option.bind_eq_some_iff.1 hrun
    obtain ⟨i, hi, hfirst⟩ := balanced_step hh hρ hreg.head hu
    have hρu := Nat.lt_of_lt_of_le hρ (step_nextRing (ρ := ρ) hu).1
    obtain ⟨j, hj, hrest⟩ := ih (hh.step hu) hρu (hreg.2 u hu) hrun
    refine ⟨i + j, by rw [hj, hi, Nat.add_assoc], ?_⟩
    rw [losses_cons hu, ← List.range'_append_1, ← hi]
    rw [List.perm_iff_count] at hfirst hrest ⊢
    intro k
    have hfirstk := hfirst k
    have hrestk := hrest k
    simp only [List.count_append] at hfirstk hrestk ⊢
    omega

/-! ## By message -/

theorem pushedInto_prefix_step {a : BusStep Val} (h : s.step qx made a = some s') :
    s.plane.pushedInto ρ <+: s'.plane.pushedInto ρ := by
  rcases step_plane h with hsame | ⟨b, hb⟩
  · rw [hsame]
  · cases b with
    | call t =>
      obtain ⟨-, heq⟩ := Plane.step_call hb
      rw [heq]
      exact List.prefix_rfl
    | recv =>
      rw [← Option.some.inj hb]
      exact List.prefix_rfl
    | run i now =>
      obtain ⟨t, t', -, -, -, -, hpushes⟩ := Plane.step_run hb
      rw [Plane.pushedInto_of_pushes hpushes]
      exact List.prefix_append _ _

theorem pushedInto_prefix {steps : List (BusStep Val)}
    (hrun : run (step qx made) s steps = some s') :
    s.plane.pushedInto ρ <+: s'.plane.pushedInto ρ := by
  have hinv : Always (step qx made)
      (fun u => s.plane.pushedInto ρ <+: u.plane.pushedInto ρ) s steps :=
    .of_step (fun _ _ _ hu h => hu.trans (pushedInto_prefix_step h)) steps List.prefix_rfl
  exact hinv.last hrun

theorem Heeds.ahead_lt (hh : s.Heeds) (hρ : ρ < s.plane.asb.nextRing) (fn : ListenerFn) :
    ∀ k ∈ (s.readers ρ).ahead fn, k < (s.plane.pushedInto ρ).length := by
  intro k hk
  have hacc := hh.accounted ρ hρ
  rw [← (hh.linked.joined ρ hρ).nextMsg]
  rcases Traffic.mem_ahead hk with ⟨t, ht, hbear⟩ | ⟨x, hx, rfl⟩
  · exact hacc.numbered.takenBelow k
      (hacc.handled.taken t ht k (BgThread.inHand_of_bears hbear))
  · exact hacc.numbered.below x hx

/-- The two accounts together: what has gone into the ring, and what has become of it. -/
theorem exists_new (hh : s.Heeds) (hh' : s'.Heeds) {steps : List (BusStep Val)}
    (hρ : ρ < s.plane.asb.nextRing) (hρ' : ρ < s'.plane.asb.nextRing)
    (hreg : Always (step qx made) (Registered ρ fn) s steps)
    (hrun : run (step qx made) s steps = some s') :
    ∃ new, s'.plane.pushedInto ρ = s.plane.pushedInto ρ ++ new ∧
      ((s'.readers ρ).heardBy fn ++ (s'.readers ρ).ahead fn ++ losses qx made ρ s steps).Perm
        ((s.readers ρ).heardBy fn ++ (s.readers ρ).ahead fn ++
          List.range' (s.plane.pushedInto ρ).length new.length) ∧
      picks (s'.plane.pushedInto ρ) ((s.readers ρ).heardBy fn ++ (s.readers ρ).ahead fn ++
          List.range' (s.plane.pushedInto ρ).length new.length) =
        s.heard ρ fn ++ s.onTheWay ρ fn ++ new := by
  obtain ⟨new, hnew⟩ := pushedInto_prefix (ρ := ρ) hrun
  obtain ⟨k, hk, hperm⟩ := balanced_run hh hρ hreg hrun
  rw [(hh.linked.joined ρ hρ).nextMsg] at hperm hk
  rw [(hh'.linked.joined ρ hρ').nextMsg, ← hnew, List.length_append, Nat.add_left_cancel_iff] at hk
  subst hk
  refine ⟨new, hnew.symm, hperm, ?_⟩
  rw [← hnew, picks_append, picks_append, picks_range', picks_append_left new (hh.heardBy_lt hρ fn),
    picks_append_left new (hh.ahead_lt hρ fn)]
  rfl

/-- **Nothing is lost without a reason.** Over a time in which a ring has its sender at a ringmaster
and a listener of the ring's reader is registered, what the listener has heard, what is on the way
to it in the reader, what the reader has lost and what a call is about to send into the ring are
together what there was of it before, and what the ringmaster's filter has let out since. -/
theorem heard_balanced (kinds : MasterId → TypeId × WireFormat × QosSettings)
    (before since : List (BusStep Val)) {s s' : Bus Val} (m : MasterId) (ρ : RingId)
    (fn : ListenerFn) (hs : run (step qx made) (new kinds) before = some s)
    (hs' : run (step qx made) s since = some s')
    (hl : Always (step qx made) (fun s => s.plane.Listens m ρ) s since)
    (hreg : Always (step qx made) (Registered ρ fn) s since) :
    (s'.heard ρ fn ++ s'.onTheWay ρ fn ++ s'.plane.inTransit qx m ρ ++
        picks (s'.plane.pushedInto ρ) (losses qx made ρ s since)).Perm
      (s.heard ρ fn ++ s.onTheWay ρ fn ++ s.plane.inTransit qx m ρ ++
        (s.plane.asb.masters m).lets qx (arrivals qx made m s since)) := by
  have hheeds := heeds_run hs
  have hheeds' := hheeds.run hs'
  have hρ := hheeds.lt_of_listens hl.head
  have hρ' := hheeds'.lt_of_listens (hl.last hs')
  obtain ⟨new, hnew, hperm, hpicks⟩ := exists_new hheeds hheeds' hρ hρ' hreg hs'
  obtain ⟨bs, hbs, harrivals, halways, -⟩ := exists_plane_run (m := m) hs'
  -- What transit lets into the ring is what the reader has new to take: add the two balances.
  have hbalance := Plane.transit_run hheeds.linked.fansOut (halways _ hl) hbs
  rw [harrivals, hnew, List.append_assoc, List.append_assoc, List.perm_append_left_iff] at hbalance
  have hheard := hperm.filterMap ((s'.plane.pushedInto ρ)[·]?)
  rw [← picks, ← picks, hpicks, picks_append, picks_append] at hheard
  have hswap : (s'.heard ρ fn ++ s'.onTheWay ρ fn ++ s'.plane.inTransit qx m ρ ++
      picks (s'.plane.pushedInto ρ) (losses qx made ρ s since)).Perm
        (s'.heard ρ fn ++ s'.onTheWay ρ fn ++
          picks (s'.plane.pushedInto ρ) (losses qx made ρ s since) ++
            s'.plane.inTransit qx m ρ) := by
    rw [List.append_assoc, List.append_assoc (s'.heard ρ fn ++ s'.onTheWay ρ fn)]
    exact List.perm_append_comm.append_left _
  refine (hswap.trans (hheard.append_right _)).trans ?_
  rw [List.append_assoc, List.append_assoc (s.heard ρ fn ++ s.onTheWay ρ fn)]
  exact hbalance.append_left _

/-- A topic with one reader, whose ring holds one message. -/
def oneMessageRing : List (BusStep Unit) :=
  [.call (.insert "t" 0 "t"), .run 0 0, .call (.addSender 0 7 1), .run 1 0]

/-- The second message overwrites the first. -/
theorem heard_balanced_overwritten : ∃ s s' : Bus Unit,
    s'.heard 0 0 = [] ∧ s'.onTheWay 0 0 = [(2, ())] ∧
    (s'.heard 0 0 ++ s'.onTheWay 0 0 ++ s'.plane.inTransit .unit 0 0 ++ [(1, ())]).Perm
      (s.heard 0 0 ++ s.onTheWay 0 0 ++ s.plane.inTransit .unit 0 0 ++
        (s.plane.asb.masters 0).lets .unit [(1, "<msg/>".toUTF8), (2, "<msg/>".toUTF8)]) := by
  refine ⟨_, _, ?_, ?_, @heard_balanced Unit .unit (fun _ => ⟨none, 1⟩)
    (fun _ => (⟨0⟩, .xml, .default)) (oneMessageRing ++ oneListener) twoMessages _ _ 0 0 0 rfl rfl
    ?_ ?_⟩
  · decide
  · decide
  · decide
  · decide

/-- **A listener of a reader that loses nothing hears everything in order**, when each message is
handed to the ringmaster's filter with no other one past it, and a background thread of the reader
is spawned when every earlier one has ended. What it has heard, then what is on the way to it, then
what is about to be sent, is what there was of it before, and then what the filter has let out. -/
theorem heard_in_full (kinds : MasterId → TypeId × WireFormat × QosSettings)
    (before since : List (BusStep Val)) {s s' : Bus Val} (m : MasterId) (ρ : RingId)
    (fn : ListenerFn) (hs : run (step qx made) (new kinds) before = some s)
    (hs' : run (step qx made) s since = some s')
    (hl : Always (step qx made) (fun s => s.plane.Listens m ρ) s since)
    (hreg : Always (step qx made) (Registered ρ fn) s since)
    (hkeeps : EachStep (step qx made) (fun s a => s.lost ρ a = []) s since)
    (hone : EachStep (step qx made) (OneAtATime m) (new kinds) (before ++ since))
    (halone : EachStep (step qx made) (SpawnsAlone ρ) (new kinds) (before ++ since)) :
    s'.heard ρ fn ++ s'.onTheWay ρ fn ++ s'.plane.inTransit qx m ρ =
      s.heard ρ fn ++ s.onTheWay ρ fn ++ s.plane.inTransit qx m ρ ++
        (s.plane.asb.masters m).lets qx (arrivals qx made m s since) := by
  have hrun : run (step qx made) (new kinds) (before ++ since) = some s' := by
    rw [run_append, hs]
    exact hs'
  have hheeds := heeds_run hs
  have hheeds' := heeds_run hrun
  have hρ := hheeds.lt_of_listens hl.head
  have hρ' := hheeds'.lt_of_listens (hl.last hs')
  obtain ⟨new, hnew, hperm, hpicks⟩ := exists_new hheeds hheeds' hρ hρ' hreg hs'
  have hnone : losses qx made ρ s since = [] := losses_eq_nil hkeeps
  rw [hnone, List.append_nil] at hperm
  -- By number, both sides are in order.
  have hsorted' := (ordered_run hrun halone hρ').sorted (hheeds'.accounted ρ hρ').numbered
    (hheeds'.accounted ρ hρ').handled fn
  have hsorted : ((s.readers ρ).heardBy fn ++ (s.readers ρ).ahead fn ++
      List.range' (s.plane.pushedInto ρ).length new.length).Pairwise (· < ·) := by
    refine List.pairwise_append.2 ⟨?_, List.pairwise_lt_range', fun k hk j hj => ?_⟩
    · exact (ordered_run hs halone.left hρ).sorted (hheeds.accounted ρ hρ).numbered
        (hheeds.accounted ρ hρ).handled fn
    · refine Nat.lt_of_lt_of_le ?_ (List.mem_range'_1.1 hj).1
      rcases List.mem_append.1 hk with hk | hk
      · exact hheeds.heardBy_lt hρ fn k hk
      · exact hheeds.ahead_lt hρ fn k hk
  have hsame := List.Perm.eq_of_pairwise' hsorted' hsorted hperm
  have hheard := congrArg (picks (s'.plane.pushedInto ρ)) hsame
  rw [hpicks, picks_append] at hheard
  have hsent := sent_in_order hs hs' hl hone
  rw [hnew, List.append_assoc, List.append_assoc, List.append_cancel_left_eq] at hsent
  calc s'.heard ρ fn ++ s'.onTheWay ρ fn ++ s'.plane.inTransit qx m ρ
    _ = s.heard ρ fn ++ s.onTheWay ρ fn ++ new ++ s'.plane.inTransit qx m ρ :=
      congrArg (· ++ s'.plane.inTransit qx m ρ) hheard
    _ = s.heard ρ fn ++ s.onTheWay ρ fn ++ (s.plane.inTransit qx m ρ ++
          (s.plane.asb.masters m).lets qx (arrivals qx made m s since)) := by
      rw [List.append_assoc, hsent]
    _ = _ := (List.append_assoc ..).symm

/-- One of two messages has been heard, the other is in the hands of the thread. -/
theorem heard_in_full_halfway : ∃ s s' : Bus Unit,
    s'.heard 0 0 = [(1, ())] ∧ s'.onTheWay 0 0 = [(2, ())] ∧
    s'.heard 0 0 ++ s'.onTheWay 0 0 ++ s'.plane.inTransit .unit 0 0 =
      s.heard 0 0 ++ s.onTheWay 0 0 ++ s.plane.inTransit .unit 0 0 ++
        (s.plane.asb.masters 0).lets .unit [(1, "<msg/>".toUTF8), (2, "<msg/>".toUTF8)] := by
  refine ⟨_, _, ?_, ?_, @heard_in_full Unit .unit (fun _ => ⟨none, 1⟩)
    (fun _ => (⟨0⟩, .xml, .default)) (oneReader ++ oneListener)
    (twoMessages ++ [.thread 0 3, .thread 0 3, .thread 0 3, .thread 0 3, .thread 0 3,
      .thread 0 3].map (.reader 0)) _ _ 0 0 0 rfl rfl ?_ ?_ ?_ ?_ ?_⟩
  · decide
  · decide
  · decide
  · decide
  · decide
  · decide
  · decide

end Bus

end Rounac

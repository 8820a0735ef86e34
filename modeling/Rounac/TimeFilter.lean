import Rounac.PerTopicQos

/-!
# The time-based filter

The filter of `ReaderRingMaster::distribute_msg` remembers the receive time of the last message that
it let past. What it lets past is spaced by the filter's width, whatever the receive times, and when
they do not decrease it lets past as many messages as can be (`time_filter_sound_and_optimal`).

The filter works before decoding, so a message that does not decode and pushes nothing is remembered
too. Deleting such messages leaves what is pushed as it is in exactly the sequences in which a
message that decodes is held back by another one that does (`undecodable_harmless_iff`).
-/

namespace Rounac

open SpacedFilter

variable {Val : Type} {qx : QuickXml Val}

/-! ## Sequences of calls -/

theorem fst_eq_of_decodedAs {T : TypeId} {format : WireFormat} {x : Instant × ByteArray}
    {y : Stamped Val} (h : decodedAs qx T format x = some y) : y.1 = x.1 := by
  unfold decodedAs at h
  split at h <;> cases h
  rfl

namespace ReaderRingMaster

variable (qx) in
/-- Calls of `distribute_msg`, one after another: the ringmaster afterwards, and the sends they
make, in order. -/
def distributeAll (m : ReaderRingMaster) :
    List (Instant × ByteArray) → ReaderRingMaster × List (RingId × Stamped Val)
  | [] => (m, [])
  | x :: xs =>
    let (m, sends) := m.distributeMsg qx x.1 x.2
    let (m, rest) := distributeAll m xs
    (m, sends ++ rest)

variable (qx) in
def pushedTo (m : ReaderRingMaster) (xs : List (Instant × ByteArray)) (s : ReaderSender) :
    List (Stamped Val) :=
  ((m.distributeAll qx xs).2.filter (·.1 = s.2)).map Prod.snd

/-- The calls whose message the time-based filter lets past. -/
def admits (m : ReaderRingMaster) : List (Instant × ByteArray) → List (Instant × ByteArray)
  | [] => []
  | x :: xs =>
    match m.filterTime x.1 with
    | some m => x :: admits m xs
    | none => admits m xs

theorem distributeAll_eq (m : ReaderRingMaster) (xs : List (Instant × ByteArray)) :
    m.distributeAll qx xs =
      (m.after xs, (m.lets qx xs).flatMap fun x => m.senders.map fun s => (s.2, x)) := by
  induction xs generalizing m with
  | nil => simp [distributeAll, after_nil, lets]
  | cons x xs ih =>
    have hlets : m.lets qx (x :: xs) = m.lets qx [x] ++ (m.after [x]).lets qx xs :=
      m.lets_append [x] xs
    have hafter : m.after (x :: xs) = (m.after [x]).after xs := m.after_append [x] xs
    rw [distributeAll, distributeMsg_eq]
    dsimp only
    rw [ih, hlets, hafter, List.flatMap_append]
    rfl

theorem filterTime_of_gap {m : ReaderRingMaster} {gap : Duration}
    (h : m.qos.timeBasedFilter = some gap) (t : Instant) :
    m.filterTime t =
      if passes gap m.lastReceived t then some { m with lastReceived := some t } else none := by
  unfold filterTime
  rw [h]
  cases m.lastReceived with
  | none => rfl
  | some last =>
    by_cases hgap : t - last < gap
    · simp [passes, hgap, Nat.not_le.2 hgap]
    · simp [passes, hgap, Nat.not_lt.1 hgap]

theorem admits_eq (m : ReaderRingMaster) (xs : List (Instant × ByteArray)) :
    m.admits xs = admittedBy m.qos.timeBasedFilter m.lastReceived xs := by
  induction xs generalizing m with
  | nil => exact (admittedBy_nil _ _).symm
  | cons x xs ih =>
    rw [admits]
    cases hfilter : m.qos.timeBasedFilter with
    | none =>
      have hpast : m.filterTime x.1 = some m := by simp [filterTime, hfilter]
      rw [hpast]
      dsimp only
      rw [ih, hfilter]
      rfl
    | some gap =>
      rw [filterTime_of_gap hfilter, admittedBy, admitted]
      split_ifs with hpass
      · dsimp only
        rw [ih, hfilter]
        rfl
      · dsimp only
        rw [ih, hfilter]
        rfl

/-- What such calls push: the messages that are let past and decode, to every sender. -/
theorem distributeAll_snd (m : ReaderRingMaster) (xs : List (Instant × ByteArray)) :
    (m.distributeAll qx xs).2 = ((m.admits xs).filterMap (decodedAs qx m.ty m.wireFormat)).flatMap
      fun x => m.senders.map fun s => (s.2, x) := by
  rw [distributeAll_eq, admits_eq]
  rfl

/-! ## Spacing -/

theorem pairwise_decoded {T : TypeId} {format : WireFormat} {R : Instant → Instant → Prop}
    {xs : List (Instant × ByteArray)} (h : xs.Pairwise fun x y => R x.1 y.1) :
    (xs.filterMap (decodedAs qx T format)).Pairwise fun x y => R x.1 y.1 := by
  refine List.pairwise_filterMap.2 (h.imp fun {x y} hxy u hu v hv => ?_)
  rwa [fst_eq_of_decodedAs hu, fst_eq_of_decodedAs hv]

variable (qx) in
/-- **The filter is sound and optimal.** Of a sequence of decodable messages it lets past, and
pushes to every sender, messages that are `gap` apart from each other; and when a new ringmaster
receives them at times that do not decrease, no subsequence of messages that are `gap` apart is
longer. -/
theorem time_filter_sound_and_optimal (m : ReaderRingMaster) (gap : Duration)
    (hgap : m.qos.timeBasedFilter = some gap) (xs : List (Instant × ByteArray))
    (hdec : ∀ x ∈ xs, Decodes qx m.ty m.wireFormat x.2) :
    let out := (m.admits xs).filterMap (decodedAs qx m.ty m.wireFormat)
    (m.distributeAll qx xs).2 = out.flatMap (fun x => m.senders.map fun s => (s.2, x)) ∧
      out.Pairwise (fun x y => gap ≤ y.1 - x.1) ∧
      (m.lastReceived = none → xs.Pairwise (fun x y => x.1 ≤ y.1) →
        ∀ ys : List (Instant × ByteArray), ys.Sublist xs →
          ys.Pairwise (fun x y => gap ≤ y.1 - x.1) → ys.length ≤ out.length) := by
  have hadmits : m.admits xs = admitted gap m.lastReceived xs := by
    rw [admits_eq, hgap]
    rfl
  have hsub : ∀ x ∈ m.admits xs, x ∈ xs := fun x hx =>
    mem_of_mem_admittedBy (admits_eq m xs ▸ hx)
  refine ⟨distributeAll_snd m xs, ?_, fun hlast hsorted ys hys hspaced => ?_⟩
  · rw [hadmits]
    exact pairwise_decoded (R := fun t u => gap ≤ u - t) (pairwise_admitted gap _ xs)
  · rw [length_filterMap_decodedAs fun x hx => hdec x (hsub x hx), hadmits]
    refine length_le_length_admitted hsorted hys hspaced fun y _ => ?_
    rw [hlast]
    rfl

/-- A ringmaster with two senders and a filter of 5. -/
def slow : ReaderRingMaster :=
  ((new ⟨0⟩ .xml { QosSettings.default with timeBasedFilter := some 5 }).addSender 1 0).addSender
    2 1

/-- Messages at equal times, at the boundary of the interval and inside it. -/
def boundary : List (Instant × ByteArray) :=
  [(3, "<msg/>".toUTF8), (3, "<msg/>".toUTF8), (8, "<msg/>".toUTF8), (9, "<msg/>".toUTF8)]

/-- Two of them are let out, 5 apart, and no three are. -/
theorem time_filter_at_the_boundary :
    (slow.distributeAll .unit boundary).2 =
        [(0, (3, ())), (1, (3, ())), (0, (8, ())), (1, (8, ()))] ∧
      ∀ ys : List (Instant × ByteArray), ys.Sublist boundary →
        ys.Pairwise (fun x y => 5 ≤ y.1 - x.1) → ys.length ≤ 2 := by
  have hdec : ∀ x ∈ boundary, Decodes .unit slow.ty slow.wireFormat x.2 := by
    simp only [boundary, List.forall_mem_cons, List.not_mem_nil, false_implies, implies_true,
      and_true]
    exact ⟨⟨(), rfl⟩, ⟨(), rfl⟩, ⟨(), rfl⟩, ⟨(), rfl⟩⟩
  obtain ⟨hpushed, -, hoptimal⟩ := time_filter_sound_and_optimal .unit slow 5 rfl boundary hdec
  exact ⟨hpushed, hoptimal rfl (by decide)⟩

/-! ## Undecodable messages -/

/-- A sender gets each message once for every time that its ring is listed. -/
theorem pushedTo_eq (m : ReaderRingMaster) (xs : List (Instant × ByteArray)) (s : ReaderSender) :
    m.pushedTo qx xs s =
      (m.lets qx xs).flatMap (List.replicate (m.senders.countP fun k => k.2 = s.2)) := by
  have hone : ∀ x : Stamped Val,
      ((m.senders.map fun k => (k.2, x)).filter (·.1 = s.2)).map Prod.snd =
        List.replicate (m.senders.countP fun k => k.2 = s.2) x := by
    intro x
    rw [List.filter_map, List.map_map, List.countP_eq_length_filter]
    exact List.map_const'
  unfold pushedTo
  rw [distributeAll_eq, List.filter_flatMap, List.map_flatMap]
  exact List.flatMap_congr fun x _ => hone x

theorem flatMap_replicate_inj {α : Type*} {n : ℕ} (hn : 0 < n) {xs ys : List α} :
    xs.flatMap (List.replicate n) = ys.flatMap (List.replicate n) ↔ xs = ys := by
  refine ⟨fun h => ?_, fun h => by rw [h]⟩
  induction xs generalizing ys with
  | nil =>
    cases ys with
    | nil => rfl
    | cons y ys =>
      have hlen := congrArg List.length h
      simp at hlen
      omega
  | cons x xs ih =>
    cases ys with
    | nil =>
      have hlen := congrArg List.length h
      simp at hlen
      omega
    | cons y ys =>
      obtain ⟨hxy, hrest⟩ := List.append_inj h (by simp)
      have hhead : x ∈ List.replicate n y := hxy ▸ List.mem_replicate.2 ⟨hn.ne', rfl⟩
      rw [List.eq_of_mem_replicate hhead, ih hrest]

/-- Whether a message decodes at the ringmaster's type. -/
def decodes (qx : QuickXml Val) (m : ReaderRingMaster) (x : Instant × ByteArray) : Bool :=
  (decodedAs qx m.ty m.wireFormat x).isSome

variable (qx) in
/-- **Deleting the undecodable messages leaves what is pushed to the senders as it is exactly when
they disturb no decodable one**: every decodable message that is held back comes within the filter's
width after the last decodable one that was let past. -/
theorem undecodable_harmless_iff (m : ReaderRingMaster) (xs : List (Instant × ByteArray)) :
    (∀ s ∈ m.senders, m.pushedTo qx xs s = m.pushedTo qx (xs.filter (m.decodes qx)) s) ↔
      m.senders = [] ∨ ∀ gap, m.qos.timeBasedFilter = some gap →
        Undisturbed (m.decodes qx) gap m.lastReceived m.lastReceived xs := by
  have hlets : m.lets qx xs = m.lets qx (xs.filter (m.decodes qx)) ↔
      ∀ gap, m.qos.timeBasedFilter = some gap →
        Undisturbed (m.decodes qx) gap m.lastReceived m.lastReceived xs := by
    unfold lets
    cases m.qos.timeBasedFilter with
    | none =>
      refine iff_of_true ?_ (by simp)
      rw [admittedBy, admittedBy, List.filterMap_filter]
      refine List.filterMap_congr fun x _ => ?_
      cases hx : decodedAs qx m.ty m.wireFormat x <;> simp [decodes, hx]
    | some gap =>
      simp only [Option.some.injEq, forall_eq', admittedBy]
      exact filterMap_admitted_eq_iff (fun x y => fst_eq_of_decodedAs) (fun _ h => h) xs
  rw [← hlets]
  constructor
  · intro h
    cases hs : m.senders with
    | nil => exact .inl rfl
    | cons s rest =>
      have hmem : s ∈ m.senders := hs ▸ List.mem_cons_self
      have hpos : 0 < m.senders.countP fun k => k.2 = s.2 :=
        List.countP_pos_iff.2 ⟨s, hmem, by simp⟩
      have heq := h s hmem
      rw [pushedTo_eq, pushedTo_eq] at heq
      exact .inr ((flatMap_replicate_inj hpos).1 heq)
  · rintro (hnone | heq) s hs
    · rw [hnone] at hs
      cases hs
    · rw [pushedTo_eq, pushedTo_eq, heq]

/-- A message that is no UTF-8 arrives at 0 and a good one at 3: the first one's time holds back the
second, which would be pushed to both senders. -/
theorem undecodable_holds_back :
    slow.pushedTo .unit [(0, ⟨#[0xFF]⟩), (3, "<msg/>".toUTF8)] (1, 0) = [] ∧
      slow.pushedTo .unit
        ([(0, ⟨#[0xFF]⟩), (3, "<msg/>".toUTF8)].filter (slow.decodes .unit)) (1, 0) =
          [(3, ())] := by
  decide

end ReaderRingMaster

end Rounac

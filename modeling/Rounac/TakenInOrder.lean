import Rounac.Lib.TaskPool
import Rounac.Networks.Listeners

/-!
# Messages leave a ring in order

Clients and background threads take messages from one ring, one receive at a time. Whoever takes
them, they leave it in the order they arrived in (`taken_in_order`), and each goes into one pair of
hands: a client returns it, or a background thread passes it on (`Handled`).
-/

namespace Rounac

open OverwriteRing StepSystem TaskPool

namespace Traffic

/-- The messages in the ring are in order of arrival, and younger than those taken from it. -/
structure Numbered (a : Traffic) : Prop where
  sorted : a.ring.items.Pairwise fun x y => x.2 < y.2
  below : ∀ x ∈ a.ring.items, x.2 < a.nextMsg
  takenBelow : ∀ m ∈ a.taken, m < a.nextMsg
  older : ∀ m ∈ a.taken, ∀ x ∈ a.ring.items, m < x.2
  takenSorted : a.taken.Pairwise (· < ·)

theorem Numbered.send {a : Traffic} (h : a.Numbered) (t : Instant) :
    Numbered { a with ring := a.ring.send (t, a.nextMsg), nextMsg := a.nextMsg + 1 } := by
  have hsuffix := a.ring.send_suffix (t, a.nextMsg)
  have hmem : ∀ x ∈ (a.ring.send (t, a.nextMsg)).items, x ∈ a.ring.items ∨ x = (t, a.nextMsg) := by
    intro x hx
    simpa using hsuffix.subset hx
  have hsorted : (a.ring.items ++ [(t, a.nextMsg)]).Pairwise fun x y => x.2 < y.2 := by
    rw [List.pairwise_append]
    exact ⟨h.sorted, List.pairwise_singleton _ _, by simpa using h.below⟩
  refine ⟨hsorted.sublist hsuffix.sublist, fun x hx => ?_, fun m hm => ?_, fun m hm x hx => ?_,
    h.takenSorted⟩
  · rcases hmem x hx with hx | rfl
    · exact Nat.lt_succ_of_lt (h.below x hx)
    · exact Nat.lt_succ_self _
  · exact Nat.lt_succ_of_lt (h.takenBelow m hm)
  · rcases hmem x hx with hx | rfl
    · exact h.older m hm x hx
    · exact h.takenBelow m hm

theorem Numbered.advance {a : Traffic} (h : a.Numbered) :
    Numbered { a with ring := a.ring.advance } where
  sorted := h.sorted.tail
  below := fun x hx => h.below x (List.mem_of_mem_tail hx)
  takenBelow := h.takenBelow
  older := fun m hm x hx => h.older m hm x (List.mem_of_mem_tail hx)
  takenSorted := h.takenSorted

theorem Numbered.take {a : Traffic} (h : a.Numbered) {t : Instant} {m : MsgId}
    {rest : List (Stamped MsgId)} (hitems : a.ring.items = (t, m) :: rest) :
    Numbered { a with ring := a.ring.advance, taken := a.taken ++ [m] } := by
  have hhead : (t, m) ∈ a.ring.items := by simp [hitems]
  have hsorted := h.sorted
  rw [hitems, List.pairwise_cons] at hsorted
  refine ⟨h.advance.sorted, h.advance.below, fun m' hm' => ?_, fun m' hm' x hx => ?_, ?_⟩
  · rcases List.mem_append.1 hm' with hm' | hm'
    · exact h.takenBelow m' hm'
    · cases List.mem_singleton.1 hm'
      exact h.below _ hhead
  · rcases List.mem_append.1 hm' with hm' | hm'
    · exact h.advance.older m' hm' x hx
    · cases List.mem_singleton.1 hm'
      refine hsorted.1 x ?_
      simpa [hitems] using hx
  · rw [List.pairwise_append]
    refine ⟨h.takenSorted, List.pairwise_singleton _ _, fun m' hm' m'' hm'' => ?_⟩
    cases List.mem_singleton.1 hm''
    exact h.older m' hm' _ hhead

theorem Numbered.not_mem_taken {a : Traffic} (h : a.Numbered) {t : Instant} {m : MsgId}
    {rest : List (Stamped MsgId)} (hitems : a.ring.items = (t, m) :: rest) : m ∉ a.taken := by
  intro hm
  exact Nat.lt_irrefl m (h.older m hm (t, m) (by simp [hitems]))

/-! ## A message goes one way only -/

/-- What the threads have in their hands was taken, by one thread each, and was not returned; and
it was not passed to a listener before the thread has the lock. -/
structure Handled (a : Traffic) : Prop where
  taken : ∀ t ∈ a.threads, ∀ m, t.inHand = some m → m ∈ a.taken
  apart : (a.threads.filterMap (·.inHand)).Nodup
  returned : ∀ m ∈ a.returned, m ∈ a.taken ∧ ∀ t ∈ a.threads, t.inHand ≠ some m
  passed : ∀ p ∈ a.passed, p.2 ∈ a.taken ∧ ∀ t ∈ a.threads, t ≠ .holding p.2

/-- No other thread has the message that a thread has in its hands. -/
theorem Handled.inHand_rest {a : Traffic} (h : a.Handled) {t : BgThread} {m : MsgId}
    {rest : List BgThread} (hperm : a.threads.Perm (t :: rest)) (ht : t.inHand = some m) :
    ∀ u ∈ rest, u.inHand ≠ some m := by
  intro u hu hum
  have hnodup := (hperm.filterMap (·.inHand)).nodup_iff.1 h.apart
  rw [List.filterMap_cons_some ht, List.nodup_cons] at hnodup
  exact hnodup.1 (List.mem_filterMap.2 ⟨u, hu, hum⟩)

theorem Handled.set {a b : Traffic} (h : a.Handled) {k : ℕ} {t t' : BgThread}
    (hk : a.threads[k]? = some t) (hhand : t'.inHand = none ∨ t'.inHand = t.inHand)
    (hlock : ∀ m, t' = .holding m → t = .holding m) (htaken : b.taken = a.taken)
    (hreturned : b.returned = a.returned)
    (hpassed : ∀ p ∈ b.passed, p ∈ a.passed ∨ t.inHand = some p.2 ∧ t ≠ .holding p.2) :
    Handled { b with threads := a.threads.set k t' } := by
  obtain ⟨rest, hold, hnew⟩ := exists_rest hk t'
  have hmem := mem_of_getElem? hk
  refine ⟨?_, ?_, ?_, ?_⟩
  · rw [htaken]
    refine forall_mem_set h.taken fun m hm => ?_
    rcases hhand with hnone | heq
    · rw [hnone] at hm; cases hm
    · exact h.taken t hmem m (heq ▸ hm)
  · have hnodup := (hold.filterMap (·.inHand)).nodup_iff.1 h.apart
    refine (hnew.filterMap (·.inHand)).nodup_iff.2 ?_
    rcases hhand with hnone | heq
    · rw [List.filterMap_cons_none hnone]
      exact hnodup.sublist ((List.sublist_cons_self t rest).filterMap _)
    · simpa only [List.filterMap_cons, heq] using hnodup
  · intro m hm
    rw [hreturned] at hm
    obtain ⟨hmt, hno⟩ := h.returned m hm
    refine ⟨htaken ▸ hmt, forall_mem_set hno ?_⟩
    rcases hhand with hnone | heq
    · rw [hnone]; simp
    · rw [heq]; exact hno t hmem
  · intro p hp
    rcases hpassed p hp with hp | ⟨hhold, hnot⟩
    · obtain ⟨hpt, hno⟩ := h.passed p hp
      refine ⟨htaken ▸ hpt, forall_mem_set hno fun hc => ?_⟩
      exact hno t hmem (hlock _ hc)
    · refine ⟨htaken ▸ h.taken t hmem _ hhold, fun u hu => ?_⟩
      rcases List.mem_cons.1 (hnew.mem_iff.1 hu) with rfl | hu
      · exact fun hc => hnot (hlock _ hc)
      · rintro rfl
        exact h.inHand_rest hold hhold _ hu rfl

theorem Handled.turn {a b : Traffic} (h : a.Handled) (hnum : a.Numbered) {k : ℕ}
    {t t' : BgThread} (hk : a.threads[k]? = some t) (hturn : t.Turn a t' b) :
    Handled { b with threads := a.threads.set k t' } := by
  cases hturn with
  | idle hrun howes hhand =>
    exact h.set hk (.inl hhand) (by rintro m rfl; cases hhand) rfl rfl fun p hp => .inl hp
  | expired hitems => exact h.set hk (.inl rfl) (by simp) rfl rfl fun p hp => .inl hp
  | locked hfree => exact h.set hk (.inr rfl) (by simp) rfl rfl fun p hp => .inl hp
  | called =>
    refine h.set hk (.inr rfl) (by simp) rfl rfl fun p hp => ?_
    rcases List.mem_append.1 hp with hp | hp
    · exact .inl hp
    · cases List.mem_singleton.1 hp
      exact .inr ⟨rfl, by simp⟩
  | @took t m rest' hitems =>
    -- The message comes from the ring, so nobody has taken it before.
    have hnew : m ∉ a.taken := hnum.not_mem_taken hitems
    obtain ⟨rest, hold, hset⟩ := exists_rest hk (.holding m)
    refine ⟨?_, ?_, ?_, ?_⟩
    · refine forall_mem_set (fun u hu m' hm' => ?_) fun m' hm' => ?_
      · exact List.mem_append_left _ (h.taken u hu m' hm')
      · cases hm'
        exact List.mem_append_right _ List.mem_cons_self
    · refine (hset.filterMap (·.inHand)).nodup_iff.2 ?_
      have hnodup := (hold.filterMap (·.inHand)).nodup_iff.1 h.apart
      have hcons : (BgThread.holding m :: rest).filterMap (·.inHand) =
          m :: rest.filterMap (·.inHand) := List.filterMap_cons_some rfl
      rw [hcons, List.nodup_cons]
      refine ⟨fun hm => ?_, hnodup⟩
      obtain ⟨u, hu, hum⟩ := List.mem_filterMap.1 hm
      exact hnew (h.taken u (hold.mem_iff.2 (List.mem_cons_of_mem _ hu)) m hum)
    · intro m' hm'
      obtain ⟨hmt, hno⟩ := h.returned m' hm'
      refine ⟨List.mem_append_left _ hmt, forall_mem_set hno fun hc => ?_⟩
      cases hc
      exact hnew hmt
    · intro p hp
      obtain ⟨hpt, hno⟩ := h.passed p hp
      refine ⟨List.mem_append_left _ hpt, forall_mem_set hno fun hc => ?_⟩
      cases hc
      exact hnew hpt

end Traffic

namespace SharedReader

theorem Move.numbered {s : SharedReader} {l : ReaderStep} {b : Traffic} (hm : s.Move l b)
    (h : s.Numbered) : b.Numbered := by
  cases hm with
  | idle | added | removed | spawned => exact ⟨h.1, h.2, h.3, h.4, h.5⟩
  | arrived => exact h.send _
  | expired => exact h.advance
  | read hitems =>
    have := h.take hitems
    exact ⟨this.1, this.2, this.3, this.4, this.5⟩
  | turned hk hturn =>
    cases hturn with
    | idle | locked | called => exact ⟨h.1, h.2, h.3, h.4, h.5⟩
    | expired =>
      have := h.advance
      exact ⟨this.1, this.2, this.3, this.4, this.5⟩
    | took hitems =>
      have := h.take hitems
      exact ⟨this.1, this.2, this.3, this.4, this.5⟩

theorem numbered_new (capacity : ℕ) (expiration : Option Duration) (n : ℕ) :
    (new capacity expiration n).Numbered := by
  constructor <;> simp [new]

theorem always_numbered (capacity : ℕ) (expiration : Option Duration) (n : ℕ)
    (ls : List ReaderStep) :
    Always step (fun s => s.Numbered) (new capacity expiration n) ls :=
  .of_step (fun _ _ _ h hs => (step_move hs).numbered h) ls (numbered_new capacity expiration n)

/-- **Messages are taken in the order they arrived in**, whichever threads take them. -/
theorem taken_in_order (capacity : ℕ) (expiration : Option Duration) (n : ℕ)
    (ls : List ReaderStep) :
    Always step (fun s => s.taken.Pairwise (· < ·)) (new capacity expiration n) ls :=
  (always_numbered capacity expiration n ls).mono fun _ h => h.takenSorted

theorem Move.handled {s : SharedReader} {l : ReaderStep} {b : Traffic} (hm : s.Move l b)
    (hnum : s.Numbered) (h : s.Handled) : b.Handled := by
  cases hm with
  | idle | arrived | added | removed | expired => exact ⟨h.1, h.2, h.3, h.4⟩
  | turned hk hturn => exact h.turn hnum hk hturn
  | spawned =>
    have hmem : ∀ t ∈ s.threads ++ [.head], t ∈ s.threads ∨ t = .head := by simp
    refine ⟨fun t ht m hm => ?_, ?_, fun m hm => ⟨(h.returned m hm).1, fun t ht => ?_⟩,
      fun p hp => ⟨(h.passed p hp).1, fun t ht => ?_⟩⟩
    · rcases hmem t ht with ht | rfl
      · exact h.taken t ht m hm
      · cases hm
    · rw [List.filterMap_append]
      simpa [BgThread.inHand] using h.apart
    · rcases hmem t ht with ht | rfl
      · exact (h.returned m hm).2 t ht
      · simp [BgThread.inHand]
    · rcases hmem t ht with ht | rfl
      · exact (h.passed p hp).2 t ht
      · simp
  | @read l t m rest hitems =>
    have hnew : m ∉ s.taken := hnum.not_mem_taken hitems
    refine ⟨fun t ht m' hm' => List.mem_append_left _ (h.taken t ht m' hm'), h.apart,
      fun m' hm' => ?_, fun p hp => ⟨List.mem_append_left _ (h.passed p hp).1, (h.passed p hp).2⟩⟩
    rcases List.mem_append.1 hm' with hm' | hm'
    · exact ⟨List.mem_append_left _ (h.returned m' hm').1, (h.returned m' hm').2⟩
    · cases List.mem_singleton.1 hm'
      exact ⟨List.mem_append_right _ List.mem_cons_self, fun t ht hc => hnew (h.taken t ht m hc)⟩

theorem handled_new (capacity : ℕ) (expiration : Option Duration) (n : ℕ) :
    (new capacity expiration n).Handled := by
  constructor <;> simp [new]

theorem always_handled (capacity : ℕ) (expiration : Option Duration) (n : ℕ)
    (ls : List ReaderStep) :
    Always step (fun s => s.Handled) (new capacity expiration n) ls := by
  have hinv : Always step (fun s => s.Numbered ∧ s.Handled) (new capacity expiration n) ls :=
    .of_step (fun s l s' h hs => ⟨(step_move hs).numbered h.1, (step_move hs).handled h.1 h.2⟩) ls
      ⟨numbered_new capacity expiration n, handled_new capacity expiration n⟩
  exact hinv.mono fun _ h => h.2

end SharedReader

end Rounac

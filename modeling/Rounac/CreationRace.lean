import Rounac.Lib.CountedPool
import Rounac.Networks.Race

/-!
# Concurrent creations on a bus topic

The registry entry of a topic is exact (`Consistent`) while every task that holds a ringmaster holds
the entry's. Two schedules break that: a call that found no ringmaster inserts its own over an entry
made meanwhile, and the last counted reader removes the entry between a call's finding the
ringmaster and its counting itself. In the runs without them no call panics and no reader is
detached (`concurrent_creation_safe`).
-/

namespace Rounac

open StepSystem WrapCounter TaskPool CountedPool

namespace Race

variable {Val : Type} {b : Broker} {T : TypeId} {topic : String}

/-- No call or drop panics. When nothing is in progress, every live reader's ringmaster is the
registered one, and the entry counts the live network handles. -/
structure Safe (topic : String) (s : Race Val) : Prop where
  noPanic : ∀ t ∈ s.tasks, t.phase ≠ .panicked
  registered : s.Quiet → ∀ t ∈ s.tasks, ∀ r, t.phase = .live r →
    ∃ e, s.asb.readers.lookup topic = some e ∧ r.ringmaster = e.ringmaster
  exact : s.Quiet → ∀ e, s.asb.readers.lookup topic = some e →
    e.count.toNat = s.tasks.countP fun t => t.phase.isLive

/-- A call that puts a ringmaster into the registry finds no entry there. -/
def InsertsAlone (topic : String) (s : Race Val) : RaceStep → Prop
  | .advance i _ _ =>
      ∀ t ∈ s.tasks[i]?, t.phase.isInserting → s.asb.readers.lookup topic = none
  | _ => True

/-- When the last counted reader is removed, no call is between its lookup and its count. -/
def RemovesAlone (topic : String) (s : Race Val) : RaceStep → Prop
  | .advance i _ _ =>
      ∀ t ∈ s.tasks[i]?, t.phase.isDeleting → ∀ e ∈ s.asb.readers.lookup topic, e.count = 1 →
        ∀ u ∈ s.tasks, ¬ u.phase.isCounting
  | _ => True

/-- Fewer than 65536 readers, so that the 16-bit count does not wrap. -/
def Few (s : Race Val) : Prop := (s.tasks.countP fun t => t.phase.isCounted) < 2 ^ 16

instance (topic : String) (s : Race Val) : ∀ l, Decidable (s.InsertsAlone topic l)
  | .advance _ _ _ | .call _ _ _ | .drop _ => by unfold InsertsAlone; infer_instance

instance (topic : String) (s : Race Val) : ∀ l, Decidable (s.RemovesAlone topic l)
  | .advance _ _ _ | .call _ _ _ | .drop _ => by unfold RemovesAlone; infer_instance

instance (s : Race Val) : Decidable s.Few := inferInstanceAs (Decidable (_ < _))

/-- Every ringmaster in a task's hands is the registered one, which has type `T` and counts its
readers. -/
structure Consistent (T : TypeId) (topic : String) (s : Race Val) : Prop where
  noPanic : ∀ t ∈ s.tasks, t.phase ≠ .panicked
  vacant : s.asb.readers.lookup topic = none → ∀ t ∈ s.tasks, t.phase.ringmaster = none
  held : ∀ {e}, s.asb.readers.lookup topic = some e →
    ∀ t ∈ s.tasks, ∀ m ∈ t.phase.ringmaster, m = e.ringmaster
  typed : ∀ {e}, s.asb.readers.lookup topic = some e → (s.asb.masters e.ringmaster).ty = T
  counts : ∀ {e}, s.asb.readers.lookup topic = some e →
    e.count = counted 16 (s.tasks.countP fun t => t.phase.isCounted)

/-! ## The registry stays exact -/

theorem not_isCounted {p : Phase} (h : p.ringmaster = none) : p.isCounted = false := by
  cases p <;> simp_all [Phase.ringmaster, Phase.isCounted]

/-- A task that holds a ringmaster has yet to be counted, or is counted. -/
theorem ringmaster_eq_none {p : Phase} (hcounted : p.isCounted = false)
    (hcounting : ¬ p.isCounting) :
    p.ringmaster = none := by
  cases p <;> simp_all [Phase.isCounted, Phase.isCounting, Phase.ringmaster]

theorem Consistent.of_vacant {s : Race Val} (hnone : s.asb.readers.lookup topic = none)
    (hpanic : ∀ t ∈ s.tasks, t.phase ≠ .panicked)
    (hfree : ∀ t ∈ s.tasks, t.phase.ringmaster = none) : s.Consistent T topic where
  noPanic := hpanic
  vacant := fun _ => hfree
  held := fun he => absurd (hnone.symm.trans he) (by simp)
  typed := fun he => absurd (hnone.symm.trans he) (by simp)
  counts := fun he => absurd (hnone.symm.trans he) (by simp)

theorem Consistent.of_entry {s : Race Val} {e : Entry} (he : s.asb.readers.lookup topic = some e)
    (hpanic : ∀ t ∈ s.tasks, t.phase ≠ .panicked)
    (hheld : ∀ t ∈ s.tasks, ∀ m ∈ t.phase.ringmaster, m = e.ringmaster)
    (hty : (s.asb.masters e.ringmaster).ty = T)
    (hcount : e.count = counted 16 (s.tasks.countP fun t => t.phase.isCounted)) :
    s.Consistent T topic where
  noPanic := hpanic
  vacant := fun hnone => absurd (hnone.symm.trans he) (by simp)
  held := fun he' => by cases he.symm.trans he'; exact hheld
  typed := fun he' => by cases he.symm.trans he'; exact hty
  counts := fun he' => by cases he.symm.trans he'; exact hcount

/-- The last reader goes: whoever held the ringmaster is counted, and so is this reader, which was
the only one. -/
theorem ringmaster_of_last {s : Race Val} {i : ℕ} {t : Task} (ht : s.tasks[i]? = some t)
    (hcounted : t.phase.isCounted = true)
    (h1 : (s.tasks.countP fun t => t.phase.isCounted) ≤ 1)
    (hnocall : ∀ u ∈ s.tasks, ¬ u.phase.isCounting) {t' : Task} (ht' : t'.phase.ringmaster = none) :
    ∀ u ∈ s.tasks.set i t', u.phase.ringmaster = none := by
  obtain ⟨rest, hperm, hperm'⟩ := exists_rest ht t'
  intro u hu
  rcases List.mem_cons.1 (hperm'.mem_iff.1 hu) with rfl | hrest
  · exact ht'
  · refine ringmaster_eq_none ?_ (hnocall u (hperm.mem_iff.2 (List.mem_cons_of_mem _ hrest)))
    exact forall_rest_of_countP_le_one (p := fun t : Task => t.phase.isCounted) hperm hcounted h1 u
      hrest

theorem Consistent.turn {s : Race Val} {i : ℕ} {t : Task} {next : Phase × NetAsb Val}
    (h : s.Consistent T topic) (hfew : s.Few) (ht : s.tasks[i]? = some t)
    (hins : t.phase.isInserting → s.asb.readers.lookup topic = none)
    (hrem : t.phase.isDeleting → ∀ e ∈ s.asb.readers.lookup topic, e.count = 1 →
      ∀ u ∈ s.tasks, ¬ u.phase.isCounting)
    (hturn : Turn T topic (t.phase, s.asb) next) :
    Consistent T topic ⟨next.2, s.tasks.set i { t with phase := next.1 }⟩ := by
  have hmem : t ∈ s.tasks := mem_of_getElem? ht
  generalize hcur : (t.phase, s.asb) = cur at hturn
  cases hturn with
  | kept hm hcounted hne hentry hty =>
    obtain ⟨rfl, rfl⟩ := Prod.mk.inj hcur
    cases he : s.asb.readers.lookup topic with
    | none =>
      have hfree := h.vacant he
      refine .of_vacant (hentry.trans he) (forall_mem_set h.noPanic hne) ?_
      exact forall_mem_set hfree (hm.trans (hfree t hmem))
    | some e =>
      refine .of_entry (hentry.trans he) (forall_mem_set h.noPanic hne) ?_
        ((hty _).trans (h.typed he)) ?_
      · exact forall_mem_set (h.held he) fun m hm' => h.held he t hmem m (hm ▸ hm')
      · exact Counts.keep (h.counts he) ht hcounted
  | found he =>
    obtain ⟨hp, rfl⟩ := Prod.mk.inj hcur
    refine .of_entry he (forall_mem_set h.noPanic (by simp)) ?_ (h.typed he) ?_
    · exact forall_mem_set (h.held he) fun m hm => (Option.some.inj hm).symm
    · exact Counts.keep (h.counts he) ht (by rw [hp]; rfl)
  | mistyped he hty =>
    obtain ⟨hp, rfl⟩ := Prod.mk.inj hcur
    exact absurd (h.typed he) hty
  | inserted he hty =>
    obtain ⟨hp, rfl⟩ := Prod.mk.inj hcur
    have hfree := h.vacant (hins (by rw [hp]; rfl))
    refine .of_entry he (forall_mem_set h.noPanic (by simp)) ?_ hty ?_
    · refine forall_mem_set (fun u hu m' hm' => ?_) fun m' hm' => (Option.some.inj hm').symm
      rw [hfree u hu] at hm'
      cases hm'
    · -- Nobody is counted yet, as nobody else holds a ringmaster.
      have h0 : s.tasks.countP (fun t => t.phase.isCounted) = 0 :=
        List.countP_eq_zero.2 fun u hu => by simp [not_isCounted (hfree u hu)]
      rw [countP_set_of_eq _ ht (by rw [hp]; rfl), h0]
      rfl
  | @counted asb asb' m e he he' hty =>
    obtain ⟨hp, rfl⟩ := Prod.mk.inj hcur
    have hheld := h.held he
    have htyped := h.typed he
    have hm : m = e.ringmaster := hheld t hmem m (by rw [hp]; rfl)
    refine .of_entry he' (forall_mem_set h.noPanic (by simp)) ?_ ((hty _).trans htyped) ?_
    · exact forall_mem_set hheld fun m' hm' => (Option.some.inj hm').symm.trans hm
    · exact Counts.enter (h.counts he) ht (by rw [hp]; rfl) rfl
  | unlisted he =>
    obtain ⟨hp, rfl⟩ := Prod.mk.inj hcur
    have := h.vacant he t hmem
    rw [hp] at this
    cases this
  | @removed asb asb' r e he hone he' =>
    obtain ⟨hp, rfl⟩ := Prod.mk.inj hcur
    have h1 : s.tasks.countP (fun t => t.phase.isCounted) = 1 := by
      rw [h.counts he] at hone
      exact (counted_eq_one_iff_of_lt (by omega) hfew).1 hone
    have hnocall := hrem (by rw [hp]; rfl) e he hone
    refine .of_vacant he' (forall_mem_set h.noPanic (by simp)) ?_
    exact ringmaster_of_last ht (by rw [hp]; rfl) h1.le hnocall rfl
  | @dropped asb asb' r e he he' hty =>
    obtain ⟨hp, rfl⟩ := Prod.mk.inj hcur
    have hheld := h.held he
    have htyped := h.typed he
    refine .of_entry he' (forall_mem_set h.noPanic (by simp)) ?_ ((hty _).trans htyped) ?_
    · exact forall_mem_set hheld fun m' hm' => absurd hm' (by simp [Phase.ringmaster])
    · exact Counts.leave (h.counts he) ht (by rw [hp]; rfl) rfl
  | orphaned he =>
    obtain ⟨hp, rfl⟩ := Prod.mk.inj hcur
    have := h.vacant he t hmem
    rw [hp] at this
    cases this

theorem Consistent.call {s : Race Val} (h : s.Consistent T topic) (counter : String)
    (wireFormat : WireFormat) (qos : QosSettings) :
    Consistent T topic { s with tasks := s.tasks ++ [⟨counter, wireFormat, qos, .lookup⟩] } where
  noPanic := by
    intro t ht
    rcases List.mem_append.1 ht with ht | ht
    · exact h.noPanic t ht
    · cases List.mem_singleton.1 ht
      simp
  vacant := by
    intro hnone t ht
    rcases List.mem_append.1 ht with ht | ht
    · exact h.vacant hnone t ht
    · cases List.mem_singleton.1 ht
      rfl
  held := by
    intro e he t ht m hm
    rcases List.mem_append.1 ht with ht | ht
    · exact h.held he t ht m hm
    · cases List.mem_singleton.1 ht
      cases hm
  typed := h.typed
  counts := by
    intro e he
    exact Counts.append (h.counts he) rfl

theorem Consistent.step {s s' : Race Val} {l : RaceStep} (h : s.Consistent T topic) (hfew : s.Few)
    (hins : s.InsertsAlone topic l) (hrem : s.RemovesAlone topic l)
    (hs : s.step b T topic l = some s') : s'.Consistent T topic := by
  rcases step_cases hs with
    ⟨counter, wireFormat, qos, rfl, rfl⟩ |
      ⟨i, t, next, ht, hturn, ⟨reply, id, rfl⟩ | ⟨rfl, hlive⟩, rfl⟩
  · exact h.call counter wireFormat qos
  · exact h.turn hfew ht (hins t ht) (hrem t ht) hturn
  · -- A live reader neither inserts nor removes an entry when its drop begins.
    refine h.turn hfew ht ?_ ?_ hturn
    · cases hp : t.phase <;> simp_all [Phase.isLive, Phase.isInserting]
    · cases hp : t.phase <;> simp_all [Phase.isLive, Phase.isDeleting]

theorem consistent_start {asb : NetAsb Val} (hfree : asb.readers.lookup topic = none) :
    Consistent T topic ⟨asb, []⟩ := .of_vacant hfree (by simp) (by simp)

theorem countP_isLive_of_quiet {s : Race Val} (hq : s.Quiet) :
    (s.tasks.countP fun t => t.phase.isCounted) = s.tasks.countP fun t => t.phase.isLive := by
  apply List.countP_congr
  intro t ht
  have hover := hq t ht
  cases hp : t.phase <;> simp_all [Phase.isOver, Phase.isCounted, Phase.isLive]

theorem Consistent.safe {s : Race Val} (h : s.Consistent T topic) (hfew : s.Few) :
    s.Safe topic where
  noPanic := h.noPanic
  registered := by
    intro _ t ht r hr
    cases he : s.asb.readers.lookup topic with
    | none =>
      have := h.vacant he t ht
      rw [hr] at this
      cases this
    | some e => exact ⟨e, rfl, h.held he t ht r.ringmaster (by rw [hr]; rfl)⟩
  exact := by
    intro hq e he
    rw [h.counts he, toNat_counted_of_lt hfew, countP_isLive_of_quiet hq]

/-- **Concurrent creations are safe** in the runs in which no call inserts its ringmaster over an
entry, no entry is removed between a call's lookup and its count, and the count does not wrap. -/
theorem concurrent_creation_safe (b : Broker) (T : TypeId) (topic : String) {asb : NetAsb Val}
    (hfree : asb.readers.lookup topic = none) (ls : List RaceStep)
    (hins : EachStep (step b T topic) (InsertsAlone topic) ⟨asb, []⟩ ls)
    (hrem : EachStep (step b T topic) (RemovesAlone topic) ⟨asb, []⟩ ls)
    (hfew : Always (step b T topic) Few ⟨asb, []⟩ ls) :
    Always (step b T topic) (Safe topic) ⟨asb, []⟩ ls := by
  have hinv : Always (step b T topic) (Consistent T topic) ⟨asb, []⟩ ls :=
    Always.of_inv_bounded (fun s l s' h hfew hop hs _ => h.step hfew hop.1 hop.2 hs)
      (consistent_start hfree) hfew (hins.and hrem)
  exact (hinv.and hfew).mono fun s h => h.1.safe h.2

/-- Two calls that overlap after the first entry is made, and a drop. -/
theorem concurrent_creation_safe_overlap :
    Always (step .mqtt ⟨0⟩ "t") (Safe "t") (⟨.new, []⟩ : Race Unit)
      [.call "a" .xml .default, .call "b" .xml .default, .advance 0 .accepting 1,
        .advance 0 .accepting 1, .advance 0 .accepting 1, .advance 1 .accepting 2,
        .advance 0 .accepting 1, .advance 1 .accepting 2, .advance 0 .accepting 1,
        .advance 1 .accepting 2, .drop 0, .advance 0 .accepting 1] :=
  concurrent_creation_safe .mqtt ⟨0⟩ "t" rfl _ (by decide) (by decide) (by decide)

/-- Two first calls that overlap leave a live reader with a ringmaster that is not registered, and
a count of one; a drop between a call's lookup and its count makes the call panic. -/
theorem overlapping_creations_fail :
    (∃ s : Race Unit,
      run (step .mqtt ⟨0⟩ "t") ⟨.new, []⟩
        [.call "a" .xml .default, .call "b" .xml .default, .advance 0 .accepting 1,
          .advance 1 .accepting 2, .advance 0 .accepting 1, .advance 1 .accepting 2,
          .advance 0 .accepting 1, .advance 0 .accepting 1, .advance 0 .accepting 1,
          .advance 1 .accepting 2, .advance 1 .accepting 2, .advance 1 .accepting 2] = some s ∧
      s.Quiet ∧ (s.tasks.countP fun t => t.phase.isLive) = 2 ∧
      s.asb.readers.lookup "t" = some ⟨1, 1, "t"⟩ ∧
      s.tasks.map (fun t => t.phase.ringmaster) = [some 0, some 1]) ∧
    ∃ s : Race Unit,
      run (step (.amqp none) ⟨0⟩ "t") ⟨.new, []⟩
        [.call "a" .xml .default, .advance 0 .accepting 1, .advance 0 .accepting 1,
          .advance 0 .accepting 1, .advance 0 .accepting 1, .advance 0 .accepting 1,
          .advance 0 .accepting 1, .call "a" .xml .default, .advance 1 .accepting 2, .drop 0,
          .advance 0 .accepting 1, .advance 1 .accepting 2] = some s ∧
      s.tasks.map (fun t => t.phase) = [.cancelling (.amqp "t") ⟨0, 1, "tag"⟩, .panicked] :=
  ⟨⟨_, rfl, by decide, rfl, rfl, rfl⟩, _, rfl, rfl⟩

end Race

end Rounac

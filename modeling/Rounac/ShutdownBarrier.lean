import Rounac.ConcurrentFanOut

/-!
# Nothing is sent after a shutdown

`shutdown` takes the registry for itself, so it waits for the messages that are being sent, and
whatever is sent, is sent before it returns. It leaves the registry empty and blows the fuse at
which `handle_msg` turns back. Between looking at the fuse and taking the registry, though, a call
may be overtaken by the shutdown and by a first subscription that comes after it. That is the only
way in which a message is sent after a shutdown (`sent_after_shutdown`), and it happens
(`overtaking`).
-/

namespace Rounac

open StepSystem OverwriteRing LockOrder

variable {Val : Type} {qx : QuickXml Val}

namespace AsbTask

/-- A message that has found its ringmaster, and is not sent to all yet. -/
def isInside : AsbTask Val → Bool
  | found .. | admitted .. | decoded .. | sending .. => true
  | _ => false

/-- A message that has passed the fuse, and has not looked at the registry. -/
def isPassed : AsbTask Val → Bool
  | passed .. => true
  | _ => false

def isInsert : AsbTask Val → Bool
  | insert .. => true
  | _ => false

variable {now : Instant} {asb asb' : NetAsb Val} {t t' : AsbTask Val}

theorem outside_of_isCall (h : t.isCall = true) : t.isInside = false ∧ t.isPassed = false := by
  cases t <;> first | exact ⟨rfl, rfl⟩ | cases h

theorem mem_holds_of_isInside (h : t.isInside = true) : (.readers, .read) ∈ t.holds := by
  cases t with
  | found | admitted | decoded | sending => exact List.mem_cons_self
  | _ => cases h

theorem push_of_not_isInside (h : t.isInside = false) : t.push = none := by
  cases t with
  | sending => cases h
  | _ => rfl

theorem isInside_exec (h : t.exec qx now asb = some (asb', t')) (ht' : t'.isInside = true) :
    t.isInside = true ∨ t.isPassed = true ∧ asb.readers ≠ ∅ := by
  cases t with
  | found | admitted | decoded | sending => exact .inl rfl
  | passed topic data =>
    refine .inr ⟨rfl, fun hempty => ?_⟩
    simp only [exec, hempty] at h
    cases h
    cases ht'
  | handleMsg topic data =>
    cases h
    split_ifs at ht' <;> cases ht'
  | delReader topic =>
    simp only [exec] at h
    split at h
    · cases h; cases ht'
    · split_ifs at h <;> (cases h; cases ht')
  | clearing ms => cases ms <;> (cases h; cases ht')
  | delivered | dropped | returned => cases h
  | _ => cases h; cases ht'

theorem isPassed_exec (h : t.exec qx now asb = some (asb', t')) (ht' : t'.isPassed = true) :
    asb.shutdownFuse = false := by
  cases t with
  | handleMsg topic data =>
    cases h
    split_ifs at ht' with hfuse
    · cases ht'
    · exact Bool.not_eq_true _ ▸ hfuse
  | passed topic data | found m now' data | admitted m now' data =>
    simp only [exec] at h
    split at h <;> (cases h; cases ht')
  | sending m x sent rest => cases rest <;> (cases h; cases ht')
  | delReader topic =>
    simp only [exec] at h
    split at h
    · cases h; cases ht'
    · split_ifs at h <;> (cases h; cases ht')
  | clearing ms => cases ms <;> (cases h; cases ht')
  | delivered | dropped | returned => cases h
  | _ => cases h; cases ht'

/-- Only a first subscription makes an entry. -/
theorem readersAfter_empty (hempty : asb.readers = ∅) (ht : t.isInsert = false) :
    t.readersAfter asb = ∅ := by
  cases t with
  | addReader topic => simp only [readersAfter, hempty, AList.lookup_empty]
  | delReader topic => simp only [readersAfter, hempty, AList.lookup_empty]
  | removing topic e =>
    rw [readersAfter, hempty]
    rfl
  | clearing ms =>
    cases ms with
    | nil => rfl
    | cons m ms => exact hempty
  | insert topic m tag => cases ht
  | _ => exact hempty

end AsbTask

namespace Plane

variable {s s' : Plane Val}

/-- The ASB is shut down and nothing is inside. -/
structure ShutDown (s : Plane Val) : Prop where
  fuse : s.asb.shutdownFuse = true
  outside : ∀ t ∈ s.tasks, t.isInside = false

/-- A message is between the fuse and the registry. -/
def Overtaken (s : Plane Val) : Prop := ∃ t ∈ s.tasks, t.isPassed = true

def Inserts (s : Plane Val) : PlaneStep Val → Prop
  | .run i _ => ∃ t, s.tasks[i]? = some t ∧ t.isInsert = true
  | _ => False

/-- Nothing was sent since the state `s₀`, and nothing new is in any ring. -/
def QuietSince (s₀ s : Plane Val) : Prop :=
  s.pushes = s₀.pushes ∧ ∀ ρ, (s.asb.rings ρ).items <:+ (s₀.asb.rings ρ).items

/-- While nothing is inside, nothing is sent. -/
theorem ShutDown.quiet {a : PlaneStep Val} (hd : s.ShutDown) (h : s.step qx a = some s') :
    QuietSince s s' := by
  cases a with
  | call t =>
    obtain ⟨-, rfl⟩ := step_call h
    exact ⟨rfl, fun ρ => List.suffix_refl _⟩
  | recv ρ' =>
    cases h
    refine ⟨rfl, fun ρ => ?_⟩
    show (Function.update s.asb.rings ρ' (s.asb.rings ρ').advance ρ).items <:+ _
    rw [Function.update_apply]
    split_ifs with hρ
    · rw [hρ]
      exact List.tail_suffix _
    · exact List.suffix_refl _
  | run i now =>
    obtain ⟨t, t', hi, -, hexec, -, hpushes⟩ := step_run h
    have hout := hd.outside t (List.mem_of_getElem? hi)
    have hquiet := AsbTask.push_of_not_isInside hout
    refine ⟨?_, fun ρ => ?_⟩
    · rw [hpushes, record, hquiet]
      exact List.append_nil _
    · rw [(AsbTask.exec_effect hexec).rings]
      cases t with
      | sending => cases hout
      | addSender m id capacity =>
        simp only [AsbTask.ringAfter]
        split_ifs
        · exact List.nil_suffix
        · exact List.suffix_refl _
      | _ => exact List.suffix_refl _

theorem QuietSince.trans {s₀ : Plane Val} (h : QuietSince s₀ s) (h' : QuietSince s s') :
    QuietSince s₀ s' :=
  ⟨h'.1.trans h.1, fun ρ => (h'.2 ρ).trans (h.2 ρ)⟩

/-- A shut-down ASB stays so as long as no overtaken message can find an entry. -/
theorem ShutDown.step {a : PlaneStep Val} (hd : s.ShutDown) (h : s.step qx a = some s')
    (hsafe : s.Overtaken → s.asb.readers = ∅) : s'.ShutDown := by
  cases a with
  | call t =>
    obtain ⟨ht, rfl⟩ := step_call h
    refine ⟨hd.fuse, fun u hu => ?_⟩
    rcases List.mem_append.1 hu with hu | hu
    · exact hd.outside u hu
    · rw [List.mem_singleton.1 hu]
      exact (AsbTask.outside_of_isCall ht).1
  | recv ρ =>
    cases h
    exact ⟨hd.fuse, hd.outside⟩
  | run i now =>
    obtain ⟨t, t', hi, -, hexec, htasks, -⟩ := step_run h
    refine ⟨?_, ?_⟩
    · rw [(AsbTask.exec_effect hexec).fuse, hd.fuse, Bool.or_true]
    · rw [htasks]
      refine TaskPool.forall_mem_set hd.outside ?_
      rw [← Bool.not_eq_true]
      intro hinside
      rcases AsbTask.isInside_exec hexec hinside with ht | ⟨ht, hne⟩
      · rw [hd.outside t (List.mem_of_getElem? hi)] at ht
        cases ht
      · exact hne (hsafe ⟨t, List.mem_of_getElem? hi, ht⟩)

/-- No message is overtaken later than the shutdown. -/
theorem not_overtaken_step {a : PlaneStep Val} (hd : s.ShutDown) (ho : ¬ s.Overtaken)
    (h : s.step qx a = some s') : ¬ s'.Overtaken := by
  rintro ⟨u, hu, hpassed⟩
  cases a with
  | call t =>
    obtain ⟨ht, rfl⟩ := step_call h
    rcases List.mem_append.1 hu with hu | hu
    · exact ho ⟨u, hu, hpassed⟩
    · rw [List.mem_singleton.1 hu, (AsbTask.outside_of_isCall ht).2] at hpassed
      cases hpassed
  | recv ρ =>
    cases h
    exact ho ⟨u, hu, hpassed⟩
  | run i now =>
    obtain ⟨t, t', hi, -, hexec, htasks, -⟩ := step_run h
    rw [htasks] at hu
    rcases List.mem_or_eq_of_mem_set hu with hu | rfl
    · exact ho ⟨u, hu, hpassed⟩
    · have hwhole := AsbTask.isPassed_exec hexec hpassed
      rw [hd.fuse] at hwhole
      cases hwhole

theorem readers_step {a : PlaneStep Val} (hempty : s.asb.readers = ∅) (ha : ¬ s.Inserts a)
    (h : s.step qx a = some s') : s'.asb.readers = ∅ := by
  cases a with
  | call t =>
    obtain ⟨-, rfl⟩ := step_call h
    exact hempty
  | recv ρ =>
    cases h
    exact hempty
  | run i now =>
    obtain ⟨t, t', hi, -, hexec, -, -⟩ := step_run h
    rw [(AsbTask.exec_effect hexec).readers]
    refine AsbTask.readersAfter_empty hempty ?_
    rw [← Bool.not_eq_true]
    exact fun ht => ha ⟨t, hi, ht⟩

/-- The last step of `shutdown` leaves a shut-down ASB, since it has the registry for itself. -/
theorem shutDown_of_cleared {i : ℕ} {now : Instant}
    (he : (planeLocking Val).Exclusive s.tasks) (hi : s.tasks[i]? = some (.clearing []))
    (h : s.step qx (.run i now) = some s') : s'.ShutDown ∧ s'.asb.readers = ∅ := by
  obtain ⟨t, t', hi', -, hexec, htasks, -⟩ := step_run h
  cases hi.symm.trans hi'
  have heffect := AsbTask.exec_effect hexec
  have hdone : t' = .returned := congrArg Prod.snd (Option.some.inj hexec).symm
  refine ⟨⟨heffect.fuse, fun u hu => ?_⟩, heffect.readers⟩
  rw [htasks, hdone] at hu
  obtain ⟨j, hj⟩ := List.mem_iff_getElem?.1 hu
  by_cases hij : i = j
  · subst hij
    rw [List.getElem?_set_self (List.getElem?_eq_some_iff.1 hi).1] at hj
    cases hj
    rfl
  · rw [List.getElem?_set_ne hij] at hj
    rw [← Bool.not_eq_true]
    intro hinside
    exact hij (he.eq_of_write hi hj List.mem_cons_self (AsbTask.mem_holds_of_isInside hinside))

/-- **Nothing is sent after a shutdown**, unless a message that had passed the fuse before finds an
entry made afterwards. -/
theorem sent_after_shutdown (kinds : MasterId → TypeId × WireFormat × QosSettings)
    (before after : List (PlaneStep Val)) {s s₁ : Plane Val} {i : ℕ} {now : Instant}
    (hs : run (step qx) (new kinds) before = some s) (hi : s.tasks[i]? = some (.clearing []))
    (h₁ : s.step qx (.run i now) = some s₁)
    (hsafe : ¬ s₁.Overtaken ∨ EachStep (step qx) (fun u a => ¬ u.Inserts a) s₁ after) :
    Always (step qx) (QuietSince s₁) s₁ after := by
  have hexclusive : (planeLocking Val).Exclusive s.tasks := by
    have hall :
        Always (step qx) (fun s => (planeLocking Val).Exclusive s.tasks) (new kinds) before :=
      .of_step (fun _ _ _ he h => exclusive_step he h) before (exclusive_new kinds)
    exact hall.last hs
  obtain ⟨hd, hempty⟩ := shutDown_of_cleared hexclusive hi h₁
  have hstart : QuietSince s₁ s₁ := ⟨rfl, fun ρ => List.suffix_refl _⟩
  rcases hsafe with hnone | hnew
  · have hinv : Always (step qx) (fun u => u.ShutDown ∧ ¬ u.Overtaken ∧ QuietSince s₁ u) s₁ after :=
      .of_step (fun u a u' hu h => ⟨hu.1.step h fun ho => absurd ho hu.2.1,
        not_overtaken_step hu.1 hu.2.1 h, hu.2.2.trans (hu.1.quiet h)⟩) after ⟨hd, hnone, hstart⟩
    exact hinv.mono fun u hu => hu.2.2
  · have hinv : Always (step qx)
        (fun u => u.ShutDown ∧ u.asb.readers = ∅ ∧ QuietSince s₁ u) s₁ after :=
      .of_inv (fun u a u' hu ha h => ⟨hu.1.step h fun _ => hu.2.1, readers_step hu.2.1 ha h,
        hu.2.2.trans (hu.1.quiet h)⟩) ⟨hd, hempty, hstart⟩ hnew
    exact hinv.mono fun u hu => hu.2.2

/-- A message that comes after the shutdown is not sent, although there is an entry again. -/
theorem sent_after_shutdown_late : ∃ s₁ : Plane Unit, s₁.asb.shutdownFuse = true ∧
    Always (step .unit) (QuietSince s₁) s₁ [.call (.insert "t" 1 "t"), .run 1 0,
      .call (.handleMsg "t" "<msg/>".toUTF8), .run 2 0, .call (.addSender 1 7 4), .run 3 0] := by
  refine ⟨_, rfl, @sent_after_shutdown Unit .unit (fun _ => (⟨0⟩, .xml, .default))
    [.call .shutdown, .run 0 0] _ _ _ 0 0 rfl rfl rfl (.inl ?_)⟩
  intro ho
  obtain ⟨t, ht, hpassed⟩ := ho
  cases List.mem_singleton.1 ht
  cases hpassed

/-- A message looks at the fuse, the ASB is shut down, a first subscription comes, and the message
is sent. -/
def overtaking : List (PlaneStep Unit) :=
  [.call (.insert "t" 0 "t"), .run 0 0, .call (.handleMsg "t" "<msg/>".toUTF8), .run 1 0,
    .call .shutdown, .run 2 0, .run 2 0, .run 2 0,
    .call (.insert "t" 1 "t"), .run 3 0, .call (.addSender 1 7 4), .run 4 0,
    .run 1 5, .run 1 0, .run 1 0, .run 1 0, .run 1 0]

example : (run (step .unit) (new fun _ => (⟨0⟩, .xml, .default)) overtaking).map
    (fun s => (s.asb.shutdownFuse, s.pushes.map (·.ring))) = some (true, [0]) := by decide

end Plane

end Rounac

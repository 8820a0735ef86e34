import Rounac.Lib.TaskPool
import Rounac.Networks.StatusManager

/-!
# What status listeners are told

A call of `set_status` that stores a status tells it to every listener it finds under the lock, and
`add_listener` tells a new listener the status it reads under the lock. Between the two nothing is
missed, whatever the order of stores and lock acquisitions (`no_status_missed`).

Notifications are delivered in any order. When all have been delivered, every listener has been told
the current status (`Reported`), and it was told it last if the last store found no notification in
flight and no other call about to issue some (`Synced`); `status_delivered` puts the two together.
-/

namespace Rounac

open SwapRemove StepSystem TaskPool

namespace StatusManager

/-! ## Listeners are told apart by their functions -/

/-- The listeners are distinct, and were made before the next one. -/
structure Enrolled (s : StatusManager) : Prop where
  fns : (s.statusListeners.map StatusListener.fn).Nodup
  below : ∀ l ∈ s.statusListeners, l.fn < s.nextFn

theorem Move.enrolled {s s' : StatusManager} {a : StatusStep} (hm : s.Move a s') (h : s.Enrolled) :
    s'.Enrolled := by
  cases hm with
  | called | loaded | stored | notified | delivered => exact ⟨h.1, h.2⟩
  | removed =>
    exact ⟨nodup_removeFirst h.fns, fun l hl => h.below l (mem_of_mem_removeFirst hl)⟩
  | added =>
    refine ⟨nodup_append_singleton h.fns fun l hl => (h.below l hl).ne, fun l hl => ?_⟩
    rcases List.mem_append.1 hl with hl | hl
    · exact Nat.lt_succ_of_lt (h.below l hl)
    · cases List.mem_singleton.1 hl
      exact Nat.lt_succ_self _

theorem enrolled_new : new.Enrolled := ⟨List.nodup_nil, fun _ hl => nomatch hl⟩

/-! ## Who issued what -/

/-- The statuses that the `i`-th call of `set_status` issued to a listener. -/
def issuedBy (s : StatusManager) (i : ℕ) (fn : StatusFn) : List AsbConnStatus :=
  (s.issued.filter fun x => x.issuer == .call i && x.fn == fn).map Issue.status

/-- A call that has issued notifications has returned. -/
def Attributed (s : StatusManager) : Prop :=
  ∀ x ∈ s.issued, ∀ i, x.issuer = .call i → s.calls[i]? = some .returned

/-- Calls stay in their places, and a call that has returned does nothing more. -/
theorem Move.calls_of_ne {s s' : StatusManager} {a : StatusStep} (hm : s.Move a s') {i : ℕ}
    {c : SetStatusCall} (hi : s.calls[i]? = some c) (ha : a ≠ .advance i ∨ c = .returned) :
    s'.calls[i]? = some c := by
  have hset : ∀ {j c' c''}, s.calls[j]? = some c' → c' ≠ .returned → a = .advance j →
      (s.calls.set j c'')[i]? = some c := by
    rintro j c' c'' hj hc' rfl
    have hne : j ≠ i := by
      rintro rfl
      rcases ha with ha | rfl
      · exact ha rfl
      · exact hc' (Option.some.inj (hj.symm.trans hi))
    exact (List.getElem?_set_ne hne).trans hi
  cases hm with
  | called => exact (List.getElem?_append_left (List.getElem?_eq_some_iff.1 hi).1).trans hi
  | loaded hj | stored hj | notified hj => exact hset hj (by simp) rfl
  | added | removed | delivered => exact hi

theorem Move.attributed {s s' : StatusManager} {a : StatusStep} (hm : s.Move a s')
    (h : s.Attributed) : s'.Attributed := by
  intro x hx i hissuer
  have hold : x ∈ s.issued → s'.calls[i]? = some .returned := fun hx =>
    hm.calls_of_ne (h x hx i hissuer) (.inr rfl)
  cases hm with
  | called | loaded | stored | removed | delivered => exact hold hx
  | added =>
    rcases List.mem_append.1 hx with hx | hx
    · exact hold hx
    · cases List.mem_singleton.1 hx
      cases hissuer
  | @notified j new hj =>
    rcases List.mem_append.1 hx with hx | hx
    · exact hold hx
    · obtain ⟨fn, -, rfl⟩ := List.mem_map.1 hx
      cases hissuer
      exact List.getElem?_set_self (List.getElem?_eq_some_iff.1 hj).1

theorem Move.issuedBy_eq {s s' : StatusManager} {a : StatusStep} (hm : s.Move a s') {i : ℕ}
    (hi : s.calls[i]? = some .returned) (fn : StatusFn) : s'.issuedBy i fn = s.issuedBy i fn := by
  have hmore : ∀ xs : List Issue, (∀ x ∈ xs, x.issuer ≠ .call i) →
      ((s.issued ++ xs).filter fun x => x.issuer == .call i && x.fn == fn).map Issue.status =
        s.issuedBy i fn := by
    intro xs hxs
    have hnil : (xs.filter fun x => x.issuer == .call i && x.fn == fn) = [] :=
      List.filter_eq_nil_iff.2 fun x hx => by simp [hxs x hx]
    rw [List.filter_append, hnil, List.append_nil]
    rfl
  cases hm with
  | called | loaded | stored | removed | delivered => rfl
  | added => exact hmore _ (by simp)
  | @notified j new hj =>
    refine hmore _ fun x hx => ?_
    obtain ⟨fn, -, rfl⟩ := List.mem_map.1 hx
    rintro ⟨⟩
    cases hi.symm.trans hj

/-- The snapshot issues the status once to each listener. -/
theorem issuedBy_callStatusListeners {s : StatusManager} (h : s.Enrolled) (hatt : s.Attributed)
    {i : ℕ} {status : AsbConnStatus} (hi : s.calls[i]? ≠ some .returned) {l : StatusListener}
    (hl : l ∈ s.statusListeners) : (s.callStatusListeners i status).issuedBy i l.fn = [status] := by
  have hnone : (s.issued.filter fun x => x.issuer == .call i && x.fn == l.fn) = [] := by
    refine List.filter_eq_nil_iff.2 fun x hx heq => hi (hatt x hx i ?_)
    simp only [Bool.and_eq_true, beq_iff_eq] at heq
    exact heq.1
  have hone : (s.statusListeners.map StatusListener.fn).filter (· == l.fn) = [l.fn] := by
    rw [List.filter_beq, List.count_eq_one_of_mem h.fns (List.mem_map_of_mem hl)]
    rfl
  show ((s.issued ++ (s.statusListeners.map StatusListener.fn).map
    fun fn => (⟨.call i, fn, status⟩ : Issue)).filter _).map Issue.status = [status]
  rw [List.filter_append, hnone, List.nil_append, List.filter_map]
  have hfilter : ((fun x : Issue => x.issuer == .call i && x.fn == l.fn) ∘
      fun fn => ⟨.call i, fn, status⟩) = fun fn => fn == l.fn := by
    funext fn
    simp
  rw [hfilter, hone]
  rfl

/-- Every notification issued was delivered or is in flight, once. -/
def Carried (s : StatusManager) : Prop :=
  (s.issued.map fun x => (x.fn, x.status)).Perm (s.delivered ++ s.inFlight)

theorem Carried.issue {s : StatusManager} (h : s.Carried) (issuer : Issuer) (fns : List StatusFn)
    (status : AsbConnStatus) : (s.issue issuer fns status).Carried := by
  have hissued : ((s.issue issuer fns status).issued.map fun x => (x.fn, x.status)) =
      (s.issued.map fun x => (x.fn, x.status)) ++ fns.map fun fn => (fn, status) := by
    simp [StatusManager.issue]
  unfold Carried
  rw [hissued]
  show List.Perm _ (s.delivered ++ (s.inFlight ++ _))
  rw [← List.append_assoc]
  exact h.append_right _

theorem Move.carried {s s' : StatusManager} {a : StatusStep} (hm : s.Move a s') (h : s.Carried) :
    s'.Carried := by
  cases hm with
  | called | loaded | stored | removed => exact h
  | notified => exact h.issue _ _ _
  | added => exact Carried.issue (s := { s with statusListeners := _, nextFn := _ }) h _ _ _
  | @delivered k x hk =>
    -- The notification is no longer in flight, but delivered.
    refine h.trans ?_
    show List.Perm _ (s.delivered ++ [x] ++ s.inFlight.eraseIdx k)
    rw [List.append_assoc]
    exact (perm_eraseIdx hk).append_left _

/-! ## No status is missed -/

/-- What a run does not do to a call and to the issues. -/
structure Sorted (s : StatusManager) : Prop where
  enrolled : s.Enrolled
  attributed : s.Attributed
  carried : s.Carried

theorem Sorted.step {s s' : StatusManager} {a : StatusStep} (h : s.Sorted)
    (hs : s.step a = some s') : s'.Sorted :=
  ⟨(step_move hs).enrolled h.enrolled, (step_move hs).attributed h.attributed,
    (step_move hs).carried h.carried⟩

theorem sorted_new : new.Sorted where
  enrolled := enrolled_new
  attributed _ hx := nomatch hx
  carried := List.Perm.nil

def KeepsListener (l : StatusListener) (s : StatusManager) : StatusStep → Prop
  | .removeListener id => l ∈ (s.removeListener id).2.statusListeners
  | _ => True

theorem Move.mem_statusListeners {s s' : StatusManager} {a : StatusStep} {l : StatusListener}
    (hm : s.Move a s') (hkeep : s.KeepsListener l a) (hl : l ∈ s.statusListeners) :
    l ∈ s'.statusListeners := by
  cases hm with
  | called | loaded | stored | notified | delivered => exact hl
  | added => exact List.mem_append_left _ hl
  | removed => exact hkeep

/-- Since a point of a run, statuses were stored, and the status is the last of these. -/
def StoredSince (past : List AsbConnStatus) (first : AsbConnStatus) (s : StatusManager) : Prop :=
  ∃ more, s.stored = past ++ more ∧ (first :: more).getLast? = some s.status

theorem Move.storedSince {s s' : StatusManager} {a : StatusStep} {past : List AsbConnStatus}
    {first : AsbConnStatus} (hm : s.Move a s') (h : s.StoredSince past first) :
    s'.StoredSince past first := by
  cases hm with
  | called | loaded | notified | added | removed | delivered => exact h
  | @stored i new hi =>
    obtain ⟨more, hmore, -⟩ := h
    refine ⟨more ++ [new], ?_, ?_⟩
    · show s.stored ++ [new] = _
      rw [hmore, List.append_assoc]
    · show ((first :: more) ++ [new]).getLast? = some new
      exact List.getLast?_concat

/-- **No status change is missed.** In any run, let the `i`-th call of `set_status` store a status,
and later take its snapshot. It issues the status once to every listener registered before the store
and not removed before the snapshot, and nothing else to it. A listener registered after the
snapshot is issued the status, or one stored after it, at its registration. What was issued was
delivered or is in flight. -/
theorem no_status_missed (before mid : List StatusStep) (s s₁ s₂ s₃ : StatusManager) (i : ℕ)
    (status : AsbConnStatus) (hbefore : run step new before = some s)
    (hi : s.calls[i]? = some (.storing status)) (hstore : s.step (.advance i) = some s₁)
    (hmid : run step s₁ mid = some s₂) (hothers : ∀ a ∈ mid, a ≠ .advance i)
    (hsnapshot : s₂.step (.advance i) = some s₃) :
    (∀ l ∈ s.statusListeners, EachStep step (KeepsListener l) s₁ mid →
      ∀ since, Always step (fun u => u.issuedBy i l.fn = [status]) s₃ since) ∧
    (∀ since, Always step Carried s₃ since) ∧
    ∀ later s₄ id s₅, run step s₃ later = some s₄ → s₄.step (.addListener id) = some s₅ →
      ∃ more, s₄.stored = s₁.stored ++ more ∧ s₄.status ∈ status :: more ∧
        s₅.issued = s₄.issued ++ [⟨.registration, s₄.nextFn, s₄.status⟩] ∧
        s₅.statusListeners = s₄.statusListeners ++ [⟨id, s₄.nextFn⟩] := by
  have hsorted : s.Sorted :=
    (Always.of_step (fun _ _ _ h hs => h.step hs) before sorted_new).last hbefore
  have hlt := (List.getElem?_eq_some_iff.1 hi).1
  have hs₁ : s₁ = { s.store status with calls := s.calls.set i (.notifying status) } := by
    simp only [step, hi, Option.bind_some, advance, Option.map_some] at hstore
    exact (Option.some.inj hstore).symm
  have hcall : s₁.calls[i]? = some (.notifying status) := by
    rw [hs₁]
    exact List.getElem?_set_self hlt
  have hmidInv : Always step (fun u => u.Sorted ∧ u.calls[i]? = some (.notifying status) ∧
      u.StoredSince s₁.stored status) s₁ mid := by
    refine Always.of_inv (G := fun _ a => a ≠ .advance i) (fun u a u' h ha hs => ?_)
      ⟨hsorted.step hstore, hcall, [], ?_, ?_⟩ (.of_mem hothers s₁)
    · exact ⟨h.1.step hs, (step_move hs).calls_of_ne h.2.1 (.inl ha),
        (step_move hs).storedSince h.2.2⟩
    · simp
    · rw [hs₁]
      rfl
  obtain ⟨hsorted₂, hcall₂, hsince₂⟩ := hmidInv.last hmid
  have hlt₂ := (List.getElem?_eq_some_iff.1 hcall₂).1
  have hs₃ : s₃ = { s₂.callStatusListeners i status with calls := s₂.calls.set i .returned } := by
    simp only [step, hcall₂, Option.bind_some, advance, Option.map_some] at hsnapshot
    exact (Option.some.inj hsnapshot).symm
  refine ⟨fun l hl hkeep since => ?_, fun since => ?_, fun later s₄ id s₅ hlater hadd => ?_⟩
  · -- The listener is still there at the snapshot.
    have hl₁ : l ∈ s₁.statusListeners := by
      rw [hs₁]
      exact hl
    have hl₂ : l ∈ s₂.statusListeners :=
      (Always.of_inv (fun _ _ _ h hk hs => (step_move hs).mem_statusListeners hk h) hl₁ hkeep).last
        hmid
    have hstart : s₃.calls[i]? = some .returned ∧ s₃.issuedBy i l.fn = [status] := by
      rw [hs₃]
      refine ⟨List.getElem?_set_self hlt₂, ?_⟩
      exact issuedBy_callStatusListeners hsorted₂.enrolled hsorted₂.attributed
        (by rw [hcall₂]; simp) hl₂
    have hinv : Always step (fun u => u.calls[i]? = some .returned ∧ u.issuedBy i l.fn = [status])
        s₃ since :=
      .of_step (fun u a u' h hs => ⟨(step_move hs).calls_of_ne h.1 (.inr rfl),
        ((step_move hs).issuedBy_eq h.1 l.fn).trans h.2⟩) since hstart
    exact hinv.mono fun _ h => h.2
  · exact .of_step (fun u a u' h hs => (step_move hs).carried h) since
      (hsorted₂.step hsnapshot).carried
  · have hsince₃ : s₃.StoredSince s₁.stored status := (step_move hsnapshot).storedSince hsince₂
    obtain ⟨more, hmore, hlast⟩ :=
      (Always.of_step (fun _ _ _ h hs => (step_move hs).storedSince h) later hsince₃).last hlater
    cases hadd
    exact ⟨more, hmore, List.mem_of_getLast? hlast, rfl, rfl⟩

/-- A second listener is added, and another status stored, between the store of `Failed` and its
snapshot; a third listener comes after it. -/
theorem no_status_missed_between :
    ∃ s₁ s₂ s₃ s₅ : StatusManager,
      run step new [.addListener 7, .setStatus .failed, .advance 0, .advance 0] = some s₁ ∧
      run step s₁ [.addListener 8, .setStatus .degraded, .advance 1, .advance 1] = some s₂ ∧
      s₂.step (.advance 0) = some s₃ ∧
      (∀ since, Always step (fun u => u.issuedBy 0 0 = [.failed]) s₃ since) ∧
      (∀ since, Always step Carried s₃ since) ∧
      s₃.step (.addListener 9) = some s₅ ∧
      ∃ more, s₃.stored = s₁.stored ++ more ∧ s₃.status ∈ .failed :: more ∧
        s₅.issued = s₃.issued ++ [⟨.registration, 2, .degraded⟩] := by
  obtain ⟨hissued, hcarried, hlate⟩ :=
    no_status_missed [.addListener 7, .setStatus .failed, .advance 0]
    [.addListener 8, .setStatus .degraded, .advance 1, .advance 1] _ _ _ _ 0 .failed rfl rfl rfl rfl
    (by decide) rfl
  refine ⟨_, _, _, _, rfl, rfl, rfl, hissued ⟨7, 0⟩ List.mem_cons_self ?_, hcarried, rfl, ?_⟩
  · exact fun _ _ => ⟨trivial, fun _ _ => ⟨trivial, fun _ _ => ⟨trivial, fun _ _ =>
      ⟨trivial, trivial⟩⟩⟩⟩
  · obtain ⟨more, hstored, hstatus, hlast, -⟩ := hlate [] _ 9 _ rfl rfl
    exact ⟨more, hstored, hstatus, hlast⟩

/-! ## What has been delivered -/

def deliveredTo (s : StatusManager) (fn : StatusFn) : List AsbConnStatus :=
  (s.delivered.filter fun x => x.1 == fn).map Prod.snd

/-- No call is in progress and no notification in flight. -/
def Quiet (s : StatusManager) : Prop := (∀ c ∈ s.calls, c = .returned) ∧ s.inFlight = []

/-- Every listener was told the current status, or will be. -/
def Reported (s : StatusManager) : Prop :=
  ∀ l ∈ s.statusListeners, (l.fn, s.status) ∈ s.delivered ∨ (l.fn, s.status) ∈ s.inFlight ∨
    .notifying s.status ∈ s.calls

theorem mem_calls_set {s : StatusManager} {i : ℕ} {c c' u : SetStatusCall}
    (hi : s.calls[i]? = some c) (hu : u ∈ s.calls) (hne : u ≠ c) : u ∈ s.calls.set i c' :=
  mem_set_of_ne hi hu hne c'

theorem mem_inFlight_callStatusListeners {s : StatusManager} {l : StatusListener} (i : ℕ)
    (status : AsbConnStatus) (hl : l ∈ s.statusListeners) :
    (l.fn, status) ∈ (s.callStatusListeners i status).inFlight :=
  List.mem_append_right _ (List.mem_map_of_mem (List.mem_map_of_mem hl))

theorem Move.reported {s s' : StatusManager} {a : StatusStep} (hm : s.Move a s')
    (h : s.Reported) : s'.Reported := by
  intro l hl
  cases hm with
  | called =>
    exact (h l hl).imp_right (Or.imp_right (List.mem_append_left _))
  | loaded hi hc =>
    exact (h l hl).imp_right (Or.imp_right fun hu => mem_calls_set hi hu (by simp))
  | stored hi => exact .inr (.inr (mem_set_self hi _))
  | @notified i new hi =>
    rcases h l hl with hdel | hfly | hcall
    · exact .inl hdel
    · exact .inr (.inl (List.mem_append_left _ hfly))
    · -- The call of an older status tells nothing of this one: another call is yet to tell.
      by_cases hnew : new = s.status
      · subst hnew
        exact .inr (.inl (mem_inFlight_callStatusListeners i s.status hl))
      · refine .inr (.inr (mem_calls_set hi hcall fun heq => hnew ?_))
        exact (SetStatusCall.notifying.inj heq).symm
  | added =>
    rcases List.mem_append.1 hl with hl | hl
    · exact (h l hl).imp_right (Or.imp_left (List.mem_append_left _))
    · cases List.mem_singleton.1 hl
      exact .inr (.inl (List.mem_append_right _ List.mem_cons_self))
  | removed => exact h l (mem_of_mem_removeFirst hl)
  | @delivered k x hk =>
    rcases h l hl with hdel | hfly | hcall
    · exact .inl (List.mem_append_left _ hdel)
    · rcases List.mem_cons.1 ((perm_eraseIdx hk).mem_iff.1 hfly) with rfl | hfly
      · exact .inl (List.mem_append_right _ List.mem_cons_self)
      · exact .inr (.inl hfly)
    · exact .inr (.inr hcall)

/-! ## What has been delivered last -/

def Stores (s : StatusManager) : StatusStep → Prop
  | .advance i => ∃ new, s.calls[i]? = some (.storing new)
  | _ => False

/-- No notification is in flight, and no call is about to issue any. -/
def Alone (s : StatusManager) : Prop := s.inFlight = [] ∧ ∀ new, .notifying new ∉ s.calls

/-- The last store of a run is made while no notification is in flight and no other call is between
its store and its snapshot. -/
def LastStoreAlone : StatusManager → List StatusStep → Prop
  | _, [] => True
  | s, a :: as => ∀ s', s.step a = some s' →
      (s.Stores a → EachStep step (fun u b => ¬ u.Stores b) s' as → s.Alone) ∧ LastStoreAlone s' as

theorem lastStoreAlone_cons_iff {s s' : StatusManager} {a : StatusStep} {as : List StatusStep}
    (h : s.step a = some s') : LastStoreAlone s (a :: as) ↔
      (s.Stores a → EachStep step (fun u b => ¬ u.Stores b) s' as → s.Alone) ∧
        LastStoreAlone s' as := by
  simp only [LastStoreAlone, h, Option.some.injEq, forall_eq']

/-- The current status is the only one on its way, and the last one that a listener was told, or it
is on its way to the listener. -/
structure Synced (s : StatusManager) : Prop where
  flying : ∀ x ∈ s.inFlight, x.2 = s.status
  calling : ∀ new, .notifying new ∈ s.calls → new = s.status
  last : ∀ l ∈ s.statusListeners, (s.deliveredTo l.fn).getLast? = some s.status ∨
    (l.fn, s.status) ∈ s.inFlight ∨ .notifying s.status ∈ s.calls

theorem synced_of_store {s : StatusManager} (h : s.Alone) {i : ℕ} {new : AsbConnStatus}
    (hi : s.calls[i]? = some (.storing new)) :
    Synced { s.store new with calls := s.calls.set i (.notifying new) } where
  flying x hx := by
    have hx' : x ∈ s.inFlight := hx
    rw [h.1] at hx'
    cases hx'
  calling new' hnew' := by
    rcases List.mem_or_eq_of_mem_set hnew' with hold | heq
    · exact absurd hold (h.2 new')
    · exact SetStatusCall.notifying.inj heq
  last _ _ := .inr (.inr (mem_set_self hi _))

theorem deliveredTo_append (s : StatusManager) (x : StatusFn × AsbConnStatus) (fn : StatusFn) :
    ((s.delivered ++ [x]).filter fun y => y.1 == fn).map Prod.snd =
      s.deliveredTo fn ++ if x.1 = fn then [x.2] else [] := by
  by_cases h : x.1 = fn <;> simp [deliveredTo, h]

theorem Move.synced {s s' : StatusManager} {a : StatusStep} (hm : s.Move a s')
    (hno : ¬ s.Stores a) (h : s.Synced) : s'.Synced := by
  cases hm with
  | stored hi => exact absurd ⟨_, hi⟩ hno
  | called =>
    refine ⟨h.flying, fun new hnew => ?_, fun l hl => ?_⟩
    · rcases List.mem_append.1 hnew with hnew | hnew
      · exact h.calling new hnew
      · cases List.mem_singleton.1 hnew
    · exact (h.last l hl).imp_right (Or.imp_right (List.mem_append_left _))
  | @loaded i new c hi hc =>
    refine ⟨h.flying, fun new' hnew' => ?_, fun l hl => ?_⟩
    · rcases List.mem_or_eq_of_mem_set hnew' with hold | heq
      · exact h.calling new' hold
      · rcases hc with ⟨-, rfl⟩ | ⟨-, rfl⟩ <;> cases heq
    · exact (h.last l hl).imp_right (Or.imp_right fun hu => mem_calls_set hi hu (by simp))
  | @notified i new hi =>
    -- No store came in between, so what the call notifies is still the status.
    have hnew : new = s.status := h.calling new (mem_of_getElem? hi)
    subst hnew
    refine ⟨fun x hx => ?_, fun new' hnew' => ?_, fun l hl => ?_⟩
    · rcases List.mem_append.1 hx with hx | hx
      · exact h.flying x hx
      · obtain ⟨fn, -, rfl⟩ := List.mem_map.1 hx
        rfl
    · rcases List.mem_or_eq_of_mem_set hnew' with hold | heq
      · exact h.calling new' hold
      · cases heq
    · exact .inr (.inl (mem_inFlight_callStatusListeners i s.status hl))
  | added =>
    refine ⟨fun x hx => ?_, h.calling, fun l hl => ?_⟩
    · rcases List.mem_append.1 hx with hx | hx
      · exact h.flying x hx
      · cases List.mem_singleton.1 hx
        rfl
    · rcases List.mem_append.1 hl with hl | hl
      · exact (h.last l hl).imp_right (Or.imp_left (List.mem_append_left _))
      · cases List.mem_singleton.1 hl
        exact .inr (.inl (List.mem_append_right _ List.mem_cons_self))
  | removed => exact ⟨h.flying, h.calling, fun l hl => h.last l (mem_of_mem_removeFirst hl)⟩
  | @delivered k x hk =>
    have hx : x.2 = s.status := h.flying x (mem_of_getElem? hk)
    refine ⟨fun y hy => h.flying y (List.mem_of_mem_eraseIdx hy), h.calling, fun l hl => ?_⟩
    show (((s.delivered ++ [x]).filter fun y => y.1 == l.fn).map Prod.snd).getLast? = _ ∨ _
    rw [deliveredTo_append]
    by_cases hfn : x.1 = l.fn
    · rw [if_pos hfn, List.getLast?_concat, hx]
      exact .inl rfl
    · rw [if_neg hfn, List.append_nil]
      rcases h.last l hl with hlast | hfly | hcall
      · exact .inl hlast
      · rcases List.mem_cons.1 ((perm_eraseIdx hk).mem_iff.1 hfly) with heq | hfly
        · exact absurd (congrArg Prod.fst heq).symm hfn
        · exact .inr (.inl hfly)
      · exact .inr (.inr hcall)

/-- After the last store, if it was made alone, the run stays in step with it. -/
theorem synced_of_lastStoreAlone {s t : StatusManager} {as : List StatusStep}
    (hrun : run step s as = some t) (hlast : LastStoreAlone s as)
    (hs : s.Synced ∨ ¬ EachStep step (fun u b => ¬ u.Stores b) s as) : t.Synced := by
  induction as generalizing s with
  | nil =>
    cases hrun
    exact hs.resolve_right fun hno => hno trivial
  | cons a as ih =>
    obtain ⟨s', hs', hrun⟩ := Option.bind_eq_some_iff.1 hrun
    obtain ⟨halone, hlast⟩ := hlast s' hs'
    refine ih hrun hlast ?_
    by_cases hrest : EachStep step (fun u b => ¬ u.Stores b) s' as
    · left
      by_cases hstores : s.Stores a
      · cases step_move hs' with
        | stored hi => exact synced_of_store (halone hstores hrest) hi
        | loaded hi hc =>
          obtain ⟨new, hi'⟩ := hstores
          cases hi.symm.trans hi'
        | notified hi =>
          obtain ⟨new, hi'⟩ := hstores
          cases hi.symm.trans hi'
        | called | added | removed | delivered => exact hstores.elim
      · refine (step_move hs').synced hstores (hs.resolve_right fun hno => hno ?_)
        intro u hu
        cases hs'.symm.trans hu
        exact ⟨hstores, hrest⟩
    · exact .inr hrest

theorem reported_new : new.Reported := fun _ hl => absurd hl List.not_mem_nil

theorem synced_new : new.Synced where
  flying _ hx := absurd hx List.not_mem_nil
  calling _ hnew := absurd hnew List.not_mem_nil
  last _ hl := absurd hl List.not_mem_nil

/-- **Status listeners are told the current status.** When no call is in progress and all
notifications have been delivered, it was delivered to every listener still registered; and it was
the last one delivered to it, if the last store of the run found no notification in flight and no
other call between its store and its snapshot. -/
theorem status_delivered (as : List StatusStep) (s : StatusManager)
    (hrun : run step new as = some s) (hquiet : s.Quiet) :
    (∀ l ∈ s.statusListeners, s.getStatus ∈ s.deliveredTo l.fn) ∧
      (LastStoreAlone new as →
        ∀ l ∈ s.statusListeners, (s.deliveredTo l.fn).getLast? = some s.getStatus) := by
  have hcalls : .notifying s.status ∉ s.calls := fun hc => by cases hquiet.1 _ hc
  have hflight : ∀ x, x ∉ s.inFlight := by
    rw [hquiet.2]
    exact fun _ => List.not_mem_nil
  refine ⟨fun l hl => ?_, fun hlast l hl => ?_⟩
  · have hreported : s.Reported :=
      (Always.of_step (fun _ _ _ h hs => (step_move hs).reported h) as reported_new).last hrun
    rcases hreported l hl with hdel | hfly | hcall
    · exact List.mem_map.2 ⟨(l.fn, s.status), List.mem_filter.2 ⟨hdel, beq_self_eq_true _⟩, rfl⟩
    · exact absurd hfly (hflight _)
    · exact absurd hcall hcalls
  · rcases (synced_of_lastStoreAlone hrun hlast (.inl synced_new)).last l hl with
      hdel | hfly | hcall
    · exact hdel
    · exact absurd hfly (hflight _)
    · exact absurd hcall hcalls

/-- One change of the status, after the registration was delivered. -/
theorem status_delivered_one_change :
    ∃ s : StatusManager,
      run step new [.addListener 7, .deliver 0, .setStatus .failed, .advance 0, .advance 0,
        .advance 0, .deliver 0] = some s ∧
      ∀ l ∈ s.statusListeners, .failed ∈ s.deliveredTo l.fn ∧
        (s.deliveredTo l.fn).getLast? = some .failed := by
  obtain ⟨hall, hlast⟩ := status_delivered [.addListener 7, .deliver 0, .setStatus .failed,
    .advance 0, .advance 0, .advance 0, .deliver 0] _ rfl ⟨by decide, rfl⟩
  refine ⟨_, rfl, fun l hl => ⟨hall l hl, hlast ?_ l hl⟩⟩
  refine (lastStoreAlone_cons_iff rfl).2 ⟨fun h => h.elim, ?_⟩
  refine (lastStoreAlone_cons_iff rfl).2 ⟨fun h => h.elim, ?_⟩
  refine (lastStoreAlone_cons_iff rfl).2 ⟨fun h => h.elim, ?_⟩
  refine (lastStoreAlone_cons_iff rfl).2 ⟨fun ⟨_, h⟩ => (nomatch h), ?_⟩
  refine (lastStoreAlone_cons_iff rfl).2 ⟨fun _ _ => ⟨rfl, fun new h => ?_⟩, ?_⟩
  · cases List.mem_singleton.1 h
  refine (lastStoreAlone_cons_iff rfl).2 ⟨fun ⟨_, h⟩ => (nomatch h), ?_⟩
  exact (lastStoreAlone_cons_iff rfl).2 ⟨fun h => h.elim, trivial⟩

/-- Two changes of the status whose notifications are delivered the other way round: the listener is
told `Degraded` last, and the status is `Failed`. -/
theorem status_delivered_out_of_order :
    ∃ s : StatusManager,
      run step new [.addListener 7, .deliver 0, .setStatus .degraded, .advance 0, .advance 0,
        .advance 0, .setStatus .failed, .advance 1, .advance 1, .advance 1, .deliver 1,
        .deliver 0] = some s ∧
      s.Quiet ∧ s.statusListeners = [⟨7, 0⟩] ∧ s.getStatus = .failed ∧
      (s.deliveredTo 0).getLast? = some .degraded :=
  ⟨_, rfl, ⟨by decide, rfl⟩, rfl, rfl, rfl⟩

end StatusManager

end Rounac

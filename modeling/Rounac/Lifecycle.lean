import Rounac.Lib.TaskPool
import Rounac.Networks.Roster

/-!
# The life of readers

An entry of the registry *serves* a list of readers when its count is that of their network
handles and they all hold its ringmaster (`Serves`). Over a run of creations, clones and drops on a
broker-backed network every entry serves the live readers of its topic, and a topic without an
entry has none; the ringmaster has their senders; the broker is asked to cancel exactly when the
last reader of a topic goes (`reader_lifecycle`).

* `Roster.Grounded` — what holds of any number of readers: addresses in use, types, and for each
  entry a positive number of handles counted.
* `Roster.Exact` — what holds while the 16-bit count does not wrap.
* `Roster.Voiced` — what holds while the sender ids are distinct, too.
-/

namespace Rounac

open StepSystem WrapCounter SwapRemove

/-- The sender registered for a reader. -/
def AsbReader.sender (r : AsbReader) : ReaderSender := (r.mySenderId, r.buffer)

/-- The number of network handles that a list of readers shares among itself. -/
def netCount (rs : List AsbReader) : ℕ := (rs.map AsbReader.net).toFinset.card

theorem netCount_perm {rs rs' : List AsbReader} (h : rs.Perm rs') : netCount rs = netCount rs' :=
  congrArg Finset.card (List.toFinset_eq_of_perm _ _ (h.map _))

theorem netCount_cons_of_shared {r : AsbReader} {rs : List AsbReader}
    (h : ∃ o ∈ rs, o.net = r.net) : netCount (r :: rs) = netCount rs := by
  have hmem : r.net ∈ (rs.map AsbReader.net).toFinset := by simpa using h
  rw [netCount, List.map_cons, List.toFinset_cons, Finset.insert_eq_of_mem hmem, netCount]

theorem netCount_cons_of_alone {r : AsbReader} {rs : List AsbReader}
    (h : ∀ o ∈ rs, o.net ≠ r.net) : netCount (r :: rs) = netCount rs + 1 := by
  have hmem : r.net ∉ (rs.map AsbReader.net).toFinset := by simpa using h
  rw [netCount, List.map_cons, List.toFinset_cons, Finset.card_insert_of_notMem hmem, netCount]

theorem netCount_eq_zero_iff {rs : List AsbReader} : netCount rs = 0 ↔ rs = [] := by
  simp [netCount, Finset.card_eq_zero]

theorem netCount_cons_le (r : AsbReader) (rs : List AsbReader) :
    netCount (r :: rs) ≤ netCount rs + 1 := by
  by_cases h : ∃ o ∈ rs, o.net = r.net
  · rw [netCount_cons_of_shared h]
    exact Nat.le_succ _
  · rw [netCount_cons_of_alone (by simpa using h)]

theorem netCount_mono {rs rs' : List AsbReader} (h : ∀ r ∈ rs, ∃ o ∈ rs', o.net = r.net) :
    netCount rs ≤ netCount rs' := by
  refine Finset.card_le_card fun n hn => ?_
  obtain ⟨r, hr, rfl⟩ := List.mem_map.1 (List.mem_toFinset.1 hn)
  obtain ⟨o, ho, he⟩ := h r hr
  exact List.mem_toFinset.2 (he ▸ List.mem_map_of_mem ho)

theorem netCount_pos {rs : List AsbReader} {r : AsbReader} (h : r ∈ rs) : 0 < netCount rs :=
  Nat.pos_of_ne_zero fun h0 => List.ne_nil_of_mem h (netCount_eq_zero_iff.1 h0)

theorem netCount_le_length (rs : List AsbReader) : netCount rs ≤ rs.length := by
  refine (List.toFinset_card_le _).trans ?_
  rw [List.length_map]

/-! ## Serving -/

/-- An entry serves the readers `rs`. -/
structure Serves (e : Entry) (rs : List AsbReader) : Prop where
  occupied : rs ≠ []
  count_eq : e.count = counted 16 (netCount rs)
  master_eq : ∀ r ∈ rs, r.ringmaster = e.ringmaster

namespace Serves

variable {e : Entry} {rs rs' : List AsbReader} {r : AsbReader}

theorem perm (h : Serves e rs) (hp : rs.Perm rs') : Serves e rs' where
  occupied := fun he => h.occupied (List.perm_nil.1 (he ▸ hp))
  count_eq := netCount_perm hp ▸ h.count_eq
  master_eq := fun r hr => h.master_eq r (hp.mem_iff.2 hr)

theorem opened (m : MasterId) (tag : String) (hr : r.ringmaster = m) :
    Serves { (⟨m, 0, tag⟩ : Entry) with count := (0 : BitVec 16) + 1 } [r] where
  occupied := by simp
  count_eq := by simp [netCount, counted]
  master_eq := by simpa using hr

theorem join (h : Serves e rs) (hr : r.ringmaster = e.ringmaster)
    (halone : ∀ o ∈ rs, o.net ≠ r.net) :
    Serves { e with count := e.count + 1 } (r :: rs) where
  occupied := by simp
  count_eq := by rw [netCount_cons_of_alone halone, h.count_eq, counted_add_one]
  master_eq := by simpa [hr] using h.master_eq

theorem clone (h : Serves e rs) (hr : r.ringmaster = e.ringmaster)
    (hshared : ∃ o ∈ rs, o.net = r.net) : Serves e (r :: rs) where
  occupied := by simp
  count_eq := by rw [netCount_cons_of_shared hshared, h.count_eq]
  master_eq := by simpa [hr] using h.master_eq

theorem drop_shared (h : Serves e (r :: rs)) (hshared : ∃ o ∈ rs, o.net = r.net) :
    Serves e rs where
  occupied := by
    obtain ⟨o, ho, -⟩ := hshared
    exact List.ne_nil_of_mem ho
  count_eq := by rw [h.count_eq, netCount_cons_of_shared hshared]
  master_eq := fun o ho => h.master_eq o (List.mem_cons_of_mem _ ho)

theorem drop_alone (h : Serves e (r :: rs)) (halone : ∀ o ∈ rs, o.net ≠ r.net) (hrs : rs ≠ []) :
    Serves { e with count := e.count - 1 } rs where
  occupied := hrs
  count_eq := by
    rw [h.count_eq, netCount_cons_of_alone halone]
    exact counted_sub_one (Nat.succ_pos _)
  master_eq := fun o ho => h.master_eq o (List.mem_cons_of_mem _ ho)

/-- When a network handle goes, the count tells whether the reader was the last. -/
theorem count_eq_one_iff (h : Serves e (r :: rs)) (halone : ∀ o ∈ rs, o.net ≠ r.net)
    (hfew : netCount (r :: rs) < 2 ^ 16) : e.count = 1 ↔ rs = [] := by
  rw [h.count_eq, counted_eq_one_iff_of_lt (by omega) hfew, netCount_cons_of_alone halone,
    ← netCount_eq_zero_iff]
  omega

end Serves

/-- The senders of readers with distinct ids, after the one of `r` is removed. -/
theorem removeFirst_sender_perm {senders : List ReaderSender} {r : AsbReader}
    {rs : List AsbReader} (h : senders.Perm ((r :: rs).map AsbReader.sender))
    (hnd : ((r :: rs).map AsbReader.mySenderId).Nodup) :
    (removeFirst (fun b => b.1 == r.mySenderId) senders).2.Perm (rs.map AsbReader.sender) := by
  refine removeFirst_perm_of_key (x := r.sender) h ?_
  rw [(h.map Prod.fst).nodup_iff, List.map_map]
  exact hnd

/-! ## Readers of a topic -/

namespace Roster

def readersOn (s : Roster) (topic : String) : List AsbReader :=
  s.live.filter fun r => r.net.net.topic = some topic

theorem mem_readersOn {s : Roster} {topic : String} {r : AsbReader} :
    r ∈ s.readersOn topic ↔ r ∈ s.live ∧ r.net.net.topic = some topic := by
  simp [readersOn]

theorem readersOn_enlist_self {s : Roster} {r : AsbReader} {topic : String}
    (h : r.net.net.topic = some topic) :
    ((s.enlist r).readersOn topic).Perm (r :: s.readersOn topic) := by
  simp only [readersOn, enlist, List.filter_append]
  rw [List.filter_cons_of_pos (by simpa using h), List.filter_nil]
  exact List.perm_append_singleton _ _

theorem readersOn_enlist_of_ne {s : Roster} {r : AsbReader} {topic : String}
    (h : r.net.net.topic ≠ some topic) : (s.enlist r).readersOn topic = s.readersOn topic := by
  simp only [readersOn, enlist, List.filter_append]
  rw [List.filter_cons_of_neg (by simpa using h), List.filter_nil, List.append_nil]

@[simp] theorem dropNet_live (s : Roster) (net : AsbReaderNet) : (s.dropNet net).live = s.live := by
  unfold dropNet
  split
  · rfl
  · split_ifs <;> rfl

@[simp] theorem discharge_live (s : Roster) (i : ℕ) (r : AsbReader) :
    (s.discharge i r).live = s.live.eraseIdx i := by
  unfold discharge
  dsimp only
  split_ifs
  · rfl
  · exact dropNet_live _ _

theorem readersOn_discharge_self {s : Roster} {i : ℕ} {r : AsbReader} {topic : String}
    (hi : s.live[i]? = some r) (h : r.net.net.topic = some topic) :
    (s.readersOn topic).Perm (r :: (s.discharge i r).readersOn topic) := by
  have hp := (TaskPool.perm_eraseIdx hi).filter fun r => decide (r.net.net.topic = some topic)
  rw [List.filter_cons_of_pos (by simpa using h)] at hp
  rw [readersOn, readersOn, discharge_live]
  exact hp

theorem readersOn_discharge_of_ne {s : Roster} {i : ℕ} {r : AsbReader} {topic : String}
    (hi : s.live[i]? = some r) (h : r.net.net.topic ≠ some topic) :
    (s.readersOn topic).Perm ((s.discharge i r).readersOn topic) := by
  have hp := (TaskPool.perm_eraseIdx hi).filter fun r => decide (r.net.net.topic = some topic)
  rw [List.filter_cons_of_neg (by simpa using h)] at hp
  rw [readersOn, readersOn, discharge_live]
  exact hp

/-- **What the drop of a reader does**: its network handle stays with a clone, or goes and finds no
entry, finds the count at one, or finds another count. -/
theorem discharge_cases (s : Roster) (i : ℕ) {r : AsbReader} {topic : String}
    (ht : r.net.net.topic = some topic) :
    ((∃ o ∈ s.live.eraseIdx i, o.net = r.net) ∧
      s.discharge i r = { s.silence r with live := s.live.eraseIdx i }) ∨
    ((∀ o ∈ s.live.eraseIdx i, o.net ≠ r.net) ∧
      ((s.entries.lookup topic = none ∧
        s.discharge i r = { s.silence r with live := s.live.eraseIdx i }) ∨
      ∃ e, s.entries.lookup topic = some e ∧
        ((e.count = 1 ∧ s.discharge i r = { s.silence r with
          live := s.live.eraseIdx i
          entries := s.entries.erase topic
          senders := Function.update (s.silence r).senders e.ringmaster []
          cancels := s.cancels ++ (r.net.net.cancel e).toList }) ∨
        (e.count ≠ 1 ∧ s.discharge i r = { s.silence r with
          live := s.live.eraseIdx i
          entries := s.entries.insert topic { e with count := e.count - 1 } })))) := by
  have hany : ((s.live.eraseIdx i).any fun o => o.net == r.net) = true ↔
      ∃ o ∈ s.live.eraseIdx i, o.net = r.net := by simp
  by_cases h : ∃ o ∈ s.live.eraseIdx i, o.net = r.net
  · refine .inl ⟨h, ?_⟩
    unfold discharge
    dsimp only
    rw [if_pos (hany.2 h)]
  · refine .inr ⟨fun o ho he => h ⟨o, ho, he⟩, ?_⟩
    unfold discharge
    dsimp only
    rw [if_neg fun hex => h (hany.1 hex)]
    unfold dropNet
    rw [ht, Option.bind_some]
    show (s.entries.lookup topic = none ∧ _) ∨ _
    cases hl : s.entries.lookup topic with
    | none => exact .inl ⟨rfl, by simp only [silence, hl, Option.map_none]⟩
    | some e =>
      refine .inr ⟨e, rfl, ?_⟩
      by_cases h1 : e.count = 1
      · exact .inl ⟨h1, by simp only [silence, hl, Option.map_some, h1, if_true]⟩
      · exact .inr ⟨h1, by simp only [silence, hl, Option.map_some, h1, if_false]⟩

/-! ## Addresses -/

/-- What holds of the addresses and types, whatever the counts. -/
structure Grounded (s : Roster) : Prop where
  topical : ∀ r ∈ s.live, ∃ topic, r.net.net.On topic
  master_lt : ∀ r ∈ s.live, r.ringmaster < s.nextMaster
  net_lt : ∀ r ∈ s.live, r.net.id < s.nextNet
  typed : ∀ r ∈ s.live, s.ty r.ringmaster = r.ty
  same_master : ∀ r ∈ s.live, ∀ o ∈ s.live, o.net = r.net → o.ringmaster = r.ringmaster
  entry_lt : ∀ {topic e}, s.entries.lookup topic = some e → e.ringmaster < s.nextMaster
  apart : ∀ {t t' e e'}, s.entries.lookup t = some e → s.entries.lookup t' = some e' →
    e.ringmaster = e'.ringmaster → t = t'

theorem Grounded.net_ne {s : Roster} (h : s.Grounded) {r : AsbReader} (hid : r.net.id = s.nextNet) :
    ∀ o ∈ s.live, o.net ≠ r.net := by
  intro o ho hnet
  have hlt := h.net_lt o ho
  rw [hnet, hid] at hlt
  exact Nat.lt_irrefl _ hlt

/-- What a newcomer brings to keep the roster grounded. -/
structure Newcomer (s' : Roster) (r : AsbReader) : Prop where
  topical : ∃ topic, r.net.net.On topic
  master_lt : r.ringmaster < s'.nextMaster
  net_lt : r.net.id < s'.nextNet
  typed : s'.ty r.ringmaster = r.ty
  same_master : ∀ o ∈ s'.live, o.net = r.net → o.ringmaster = r.ringmaster

/-- A roster stays grounded when its addresses only grow, its newcomers are in order, and its
entries keep their ringmasters, one topic apart that gets a new one. -/
theorem Grounded.next {s s' : Roster} (h : s.Grounded) (hmaster : s.nextMaster ≤ s'.nextMaster)
    (hnet : s.nextNet ≤ s'.nextNet) (hty : ∀ m < s.nextMaster, s'.ty m = s.ty m)
    (hlive : ∀ r ∈ s'.live, r ∈ s.live ∨ s'.Newcomer r) (opened : String)
    (hentries : ∀ t e', s'.entries.lookup t = some e' →
      (∃ e, s.entries.lookup t = some e ∧ e.ringmaster = e'.ringmaster) ∨
      (t = opened ∧ e'.ringmaster = s.nextMaster ∧ s.nextMaster < s'.nextMaster)) :
    s'.Grounded where
  topical := fun r hr => (hlive r hr).elim (h.topical r) Newcomer.topical
  master_lt := fun r hr => (hlive r hr).elim
    (fun hr => Nat.lt_of_lt_of_le (h.master_lt r hr) hmaster) Newcomer.master_lt
  net_lt := fun r hr => (hlive r hr).elim
    (fun hr => Nat.lt_of_lt_of_le (h.net_lt r hr) hnet) Newcomer.net_lt
  typed := fun r hr => (hlive r hr).elim
    (fun hr => (hty _ (h.master_lt r hr)).trans (h.typed r hr)) Newcomer.typed
  same_master := by
    intro r hr o ho he
    rcases hlive r hr with hr' | hnew
    · rcases hlive o ho with ho' | hnew
      · exact h.same_master r hr' o ho' he
      · exact (hnew.same_master r hr he.symm).symm
    · exact hnew.same_master o ho he
  entry_lt := by
    intro t e' he'
    rcases hentries t e' he' with ⟨e, he, hm⟩ | ⟨-, hm, hlt⟩
    · rw [← hm]
      exact Nat.lt_of_lt_of_le (h.entry_lt he) hmaster
    · rw [hm]
      exact hlt
  apart := by
    intro t t' e e' he he' hm
    rcases hentries t e he with ⟨a, ha, hma⟩ | ⟨rfl, hma, -⟩ <;>
      rcases hentries t' e' he' with ⟨b, hb, hmb⟩ | ⟨rfl, hmb, -⟩
    · exact h.apart ha hb (hma.trans (hm.trans hmb.symm))
    · refine absurd (h.entry_lt ha) (Nat.not_lt.2 (Nat.le_of_eq ?_))
      rw [hma, hm, hmb]
    · refine absurd (h.entry_lt hb) (Nat.not_lt.2 (Nat.le_of_eq ?_))
      rw [hmb, ← hm, hma]
    · rfl

theorem lookup_insert_cases {entries : StrMap Entry} {topic t : String} {e e' : Entry}
    (h : (entries.insert topic e).lookup t = some e') :
    (t = topic ∧ e' = e) ∨ (t ≠ topic ∧ entries.lookup t = some e') := by
  by_cases ht : t = topic
  · subst ht
    rw [AList.lookup_insert] at h
    exact .inl ⟨rfl, (Option.some.inj h).symm⟩
  · rw [AList.lookup_insert_ne ht] at h
    exact .inr ⟨ht, h⟩

theorem lookup_insert_insert_cases {entries : StrMap Entry} {topic t : String} {e₀ e e' : Entry}
    (h : ((entries.insert topic e₀).insert topic e).lookup t = some e') :
    (t = topic ∧ e' = e) ∨ (t ≠ topic ∧ entries.lookup t = some e') := by
  rcases lookup_insert_cases h with heq | ⟨hne, h⟩
  · exact .inl heq
  · exact .inr ⟨hne, (AList.lookup_insert_ne hne).symm.trans h⟩

theorem lookup_erase_cases {entries : StrMap Entry} {topic t : String} {e' : Entry}
    (h : (entries.erase topic).lookup t = some e') : t ≠ topic ∧ entries.lookup t = some e' := by
  by_cases ht : t = topic
  · subst ht
    rw [AList.lookup_erase] at h
    cases h
  · rw [AList.lookup_erase_ne ht] at h
    exact ⟨ht, h⟩

theorem mem_live_enlist {s : Roster} {r o : AsbReader} (h : o ∈ (s.enlist r).live) :
    o ∈ s.live ∨ o = r := by
  simpa [enlist] using h

theorem Grounded.move {s s' : Roster} {d : Option ℕ} (h : s.Grounded) (hmove : s.Move d s') :
    s'.Grounded := by
  cases hmove with
  | idle => exact h
  | @join topic e r he hm hty hbuf hid ht =>
    refine h.next (Nat.le_refl _) (Nat.le_succ _) (fun _ _ => rfl) (fun o ho => ?_) topic
      fun t e' he' => ?_
    · rcases mem_live_enlist ho with ho | rfl
      · exact .inl ho
      · refine .inr ⟨⟨topic, ht⟩, hm ▸ h.entry_lt he, hid ▸ Nat.lt_succ_self _,
          (congrArg s.ty hm).trans hty.symm, fun o' ho' hnet => ?_⟩
        rcases mem_live_enlist ho' with ho' | rfl
        · exact absurd hnet (h.net_ne hid o' ho')
        · rfl
    · rcases lookup_insert_cases he' with ⟨rfl, rfl⟩ | ⟨-, he'⟩
      · exact .inl ⟨e, he, rfl⟩
      · exact .inl ⟨e', he', rfl⟩
  | @opened topic tag r he hm hbuf hid ht =>
    refine h.next (Nat.le_succ _) (Nat.le_succ _) (fun m hlt => ?_) (fun o ho => ?_) topic
      fun t e' he' => ?_
    · -- The new ringmaster has a fresh number, so the old ones keep their types.
      exact Function.update_of_ne (Nat.ne_of_lt hlt) _ _
    · rcases mem_live_enlist ho with ho | rfl
      · exact .inl ho
      · refine .inr ⟨⟨topic, ht⟩, Nat.lt_succ_of_le (Nat.le_of_eq hm), hid ▸ Nat.lt_succ_self _,
          ?_, fun o' ho' hnet => ?_⟩
        · rw [hm]
          exact Function.update_self _ _ _
        · rcases mem_live_enlist ho' with ho' | rfl
          · exact absurd hnet (h.net_ne hid o' ho')
          · rfl
    · rcases lookup_insert_insert_cases he' with ⟨rfl, rfl⟩ | ⟨-, he'⟩
      · exact .inr ⟨rfl, rfl, Nat.lt_succ_self _⟩
      · exact .inl ⟨e', he', rfl⟩
  | @cloned r r' hr hm hty hnet hbuf =>
    refine h.next (Nat.le_refl _) (Nat.le_refl _) (fun _ _ => rfl) (fun o ho => ?_) ""
      fun t e' he' => .inl ⟨e', he', rfl⟩
    rcases mem_live_enlist ho with ho | rfl
    · exact .inl ho
    · refine .inr ⟨hnet ▸ h.topical r hr, hm ▸ h.master_lt r hr, hnet ▸ h.net_lt r hr, ?_,
        fun o' ho' he => ?_⟩
      · rw [hm, hty]
        exact h.typed r hr
      · rw [hm]
        rcases mem_live_enlist ho' with ho' | rfl
        · exact h.same_master r hr o' ho' (he.trans hnet)
        · exact hm
  | @dropped i r hi =>
    obtain ⟨topic, ht⟩ := h.topical r (List.mem_of_getElem? hi)
    have hsub : ∀ o ∈ (s.discharge i r).live, o ∈ s.live := by
      intro o ho
      rw [discharge_live] at ho
      exact List.mem_of_mem_eraseIdx ho
    -- Whatever the drop does to the entry, it only takes readers away.
    rcases discharge_cases s i ht.topic_eq with
      ⟨-, heq⟩ | ⟨-, ⟨-, heq⟩ | ⟨e, he, ⟨-, heq⟩ | ⟨-, heq⟩⟩⟩ <;>
      rw [heq] at hsub ⊢
    · exact h.next (Nat.le_refl _) (Nat.le_refl _)
        (fun _ _ => rfl) (fun o ho => .inl (hsub o ho)) ""
        fun t e' he' => .inl ⟨e', he', rfl⟩
    · exact h.next (Nat.le_refl _) (Nat.le_refl _)
        (fun _ _ => rfl) (fun o ho => .inl (hsub o ho)) ""
        fun t e' he' => .inl ⟨e', he', rfl⟩
    · refine h.next (Nat.le_refl _) (Nat.le_refl _) (fun _ _ => rfl)
        (fun o ho => .inl (hsub o ho)) "" fun t e' he' => .inl ⟨e', ?_, rfl⟩
      exact (lookup_erase_cases he').2
    · refine h.next (Nat.le_refl _) (Nat.le_refl _) (fun _ _ => rfl)
        (fun o ho => .inl (hsub o ho)) "" fun t e' he' => .inl ?_
      rcases lookup_insert_cases he' with ⟨rfl, rfl⟩ | ⟨-, he'⟩
      · exact ⟨e, he, rfl⟩
      · exact ⟨e', he', rfl⟩

/-! ## Entries have readers -/

/-- The live readers of a bus topic that hold the given ringmaster. -/
def attached (s : Roster) (topic : String) (m : MasterId) : List AsbReader :=
  (s.readersOn topic).filter fun r => r.ringmaster = m

theorem mem_attached {s : Roster} {topic : String} {m : MasterId} {r : AsbReader} :
    r ∈ s.attached topic m ↔
      r ∈ s.live ∧ r.net.net.topic = some topic ∧ r.ringmaster = m := by
  simp [attached, mem_readersOn, and_assoc]

/-- Every entry counts, modulo the width of its count, at least one and at most all of the network
handles attached to its ringmaster. -/
def Backed (s : Roster) : Prop :=
  ∀ topic e, s.entries.lookup topic = some e →
    ∃ k, 1 ≤ k ∧ k ≤ netCount (s.attached topic e.ringmaster) ∧ e.count = counted 16 k

/-- An entry has a live reader that holds its ringmaster. -/
theorem Backed.exists_attached {s : Roster} (h : s.Backed) {topic : String} {e : Entry}
    (he : s.entries.lookup topic = some e) :
    ∃ r ∈ s.live, r.net.net.topic = some topic ∧ r.ringmaster = e.ringmaster := by
  obtain ⟨k, h1, hk, -⟩ := h _ _ he
  obtain ⟨r, hr⟩ := List.exists_mem_of_ne_nil _ fun h0 => by
    rw [netCount_eq_zero_iff.2 h0] at hk
    omega
  exact ⟨r, mem_attached.1 hr⟩

theorem Backed.of_nets {s s' : Roster} (h : s.Backed) {topic : String} {e : Entry}
    (he : s.entries.lookup topic = some e)
    (hnets : ∀ r ∈ s.attached topic e.ringmaster,
      ∃ o ∈ s'.attached topic e.ringmaster, o.net = r.net) :
    ∃ k, 1 ≤ k ∧ k ≤ netCount (s'.attached topic e.ringmaster) ∧ e.count = counted 16 k := by
  obtain ⟨k, h1, hk, hcount⟩ := h _ _ he
  exact ⟨k, h1, hk.trans (netCount_mono hnets), hcount⟩

theorem mem_enlist_of_mem {s : Roster} {r o : AsbReader} (h : o ∈ s.live) :
    o ∈ (s.enlist r).live := List.mem_append_left _ h

theorem self_mem_enlist (s : Roster) (r : AsbReader) : r ∈ (s.enlist r).live := by
  simp [enlist]

theorem attached_enlist {s : Roster} {r o : AsbReader} {topic : String} {m : MasterId}
    (h : o ∈ s.attached topic m) : o ∈ (s.enlist r).attached topic m := by
  obtain ⟨ho, ht⟩ := mem_attached.1 h
  exact mem_attached.2 ⟨mem_enlist_of_mem ho, ht⟩

theorem ne_topic {r : AsbReader} {topic t : String} (ht : r.net.net.topic = some topic)
    (hne : t ≠ topic) : r.net.net.topic ≠ some t := by
  intro hc
  rw [ht] at hc
  exact hne (Option.some.inj hc).symm

theorem attached_discharge {s : Roster} {i : ℕ} {r o : AsbReader} {topic : String} {m : MasterId}
    (hi : s.live[i]? = some r) (ho : o ∈ s.attached topic m) :
    o = r ∨ o ∈ (s.discharge i r).attached topic m := by
  obtain ⟨ho, ht⟩ := mem_attached.1 ho
  rw [(TaskPool.perm_eraseIdx hi).mem_iff, List.mem_cons, ← discharge_live s i r] at ho
  exact ho.imp_right fun ho => mem_attached.2 ⟨ho, ht⟩

theorem Backed.dropped {s : Roster} (hg : s.Grounded) (h : s.Backed) {i : ℕ} {r : AsbReader}
    (hi : s.live[i]? = some r) : (s.discharge i r).Backed := by
  have hr := List.mem_of_getElem? hi
  obtain ⟨topic, hon⟩ := hg.topical r hr
  have ht := hon.topic_eq
  have hother : ∀ {t e'}, t ≠ topic → s.entries.lookup t = some e' →
      ∃ k, 1 ≤ k ∧ k ≤ netCount ((s.discharge i r).attached t e'.ringmaster) ∧
        e'.count = counted 16 k := by
    intro t e' hne he'
    refine h.of_nets he' fun o ho => ⟨o, (attached_discharge hi ho).resolve_left fun he => ?_, rfl⟩
    exact ne_topic ht hne (he ▸ (mem_attached.1 ho).2.1)
  intro t e' he'
  rcases discharge_cases s i ht with
    ⟨⟨o, ho, hnet⟩, heq⟩ | ⟨halone, ⟨hnone, heq⟩ | ⟨e, he, ⟨h1, heq⟩ | ⟨h1, heq⟩⟩⟩
  · -- A clone stays, with the same network handle and ringmaster.
    have hlive : o ∈ s.live := List.mem_of_mem_eraseIdx ho
    rw [heq] at he'
    refine h.of_nets he' fun a ha => ?_
    rcases attached_discharge hi ha with rfl | ha'
    · obtain ⟨-, hat, ham⟩ := mem_attached.1 ha
      refine ⟨o, mem_attached.2
        ⟨by rw [discharge_live]; exact ho, by rw [hnet]; exact hat, ?_⟩, hnet⟩
      rw [← ham]
      exact hg.same_master a hr o hlive hnet
    · exact ⟨a, ha', rfl⟩
  · rw [heq] at he'
    refine hother (fun hte => ?_) he'
    rw [hte] at he'
    exact absurd (hnone.symm.trans he') (by simp)
  · rw [heq] at he'
    obtain ⟨hne, he'⟩ := lookup_erase_cases he'
    exact hother hne he'
  · rw [heq] at he'
    rcases lookup_insert_cases he' with ⟨rfl, rfl⟩ | ⟨hne, he'⟩
    · obtain ⟨k, hk1, hk, hcount⟩ := h _ _ he
      have hk2 : k ≠ 1 := by
        rintro rfl
        exact h1 hcount
      refine ⟨k - 1, by omega, ?_, ?_⟩
      · have hle : netCount (s.attached t e.ringmaster) ≤
            netCount ((s.discharge i r).attached t e.ringmaster) + 1 := by
          refine (netCount_mono fun a ha => ⟨a, ?_, rfl⟩).trans (netCount_cons_le r _)
          exact List.mem_cons.2 (attached_discharge hi ha)
        show k - 1 ≤ netCount ((s.discharge i r).attached t e.ringmaster)
        omega
      · rw [← counted_sub_one (by omega), ← hcount]
    · exact hother hne he'

theorem Backed.move {s s' : Roster} {d : Option ℕ} (hg : s.Grounded) (h : s.Backed)
    (hmove : s.Move d s') : s'.Backed := by
  cases hmove with
  | idle => exact h
  | @join topic e r he hm hty hbuf hid ht =>
    intro t e' he'
    rcases lookup_insert_cases he' with ⟨rfl, rfl⟩ | ⟨-, he'⟩
    · obtain ⟨k, h1, hk, hcount⟩ := h _ _ he
      refine ⟨k + 1, Nat.succ_pos _, ?_, by rw [← counted_add_one, ← hcount]⟩
      have halone : ∀ o ∈ s.attached t e.ringmaster, o.net ≠ r.net :=
        fun o ho => hg.net_ne hid o (mem_attached.1 ho).1
      -- The reader joins with a network handle of its own, so there is one more of them.
      calc k + 1 ≤ netCount (s.attached t e.ringmaster) + 1 := Nat.succ_le_succ hk
        _ = netCount (r :: s.attached t e.ringmaster) := (netCount_cons_of_alone halone).symm
        _ ≤ netCount ((s.enlist r).attached t e.ringmaster) := by
          refine netCount_mono fun o ho => ⟨o, ?_, rfl⟩
          rcases List.mem_cons.1 ho with rfl | ho
          · exact mem_attached.2 ⟨self_mem_enlist s o, ht.topic_eq, hm⟩
          · exact attached_enlist ho
    · exact h.of_nets he' fun o ho => ⟨o, attached_enlist ho, rfl⟩
  | @opened topic tag r he hm hbuf hid ht =>
    intro t e' he'
    rcases lookup_insert_insert_cases he' with ⟨rfl, rfl⟩ | ⟨-, he'⟩
    · refine ⟨1, Nat.le_refl _, ?_, rfl⟩
      exact netCount_pos (mem_attached.2 ⟨self_mem_enlist _ r, ht.topic_eq, hm⟩)
    · refine h.of_nets he' fun o ho => ⟨o, ?_, rfl⟩
      obtain ⟨ho, ht⟩ := mem_attached.1 ho
      exact mem_attached.2 ⟨mem_enlist_of_mem ho, ht⟩
  | @cloned r r' hr hm hty hnet hbuf =>
    intro t e' he'
    exact h.of_nets he' fun o ho => ⟨o, attached_enlist ho, rfl⟩
  | dropped hi => exact h.dropped hg hi

/-! ## Entries serve their topics -/

/-- Every entry serves the live readers of its topic, and a topic without one has none. -/
structure Exact (s : Roster) : Prop where
  vacant : ∀ {topic}, s.entries.lookup topic = none → s.readersOn topic = []
  serves : ∀ {topic e}, s.entries.lookup topic = some e → Serves e (s.readersOn topic)

/-- A live reader's topic has an entry, and the reader holds its ringmaster. -/
theorem Exact.entry_of_mem {s : Roster} (h : s.Exact) {topic : String} {r : AsbReader}
    (hr : r ∈ s.live) (ht : r.net.net.topic = some topic) :
    ∃ e, s.entries.lookup topic = some e ∧ r.ringmaster = e.ringmaster := by
  have hmem : r ∈ s.readersOn topic := mem_readersOn.2 ⟨hr, ht⟩
  cases hl : s.entries.lookup topic with
  | none =>
    rw [h.vacant hl] at hmem
    cases hmem
  | some e => exact ⟨e, rfl, (h.serves hl).master_eq r hmem⟩

theorem Exact.join {s : Roster} (hg : s.Grounded) (h : s.Exact) {topic : String} {e : Entry}
    {r : AsbReader} (he : s.entries.lookup topic = some e) (hm : r.ringmaster = e.ringmaster)
    (hid : r.net.id = s.nextNet) (ht : r.net.net.topic = some topic) :
    (s.register topic e r).Exact where
  vacant := by
    intro t hnone
    by_cases hne : t = topic
    · subst hne
      exact absurd ((AList.lookup_insert s.entries).symm.trans hnone) (by simp)
    · refine (readersOn_enlist_of_ne (ne_topic ht hne)).trans ?_
      exact h.vacant ((AList.lookup_insert_ne hne).symm.trans hnone)
  serves := by
    intro t e' he'
    rcases lookup_insert_cases he' with ⟨rfl, rfl⟩ | ⟨hne, he'⟩
    · refine ((h.serves he).join hm fun o ho => ?_).perm (readersOn_enlist_self ht).symm
      exact hg.net_ne hid o (mem_readersOn.1 ho).1
    · show Serves e' ((s.enlist r).readersOn t)
      rw [readersOn_enlist_of_ne (ne_topic ht hne)]
      exact h.serves he'

theorem Exact.opened {s : Roster} (h : s.Exact) {topic tag : String} {r : AsbReader}
    (hnone : s.entries.lookup topic = none) (hm : r.ringmaster = s.nextMaster)
    (ht : r.net.net.topic = some topic) :
    ((s.subscribe topic tag r.ty).register topic ⟨s.nextMaster, 0, tag⟩ r).Exact where
  vacant := by
    intro t hnone'
    by_cases hne : t = topic
    · subst hne
      exact absurd ((AList.lookup_insert _).symm.trans hnone') (by simp)
    · refine (readersOn_enlist_of_ne (ne_topic ht hne)).trans (h.vacant ?_)
      rw [← AList.lookup_insert_ne hne, ← AList.lookup_insert_ne hne]
      exact hnone'
  serves := by
    intro t e' he'
    rcases lookup_insert_insert_cases he' with ⟨rfl, rfl⟩ | ⟨hne, he'⟩
    · refine (Serves.opened s.nextMaster tag hm).perm ?_
      have hp : ((s.enlist r).readersOn t).Perm (r :: s.readersOn t) := readersOn_enlist_self ht
      rw [h.vacant hnone] at hp
      exact hp.symm
    · show Serves e' ((s.enlist r).readersOn t)
      rw [readersOn_enlist_of_ne (ne_topic ht hne)]
      exact h.serves he'

theorem Exact.cloned {s : Roster} (hg : s.Grounded) (h : s.Exact) {r r' : AsbReader}
    (hr : r ∈ s.live) (hm : r'.ringmaster = r.ringmaster) (hnet : r'.net = r.net) :
    (s.enlist r').Exact := by
  obtain ⟨topic, hon⟩ := hg.topical r hr
  have ht := hon.topic_eq
  obtain ⟨e, he, hre⟩ := h.entry_of_mem hr ht
  have ht' : r'.net.net.topic = some topic := by rw [hnet]; exact ht
  refine ⟨fun {t} hnone => ?_, fun {t e'} he' => ?_⟩
  · by_cases hne : t = topic
    · subst hne
      exact absurd (he.symm.trans hnone) (by simp)
    · rw [readersOn_enlist_of_ne (ne_topic ht' hne)]
      exact h.vacant hnone
  · by_cases hne : t = topic
    · subst hne
      obtain rfl : e = e' := Option.some.inj (he.symm.trans he')
      refine ((h.serves he).clone (hm.trans hre) ?_).perm (readersOn_enlist_self ht').symm
      exact ⟨r, mem_readersOn.2 ⟨hr, ht⟩, hnet.symm⟩
    · rw [readersOn_enlist_of_ne (ne_topic ht' hne)]
      exact h.serves he'

/-- When the network handle goes with a reader, the count tells whether others stay. -/
theorem Exact.count_eq_one_iff {s : Roster} (h : s.Exact) (hfew : s.live.length < 2 ^ 16) {i : ℕ}
    {r : AsbReader} {topic : String} {e : Entry} (hi : s.live[i]? = some r)
    (ht : r.net.net.topic = some topic) (he : s.entries.lookup topic = some e)
    (halone : ∀ o ∈ s.live.eraseIdx i, o.net ≠ r.net) :
    e.count = 1 ↔ (s.discharge i r).readersOn topic = [] := by
  have hrs := readersOn_discharge_self hi ht
  refine ((h.serves he).perm hrs).count_eq_one_iff (fun o ho => halone o ?_)
    ((netCount_le_length _).trans_lt ?_)
  · rw [← discharge_live s i r]
    exact (mem_readersOn.1 ho).1
  · rw [← hrs.length_eq]
    exact (List.length_filter_le _ _).trans_lt hfew

theorem Exact.dropped {s : Roster} (hg : s.Grounded) (h : s.Exact)
    (hfew : s.live.length < 2 ^ 16) {i : ℕ} {r : AsbReader} (hi : s.live[i]? = some r) :
    (s.discharge i r).Exact := by
  have hr := List.mem_of_getElem? hi
  obtain ⟨topic, hon⟩ := hg.topical r hr
  have ht := hon.topic_eq
  obtain ⟨e, he, hm⟩ := h.entry_of_mem hr ht
  have hrs := readersOn_discharge_self hi ht
  have hserves := (h.serves he).perm hrs
  have hvacant : ∀ {t}, t ≠ topic → s.entries.lookup t = none →
      (s.discharge i r).readersOn t = [] := by
    intro t hne hnone
    have hp := readersOn_discharge_of_ne hi (ne_topic ht hne)
    rw [h.vacant hnone] at hp
    exact List.nil_perm.1 hp
  have hother : ∀ {t e'}, t ≠ topic → s.entries.lookup t = some e' →
      Serves e' ((s.discharge i r).readersOn t) := fun hne he' =>
    (h.serves he').perm (readersOn_discharge_of_ne hi (ne_topic ht hne))
  rcases discharge_cases s i ht with
    ⟨⟨o, ho, hnet⟩, heq⟩ | ⟨halone, ⟨hnone, heq⟩ | ⟨e₁, he₁, hcase⟩⟩
  · -- The network handle stays with a clone.
    have hshared : ∃ o ∈ (s.discharge i r).readersOn topic, o.net = r.net :=
      ⟨o, mem_readersOn.2 ⟨by rw [discharge_live]; exact ho, by rw [hnet]; exact ht⟩, hnet⟩
    have hentries : (s.discharge i r).entries = s.entries := by rw [heq]; rfl
    refine ⟨fun {t} hnone => ?_, fun {t e'} he' => ?_⟩
    · rw [hentries] at hnone
      by_cases hne : t = topic
      · subst hne
        exact absurd (he.symm.trans hnone) (by simp)
      · exact hvacant hne hnone
    · rw [hentries] at he'
      by_cases hne : t = topic
      · subst hne
        obtain rfl : e = e' := Option.some.inj (he.symm.trans he')
        exact hserves.drop_shared hshared
      · exact hother hne he'
  · exact absurd (he.symm.trans hnone) (by simp)
  · obtain rfl : e = e₁ := Option.some.inj (he.symm.trans he₁)
    have hcount := h.count_eq_one_iff hfew hi ht he halone
    rcases hcase with ⟨h1, heq⟩ | ⟨h1, heq⟩
    · -- The last reader of the topic goes, and the entry with it.
      have hentries : (s.discharge i r).entries = s.entries.erase topic := by rw [heq]
      refine ⟨fun {t} hnone => ?_, fun {t e'} he' => ?_⟩
      · by_cases hne : t = topic
        · subst hne
          exact hcount.1 h1
        · rw [hentries] at hnone
          exact hvacant hne ((AList.lookup_erase_ne hne).symm.trans hnone)
      · rw [hentries] at he'
        obtain ⟨hne, he'⟩ := lookup_erase_cases he'
        exact hother hne he'
    · have hentries : (s.discharge i r).entries =
          s.entries.insert topic { e with count := e.count - 1 } := by rw [heq]
      refine ⟨fun {t} hnone => ?_, fun {t e'} he' => ?_⟩
      · rw [hentries] at hnone
        by_cases hne : t = topic
        · subst hne
          exact absurd ((AList.lookup_insert s.entries).symm.trans hnone) (by simp)
        · exact hvacant hne ((AList.lookup_insert_ne hne).symm.trans hnone)
      · rw [hentries] at he'
        rcases lookup_insert_cases he' with ⟨rfl, rfl⟩ | ⟨hne, he'⟩
        · refine hserves.drop_alone (fun o ho => halone o ?_) fun hnil => h1 (hcount.2 hnil)
          rw [← discharge_live s i r]
          exact (mem_readersOn.1 ho).1
        · exact hother hne he'

theorem Exact.move {s s' : Roster} {d : Option ℕ} (hg : s.Grounded) (h : s.Exact)
    (hfew : s.live.length < 2 ^ 16) (hmove : s.Move d s') : s'.Exact := by
  cases hmove with
  | idle => exact h
  | join he hm hty hbuf hid ht => exact h.join hg he hm hid ht.topic_eq
  | opened he hm hbuf hid ht => exact h.opened he hm ht.topic_eq
  | cloned hr hm hty hnet hbuf => exact h.cloned hg hr hm hnet
  | dropped hi => exact h.dropped hg hfew hi

/-! ## Ringmasters have the senders of their readers -/

/-- The senders of a registered ringmaster are those of the live readers of its topic. -/
def Voiced (s : Roster) : Prop :=
  ∀ topic e, s.entries.lookup topic = some e →
    (s.senders e.ringmaster).Perm ((s.readersOn topic).map AsbReader.sender)

theorem senders_enlist_of_ne {s : Roster} {r : AsbReader} {m : MasterId} (h : m ≠ r.ringmaster) :
    (s.enlist r).senders m = s.senders m := Function.update_of_ne h _ _

theorem senders_enlist_self {s : Roster} {r : AsbReader} {m : MasterId} (h : r.ringmaster = m) :
    (s.enlist r).senders m = s.senders m ++ [r.sender] := by
  subst h
  exact Function.update_self _ _ _

theorem Voiced.enlist {s : Roster} (hg : s.Grounded) (h : s.Voiced) {topic : String} {e : Entry}
    {r : AsbReader} (he : s.entries.lookup topic = some e) (hm : r.ringmaster = e.ringmaster)
    (ht : r.net.net.topic = some topic) : (s.enlist r).Voiced := by
  intro t e' he'
  by_cases hne : t = topic
  · subst hne
    obtain rfl : e = e' := Option.some.inj (he.symm.trans he')
    rw [senders_enlist_self hm]
    refine ((List.perm_append_singleton _ _).trans ((h t e he).cons _)).trans ?_
    exact ((readersOn_enlist_self ht).symm).map AsbReader.sender
  · have hother : e'.ringmaster ≠ r.ringmaster := fun hm' => hne (hg.apart he' he (hm'.trans hm))
    rw [senders_enlist_of_ne hother, readersOn_enlist_of_ne (ne_topic ht hne)]
    exact h t e' he'

theorem Voiced.dropped {s : Roster} (hg : s.Grounded) (hex : s.Exact) (h : s.Voiced)
    (hids : (s.live.map AsbReader.mySenderId).Nodup) {i : ℕ} {r : AsbReader}
    (hi : s.live[i]? = some r) : (s.discharge i r).Voiced := by
  have hr := List.mem_of_getElem? hi
  obtain ⟨topic, hon⟩ := hg.topical r hr
  have ht := hon.topic_eq
  obtain ⟨e, he, hm⟩ := hex.entry_of_mem hr ht
  have hrs := readersOn_discharge_self hi ht
  -- On the reader's own topic its sender goes; elsewhere nothing does.
  have hown : ((s.silence r).senders e.ringmaster).Perm
      (((s.discharge i r).readersOn topic).map AsbReader.sender) := by
    have hsilence : (s.silence r).senders e.ringmaster =
        (removeFirst (fun b => b.1 == r.mySenderId) (s.senders e.ringmaster)).2 := by
      rw [← hm]
      exact Function.update_self _ _ _
    rw [hsilence]
    refine removeFirst_sender_perm ((h topic e he).trans (hrs.map _)) ?_
    rw [← (hrs.map _).nodup_iff]
    exact hids.sublist (List.filter_sublist.map _)
  have hother : ∀ {t e'}, t ≠ topic → s.entries.lookup t = some e' →
      ((s.silence r).senders e'.ringmaster).Perm
        (((s.discharge i r).readersOn t).map AsbReader.sender) := by
    intro t e' hne he'
    have hquiet : (s.silence r).senders e'.ringmaster = s.senders e'.ringmaster :=
      Function.update_of_ne (fun hm' => hne (hg.apart he' he (hm'.trans hm))) _ _
    rw [hquiet]
    exact (h t e' he').trans ((readersOn_discharge_of_ne hi (ne_topic ht hne)).map _)
  intro t e' he'
  rcases discharge_cases s i ht with ⟨-, heq⟩ | ⟨-, ⟨hnone, heq⟩ | ⟨e₁, he₁, ⟨-, heq⟩ | ⟨-, heq⟩⟩⟩
  · have hsenders : (s.discharge i r).senders = (s.silence r).senders := by rw [heq]
    rw [heq] at he'
    rw [hsenders]
    by_cases hne : t = topic
    · subst hne
      obtain rfl : e = e' := Option.some.inj (he.symm.trans he')
      exact hown
    · exact hother hne he'
  · exact absurd (he.symm.trans hnone) (by simp)
  · obtain rfl : e = e₁ := Option.some.inj (he.symm.trans he₁)
    have hsenders : (s.discharge i r).senders =
        Function.update (s.silence r).senders e.ringmaster [] := by rw [heq]
    rw [heq] at he'
    obtain ⟨hne, he'⟩ := lookup_erase_cases he'
    rw [hsenders, Function.update_of_ne fun hm' => hne (hg.apart he' he hm')]
    exact hother hne he'
  · obtain rfl : e = e₁ := Option.some.inj (he.symm.trans he₁)
    have hsenders : (s.discharge i r).senders = (s.silence r).senders := by rw [heq]
    rw [heq] at he'
    rw [hsenders]
    rcases lookup_insert_cases he' with ⟨rfl, rfl⟩ | ⟨hne, he'⟩
    · exact hown
    · exact hother hne he'

theorem Voiced.move {s s' : Roster} {d : Option ℕ} (hg : s.Grounded) (hex : s.Exact)
    (h : s.Voiced) (hids : (s.live.map AsbReader.mySenderId).Nodup) (hmove : s.Move d s') :
    s'.Voiced := by
  cases hmove with
  | idle => exact h
  | @join topic e r he hm hty hbuf hid hon =>
    have hv := h.enlist hg he hm hon.topic_eq
    intro t e' he'
    rcases lookup_insert_cases he' with ⟨rfl, rfl⟩ | ⟨-, he'⟩
    · exact hv t e he
    · exact hv t e' he'
  | @opened topic tag r hnone hm hbuf hid hon =>
    have ht := hon.topic_eq
    intro t e' he'
    rcases lookup_insert_insert_cases he' with ⟨rfl, rfl⟩ | ⟨hne, he'⟩
    · show (((s.subscribe t tag r.ty).enlist r).senders s.nextMaster).Perm
        (((s.enlist r).readersOn t).map AsbReader.sender)
      -- A topic without an entry has no live reader, so `r` is all that the new ringmaster has.
      have hsenders : (s.subscribe t tag r.ty).senders s.nextMaster = [] :=
        Function.update_self _ _ _
      have hp : ((s.enlist r).readersOn t).Perm (r :: s.readersOn t) := readersOn_enlist_self ht
      rw [hex.vacant hnone] at hp
      rw [senders_enlist_self hm, hsenders]
      exact (hp.symm).map AsbReader.sender
    · have hfresh : e'.ringmaster ≠ s.nextMaster := Nat.ne_of_lt (hg.entry_lt he')
      have hsenders : (s.subscribe topic tag r.ty).senders e'.ringmaster =
          s.senders e'.ringmaster := Function.update_of_ne hfresh _ _
      show (((s.subscribe topic tag r.ty).enlist r).senders e'.ringmaster).Perm
        (((s.enlist r).readersOn t).map AsbReader.sender)
      rw [senders_enlist_of_ne (by rw [hm]; exact hfresh), hsenders,
        readersOn_enlist_of_ne (ne_topic ht hne)]
      exact h t e' he'
  | @cloned r r' hr hm hty hnet hbuf =>
    obtain ⟨topic, hon⟩ := hg.topical r hr
    obtain ⟨e, he, hre⟩ := hex.entry_of_mem hr hon.topic_eq
    exact h.enlist hg he (hm.trans hre) (by rw [hnet]; exact hon.topic_eq)
  | dropped hi => exact h.dropped hg hex hids hi

/-! ## Cancellations -/

/-- A drop of the last reader of a topic, and no other one, cancels at the broker. -/
theorem Exact.cancels_dropped {s : Roster} (hg : s.Grounded) (h : s.Exact)
    (hfew : s.live.length < 2 ^ 16) {i : ℕ} {r : AsbReader} {topic : String}
    (hi : s.live[i]? = some r) (ht : r.net.net.topic = some topic) :
    (s.readersOn topic = [r] → ∃ e q, s.entries.lookup topic = some e ∧
      r.net.net.cancel e = some q ∧ (s.discharge i r).cancels = s.cancels ++ [q]) ∧
    (s.readersOn topic ≠ [r] → (s.discharge i r).cancels = s.cancels) := by
  have hr := List.mem_of_getElem? hi
  obtain ⟨e, he, hm⟩ := h.entry_of_mem hr ht
  have hrs := readersOn_discharge_self hi ht
  have hlast : s.readersOn topic = [r] ↔ (s.discharge i r).readersOn topic = [] := by
    constructor
    · intro hone
      rw [hone] at hrs
      exact List.nil_perm.1 (List.Perm.cons_inv hrs)
    · intro hnil
      rw [hnil] at hrs
      exact List.perm_singleton.1 hrs
  simp only [ne_eq, hlast]
  rcases discharge_cases s i ht with
    ⟨⟨o, ho, hnet⟩, heq⟩ | ⟨halone, ⟨hnone, heq⟩ | ⟨e₁, he₁, hcase⟩⟩
  · -- A clone with the same network handle lives on: the entry is left alone.
    have hmem : o ∈ (s.discharge i r).readersOn topic :=
      mem_readersOn.2 ⟨by rw [discharge_live]; exact ho, by rw [hnet]; exact ht⟩
    exact ⟨fun hnil => absurd hnil (List.ne_nil_of_mem hmem), fun _ => by rw [heq]; rfl⟩
  · exact absurd (he.symm.trans hnone) (by simp)
  · obtain rfl : e = e₁ := Option.some.inj (he.symm.trans he₁)
    have hcount := h.count_eq_one_iff hfew hi ht he halone
    obtain ⟨t, hon⟩ := hg.topical r hr
    obtain ⟨q, hq⟩ := hon.cancel_eq e
    rcases hcase with ⟨h1, heq⟩ | ⟨h1, heq⟩
    · exact ⟨fun _ => ⟨e, q, he, hq, by rw [heq, hq]; rfl⟩, fun hne => absurd (hcount.1 h1) hne⟩
    · exact ⟨fun hnil => absurd (hcount.2 hnil) h1, fun _ => by rw [heq]; rfl⟩

theorem Move.cancels_eq {s s' : Roster} (hmove : s.Move none s') : s'.cancels = s.cancels := by
  cases hmove <;> rfl

end Roster

/-! ## Runs -/

namespace AsbConnection

variable {Val : Type} {qx : QuickXml Val} {config : AsbConfig} {svcName : String}

def readersOn (c : AsbConnection Val) (topic : String) : List AsbReader :=
  c.readers.filter fun r => r.net.net.topic = some topic

/-- The registry is in step with the live readers of a bus topic. -/
structure InStep (c : AsbConnection Val) (topic : String) : Prop where
  entry_iff : (c.asb.readers.lookup topic).isSome ↔ c.readersOn topic ≠ []
  count_eq : ∀ e, c.asb.readers.lookup topic = some e →
    e.count.toNat = ((c.readersOn topic).map AsbReader.net).toFinset.card
  master_eq : ∀ e, c.asb.readers.lookup topic = some e →
    ∀ r ∈ c.readersOn topic, r.ringmaster = e.ringmaster
  senders_perm : ∀ e, c.asb.readers.lookup topic = some e →
    (c.asb.masters e.ringmaster).senders.Perm
      ((c.readersOn topic).map fun r => (r.mySenderId, r.buffer))

def cancels (c : AsbConnection Val) : List BrokerRequest :=
  c.asb.requests.filter BrokerRequest.isCancel

/-- The operation drops the last live reader `r` of the bus topic. -/
def DropsLast (c : AsbConnection Val) (op : Op Val) (r : AsbReader) (topic : String) : Prop :=
  ∃ i, op = .dropReader i ∧ c.readers[i]? = some r ∧ r.net.net.topic = some topic ∧
    c.readersOn topic = [r]

variable (qx config svcName) in
/-- The operation asks for one cancellation when it drops the last live reader of a topic, and
for none otherwise. -/
def CancelsWhenLast (c : AsbConnection Val) (op : Op Val) : Prop :=
  ∀ c', c.step qx config svcName op = some c' →
    (∀ r topic, c.DropsLast op r topic → ∃ e q, c.asb.readers.lookup topic = some e ∧
      r.net.net.cancel e = some q ∧ c'.cancels = c.cancels ++ [q]) ∧
    ((∀ r topic, ¬ c.DropsLast op r topic) → c'.cancels = c.cancels)

/-- Fewer readers are alive than a 16-bit count can tell apart. -/
def Few (c : AsbConnection Val) : Prop := c.readers.length < 65536

/-- The live readers have senders with ids of their own. -/
def DistinctIds (c : AsbConnection Val) : Prop := (c.readers.map AsbReader.mySenderId).Nodup

instance : DecidablePred (Few : AsbConnection Val → Prop) :=
  fun c => inferInstanceAs (Decidable (c.readers.length < 65536))

instance : DecidablePred (DistinctIds : AsbConnection Val → Prop) :=
  fun c => inferInstanceAs (Decidable (c.readers.map AsbReader.mySenderId).Nodup)

/-- What a run without poll errors keeps, whatever the counts. -/
structure Sound (c : AsbConnection Val) : Prop where
  brokered : c.Brokered
  grounded : c.roster.Grounded
  backed : c.roster.Backed

theorem sound_connected {kind : NetworkKind} (hkind : kind = .amqp ∨ kind = .mqtt)
    (exchange : Option String) : (connected kind exchange : AsbConnection Val).Sound where
  brokered := hkind
  grounded := by
    constructor <;> simp [roster, NetAsb.roster, connected, NetAsb.new]
  backed := by
    intro topic e he
    cases he

theorem exact_connected (kind : NetworkKind) (exchange : Option String) :
    (connected kind exchange : AsbConnection Val).roster.Exact where
  vacant := fun _ => rfl
  serves := by
    intro topic e he
    cases he

theorem Sound.step {c c' : AsbConnection Val} {op : Op Val} (h : c.Sound)
    (hop : op.isPollError = false) (hs : c.step qx config svcName op = some c') : c'.Sound := by
  have hmove := step_rosterMove h.brokered hop hs
  refine ⟨?_, h.grounded.move hmove, h.backed.move h.grounded hmove⟩
  rw [Brokered, (step_frame hs).1]
  exact h.brokered

theorem exact_step {c c' : AsbConnection Val} {op : Op Val} (h : c.Sound) (hex : c.roster.Exact)
    (hfew : c.Few) (hop : op.isPollError = false)
    (hs : c.step qx config svcName op = some c') : c'.roster.Exact :=
  hex.move h.grounded hfew (step_rosterMove h.brokered hop hs)

theorem always_exact {kind : NetworkKind} (hkind : kind = .amqp ∨ kind = .mqtt)
    (exchange : Option String) {is : List (Op Val)}
    (hops : EachStep (step qx config svcName) (fun _ op => op.isPollError = false)
      (connected kind exchange) is)
    (hfew : Always (step qx config svcName) Few (connected kind exchange) is) :
    Always (step qx config svcName) (fun c => c.Sound ∧ c.roster.Exact)
      (connected kind exchange) is := by
  refine Always.of_inv_bounded (fun c op c' h hfew hop hs _ => ?_)
    ⟨sound_connected hkind exchange, exact_connected kind exchange⟩ hfew hops
  exact ⟨h.1.step hop hs, exact_step h.1 h.2 hfew hop hs⟩

theorem always_voiced {kind : NetworkKind} (hkind : kind = .amqp ∨ kind = .mqtt)
    (exchange : Option String) {is : List (Op Val)}
    (hops : EachStep (step qx config svcName) (fun _ op => op.isPollError = false)
      (connected kind exchange) is)
    (hfew : Always (step qx config svcName) Few (connected kind exchange) is)
    (hids : Always (step qx config svcName) DistinctIds (connected kind exchange) is) :
    Always (step qx config svcName) (fun c => c.roster.Voiced) (connected kind exchange) is := by
  have hvoiced : (connected kind exchange : AsbConnection Val).roster.Voiced := by
    intro topic e he
    cases he
  refine Always.of_inv_bounded (fun c op c' h hb hop hs _ => ?_) hvoiced
    ((always_exact hkind exchange hops hfew).and hids) hops
  exact h.move hb.1.1.grounded hb.1.2 hb.2 (step_rosterMove hb.1.1.brokered hop hs)

theorem inStep_of_exact {c : AsbConnection Val} (h : c.roster.Exact) (hv : c.roster.Voiced)
    (hfew : c.Few) (topic : String) : c.InStep topic := by
  refine ⟨?_, ?_, fun e he => (h.serves he).master_eq, fun e he => hv topic e he⟩
  · constructor
    · intro hsome
      obtain ⟨e, he⟩ := Option.isSome_iff_exists.1 hsome
      exact (h.serves he).occupied
    · intro hne
      cases hl : c.asb.readers.lookup topic with
      | none => exact absurd (h.vacant hl) hne
      | some e => rfl
  · intro e he
    have hlt : netCount (c.readersOn topic) < 2 ^ 16 :=
      ((netCount_le_length _).trans (List.length_filter_le _ _)).trans_lt hfew
    rw [(h.serves he).count_eq]
    exact toNat_counted_of_lt hlt

theorem cancelsWhenLast_of_exact {c : AsbConnection Val} {op : Op Val} (h : c.Sound)
    (hex : c.roster.Exact) (hfew : c.Few) (hop : op.isPollError = false) :
    c.CancelsWhenLast qx config svcName op := by
  intro c' hs
  have hmove := step_rosterMove h.brokered hop hs
  by_cases hdrop : ∃ i, op = .dropReader i
  · obtain ⟨i, rfl⟩ := hdrop
    obtain ⟨r, hr, rfl⟩ := step_dropReader hs
    have hros : NetAsb.roster (c.asb.dropReader r (c.readers.eraseIdx i)) (c.readers.eraseIdx i) =
        c.roster.discharge i r := NetAsb.roster_dropReader c.asb c.readers i r
    have hcancels : ∀ q, (c.roster.discharge i r).cancels = q →
        (c.asb.dropReader r (c.readers.eraseIdx i)).requests.filter BrokerRequest.isCancel = q := by
      intro q hq
      rw [← hq, ← hros]
      rfl
    obtain ⟨t, hon⟩ := h.grounded.topical r (List.mem_of_getElem? hr)
    obtain ⟨hlast, hnot⟩ := hex.cancels_dropped h.grounded hfew hr hon.topic_eq
    constructor
    · rintro r' topic ⟨j, hij, hr', ht, hone⟩
      cases hij
      obtain rfl : r = r' := Option.some.inj (hr.symm.trans hr')
      obtain rfl : t = topic := Option.some.inj (hon.topic_eq.symm.trans ht)
      obtain ⟨e, q, he, hq, hcan⟩ := hlast hone
      exact ⟨e, q, he, hq, hcancels _ hcan⟩
    · intro hno
      refine hcancels _ (hnot fun hone => hno r t ⟨i, rfl, hr, hon.topic_eq, hone⟩)
  · have hnone : op.drops = none := by
      cases op <;> first | rfl | exact absurd ⟨_, rfl⟩ hdrop
    rw [hnone] at hmove
    constructor
    · rintro r topic ⟨i, hi, -⟩
      exact absurd ⟨i, hi⟩ hdrop
    · intro _
      exact hmove.cancels_eq

/-- **The life of readers.** Over every run of operations on a broker-backed network without a
failing poll, the registry stays in step with the live readers of every bus topic, and the broker
is asked for a cancellation exactly where the last reader of a topic is dropped. -/
theorem reader_lifecycle (kind : NetworkKind) (hkind : kind = .amqp ∨ kind = .mqtt)
    (exchange : Option String) (is : List (Op Val))
    (hops : EachStep (step qx config svcName) (fun _ op => op.isPollError = false)
      (connected kind exchange) is)
    (hfew : Always (step qx config svcName) Few (connected kind exchange) is)
    (hids : Always (step qx config svcName) DistinctIds (connected kind exchange) is) :
    Always (step qx config svcName) (fun c => ∀ topic, c.InStep topic)
      (connected kind exchange) is ∧
    EachStep (step qx config svcName) (CancelsWhenLast qx config svcName)
      (connected kind exchange) is := by
  have hinv := (always_exact hkind exchange hops hfew).and hfew
  constructor
  · refine (hinv.and (always_voiced hkind exchange hops hfew hids)).mono fun c h topic => ?_
    exact inStep_of_exact h.1.1.2 h.2 h.1.2 topic
  · refine EachStep.of_always (fun c op h hop => ?_) hinv hops
    exact cancelsWhenLast_of_exact h.1.1 h.1.2 h.2 hop

/-- A reader, its clone and a reader of another type on another topic, dropped in turn. -/
theorem reader_lifecycle_two_topics :
    Always (step .unit (.withBusTopics "svc" []) "svc") (fun c => ∀ topic, c.InStep topic)
      (connected .mqtt none)
      [.createReader ⟨0⟩ "t" .accepting 1, .cloneReader 0 2, .createReader ⟨1⟩ "u" .accepting 3,
        .dropReader 0, .dropReader 0, .dropReader 0] ∧
    EachStep (step .unit (.withBusTopics "svc" []) "svc")
      (CancelsWhenLast .unit (.withBusTopics "svc" []) "svc") (connected .mqtt none)
      [.createReader ⟨0⟩ "t" .accepting 1, .cloneReader 0 2, .createReader ⟨1⟩ "u" .accepting 3,
        .dropReader 0, .dropReader 0, .dropReader 0] :=
  reader_lifecycle .mqtt (.inr rfl) none _ (by decide) (by decide) (by decide)

end AsbConnection

end Rounac

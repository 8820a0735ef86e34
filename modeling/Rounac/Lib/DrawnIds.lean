import Mathlib.Data.List.Perm.Subperm
import Rounac.Lib.StepSystem
import Rounac.Lib.SwapRemove

/-!
# Registries with drawn ids

Elements are registered in places, each under an id that is drawn and not looked at, and are removed
by their ids. Whoever registered an element keeps a ticket: the place, the id, and the address of
the element, which tells it from all others. A removal looks for the id, and takes out the first
element that has it.

All removals hit their own elements as long as tickets of one place have distinct ids
(`Sound.exact`). As soon as two share an id and the element of one is registered, the removal by one
of the tickets hits the wrong element (`not_exact_of_same_id`).

In a system whose tickets are never taken back, removals hit their own elements along exactly the
runs that draw distinct ids (`Lists.exact_iff`).
-/

namespace DrawnIds

open StepSystem SwapRemove

variable {P κ : Type*}

/-- What is left of a registration with the one who made it. -/
structure Ticket (P κ : Type*) where
  place : P
  id : κ
  token : ℕ

/-- The tickets that are out, and the elements of each place, with their ids and addresses.
Addresses from `next` on are not in use. -/
structure Registry (P κ : Type*) where
  tickets : List (Ticket P κ)
  elements : P → List (κ × ℕ)
  next : ℕ

namespace Registry

/-- The removal with a ticket takes out the element of the ticket, if it is there, and no other. -/
def Hits [DecidableEq κ] (s : Registry P κ) (t : Ticket P κ) : Prop :=
  (removeFirst (fun x => x.1 == t.id) (s.elements t.place)).2.Perm
    ((s.elements t.place).filter fun x => x.2 ≠ t.token)

/-- Every removal hits its own element. -/
def Exact [DecidableEq κ] (s : Registry P κ) : Prop := ∀ t ∈ s.tickets, s.Hits t

/-- Every element has its ticket, and tickets of one place have distinct ids. -/
structure Sound (s : Registry P κ) : Prop where
  tokens : (s.tickets.map Ticket.token).Nodup
  below : ∀ t ∈ s.tickets, t.token < s.next
  elementTokens : ∀ p, ((s.elements p).map Prod.snd).Nodup
  owned : ∀ p, ∀ x ∈ s.elements p, ∃ t ∈ s.tickets, t.place = p ∧ t.id = x.1 ∧ t.token = x.2
  ids : ∀ t ∈ s.tickets, ∀ u ∈ s.tickets, t.place = u.place → t.id = u.id → t.token = u.token

variable {s s' : Registry P κ} {t u : Ticket P κ}

theorem Sound.eq_of_token (h : s.Sound) (ht : t ∈ s.tickets) (hu : u ∈ s.tickets)
    (heq : t.token = u.token) : t = u :=
  List.inj_on_of_nodup_map h.tokens ht hu heq

/-- **In a sound registry removals hit their own elements.** -/
theorem Sound.exact [DecidableEq κ] (h : s.Sound) : s.Exact := by
  intro t ht
  unfold Hits
  by_cases hex : ∃ x ∈ s.elements t.place, x.1 = t.id
  · -- The element found is the ticket's, for its own ticket has the same id.
    obtain ⟨y, hy, -, hperm⟩ := exists_cons_perm (p := fun x : κ × ℕ => x.1 == t.id)
      (l := s.elements t.place) (by simpa using hex)
    have hmem : y ∈ s.elements t.place := hperm.mem_iff.2 List.mem_cons_self
    obtain ⟨u, hu, hplace, hid, htoken⟩ := h.owned t.place y hmem
    have hown : y.2 = t.token := by
      rw [← htoken]
      exact h.ids u hu t ht hplace (hid.trans (beq_iff_eq.1 hy))
    have hnd : y.2 ∉ (removeFirst (fun x => x.1 == t.id) (s.elements t.place)).2.map Prod.snd :=
      (List.nodup_cons.1 (((hperm.map Prod.snd).nodup_iff).1 (h.elementTokens t.place))).1
    refine .trans (List.Perm.of_eq ?_) (hperm.filter _).symm
    rw [List.filter_cons_of_neg (by simp [hown])]
    refine (List.filter_eq_self.2 fun x hx => ?_).symm
    have hne : x.2 ≠ t.token := fun heq => hnd (by
      rw [hown, ← heq]
      exact List.mem_map_of_mem hx)
    simpa using hne
  · have hnone : ∀ x ∈ s.elements t.place, (x.1 == t.id) = false := fun x hx =>
      beq_eq_false_iff_ne.2 fun heq => hex ⟨x, hx, heq⟩
    rw [removeFirst_of_not_mem hnone]
    refine List.Perm.of_eq (List.filter_eq_self.2 fun x hx => ?_).symm
    obtain ⟨u, hu, -, hid, htoken⟩ := h.owned t.place x hx
    have hne : x.2 ≠ t.token := by
      intro heq
      have hut : u = t := h.eq_of_token hu ht (htoken.trans heq)
      exact hex ⟨x, hx, by rw [← hid, hut]⟩
    simpa using hne

/-- **Two tickets of one id are one too many**, when the element of one is registered. -/
theorem not_exact_of_same_id [DecidableEq κ] (ht : t ∈ s.tickets) (hu : u ∈ s.tickets)
    (hplace : u.place = t.place) (hid : u.id = t.id) (htoken : u.token ≠ t.token)
    (hmem : (t.id, t.token) ∈ s.elements t.place) : ¬ s.Exact := by
  intro h
  have hhits := h u hu
  rw [Hits, hplace, hid] at hhits
  have hsame := (h t ht).symm.trans hhits
  have hin : (t.id, t.token) ∈ (s.elements t.place).filter fun x => x.2 ≠ t.token := by
    refine hsame.mem_iff.2 (List.mem_filter.2 ⟨hmem, ?_⟩)
    simpa using htoken.symm
  simpa using (List.mem_filter.1 hin).2

/-! ## Steps -/

theorem nodup_map_of_subperm {α β : Type*} {f : α → β} {l l' : List α} (h : l.Subperm l')
    (hnd : (l'.map f).Nodup) : (l.map f).Nodup := by
  obtain ⟨k, hperm, hsub⟩ := h
  exact ((hperm.map f).nodup_iff).1 (hnd.sublist (hsub.map f))

/-- What a step does to a registry, with the ticket that it hands out, if any. -/
inductive Step (s s' : Registry P κ) : Option (Ticket P κ) → Prop
  /-- Elements and tickets go, but no ticket of an element that stays. -/
  | shrunk (hnext : s.next ≤ s'.next) (htickets : s'.tickets.Subperm s.tickets)
      (helements : ∀ p, (s'.elements p).Subperm (s.elements p))
      (hkept : ∀ t ∈ s.tickets, (t.id, t.token) ∈ s'.elements t.place → t ∈ s'.tickets) :
      Step s s' none
  /-- An element is registered, in a place that may have been cleared before. -/
  | added {t : Ticket P κ} {base : List (κ × ℕ)} (htoken : t.token = s.next)
      (hnext : s'.next = s.next + 1) (htickets : s'.tickets = s.tickets ++ [t])
      (hbase : base.Subperm (s.elements t.place))
      (hplace : s'.elements t.place = base ++ [(t.id, t.token)])
      (helements : ∀ p, p ≠ t.place → (s'.elements p).Subperm (s.elements p)) :
      Step s s' (some t)
  /-- A ticket is handed out for an element that is not registered, in a place of its own. -/
  | issued {t : Ticket P κ} (htoken : t.token = s.next) (hnext : s'.next = s.next + 1)
      (htickets : s'.tickets = s.tickets ++ [t]) (halone : ∀ u ∈ s.tickets, u.place ≠ t.place)
      (helements : ∀ p, (s'.elements p).Subperm (s.elements p)) :
      Step s s' (some t)

theorem Step.refl (s : Registry P κ) : Step s s none :=
  .shrunk (Nat.le_refl _) (List.Subperm.refl _) (fun _ => List.Subperm.refl _) fun _ ht _ => ht

theorem Step.eq_some_of_tickets {o : Option (Ticket P κ)} (h : Step s s' o)
    (htickets : s'.tickets = s.tickets ++ [t]) : o = some t := by
  cases h with
  | shrunk _ hsub =>
    have hlen := hsub.length_le
    rw [htickets, List.length_append, List.length_singleton] at hlen
    omega
  | added _ _ hnew => rw [(List.cons.inj (List.append_cancel_left (htickets.symm.trans hnew))).1]
  | issued _ _ hnew => rw [(List.cons.inj (List.append_cancel_left (htickets.symm.trans hnew))).1]

/-- No ticket that is out has the place and the id of the new one. -/
def Fresh (s : Registry P κ) (t : Ticket P κ) : Prop :=
  ∀ u ∈ s.tickets, u.place = t.place → u.id ≠ t.id

theorem Sound.append (h : s.Sound) (htoken : t.token = s.next) (hnext : s'.next = s.next + 1)
    (htickets : s'.tickets = s.tickets ++ [t]) (hfresh : s.Fresh t)
    (helements : ∀ p, ((s'.elements p).map Prod.snd).Nodup)
    (howned : ∀ p, ∀ x ∈ s'.elements p, x ∈ s.elements p ∨ p = t.place ∧ x = (t.id, t.token)) :
    s'.Sound where
  tokens := by
    rw [htickets]
    refine nodup_append_singleton h.tokens fun u hu => ?_
    rw [htoken]
    exact Nat.ne_of_lt (h.below u hu)
  below := by
    intro u hu
    rw [htickets] at hu
    rw [hnext]
    rcases List.mem_append.1 hu with hu | hu
    · exact Nat.lt_succ_of_lt (h.below u hu)
    · rw [List.mem_singleton.1 hu, htoken]
      exact Nat.lt_succ_self _
  elementTokens := helements
  owned := by
    intro p x hx
    rw [htickets]
    rcases howned p x hx with hold | ⟨rfl, rfl⟩
    · obtain ⟨u, hu, hown⟩ := h.owned p x hold
      exact ⟨u, List.mem_append_left _ hu, hown⟩
    · exact ⟨t, List.mem_append_right _ List.mem_cons_self, rfl, rfl, rfl⟩
  ids := by
    intro v hv w hw hplace hid
    rw [htickets] at hv hw
    rcases List.mem_append.1 hv with hv | hv <;> rcases List.mem_append.1 hw with hw | hw
    · exact h.ids v hv w hw hplace hid
    · cases List.mem_singleton.1 hw
      exact absurd hid (hfresh v hv hplace)
    · cases List.mem_singleton.1 hv
      exact absurd hid.symm (hfresh w hw hplace.symm)
    · rw [List.mem_singleton.1 hv, List.mem_singleton.1 hw]

theorem Sound.token_lt (h : s.Sound) {p : P} {x : κ × ℕ} (hx : x ∈ s.elements p) :
    x.2 < s.next := by
  obtain ⟨u, hu, -, -, htoken⟩ := h.owned p x hx
  rw [← htoken]
  exact h.below u hu

/-- **A registry stays sound**, if the tickets handed out are fresh. -/
theorem Sound.step {o : Option (Ticket P κ)} (h : s.Sound) (hstep : Step s s' o)
    (hfresh : ∀ t, o = some t → s.Fresh t) : s'.Sound := by
  cases hstep with
  | shrunk hnext htickets helements hkept =>
    have hmem : ∀ t ∈ s'.tickets, t ∈ s.tickets := fun t ht => htickets.subset ht
    exact {
      tokens := nodup_map_of_subperm htickets h.tokens
      below := fun t ht => Nat.lt_of_lt_of_le (h.below t (hmem t ht)) hnext
      elementTokens := fun p => nodup_map_of_subperm (helements p) (h.elementTokens p)
      owned := by
        intro p x hx
        obtain ⟨t, ht, rfl, hid, htoken⟩ := h.owned p x ((helements p).subset hx)
        refine ⟨t, hkept t ht ?_, rfl, hid, htoken⟩
        rw [hid, htoken]
        exact hx
      ids := fun t ht u hu => h.ids t (hmem t ht) u (hmem u hu) }
  | @added t base htoken hnext htickets hbase hplace helements =>
    refine h.append htoken hnext htickets (hfresh t rfl) (fun p => ?_) fun p x hx => ?_
    · by_cases hp : p = t.place
      · rw [hp, hplace]
        refine nodup_append_singleton
          (nodup_map_of_subperm hbase (h.elementTokens _)) fun x hx => ?_
        -- Addresses are given out in order, so the new element has none of the old.
        have hlt := h.token_lt (hbase.subset hx)
        rw [← htoken] at hlt
        exact Nat.ne_of_lt hlt
      · exact nodup_map_of_subperm (helements p hp) (h.elementTokens p)
    · by_cases hp : p = t.place
      · subst hp
        rw [hplace] at hx
        rcases List.mem_append.1 hx with hx | hx
        · exact .inl (hbase.subset hx)
        · exact .inr ⟨rfl, List.mem_singleton.1 hx⟩
      · exact .inl ((helements p hp).subset hx)
  | @issued t htoken hnext htickets halone helements =>
    refine h.append htoken hnext htickets (fun u hu hp => absurd hp (halone u hu))
      (fun p => nodup_map_of_subperm (helements p) (h.elementTokens p)) fun p x hx => ?_
    exact .inl ((helements p).subset hx)

/-- **A step after which removals hit their own elements hands out a fresh ticket.** -/
theorem Sound.fresh_of_exact [DecidableEq κ] (h : s.Sound) (hstep : Step s s' (some t))
    (hexact : s'.Exact) :
    s.Fresh t := by
  cases hstep with
  | @added t base htoken hnext htickets hbase hplace helements =>
    intro u hu hp hid
    have hne : u.token ≠ t.token := by
      rw [htoken]
      exact Nat.ne_of_lt (h.below u hu)
    refine not_exact_of_same_id (t := t) (u := u) ?_ ?_ hp hid hne ?_ hexact
    · rw [htickets]
      exact List.mem_append_right _ List.mem_cons_self
    · rw [htickets]
      exact List.mem_append_left _ hu
    · rw [hplace]
      exact List.mem_append_right _ List.mem_cons_self
  | issued htoken hnext htickets halone helements => exact fun u hu hp => absurd hp (halone u hu)

end Registry

/-! ## Systems that take no ticket back -/

/-- The tickets of ids that were drawn one after another for one place. -/
def ticketsOf (ids : List κ) : List (Ticket Unit κ) := ids.mapIdx fun k id => ⟨(), id, k⟩

/-- A registry of one place, with all its tickets out. -/
def listing (ids : List κ) (elements : List (κ × ℕ)) : Registry Unit κ where
  tickets := ticketsOf ids
  elements := fun _ => elements
  next := ids.length

theorem mem_ticketsOf {ids : List κ} {t : Ticket Unit κ} :
    t ∈ ticketsOf ids ↔ ids[t.token]? = some t.id := by
  unfold ticketsOf
  rw [List.mem_mapIdx]
  constructor
  · rintro ⟨k, hk, rfl⟩
    exact List.getElem?_eq_getElem hk
  · intro h
    obtain ⟨hk, hid⟩ := List.getElem?_eq_some_iff.1 h
    exact ⟨t.token, hk, by rw [hid]⟩

theorem fresh_listing_iff {ids : List κ} {elements : List (κ × ℕ)} {t : Ticket Unit κ} :
    (listing ids elements).Fresh t ↔ t.id ∉ ids := by
  constructor
  · intro h hid
    obtain ⟨k, hk⟩ := List.mem_iff_getElem?.1 hid
    exact h ⟨(), t.id, k⟩ (mem_ticketsOf.2 hk) rfl rfl
  · intro h u hu _ heq
    exact h (heq ▸ List.mem_of_getElem? (mem_ticketsOf.1 hu))

/-- Removals from a list of other elements, each with an id and an address of its own. -/
theorem exact_listing_map_iff [DecidableEq κ] {α : Type*} {f : α → κ × ℕ}
    (hf : Function.Injective f) (ids : List κ) (l : List α) :
    (listing ids (l.map f)).Exact ↔ ∀ k id, ids[k]? = some id →
      (removeFirst (fun a => (f a).1 == id) l).2.Perm (l.filter fun a => (f a).2 ≠ k) := by
  have hhits : ∀ t : Ticket Unit κ, (listing ids (l.map f)).Hits t ↔
      (removeFirst (fun a => (f a).1 == t.id) l).2.Perm (l.filter fun a => (f a).2 ≠ t.token) := by
    intro t
    show (removeFirst (fun x => x.1 == t.id) (l.map f)).2.Perm
      ((l.map f).filter fun x => x.2 ≠ t.token) ↔ _
    rw [removeFirst_map, List.filter_map, List.map_perm_map_iff hf]
    rfl
  constructor
  · intro h k id hid
    exact (hhits ⟨(), id, k⟩).1 (h _ (mem_ticketsOf.2 hid))
  · intro h t ht
    exact (hhits t).2 (h t.token t.id (mem_ticketsOf.1 ht))

section

variable {σ ι : Type*}

/-- A system keeps a list of elements. A step that draws an id registers an element at the next
address under it; any other step may drop elements. -/
structure Lists (step : σ → ι → Option σ) (elements : σ → List (κ × ℕ)) (next : σ → ℕ)
    (draws : ι → Option κ) : Prop where
  added : ∀ {s i s' id}, step s i = some s' → draws i = some id →
    elements s' = elements s ++ [(id, next s)] ∧ next s' = next s + 1
  kept : ∀ {s i s'}, step s i = some s' → draws i = none →
    (elements s').Subperm (elements s) ∧ next s' = next s

variable {step : σ → ι → Option σ} {elements : σ → List (κ × ℕ)} {next : σ → ℕ}
  {draws : ι → Option κ}

/-- The elements of a system, with the ids of its past. -/
def history (elements : σ → List (κ × ℕ)) (draws : ι → Option κ) (s : σ × List ι) :
    Registry Unit κ :=
  listing (s.2.filterMap draws) (elements s.1)

theorem Lists.moves (h : Lists step elements next draws) {s s' : σ × List ι} {i : ι}
    (hs : withPast step s i = some s') (hnext : next s.1 = (s.2.filterMap draws).length) :
    Registry.Step (history elements draws s) (history elements draws s')
        ((draws i).map fun id => ⟨(), id, next s.1⟩) ∧
      next s'.1 = (s'.2.filterMap draws).length := by
  obtain ⟨hstep, hpast⟩ := withPast_eq_some hs
  cases hdraw : draws i with
  | none =>
    obtain ⟨hsub, heq⟩ := h.kept hstep hdraw
    have hids : s'.2.filterMap draws = s.2.filterMap draws := by
      rw [hpast, List.filterMap_append, List.filterMap_cons_none hdraw, List.filterMap_nil,
        List.append_nil]
    refine ⟨?_, by rw [heq, hids, hnext]⟩
    unfold history
    rw [hids]
    exact .shrunk (Nat.le_refl _) (List.Subperm.refl _) (fun _ => hsub) fun _ ht _ => ht
  | some id =>
    obtain ⟨happend, heq⟩ := h.added hstep hdraw
    have hids : s'.2.filterMap draws = s.2.filterMap draws ++ [id] := by
      rw [hpast, List.filterMap_append, List.filterMap_cons_some hdraw, List.filterMap_nil]
    refine ⟨?_, by rw [heq, hids, hnext, List.length_append, List.length_singleton]⟩
    unfold history
    rw [hids, happend]
    refine .added (t := ⟨(), id, next s.1⟩) hnext ?_ ?_ (List.Subperm.refl (elements s.1)) rfl
      fun p hp => absurd rfl hp
    · exact List.length_append
    · show ticketsOf _ = _
      rw [hnext, ticketsOf, List.mapIdx_concat]
      rfl

variable [DecidableEq κ]

/-- **Removals hit their own elements along exactly the runs that draw distinct ids.** -/
theorem Lists.exact_iff (h : Lists step elements next draws) {s : σ} (helements : elements s = [])
    (hnext : next s = 0) (is : List ι) :
    Always (withPast step) (fun s => (history elements draws s).Exact) (s, []) is ↔
      EachStep (withPast step) (fun s i => ∀ id, draws i = some id → id ∉ s.2.filterMap draws)
        (s, []) is := by
  refine always_iff_eachStep
    (fun s => (history elements draws s).Sound ∧ next s.1 = (s.2.filterMap draws).length)
    (fun s hs => hs.1.exact) (fun s i s' hs hfresh hstep => ?_) (fun s i s' hs hstep hexact => ?_)
    is ?_
  · obtain ⟨hmove, hnext'⟩ := h.moves hstep hs.2
    refine ⟨hs.1.step hmove fun t ht => ?_, hnext'⟩
    obtain ⟨id, hid, rfl⟩ := Option.map_eq_some_iff.1 ht
    exact fresh_listing_iff.2 (hfresh id hid)
  · intro id hid
    obtain ⟨hmove, -⟩ := h.moves hstep hs.2
    rw [hid] at hmove
    exact fresh_listing_iff.1 (hs.1.fresh_of_exact hmove hexact)
  · refine ⟨?_, hnext⟩
    unfold history
    dsimp only
    rw [helements]
    exact {
      tokens := List.nodup_nil
      below := fun t ht => absurd ht List.not_mem_nil
      elementTokens := fun _ => List.nodup_nil
      owned := fun _ x hx => absurd hx List.not_mem_nil
      ids := fun t ht => absurd ht List.not_mem_nil }

end

end DrawnIds

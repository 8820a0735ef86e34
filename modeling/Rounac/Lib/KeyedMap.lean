import Mathlib.Data.List.AList

/-!
# Maps over keyed lists

An `AList` whose values do not depend on the keys is a map. `mapVals` changes its values, and the
union of maps without a common key is their concatenation.
-/

namespace KeyedMap

variable {α β γ : Type*}

def mapEntries (f : β → γ) (l : List (Sigma fun _ : α => β)) : List (Sigma fun _ : α => γ) :=
  l.map fun e => ⟨e.1, f e.2⟩

@[simp] theorem keys_mapEntries (f : β → γ) (l : List (Sigma fun _ : α => β)) :
    (mapEntries f l).keys = l.keys := by
  unfold mapEntries List.keys
  rw [List.map_map]
  rfl

def mapVals (f : β → γ) (m : AList fun _ : α => β) : AList fun _ : α => γ :=
  ⟨mapEntries f m.entries, by
    have hnd := m.nodupKeys
    unfold List.NodupKeys at *
    rwa [keys_mapEntries]⟩

@[simp] theorem entries_mapVals (f : β → γ) (m : AList fun _ : α => β) :
    (mapVals f m).entries = mapEntries f m.entries := rfl

@[simp] theorem mem_mapVals {f : β → γ} {m : AList fun _ : α => β} {a : α} :
    a ∈ mapVals f m ↔ a ∈ m := by
  rw [AList.mem_keys, AList.mem_keys, AList.keys, AList.keys, entries_mapVals, keys_mapEntries]

theorem mapVals_eq_self_iff {f : β → β} {m : AList fun _ : α => β} :
    mapVals f m = m ↔ ∀ e ∈ m.entries, f e.2 = e.2 := by
  rw [AList.ext_iff, entries_mapVals, mapEntries]
  constructor
  · intro h e he
    have hid : m.entries.map (fun e => (⟨e.1, f e.2⟩ : Sigma fun _ : α => β)) =
        m.entries.map id := h.trans (List.map_id _).symm
    exact eq_of_heq (Sigma.mk.inj (List.map_inj_left.1 hid e he)).2
  · intro h
    refine (List.map_congr_left fun e he => ?_).trans (List.map_id _)
    rw [h e he]
    rfl

variable [DecidableEq α]

theorem lookup_mapVals (f : β → γ) (m : AList fun _ : α => β) (a : α) :
    (mapVals f m).lookup a = (m.lookup a).map f := by
  obtain ⟨l, hl⟩ := m
  show List.dlookup a (mapEntries f l) = (List.dlookup a l).map f
  clear hl
  induction l with
  | nil => rfl
  | cons e l ih =>
    by_cases he : e.1 = a
    · subst he
      rw [List.dlookup_cons_eq]
      exact List.dlookup_cons_eq _ _ _
    · rw [List.dlookup_cons_ne _ _ (Ne.symm he), ← ih]
      exact List.dlookup_cons_ne _ _ (Ne.symm he)

theorem kunion_of_disjoint {l₁ l₂ : List (Sigma fun _ : α => β)} (h : ∀ a ∈ l₁.keys, a ∉ l₂.keys) :
    l₁.kunion l₂ = l₁ ++ l₂ := by
  induction l₁ with
  | nil => rfl
  | cons e l₁ ih =>
    rw [List.kunion_cons, List.kerase_of_notMem_keys (h e.1 List.mem_cons_self), List.cons_append,
      ih fun a ha => h a (List.mem_cons_of_mem _ ha)]

theorem entries_union {m₁ m₂ : AList fun _ : α => β} (h : ∀ a ∈ m₁, a ∉ m₂) :
    (m₁ ∪ m₂).entries = m₁.entries ++ m₂.entries :=
  kunion_of_disjoint h

theorem erase_union_insert {m : AList fun _ : α => β} {a : α} (b : β) (ha : a ∉ m) :
    (m ∪ (∅ : AList fun _ : α => β).insert a b).erase a = m := by
  have hdisjoint : ∀ k ∈ m, k ∉ (∅ : AList fun _ : α => β).insert a b := by
    intro k hk hins
    rcases (AList.mem_insert _).1 hins with rfl | hins
    · exact ha hk
    · exact AList.notMem_empty k hins
  refine AList.ext ?_
  show ((m ∪ (∅ : AList fun _ : α => β).insert a b).entries).kerase a = m.entries
  rw [entries_union hdisjoint]
  have hnot : a ∉ m.entries.keys := ha
  rw [List.kerase_append_right hnot]
  simp

theorem foldr_insert {l : List (Sigma fun _ : α => β)} (h : l.NodupKeys) :
    l.foldr (fun e m => m.insert e.1 e.2) (∅ : AList fun _ : α => β) = ⟨l, h⟩ := by
  induction l with
  | nil => rfl
  | cons e l ih =>
    rw [List.foldr_cons, ih (List.nodupKeys_of_nodupKeys_cons h), AList.mk_cons_eq_insert]

end KeyedMap

import Rounac.Lib.TaskPool
import Rounac.Networks.Steps

/-!
# The type check of a client topic

The topic table keeps, for each client topic, a possession count and the type of the first handle
ever made on it. `getTopicCtr::<T>` accepts when the stored type is `T` or nobody but the table
owns the counter. The stored type is not replaced when an emptied topic is taken over by another
type, so the check is right on the runs that never do that, and on no others
(`topic_type_agreement_iff`).

* `TopicMove` — what a step does to the table and to the live handles.
* `Counted` — the count of a topic is the number of its live handles, the table included.
* `Typed` — every live handle has the type stored for its topic.
-/

namespace Rounac

open StepSystem WrapCounter

/-! ## The topic table -/

namespace TopicTable

theorem lookup_retain_self {topics : TopicTable} {topic : String} {count : PossessCtr} {S : TypeId}
    (h : topics.lookup topic = some (count, S)) :
    (topics.retain topic).lookup topic = some (count.clone, S) := by
  simp [retain, h]

theorem lookup_retain_of_ne {topics : TopicTable} {topic k : String} (h : k ≠ topic) :
    (topics.retain topic).lookup k = topics.lookup k := by
  unfold retain
  split
  · exact AList.lookup_insert_ne h
  · rfl

theorem lookup_release_self {topics : TopicTable} {topic : String} {count : PossessCtr}
    {S : TypeId} (h : topics.lookup topic = some (count, S)) :
    (topics.release topic).lookup topic = some (count.drop, S) := by
  simp [release, h]

theorem lookup_release_of_ne {topics : TopicTable} {topic k : String} (h : k ≠ topic) :
    (topics.release topic).lookup k = topics.lookup k := by
  unfold release
  split
  · exact AList.lookup_insert_ne h
  · rfl

theorem getTopicCtr_ok_iff {topics : TopicTable} {T : TypeId} {topic : String} :
    (∃ topics', topics.getTopicCtr T topic = .ok topics') ↔
      ∀ count S, topics.lookup topic = some (count, S) → S = T ∨ count.isUnique := by
  unfold getTopicCtr
  cases h : topics.lookup topic with
  | none => simp
  | some e =>
    obtain ⟨count, S⟩ := e
    by_cases hT : T = S
    · subst hT
      simp
    · by_cases hu : count.isUnique <;> simp [hT, hu, Ne.symm hT]

/-- The table in which the check has counted one more owner. -/
theorem lookup_getTopicCtr {topics topics' : TopicTable} {T : TypeId} {topic : String}
    (h : topics.getTopicCtr T topic = .ok topics') (k : String) :
    topics'.lookup k =
      if k = topic then
        match topics.lookup topic with
        | some (count, S) => some (count.clone, S)
        | none => some (PossessCtr.ofOwners 2, T)
      else topics.lookup k := by
  unfold getTopicCtr at h
  cases hl : topics.lookup topic with
  | none =>
    simp only [hl, Except.ok.injEq] at h
    subst h
    split_ifs with hk
    · subst hk; rw [AList.lookup_insert]; rfl
    · exact AList.lookup_insert_ne hk
  | some e =>
    obtain ⟨count, S⟩ := e
    simp only [hl] at h
    split_ifs at h
    simp only [Except.ok.injEq] at h
    subst h
    split_ifs with hk
    · subst hk; exact AList.lookup_insert _
    · exact AList.lookup_insert_ne hk

end TopicTable

/-- The client topic and the type that an operation creates a handle for. -/
def Op.creates {Val : Type} : Op Val → Option (String × TypeId)
  | .createReader T topic _ _ => some (topic, T)
  | .createWriter T topic => some (topic, T)
  | _ => none

namespace AsbConnection

variable {Val : Type}

/-! ## Live handles -/

/-- The client topic and type of every live reader and writer, clones included. -/
def handles (c : AsbConnection Val) : List (String × TypeId) :=
  c.readers.map (fun r => (r.counter, r.ty)) ++ c.writers.map (fun w => (w.counter, w.ty))

/-- The number of live handles of a client topic. -/
def owners (c : AsbConnection Val) (topic : String) : ℕ :=
  c.handles.countP fun h => h.1 == topic

/-- Whether `get_topic_ctr::<T>(topic)` accepts. -/
def Accepts (c : AsbConnection Val) (T : TypeId) (topic : String) : Prop :=
  ∃ topics, c.topics.getTopicCtr T topic = .ok topics

instance (c : AsbConnection Val) (T : TypeId) (topic : String) : Decidable (c.Accepts T topic) :=
  match h : c.topics.getTopicCtr T topic with
  | .ok topics => .isTrue ⟨topics, h⟩
  | .error _ => .isFalse fun ⟨_, h'⟩ => by rw [h] at h'; cases h'

/-- The operation is a call of `create_reader::<T>` that gets past the type check and the
configuration `cfg`. -/
def CallsFor (config : AsbConfig) (svcName : String) (c : AsbConnection Val) (op : Op Val)
    (T : TypeId) (cfg : BusConfig) : Prop :=
  ∃ topic reply id, op = .createReader T topic reply id ∧ c.Accepts T topic ∧
    getBusConfig config svcName topic = .ok cfg

/-- The check accepts a type exactly when every live handle of the topic has it. -/
def Agrees (c : AsbConnection Val) : Prop :=
  ∀ topic T, c.Accepts T topic ↔ ∀ h ∈ c.handles, h.1 = topic → h.2 = T

/-- All live handles of a client topic have one type. -/
def OneType (c : AsbConnection Val) : Prop :=
  ∀ h ∈ c.handles, ∀ k ∈ c.handles, h.1 = k.1 → h.2 = k.2

instance : DecidablePred (OneType : AsbConnection Val → Prop) := fun c =>
  inferInstanceAs (Decidable (∀ h ∈ c.handles, ∀ k ∈ c.handles, h.1 = k.1 → h.2 = k.2))

/-- No topic has as many live handles as its counter can count. -/
def Fits (c : AsbConnection Val) : Prop := ∀ topic, c.owners topic < 2 ^ 64

theorem owners_perm {c c' : AsbConnection Val} (h : c.handles.Perm c'.handles) (topic : String) :
    c.owners topic = c'.owners topic :=
  h.countP_eq _

theorem owners_of_perm_cons {c c' : AsbConnection Val} {h : String × TypeId}
    (hp : c'.handles.Perm (h :: c.handles)) (topic : String) :
    c'.owners topic = c.owners topic + if h.1 = topic then 1 else 0 := by
  rw [owners, hp.countP_eq, List.countP_cons, owners]
  simp

theorem owners_pos_iff {c : AsbConnection Val} {topic : String} :
    0 < c.owners topic ↔ ∃ h ∈ c.handles, h.1 = topic := by
  simp [owners, List.countP_pos_iff]

/-! ## What a step does to the table and the handles -/

/-- What a step does to the topic table and to the live handles. -/
inductive TopicMove (c : AsbConnection Val) :
    Option (String × TypeId) → AsbConnection Val → Prop
  /-- The type check rejects. -/
  | rejected {topic T e c'} : c.topics.getTopicCtr T topic = .error e → c'.topics = c.topics →
      c'.handles = c.handles → TopicMove c (some (topic, T)) c'
  /-- A handle is created. -/
  | created {topic T topics c'} : c.topics.getTopicCtr T topic = .ok topics → c'.topics = topics →
      c'.handles.Perm ((topic, T) :: c.handles) → TopicMove c (some (topic, T)) c'
  /-- The call fails after the type check accepted. -/
  | failed {topic T topics c'} : c.topics.getTopicCtr T topic = .ok topics →
      c'.topics = topics.release topic → c'.handles = c.handles → TopicMove c (some (topic, T)) c'
  /-- A handle is cloned. -/
  | cloned {h c'} : h ∈ c.handles → c'.topics = c.topics.retain h.1 →
      c'.handles.Perm (h :: c.handles) → TopicMove c none c'
  /-- A handle is dropped. -/
  | dropped {h c'} : c'.topics = c.topics.release h.1 → c.handles.Perm (h :: c'.handles) →
      TopicMove c none c'
  /-- Neither is touched. -/
  | other {c'} : c'.topics = c.topics → c'.handles = c.handles → TopicMove c none c'

theorem mem_handles_reader {c : AsbConnection Val} {i : ℕ} {r : AsbReader}
    (h : c.readers[i]? = some r) : (r.counter, r.ty) ∈ c.handles :=
  List.mem_append_left _ (List.mem_map_of_mem (List.mem_of_getElem? h))

theorem mem_handles_writer {c : AsbConnection Val} {i : ℕ} {w : AsbWriter}
    (h : c.writers[i]? = some w) : (w.counter, w.ty) ∈ c.handles :=
  List.mem_append_right _ (List.mem_map_of_mem (List.mem_of_getElem? h))

theorem handles_addReader (c : AsbConnection Val) (r : AsbReader) {c' : AsbConnection Val}
    (hr : c'.readers = c.readers ++ [r]) (hw : c'.writers = c.writers) :
    c'.handles.Perm ((r.counter, r.ty) :: c.handles) := by
  simp only [handles, hr, hw, List.map_append, List.map_cons, List.map_nil, List.append_assoc]
  exact List.perm_middle

theorem handles_addWriter (c : AsbConnection Val) (w : AsbWriter) {c' : AsbConnection Val}
    (hr : c'.readers = c.readers) (hw : c'.writers = c.writers ++ [w]) :
    c'.handles.Perm ((w.counter, w.ty) :: c.handles) := by
  simp only [handles, hr, hw, List.map_append, List.map_cons, List.map_nil, ← List.append_assoc]
  exact List.perm_append_singleton _ _

theorem handles_dropReader (c : AsbConnection Val) {i : ℕ} {r : AsbReader}
    (hi : c.readers[i]? = some r) {c' : AsbConnection Val} (hr : c'.readers = c.readers.eraseIdx i)
    (hw : c'.writers = c.writers) : c.handles.Perm ((r.counter, r.ty) :: c'.handles) := by
  simp only [handles, hr, hw, ← List.cons_append]
  exact ((TaskPool.perm_eraseIdx hi).map fun r : AsbReader => (r.counter, r.ty)).append_right _

theorem handles_dropWriter (c : AsbConnection Val) {i : ℕ} {w : AsbWriter}
    (hi : c.writers[i]? = some w) {c' : AsbConnection Val} (hr : c'.readers = c.readers)
    (hw : c'.writers = c.writers.eraseIdx i) :
    c.handles.Perm ((w.counter, w.ty) :: c'.handles) := by
  simp only [handles, hr, hw]
  refine (((TaskPool.perm_eraseIdx hi).map
    fun w : AsbWriter => (w.counter, w.ty)).append_left _).trans ?_
  exact List.perm_middle

variable {qx : QuickXml Val} {config : AsbConfig} {svcName : String}

theorem step_topicMove {c c' : AsbConnection Val} {op : Op Val}
    (h : c.step qx config svcName op = some c') : TopicMove c op.creates c' := by
  cases op with
  | createReader T topic reply id =>
    rw [step_createReader] at h
    cases h
    rcases createReader_cases config svcName c T topic reply id with
      ⟨e, hctr, heq⟩ | ⟨topics, hctr,
        ⟨e, -, heq⟩ | ⟨cfg, -, ⟨r, asb, hnet, heq⟩ | ⟨res, asb, -, -, heq⟩⟩⟩
    · rw [heq]; exact .rejected hctr rfl rfl
    · rw [heq]; exact .failed hctr rfl rfl
    · rw [heq]
      obtain ⟨rfl, rfl⟩ := createOnNet_ok hnet
      exact .created hctr rfl (handles_addReader c r rfl rfl)
    · rw [heq]; exact .failed hctr rfl rfl
  | createWriter T topic =>
    rw [step_createWriter] at h
    cases h
    rcases createWriter_cases config svcName c T topic with
      ⟨e, hctr, heq⟩ | ⟨topics, hctr, ⟨e, -, heq⟩ | ⟨w, rfl, rfl, heq⟩⟩
    · rw [heq]; exact .rejected hctr rfl rfl
    · rw [heq]; exact .failed hctr rfl rfl
    · rw [heq]; exact .created hctr rfl (handles_addWriter c w rfl rfl)
  | cloneReader i id =>
    obtain ⟨r, hr, rfl⟩ := step_cloneReader h
    exact .cloned (h := (r.counter, r.ty)) (mem_handles_reader hr) rfl
      (handles_addReader c (c.asb.cloneReader r id).1 rfl rfl)
  | cloneWriter i =>
    obtain ⟨w, hw, rfl⟩ := step_cloneWriter h
    exact .cloned (h := (w.counter, w.ty)) (mem_handles_writer hw) rfl
      (handles_addWriter c w rfl rfl)
  | dropReader i =>
    obtain ⟨r, hr, rfl⟩ := step_dropReader h
    exact .dropped (h := (r.counter, r.ty)) rfl (handles_dropReader c hr rfl rfl)
  | dropWriter i =>
    obtain ⟨w, hw, rfl⟩ := step_dropWriter h
    exact .dropped (h := (w.counter, w.ty)) rfl (handles_dropWriter c hw rfl rfl)
  | write | read | readTimeout | tryRead | deliver | connClose | chanClose | pollError =>
    obtain ⟨ht, hr, hw⟩ := step_transport rfl h
    exact .other ht (by simp only [handles, hr, hw])

/-! ## The count -/

/-- The count of a topic's entry is the number of its live handles, and one for the table. -/
def Counted (c : AsbConnection Val) : Prop :=
  ∀ topic, match c.topics.lookup topic with
    | some (count, _) => count = PossessCtr.ofOwners (c.owners topic + 1)
    | none => c.owners topic = 0

theorem Counted.count_eq {c : AsbConnection Val} (hc : c.Counted) {topic : String}
    {count : PossessCtr} {S : TypeId} (h : c.topics.lookup topic = some (count, S)) :
    count = PossessCtr.ofOwners (c.owners topic + 1) := by
  have := hc topic
  rwa [h] at this

theorem Counted.owners_eq_zero {c : AsbConnection Val} (hc : c.Counted) {topic : String}
    (h : c.topics.lookup topic = none) : c.owners topic = 0 := by
  have := hc topic
  rwa [h] at this

theorem Counted.lookup_isSome {c : AsbConnection Val} (hc : c.Counted) {topic : String}
    (h : 0 < c.owners topic) : ∃ count S, c.topics.lookup topic = some (count, S) := by
  cases hl : c.topics.lookup topic with
  | none => exact absurd (hc.owners_eq_zero hl) (by omega)
  | some e => exact ⟨e.1, e.2, rfl⟩

theorem counted_connected (kind : NetworkKind) (exchange : Option String) :
    (connected kind exchange : AsbConnection Val).Counted := fun _ => rfl

theorem Counted.move {c c' : AsbConnection Val} {created : Option (String × TypeId)}
    (hc : c.Counted) (h : TopicMove c created c') : c'.Counted := by
  intro k
  cases h with
  | rejected _ ht hh =>
    have := hc k
    rw [ht]
    rwa [owners_perm (List.Perm.of_eq hh.symm)] at this
  | @created topic T topics c' hctr ht hp =>
    rw [ht, TopicTable.lookup_getTopicCtr hctr, owners_of_perm_cons hp]
    by_cases hk : k = topic
    · subst hk
      simp only [if_true]
      cases hl : c.topics.lookup k with
      | none => simp [hc.owners_eq_zero hl]
      | some e => simp [hc.count_eq hl]
    · simp only [hk, Ne.symm hk, if_false, Nat.add_zero]
      exact hc k
  | @failed topic T topics c' hctr ht hh =>
    rw [ht, owners_perm (List.Perm.of_eq hh)]
    -- The creation has counted itself before it failed: the release takes that count back.
    have hself := TopicTable.lookup_getTopicCtr hctr topic
    by_cases hk : k = topic
    · subst hk
      simp only [if_true] at hself
      cases hl : c.topics.lookup k with
      | none =>
        rw [hl] at hself
        rw [TopicTable.lookup_release_self hself]
        simp [hc.owners_eq_zero hl]
      | some e =>
        rw [hl] at hself
        rw [TopicTable.lookup_release_self hself]
        simp [hc.count_eq hl]
    · rw [TopicTable.lookup_release_of_ne hk, TopicTable.lookup_getTopicCtr hctr, if_neg hk]
      exact hc k
  | @cloned h c' hmem ht hp =>
    rw [ht, owners_of_perm_cons hp]
    by_cases hk : k = h.1
    · subst hk
      obtain ⟨count, S, hl⟩ := hc.lookup_isSome (owners_pos_iff.2 ⟨h, hmem, rfl⟩)
      rw [TopicTable.lookup_retain_self hl]
      simp [hc.count_eq hl]
    · rw [TopicTable.lookup_retain_of_ne hk, if_neg (Ne.symm hk)]
      exact hc k
  | @dropped h c' ht hp =>
    have hown : c.owners k = c'.owners k + _ := owners_of_perm_cons hp k
    by_cases hk : k = h.1
    · subst hk
      rw [if_pos rfl] at hown
      -- The handle that goes was counted, so there is an entry to count down.
      have hpos : 0 < c.owners h.1 := by omega
      obtain ⟨count, S, hl⟩ := hc.lookup_isSome hpos
      rw [ht, TopicTable.lookup_release_self hl]
      simp [hc.count_eq hl, hown]
    · rw [if_neg (Ne.symm hk), Nat.add_zero] at hown
      rw [ht, TopicTable.lookup_release_of_ne hk, ← hown]
      exact hc k
  | other ht hh =>
    have := hc k
    rw [ht]
    rwa [owners_perm (List.Perm.of_eq hh.symm)] at this

/-- While the handles fit the counter, it reads as unique exactly when there is none. -/
theorem Counted.isUnique_iff {c : AsbConnection Val} (hc : c.Counted) (hfit : c.Fits)
    {topic : String} {count : PossessCtr} {S : TypeId}
    (h : c.topics.lookup topic = some (count, S)) : count.isUnique ↔ c.owners topic = 0 := by
  have hlt := hfit topic
  rw [hc.count_eq h, PossessCtr.isUnique, PossessCtr.ofOwners, beq_iff_eq,
    counted_eq_one_iff (by omega)]
  omega

/-! ## The types -/

/-- Every live handle has the type stored for its topic. -/
def Typed (c : AsbConnection Val) : Prop :=
  ∀ h ∈ c.handles, ∃ count, c.topics.lookup h.1 = some (count, h.2)

/-- A creation on a topic that nobody owns asks for the stored type. -/
def NoRetype (c : AsbConnection Val) (op : Op Val) : Prop :=
  ∀ topic T, op.creates = some (topic, T) →
    ∀ count S, c.topics.lookup topic = some (count, S) → count.isUnique → S = T

variable (qx config svcName) in
/-- A creation that passes the type check makes its handle. -/
def CreatesComplete (c : AsbConnection Val) (op : Op Val) : Prop :=
  ∀ topic T, op.creates = some (topic, T) → c.Accepts T topic →
    ∃ c', c.exec qx config svcName op = some (.ok .done, c')

theorem typed_connected (kind : NetworkKind) (exchange : Option String) :
    (connected kind exchange : AsbConnection Val).Typed :=
    fun _ hh => absurd hh (by simp [handles, connected])

theorem stored_after {topics topics' : TopicTable} {T : TypeId} {topic : String}
    (h : topics.getTopicCtr T topic = .ok topics')
    (hkeep : ∀ count S, topics.lookup topic = some (count, S) → count.isUnique → S = T) :
    ∃ count, topics'.lookup topic = some (count, T) := by
  have hself := TopicTable.lookup_getTopicCtr h topic
  rw [if_pos rfl] at hself
  cases hl : topics.lookup topic with
  | none => rw [hl] at hself; exact ⟨_, hself⟩
  | some e =>
    obtain ⟨count, S⟩ := e
    rw [hl] at hself
    have hST : S = T := (TopicTable.getTopicCtr_ok_iff.1 ⟨_, h⟩ count S hl).elim id
      (hkeep count S hl)
    subst hST
    exact ⟨_, hself⟩

theorem stored_getTopicCtr {topics topics' : TopicTable} {T S : TypeId} {topic k : String}
    {count : PossessCtr} (h : topics.getTopicCtr T topic = .ok topics')
    (hk : topics.lookup k = some (count, S)) : ∃ count', topics'.lookup k = some (count', S) := by
  rw [TopicTable.lookup_getTopicCtr h]
  split_ifs with he
  · subst he; rw [hk]; exact ⟨_, rfl⟩
  · exact ⟨_, hk⟩

theorem stored_retain {topics : TopicTable} {S : TypeId} {topic k : String} {count : PossessCtr}
    (hk : topics.lookup k = some (count, S)) :
    ∃ count', (topics.retain topic).lookup k = some (count', S) := by
  by_cases he : k = topic
  · subst he; exact ⟨_, TopicTable.lookup_retain_self hk⟩
  · exact ⟨_, (TopicTable.lookup_retain_of_ne he).trans hk⟩

theorem stored_release {topics : TopicTable} {S : TypeId} {topic k : String} {count : PossessCtr}
    (hk : topics.lookup k = some (count, S)) :
    ∃ count', (topics.release topic).lookup k = some (count', S) := by
  by_cases he : k = topic
  · subst he; exact ⟨_, TopicTable.lookup_release_self hk⟩
  · exact ⟨_, (TopicTable.lookup_release_of_ne he).trans hk⟩

theorem Typed.move {c c' : AsbConnection Val} {op : Op Val} (ht : c.Typed) (hop : c.NoRetype op)
    (h : TopicMove c op.creates c') : c'.Typed := by
  generalize hcr : op.creates = created at h
  intro k hk
  cases h with
  | rejected _ htop hh => rw [htop]; exact ht k (hh ▸ hk)
  | @created topic T topics c' hctr htop hp =>
    rw [htop]
    rcases List.mem_cons.1 (hp.mem_iff.1 hk) with rfl | hk
    · exact stored_after hctr (hop _ _ hcr)
    · obtain ⟨count, hl⟩ := ht k hk
      exact stored_getTopicCtr hctr hl
  | @failed topic T topics c' hctr htop hh =>
    obtain ⟨count, hl⟩ := ht k (hh ▸ hk)
    obtain ⟨count', hl'⟩ := stored_getTopicCtr hctr hl
    rw [htop]
    exact stored_release hl'
  | @cloned h c' hmem htop hp =>
    have hk' : k ∈ c.handles := by
      rcases List.mem_cons.1 (hp.mem_iff.1 hk) with rfl | hk
      · exact hmem
      · exact hk
    obtain ⟨count, hl⟩ := ht k hk'
    rw [htop]
    exact stored_retain hl
  | @dropped h c' htop hp =>
    obtain ⟨count, hl⟩ := ht k (hp.mem_iff.2 (List.mem_cons_of_mem _ hk))
    rw [htop]
    exact stored_release hl
  | other htop hh => rw [htop]; exact ht k (hh ▸ hk)

/-- What the stored types say about the live handles. -/
theorem Typed.oneType {c : AsbConnection Val} (ht : c.Typed) : c.OneType := by
  intro h hh k hk he
  obtain ⟨count, hl⟩ := ht h hh
  obtain ⟨count', hl'⟩ := ht k hk
  rw [← he, hl] at hl'
  exact (Prod.mk.inj (Option.some.inj hl')).2

theorem Typed.agrees {c : AsbConnection Val} (ht : c.Typed) (hc : c.Counted) (hfit : c.Fits) :
    c.Agrees := by
  intro topic T
  rw [Accepts, TopicTable.getTopicCtr_ok_iff]
  constructor
  · rintro hacc h hh rfl
    obtain ⟨count, hl⟩ := ht h hh
    refine (hacc count h.2 hl).elim id fun hu => ?_
    -- A unique counter would leave no room for the handle `h`.
    have := (hc.isUnique_iff hfit hl).1 hu
    exact absurd (owners_pos_iff.2 ⟨h, hh, rfl⟩) (by omega)
  · intro hall count S hl
    by_cases hown : c.owners topic = 0
    · exact .inr ((hc.isUnique_iff hfit hl).2 hown)
    · obtain ⟨h, hh, rfl⟩ := owners_pos_iff.1 (Nat.pos_of_ne_zero hown)
      obtain ⟨count', hl'⟩ := ht h hh
      rw [hl] at hl'
      exact .inl ((Prod.mk.inj (Option.some.inj hl')).2.trans (hall h hh rfl))

/-! ## What agreement forces -/

theorem owners_move {c c' : AsbConnection Val} {created : Option (String × TypeId)}
    (h : TopicMove c created c') (k : String) : c'.owners k ≤ c.owners k + 1 := by
  cases h with
  | rejected _ _ hh | failed _ _ hh | other _ hh =>
    rw [owners_perm (List.Perm.of_eq hh)]
    exact Nat.le_succ _
  | created _ _ hp | cloned _ _ hp =>
    rw [owners_of_perm_cons hp]
    split_ifs <;> omega
  | dropped _ hp =>
    have : c.owners k = c'.owners k + _ := owners_of_perm_cons hp k
    omega

/-- A count that has wrapped to unique makes the check accept every type. -/
theorem Agrees.fits {c c' : AsbConnection Val} {created : Option (String × TypeId)}
    (hagr : c'.Agrees) (hc : c'.Counted) (hfit : c.Fits) (h : TopicMove c created c') :
    c'.Fits := by
  intro topic
  by_contra hge
  have hle := owners_move h topic
  have hlt := hfit topic
  have hwrap : c'.owners topic = 2 ^ 64 := by omega
  obtain ⟨k, hk, hkt⟩ := owners_pos_iff.1 (show 0 < c'.owners topic by omega)
  have hall : ∀ T, k.2 = T := fun T => by
    refine (hagr topic T).1 (TopicTable.getTopicCtr_ok_iff.2 fun count S hl => .inr ?_) k hk hkt
    rw [hc.count_eq hl, hwrap]
    exact PossessCtr.isUnique_ofOwners_wrap
  exact absurd ((hall ⟨0⟩).symm.trans (hall ⟨1⟩)) (by decide)

theorem creates_complete {c c' : AsbConnection Val} {op : Op Val} {topic : String} {T : TypeId}
    (hcr : op.creates = some (topic, T)) (hacc : c.Accepts T topic)
    (hcomp : c.CreatesComplete qx config svcName op) (h : c.step qx config svcName op = some c') :
    ∃ topics, c.topics.getTopicCtr T topic = .ok topics ∧ c'.topics = topics ∧
      c'.handles.Perm ((topic, T) :: c.handles) := by
  obtain ⟨d, hd⟩ := hcomp topic T hcr hacc
  obtain ⟨topics, htop⟩ := hacc
  cases op with
  | createReader T' topic' reply id =>
    cases hcr
    rw [step_createReader] at h
    cases h
    rw [exec_createReader] at hd
    rcases createReader_cases config svcName c T topic reply id with
      ⟨e, hctr, heq⟩ | ⟨topics', hctr,
        ⟨e, -, heq⟩ | ⟨cfg, -, ⟨r, asb, hnet, heq⟩ | ⟨res, asb, -, hres, heq⟩⟩⟩
    · rw [htop] at hctr; cases hctr
    · rw [heq] at hd; cases hd
    · rw [heq]
      obtain ⟨rfl, rfl⟩ := createOnNet_ok hnet
      exact ⟨topics', hctr, rfl, handles_addReader c r rfl rfl⟩
    · rw [heq] at hd
      -- A creation that fails past the type check does not complete.
      cases res with
      | ok r => exact absurd rfl (hres r)
      | err e => cases hd
      | panicked => cases hd
  | createWriter T' topic' =>
    cases hcr
    rw [step_createWriter] at h
    cases h
    rw [exec_createWriter] at hd
    rcases createWriter_cases config svcName c T topic with
      ⟨e, hctr, heq⟩ | ⟨topics', hctr, ⟨e, -, heq⟩ | ⟨w, rfl, rfl, heq⟩⟩
    · rw [htop] at hctr; cases hctr
    · rw [heq] at hd; cases hd
    · rw [heq]
      exact ⟨topics', hctr, rfl, handles_addWriter c w rfl rfl⟩
  | cloneReader | cloneWriter | dropReader | dropWriter | write | read | readTimeout | tryRead
  | deliver | connClose | chanClose | pollError => simp [Op.creates] at hcr

/-- A topic taken over by another type breaks the agreement at once: its stored type is accepted
though a handle of the other type lives. -/
theorem Agrees.noRetype {c c' : AsbConnection Val} {op : Op Val} (hagr : c'.Agrees)
    (hcomp : c.CreatesComplete qx config svcName op) (h : c.step qx config svcName op = some c') :
    c.NoRetype op := by
  intro topic T hcr count S hl hu
  have hacc : c.Accepts T topic := by
    refine TopicTable.getTopicCtr_ok_iff.2 fun count' S' hl' => ?_
    rw [hl] at hl'
    cases hl'
    exact .inr hu
  obtain ⟨topics, htop, htop', hp⟩ := creates_complete hcr hacc hcomp h
  obtain ⟨count', hl'⟩ := stored_getTopicCtr htop hl
  have hS : c'.Accepts S topic := by
    refine TopicTable.getTopicCtr_ok_iff.2 fun count'' S'' hl'' => ?_
    rw [htop', hl'] at hl''
    cases hl''
    exact .inl rfl
  exact ((hagr topic S).1 hS (topic, T) (hp.mem_iff.2 List.mem_cons_self) rfl).symm

/-! ## Agreement over runs -/

theorem fits_connected (kind : NetworkKind) (exchange : Option String) :
    (connected kind exchange : AsbConnection Val).Fits := fun _ => by
  simp [owners, handles, connected]

theorem agreement_forces {c : AsbConnection Val} {is : List (Op Val)} (hc : c.Counted)
    (hfit : c.Fits)
    (hcomp : EachStep (step qx config svcName) (CreatesComplete qx config svcName) c is)
    (hagr : Always (step qx config svcName) Agrees c is) :
    EachStep (step qx config svcName) NoRetype c is ∧
    Always (step qx config svcName) Fits c is := by
  induction is generalizing c with
  | nil => exact ⟨trivial, hfit⟩
  | cons op is ih =>
    have hstep : ∀ c', c.step qx config svcName op = some c' →
        c.NoRetype op ∧ EachStep (step qx config svcName) NoRetype c' is ∧
          Always (step qx config svcName) Fits c' is := by
      intro c' h
      have hmove := step_topicMove h
      have hagr' := hagr.2 c' h
      have hc' := hc.move hmove
      refine ⟨hagr'.head.noRetype (hcomp c' h).1 h, ?_⟩
      exact ih hc' (hagr'.head.fits hc' hfit hmove) (hcomp c' h).2 hagr'
    exact ⟨fun c' h => ⟨(hstep c' h).1, (hstep c' h).2.1⟩, hfit, fun c' h => (hstep c' h).2.2⟩

/-- **The type check is right on exactly the runs that never take an emptied topic over with
another type**, and that never fill a topic's counter. -/
theorem topic_type_agreement_iff (kind : NetworkKind) (exchange : Option String)
    (is : List (Op Val))
    (hcomp : EachStep (step qx config svcName) (CreatesComplete qx config svcName)
      (connected kind exchange) is) :
    Always (step qx config svcName) (fun c => c.Agrees ∧ c.OneType) (connected kind exchange) is ↔
      EachStep (step qx config svcName) NoRetype (connected kind exchange) is ∧
        Always (step qx config svcName) Fits (connected kind exchange) is := by
  constructor
  · intro h
    exact agreement_forces (counted_connected kind exchange) (fits_connected kind exchange) hcomp
      (h.mono fun _ h => h.1)
  · rintro ⟨hkeep, hfit⟩
    have hinv : Always (step qx config svcName) (fun c => c.Counted ∧ c.Typed)
        (connected kind exchange) is := by
      refine Always.of_inv (G := NoRetype) (fun c op c' h hop hs => ?_)
        ⟨counted_connected kind exchange, typed_connected kind exchange⟩ hkeep
      have hmove := step_topicMove hs
      exact ⟨h.1.move hmove, h.2.move hop hmove⟩
    refine (hinv.and hfit).mono fun c h => ?_
    exact ⟨h.1.2.agrees h.1.1 h.2, h.1.2.oneType⟩

/-- Two writers of one type on one topic, a third one of another type on another topic. -/
theorem topic_type_agreement_two_topics :
    Always (step .unit (.withBusTopics "svc" []) "svc") (fun c => c.Agrees ∧ c.OneType)
      (connected .mqtt none)
      [.createWriter ⟨0⟩ "t", .cloneWriter 0, .createWriter ⟨1⟩ "u"] := by
  refine (topic_type_agreement_iff .mqtt none _ ?_).2 ⟨?_, ?_⟩
  · refine (eachStep_cons_iff rfl).2 ⟨fun _ _ _ _ => ⟨_, rfl⟩, ?_⟩
    refine (eachStep_cons_iff rfl).2 ⟨by simp [CreatesComplete, Op.creates], ?_⟩
    exact (eachStep_cons_iff rfl).2 ⟨fun _ _ _ _ => ⟨_, rfl⟩, trivial⟩
  · refine (eachStep_cons_iff rfl).2 ⟨?_, (eachStep_cons_iff rfl).2 ⟨?_, ?_⟩⟩
    · rintro topic T ⟨⟩ count S hl
      exact absurd hl (by simp [connected])
    · simp [NoRetype, Op.creates]
    · refine (eachStep_cons_iff rfl).2 ⟨?_, trivial⟩
      rintro topic T ⟨⟩ count S hl
      have hnone : (none : Option (PossessCtr × TypeId)) = some (count, S) := hl
      cases hnone
  · have hfew : Always (step .unit (.withBusTopics "svc" []) "svc")
        (fun c : AsbConnection Unit => c.handles.length < 4) (connected .mqtt none)
        [.createWriter ⟨0⟩ "t", .cloneWriter 0, .createWriter ⟨1⟩ "u"] := by decide
    refine hfew.mono fun c hlt topic => ?_
    have hle : c.owners topic ≤ c.handles.length := List.countP_le_length
    omega

/-- A topic made with type 0, emptied and taken over with type 1: type 0 is accepted again, and
then handles of both types live on it. -/
theorem emptied_topic_keeps_its_first_type :
    (∃ c : AsbConnection Unit,
      run (step .unit (.withBusTopics "svc" []) "svc") (connected .mqtt none)
        [.createWriter ⟨0⟩ "t", .dropWriter 0, .createWriter ⟨1⟩ "t"] = some c ∧
      c.Accepts ⟨0⟩ "t" ∧ ¬ c.Accepts ⟨1⟩ "t" ∧ c.handles = [("t", ⟨1⟩)]) ∧
    ∃ c : AsbConnection Unit,
      run (step .unit (.withBusTopics "svc" []) "svc") (connected .mqtt none)
        [.createWriter ⟨0⟩ "t", .dropWriter 0, .createWriter ⟨1⟩ "t", .createWriter ⟨0⟩ "t"] =
          some c ∧
      c.handles = [("t", ⟨1⟩), ("t", ⟨0⟩)] ∧ ¬ c.OneType := by
  refine ⟨⟨_, rfl, by decide, by decide, rfl⟩, ⟨_, rfl, rfl, fun h => ?_⟩⟩
  exact absurd (h ("t", ⟨1⟩) (by decide) ("t", ⟨0⟩) (by decide) rfl) (by decide)

end AsbConnection

end Rounac

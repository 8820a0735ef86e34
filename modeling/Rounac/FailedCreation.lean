import Rounac.TopicTypes

/-!
# Failed creations

`get_topic_ctr` puts a client topic into the table before the configuration is looked up and
before the broker is asked. A call that fails afterwards gives its count back, but on a topic
that was new the entry stays, with the type of the failed call. Whether that shows depends on
what may still happen: the stored type decides nothing until another creation on the topic
succeeds.

* `SameBroker` — two ASBs differ in the requests they made only.
* `Alike` — two topic tables that decide alike as long as some topics stay without handles.
* `Sim` — two connections that answer every later sequence of calls alike.
-/

namespace Rounac

open StepSystem

/-! ## ASBs that asked the broker for different things -/

namespace NetAsb

variable {Val : Type}

/-- The ASBs differ in the requests made to the broker only. -/
def SameBroker (a b : NetAsb Val) : Prop := ∃ reqs, b = { a with requests := reqs }

theorem SameBroker.refl (a : NetAsb Val) : SameBroker a a := ⟨a.requests, rfl⟩

theorem SameBroker.symm {a b : NetAsb Val} (h : SameBroker a b) : SameBroker b a := by
  obtain ⟨reqs, rfl⟩ := h
  exact ⟨a.requests, rfl⟩

theorem SameBroker.trans {a b c : NetAsb Val} (h : SameBroker a b) (h' : SameBroker b c) :
    SameBroker a c := by
  obtain ⟨reqs, rfl⟩ := h
  obtain ⟨reqs', rfl⟩ := h'
  exact ⟨reqs', rfl⟩

theorem SameBroker.request {a b : NetAsb Val} (h : SameBroker a b) (r : BrokerRequest) :
    SameBroker (a.request r) (b.request r) := by
  obtain ⟨reqs, rfl⟩ := h
  exact ⟨reqs ++ [r], rfl⟩

theorem amqpSubscribe_fst (exchange : Option String) (a b : NetAsb Val) (config : BusConfig)
    (reply : BrokerReply) :
    (amqpSubscribe exchange a config reply).1 = (amqpSubscribe exchange b config reply).1 := by
  unfold amqpSubscribe
  dsimp only
  cases reply.queueDeclare with
  | error e => rfl
  | ok queue =>
    cases exchange with
    | none => rfl
    | some ex =>
      dsimp only
      cases reply.queueBind with
      | error e => rfl
      | ok u => rfl

/-- A subscription that does nothing but ask the broker, whose answer does not depend on what it
was asked before. -/
structure OnlyAsks
    (subscribe : NetAsb Val → BusConfig → BrokerReply → Except CalError String × NetAsb Val) :
    Prop where
  answer : ∀ a b config reply, (subscribe a config reply).1 = (subscribe b config reply).1
  same : ∀ a config reply, SameBroker a (subscribe a config reply).2

theorem onlyAsks_amqpSubscribe (exchange : Option String) :
    OnlyAsks (amqpSubscribe exchange : NetAsb Val → _) where
  answer := amqpSubscribe_fst exchange
  same := amqpSubscribe_snd exchange

theorem onlyAsks_mqttSubscribe : OnlyAsks (mqttSubscribe : NetAsb Val → _) where
  answer := fun _ _ _ _ => rfl
  same := mqttSubscribe_snd

/-- Two calls end alike, on ASBs that stay alike. -/
def SameEnd {α : Type} (x y : α × NetAsb Val) : Prop := y.1 = x.1 ∧ SameBroker x.2 y.2

theorem SameBroker.attachReader {a b : NetAsb Val} (h : SameBroker a b) (m : MasterId)
    (net : String → AsbReaderNet) (T : TypeId) (counter : String) (config : BusConfig)
    (id : SenderId) :
    SameEnd (a.attachReader m net T counter config id)
      (b.attachReader m net T counter config id) := by
  obtain ⟨reqs, rfl⟩ := h
  simp only [NetAsb.attachReader, addReader]
  cases a.readers.lookup config.busTopic with
  | none => exact ⟨rfl, reqs, rfl⟩
  | some t => exact ⟨rfl, reqs, rfl⟩

theorem SameBroker.createBrokerReader {a b : NetAsb Val} (h : SameBroker a b)
    {subscribe : NetAsb Val → BusConfig → BrokerReply → Except CalError String × NetAsb Val}
    (hsub : OnlyAsks subscribe)
    (net : String → AsbReaderNet) (T : TypeId) (counter : String) (config : BusConfig)
    (reply : BrokerReply) (id : SenderId) :
    SameEnd (NetAsb.createBrokerReader subscribe net a T counter config reply id)
      (NetAsb.createBrokerReader subscribe net b T counter config reply id) := by
  have hget : b.getCloneFor config.busTopic = a.getCloneFor config.busTopic := by
    obtain ⟨reqs, rfl⟩ := h
    rfl
  have hmasters : b.masters = a.masters := by
    obtain ⟨reqs, rfl⟩ := h
    rfl
  simp only [NetAsb.createBrokerReader, hget, hmasters]
  cases a.getCloneFor config.busTopic with
  | some m =>
    dsimp only
    split_ifs
    · exact h.attachReader ..
    · exact ⟨rfl, h⟩
  | none =>
    dsimp only
    -- Both sides get the same answer and differ only in what the broker was asked.
    have hres := hsub.answer a b config reply
    have hasb := ((hsub.same a config reply).symm.trans h).trans (hsub.same b config reply)
    rcases hA : subscribe a config reply with ⟨res, a'⟩
    rcases hB : subscribe b config reply with ⟨res', b'⟩
    rw [hA, hB] at hres hasb
    cases (show res = res' from hres)
    cases res with
    | error e => exact ⟨rfl, hasb⟩
    | ok tag =>
      obtain ⟨reqs, rfl⟩ : SameBroker a' b' := hasb
      have hnew : SameBroker
          ((a'.newMaster (.new T config.wireFormat config.qos)).2.insertReader config.busTopic
            a'.nextMaster tag)
          ((({ a' with requests := reqs } : NetAsb Val).newMaster
            (.new T config.wireFormat config.qos)).2.insertReader config.busTopic
              a'.nextMaster tag) := ⟨reqs, rfl⟩
      exact hnew.attachReader a'.nextMaster net T counter config id

theorem SameBroker.createLoopbackReader {a b : NetAsb Val} (h : SameBroker a b) (T : TypeId)
    (counter : String) (config : BusConfig) (id : SenderId) :
    SameEnd (a.createLoopbackReader T counter config id)
      (b.createLoopbackReader T counter config id) := by
  obtain ⟨reqs, rfl⟩ := h
  simp only [NetAsb.createLoopbackReader, addReader, modifyMaster, ringBounded, newMaster]
  cases a.readers.lookup config.busTopic with
  | none => exact ⟨rfl, reqs, rfl⟩
  | some t => exact ⟨rfl, reqs, rfl⟩

theorem SameBroker.createNullReader {a b : NetAsb Val} (h : SameBroker a b) (T : TypeId)
    (counter : String) (config : BusConfig) :
    SameEnd (a.createNullReader T counter config) (b.createNullReader T counter config) := by
  obtain ⟨reqs, rfl⟩ := h
  exact ⟨rfl, reqs, rfl⟩

theorem SameBroker.cloneReader {a b : NetAsb Val} (h : SameBroker a b) (r : AsbReader)
    (id : SenderId) : SameEnd (a.cloneReader r id) (b.cloneReader r id) := by
  obtain ⟨reqs, rfl⟩ := h
  exact ⟨rfl, reqs, rfl⟩

theorem SameBroker.delReaderLocked {a b : NetAsb Val} (h : SameBroker a b) (topic : String) :
    (a.delReaderLocked topic = none ∧ b.delReaderLocked topic = none) ∨
      ∃ last a' b', a.delReaderLocked topic = some (last, a') ∧
        b.delReaderLocked topic = some (last, b') ∧ SameBroker a' b' := by
  obtain ⟨reqs, rfl⟩ := h
  simp only [NetAsb.delReaderLocked]
  cases a.readers.lookup topic with
  | none => exact .inl ⟨rfl, rfl⟩
  | some t =>
    dsimp only
    split_ifs
    · exact .inr ⟨_, _, _, rfl, rfl, reqs, rfl⟩
    · exact .inr ⟨_, _, _, rfl, rfl, reqs, rfl⟩

theorem SameBroker.delReader {a b : NetAsb Val} (h : SameBroker a b)
    (cancel : Entry → Option BrokerRequest) (topic : String) :
    SameBroker (a.delReader cancel topic).2 (b.delReader cancel topic).2 := by
  unfold NetAsb.delReader
  rcases h.delReaderLocked topic with ⟨ha, hb⟩ | ⟨last, a', b', ha, hb, h'⟩
  · rw [ha, hb]
    exact h
  · rw [ha, hb]
    cases last with
    | none => exact h'
    | some t =>
      dsimp only
      cases cancel t with
      | none => exact h'
      | some r => exact h'.request r

theorem SameBroker.dropNet {a b : NetAsb Val} (h : SameBroker a b) (net : AsbReaderNet) :
    SameBroker (a.dropNet net) (b.dropNet net) := by
  cases net with
  | amqp topic => exact h.delReader ..
  | mqtt topic => exact h.delReader ..
  | loopback topic => exact h.delReader ..
  | null => exact h

theorem SameBroker.dropReader {a b : NetAsb Val} (h : SameBroker a b) (r : AsbReader)
    (others : List AsbReader) : SameBroker (a.dropReader r others) (b.dropReader r others) := by
  have hsender : SameBroker
      (a.modifyMaster r.ringmaster fun m => (m.removeSender r.mySenderId).2)
      (b.modifyMaster r.ringmaster fun m => (m.removeSender r.mySenderId).2) := by
    obtain ⟨reqs, rfl⟩ := h
    exact ⟨reqs, rfl⟩
  simp only [NetAsb.dropReader]
  split_ifs
  · exact hsender
  · exact hsender.dropNet r.net.net

/-- A creation that returns an error did nothing but ask the broker. -/
theorem sameBroker_of_createBrokerReader_err {a a' : NetAsb Val}
    {subscribe : NetAsb Val → BusConfig → BrokerReply → Except CalError String × NetAsb Val}
    (hsub : OnlyAsks subscribe)
    {net : String → AsbReaderNet} {T : TypeId} {counter : String} {config : BusConfig}
    {reply : BrokerReply} {id : SenderId} {e : CalError}
    (h : createBrokerReader subscribe net a T counter config reply id = (.err e, a')) :
    SameBroker a a' := by
  have hattach : ∀ (b : NetAsb Val) m, b.attachReader m net T counter config id ≠ (.err e, a') := by
    intro b m hb
    unfold attachReader at hb
    cases hadd : b.addReader config.busTopic <;> simp [hadd] at hb
  unfold createBrokerReader at h
  split at h
  · split_ifs at h
    · exact (hattach _ _ h).elim
    · cases h
  · split at h
    · rename_i e' asb heq
      cases h
      have hsame := hsub.same a config reply
      rwa [heq] at hsame
    · exact (hattach _ _ h).elim

end NetAsb

/-! ## Topic tables that decide alike -/

namespace TopicTable

/-- The topic has no entry, or one that nobody but the table owns. -/
def Vacant (topics : TopicTable) (topic : String) : Prop :=
  ∀ e, topics.lookup topic = some e → e.1 = PossessCtr.new

/-- The tables agree on every topic, apart from those of `P`, which are vacant in both where they
do not agree. -/
def Alike (P : String → Prop) (a b : TopicTable) : Prop :=
  ∀ topic, b.lookup topic = a.lookup topic ∨ P topic ∧ a.Vacant topic ∧ b.Vacant topic

variable {P : String → Prop} {a b : TopicTable} {topic : String}

theorem Alike.lookup (h : Alike P a b) (htopic : ¬ P topic) :
    b.lookup topic = a.lookup topic :=
  (h topic).resolve_right fun hP => htopic hP.1

theorem getTopicCtr_congr (h : b.lookup topic = a.lookup topic) (T : TypeId) :
    (∃ e, a.getTopicCtr T topic = .error e ∧ b.getTopicCtr T topic = .error e) ∨
      ∃ a' b', a.getTopicCtr T topic = .ok a' ∧ b.getTopicCtr T topic = .ok b' := by
  unfold getTopicCtr
  rw [h]
  cases a.lookup topic with
  | none => exact .inr ⟨_, _, rfl, rfl⟩
  | some e =>
    dsimp only
    split_ifs
    · exact .inl ⟨_, rfl, rfl⟩
    · exact .inr ⟨_, _, rfl, rfl⟩

theorem Vacant.exists_getTopicCtr (h : a.Vacant topic) (T : TypeId) :
    ∃ a', a.getTopicCtr T topic = .ok a' :=
  getTopicCtr_ok_iff.2 fun count S hl => .inr (by rw [show count = PossessCtr.new from h _ hl]; rfl)

/-- Giving the count back leaves the entry as it was, or a new entry. -/
theorem lookup_release_getTopicCtr {a' : TopicTable} {T : TypeId}
    (h : a.getTopicCtr T topic = .ok a') (k : String) :
    (a'.release topic).lookup k =
      if k = topic then some ((a.lookup topic).getD (PossessCtr.new, T)) else a.lookup k := by
  have hself := lookup_getTopicCtr h topic
  rw [if_pos rfl] at hself
  by_cases hk : k = topic
  · subst hk
    rw [if_pos rfl]
    cases hl : a.lookup k with
    | none =>
      rw [hl] at hself
      rw [lookup_release_self hself]
      rfl
    | some e =>
      rw [hl] at hself
      rw [lookup_release_self hself, PossessCtr.drop_clone]
      rfl
  · rw [if_neg hk, lookup_release_of_ne hk, lookup_getTopicCtr h, if_neg hk]

theorem Vacant.release_getTopicCtr {a' : TopicTable} {T : TypeId} (hv : a.Vacant topic)
    (h : a.getTopicCtr T topic = .ok a') : (a'.release topic).Vacant topic := by
  intro e he
  rw [lookup_release_getTopicCtr h, if_pos rfl] at he
  cases hl : a.lookup topic with
  | none =>
    rw [hl] at he
    cases he
    rfl
  | some e' =>
    rw [hl] at he
    obtain rfl : e' = e := Option.some.inj he
    exact hv e' hl

theorem lookup_retain (k : String) :
    (a.retain topic).lookup k =
      if k = topic then (a.lookup topic).map fun e => (e.1.clone, e.2) else a.lookup k := by
  by_cases hk : k = topic
  · subst hk
    rw [if_pos rfl]
    cases hl : a.lookup k with
    | none => simp [retain, hl]
    | some e => exact lookup_retain_self hl
  · rw [if_neg hk, lookup_retain_of_ne hk]

theorem lookup_release (k : String) :
    (a.release topic).lookup k =
      if k = topic then (a.lookup topic).map fun e => (e.1.drop, e.2) else a.lookup k := by
  by_cases hk : k = topic
  · subst hk
    rw [if_pos rfl]
    cases hl : a.lookup k with
    | none => simp [release, hl]
    | some e => exact lookup_release_self hl
  · rw [if_neg hk, lookup_release_of_ne hk]

theorem Alike.change {a' b' : TopicTable} (h : Alike P a b)
    (ha : ∀ k, k ≠ topic → a'.lookup k = a.lookup k)
    (hb : ∀ k, k ≠ topic → b'.lookup k = b.lookup k)
    (htopic : b'.lookup topic = a'.lookup topic ∨ P topic ∧ a'.Vacant topic ∧ b'.Vacant topic) :
    Alike P a' b' := by
  intro k
  by_cases hk : k = topic
  · subst hk
    exact htopic
  · simpa only [Vacant, ha k hk, hb k hk] using h k

theorem Alike.retain (h : Alike P a b) (htopic : ¬ P topic) :
    Alike P (a.retain topic) (b.retain topic) :=
  h.change (fun _ => lookup_retain_of_ne) (fun _ => lookup_retain_of_ne)
    (.inl (by rw [lookup_retain, lookup_retain, h.lookup htopic]))

theorem Alike.release (h : Alike P a b) (htopic : ¬ P topic) :
    Alike P (a.release topic) (b.release topic) :=
  h.change (fun _ => lookup_release_of_ne) (fun _ => lookup_release_of_ne)
    (.inl (by rw [lookup_release, lookup_release, h.lookup htopic]))

/-- The type check on tables that decide alike: it rejects on both, or accepts on both, and then
the tables are alike after a failure and, on a topic outside `P`, after a success. -/
theorem Alike.getTopicCtr (h : Alike P a b) (T : TypeId) (topic : String) :
    (∃ e, a.getTopicCtr T topic = .error e ∧ b.getTopicCtr T topic = .error e) ∨
      ∃ a' b', a.getTopicCtr T topic = .ok a' ∧ b.getTopicCtr T topic = .ok b' ∧
        Alike P (a'.release topic) (b'.release topic) ∧ (¬ P topic → Alike P a' b') := by
  have hne : ∀ {t t' : TopicTable}, t.getTopicCtr T topic = .ok t' → ∀ k, k ≠ topic →
      t'.lookup k = t.lookup k :=
    fun ht k hk => by rw [lookup_getTopicCtr ht, if_neg hk]
  have hrel : ∀ {t t' : TopicTable}, t.getTopicCtr T topic = .ok t' → ∀ k, k ≠ topic →
      (t'.release topic).lookup k = t.lookup k :=
    fun ht k hk => by rw [lookup_release_getTopicCtr ht, if_neg hk]
  rcases h topic with heq | ⟨hP, hva, hvb⟩
  · rcases getTopicCtr_congr heq T with hrej | ⟨a', b', ha, hb⟩
    · exact .inl hrej
    · refine .inr ⟨a', b', ha, hb, h.change (hrel ha) (hrel hb) (.inl ?_), fun _ =>
        h.change (hne ha) (hne hb) (.inl ?_)⟩
      · rw [lookup_release_getTopicCtr ha, lookup_release_getTopicCtr hb, heq]
      · rw [lookup_getTopicCtr ha, lookup_getTopicCtr hb, heq]
  · obtain ⟨a', ha⟩ := hva.exists_getTopicCtr T
    obtain ⟨b', hb⟩ := hvb.exists_getTopicCtr T
    exact .inr ⟨a', b', ha, hb,
      h.change (hrel ha) (hrel hb)
        (.inr ⟨hP, hva.release_getTopicCtr ha, hvb.release_getTopicCtr hb⟩),
      fun htopic => absurd hP htopic⟩

theorem Alike.accepts_iff (h : Alike P a b) (T : TypeId) (topic : String) :
    (∃ a', a.getTopicCtr T topic = .ok a') ↔ ∃ b', b.getTopicCtr T topic = .ok b' := by
  rcases h.getTopicCtr T topic with ⟨e, ha, hb⟩ | ⟨a', b', ha, hb, -, -⟩
  · exact iff_of_false (fun ⟨a', h'⟩ => nomatch ha.symm.trans h')
      fun ⟨b', h'⟩ => nomatch hb.symm.trans h'
  · exact iff_of_true ⟨a', ha⟩ ⟨b', hb⟩

end TopicTable

/-! ## Connections that answer alike -/

/-- An operation with the configuration and the service that its caller passes. -/
structure Call (Val : Type) where
  config : AsbConfig
  svcName : String
  op : Op Val

/-- The configurations and services that calls pass are among `configs`. -/
def Call.Uses {Val : Type} (configs : Set (AsbConfig × String)) (k : Call Val) : Prop :=
  (k.config, k.svcName) ∈ configs

/-- No call can configure the topic. -/
def Unconfigured (configs : Set (AsbConfig × String)) (topic : String) : Prop :=
  ∀ cfg ∈ configs, ∃ e, getBusConfig cfg.1 cfg.2 topic = .error e

theorem not_unconfigured {configs : Set (AsbConfig × String)} {Val : Type} {k : Call Val}
    (hk : k.Uses configs) {topic : String} {cfg : BusConfig}
    (h : getBusConfig k.config k.svcName topic = .ok cfg) : ¬ Unconfigured configs topic := by
  intro hun
  obtain ⟨e, he⟩ := hun _ hk
  exact nomatch h.symm.trans he

namespace AsbConnection

variable {Val : Type} {qx : QuickXml Val} {config : AsbConfig} {svcName : String}
  {configs : Set (AsbConfig × String)}

variable (qx) in
def call (c : AsbConnection Val) (k : Call Val) : Option (AsbConnection Val) :=
  c.step qx k.config k.svcName k.op

/-- The type check answers the same on both connections. -/
def SameChecks (c d : AsbConnection Val) : Prop :=
  ∀ T topic, c.Accepts T topic ↔ d.Accepts T topic

variable (qx configs) in
/-- Every sequence of creations, clones and drops can be made on one connection exactly when it
can on the other, and leaves the type check with the same answers. -/
def SameAnswers (c d : AsbConnection Val) : Prop :=
  ∀ ks : List (Call Val), (∀ k ∈ ks, k.Uses configs ∧ k.op.isTransport = false) →
    Option.Rel SameChecks (run (call qx) c ks) (run (call qx) d ks)

/-! ### Handles on configured topics -/

theorem handles_of_error {c c' : AsbConnection Val} {op : Op Val} {topic : String} {T : TypeId}
    {e : CalError} (hcr : op.creates = some (topic, T))
    (hcfg : getBusConfig config svcName topic = .error e)
    (h : c.step qx config svcName op = some c') : c'.handles = c.handles := by
  cases op with
  | createReader T' topic' reply id =>
    cases hcr
    rw [step_createReader] at h
    cases h
    simp only [createReader, hcfg]
    cases c.topics.getTopicCtr T topic <;> rfl
  | createWriter T' topic' =>
    cases hcr
    rw [step_createWriter] at h
    cases h
    simp only [createWriter, hcfg]
    cases c.topics.getTopicCtr T topic <;> rfl
  | cloneReader | cloneWriter | dropReader | dropWriter | write | read | readTimeout | tryRead
  | deliver | connClose | chanClose | pollError => cases hcr

variable (configs) in
/-- Every live handle is on a topic that some call can configure. -/
def HandlesConfigured (c : AsbConnection Val) : Prop :=
  ∀ h ∈ c.handles, ¬ Unconfigured configs h.1

theorem handlesConfigured_connected (kind : NetworkKind) (exchange : Option String) :
    (connected kind exchange : AsbConnection Val).HandlesConfigured configs :=
  fun _ hh => absurd hh (by simp [handles, connected])

theorem HandlesConfigured.call {c c' : AsbConnection Val} {k : Call Val}
    (hc : c.HandlesConfigured configs) (hk : k.Uses configs) (h : c.call qx k = some c') :
    c'.HandlesConfigured configs := by
  have hmove := step_topicMove h
  generalize hcr : k.op.creates = created at hmove
  intro x hx
  cases hmove with
  | rejected _ _ hh | failed _ _ hh | other _ hh => exact hc x (hh ▸ hx)
  | @created topic T topics c' _ _ hp =>
    rcases List.mem_cons.1 (hp.mem_iff.1 hx) with rfl | hx
    · intro hun
      obtain ⟨e, he⟩ := hun _ hk
      have hlen := hp.length_eq
      rw [handles_of_error hcr he h] at hlen
      simp at hlen
    · exact hc x hx
  | cloned hmem _ hp =>
    rcases List.mem_cons.1 (hp.mem_iff.1 hx) with rfl | hx
    · exact hc _ hmem
    · exact hc x hx
  | dropped _ hp => exact hc x (hp.mem_iff.2 (List.mem_cons_of_mem _ hx))

/-! ### The simulation -/

variable (configs) in
/-- The connections differ in the requests made to the broker and in the entries of vacant topics
that no call can configure. -/
structure Sim (c d : AsbConnection Val) : Prop where
  kind : d.kind = c.kind
  exchange : d.exchange = c.exchange
  asb : c.asb.SameBroker d.asb
  topics : c.topics.Alike (Unconfigured configs) d.topics
  readers : d.readers = c.readers
  writers : d.writers = c.writers

theorem Sim.sameChecks {c d : AsbConnection Val} (h : Sim configs c d) : SameChecks c d :=
  h.topics.accepts_iff

theorem Sim.createOnNet {c d : AsbConnection Val} (h : Sim configs c d) (T : TypeId)
    (topic : String) (cfg : BusConfig) (reply : BrokerReply) (id : SenderId) :
    NetAsb.SameEnd (c.createOnNet T topic cfg reply id) (d.createOnNet T topic cfg reply id) := by
  unfold AsbConnection.createOnNet
  rw [h.kind, h.exchange]
  cases c.kind with
  | amqp => exact h.asb.createBrokerReader (NetAsb.onlyAsks_amqpSubscribe _) ..
  | mqtt => exact h.asb.createBrokerReader NetAsb.onlyAsks_mqttSubscribe ..
  | loopback => exact h.asb.createLoopbackReader ..
  | null => exact h.asb.createNullReader ..

theorem Sim.createReader {c d : AsbConnection Val} (h : Sim configs c d) (T : TypeId)
    (topic : String) (reply : BrokerReply) (id : SenderId)
    (hconf : ∀ cfg, getBusConfig config svcName topic = .ok cfg → ¬ Unconfigured configs topic) :
    Sim configs (c.createReader config svcName T topic reply id).2
      (d.createReader config svcName T topic reply id).2 := by
  unfold AsbConnection.createReader
  rcases h.topics.getTopicCtr T topic with ⟨e, hc, hd⟩ | ⟨a, b, hc, hd, hrelease, hkeep⟩
  · rw [hc, hd]
    exact h
  · rw [hc, hd]
    dsimp only
    cases hcfg : getBusConfig config svcName topic with
    | error e => exact { h with topics := hrelease }
    | ok cfg =>
      have hend := h.createOnNet T topic cfg reply id
      rcases hC : c.createOnNet T topic cfg reply id with ⟨res, asb⟩
      rcases hD : d.createOnNet T topic cfg reply id with ⟨res', asb'⟩
      rw [hC, hD] at hend
      obtain ⟨hres, hasb⟩ := hend
      cases (show res' = res from hres)
      simp only [hC, hD]
      cases res with
      | ok r =>
        exact { h with
          asb := hasb
          topics := hkeep (hconf cfg hcfg)
          readers := congrArg (· ++ [r]) h.readers }
      | err e => exact { h with asb := hasb, topics := hrelease }
      | panicked => exact { h with asb := hasb, topics := hrelease }

theorem Sim.createWriter {c d : AsbConnection Val} (h : Sim configs c d) (T : TypeId)
    (topic : String)
    (hconf : ∀ cfg, getBusConfig config svcName topic = .ok cfg → ¬ Unconfigured configs topic) :
    Sim configs (c.createWriter config svcName T topic).2
      (d.createWriter config svcName T topic).2 := by
  unfold AsbConnection.createWriter
  rcases h.topics.getTopicCtr T topic with ⟨e, hc, hd⟩ | ⟨a, b, hc, hd, hrelease, hkeep⟩
  · rw [hc, hd]
    exact h
  · rw [hc, hd]
    dsimp only
    cases hcfg : getBusConfig config svcName topic with
    | error e => exact { h with topics := hrelease }
    | ok cfg =>
      rw [h.kind]
      exact { h with
        kind := rfl
        topics := hkeep (hconf cfg hcfg)
        writers := congrArg (· ++ [_]) h.writers }

/-- A creation, a clone or a drop leads from similar connections to similar ones. -/
theorem Sim.call {c d : AsbConnection Val} {k : Call Val} (h : Sim configs c d)
    (hc : c.HandlesConfigured configs) (hk : k.Uses configs) (hop : k.op.isTransport = false) :
    Option.Rel (Sim configs) (c.call qx k) (d.call qx k) := by
  obtain ⟨config, svcName, op⟩ := k
  simp only [AsbConnection.call]
  cases op with
  | createReader T topic reply id =>
    rw [step_createReader, step_createReader]
    exact .some (h.createReader T topic reply id fun cfg hcfg => not_unconfigured hk hcfg)
  | createWriter T topic =>
    rw [step_createWriter, step_createWriter]
    exact .some (h.createWriter T topic fun cfg hcfg => not_unconfigured hk hcfg)
  | cloneReader i id =>
    simp only [step, exec, h.readers]
    cases hr : c.readers[i]? with
    | none => exact .none
    | some r =>
      obtain ⟨hr', hasb⟩ := h.asb.cloneReader r id
      refine .some { h with
        asb := hasb
        topics := h.topics.retain (hc _ (mem_handles_reader hr))
        readers := ?_ }
      dsimp only
      rw [hr']
  | cloneWriter i =>
    simp only [step, exec, h.writers]
    cases hw : c.writers[i]? with
    | none => exact .none
    | some w =>
      exact .some { h with
        topics := h.topics.retain (hc _ (mem_handles_writer hw))
        writers := rfl }
  | dropReader i =>
    simp only [step, exec, h.readers]
    cases hr : c.readers[i]? with
    | none => exact .none
    | some r =>
      exact .some { h with
        asb := h.asb.dropReader r (c.readers.eraseIdx i)
        topics := h.topics.release (hc _ (mem_handles_reader hr))
        readers := rfl }
  | dropWriter i =>
    simp only [step, exec, h.writers]
    cases hw : c.writers[i]? with
    | none => exact .none
    | some w =>
      exact .some { h with
        topics := h.topics.release (hc _ (mem_handles_writer hw))
        writers := rfl }
  | write | read | readTimeout | tryRead | deliver | connClose | chanClose | pollError => cases hop

theorem Sim.sameAnswers {c d : AsbConnection Val} (h : Sim configs c d)
    (hc : c.HandlesConfigured configs) : SameAnswers qx configs c d := by
  intro ks hks
  have hrel : Option.Rel (fun c d : AsbConnection Val => Sim configs c d ∧
      c.HandlesConfigured configs) (run (AsbConnection.call qx) c ks)
      (run (AsbConnection.call qx) d ks) := by
    refine rel_run (G := fun k => k.Uses configs ∧ k.op.isTransport = false) ?_ ⟨h, hc⟩ hks
    rintro c d k ⟨hsim, hconf⟩ ⟨hk, hop⟩
    exact rel_imp (hsim.call hconf hk hop) fun c' d' hc' hsim' => ⟨hsim', hconf.call hk hc'⟩
  exact rel_imp hrel fun c' d' _ hsim => hsim.1.sameChecks

/-! ### What a failed creation leaves behind -/

theorem createOnNet_err {c : AsbConnection Val} {T : TypeId} {topic : String} {cfg : BusConfig}
    {reply : BrokerReply} {id : SenderId} {e : CalError} {asb : NetAsb Val}
    (h : c.createOnNet T topic cfg reply id = (.err e, asb)) : c.asb.SameBroker asb := by
  unfold createOnNet at h
  cases hkind : c.kind with
  | amqp =>
    rw [hkind] at h
    exact NetAsb.sameBroker_of_createBrokerReader_err (NetAsb.onlyAsks_amqpSubscribe _) h
  | mqtt =>
    rw [hkind] at h
    exact NetAsb.sameBroker_of_createBrokerReader_err NetAsb.onlyAsks_mqttSubscribe h
  | loopback =>
    rw [hkind] at h
    unfold NetAsb.createLoopbackReader at h
    dsimp only at h
    split at h <;> cases h
  | null =>
    rw [hkind] at h
    cases h

/-- A creation that returns an error was rejected by the type check, and then changed nothing, or
it gave the count back that the type check had taken. -/
theorem exec_creation_err {c c' : AsbConnection Val} {op : Op Val} {topic : String} {T : TypeId}
    {e : CalError} (hcr : op.creates = some (topic, T))
    (h : c.exec qx config svcName op = some (.err e, c')) :
    (¬ c.Accepts T topic ∧ c' = c) ∨
      ∃ topics asb, c.topics.getTopicCtr T topic = .ok topics ∧ c.asb.SameBroker asb ∧
        c' = { c with asb, topics := topics.release topic } := by
  have hrejected : ∀ e, c.topics.getTopicCtr T topic = .error e → ¬ c.Accepts T topic :=
    fun e he ⟨topics, hok⟩ => nomatch he.symm.trans hok
  cases op with
  | createReader T' topic' reply id =>
    cases hcr
    rw [exec_createReader] at h
    rcases createReader_cases config svcName c T topic reply id with
      ⟨e', hctr, heq⟩ | ⟨topics, hctr, ⟨e', -, heq⟩ | ⟨cfg, -, ⟨r, asb, -, heq⟩ |
        ⟨res, asb, hnet, hres, heq⟩⟩⟩
    · rw [heq] at h
      cases h
      exact .inl ⟨hrejected _ hctr, rfl⟩
    · rw [heq] at h
      cases h
      exact .inr ⟨topics, c.asb, hctr, .refl _, rfl⟩
    · rw [heq] at h
      cases h
    · rw [heq] at h
      cases res with
      | ok r => exact absurd rfl (hres r)
      | err e' =>
        -- Past the type check the count that was taken is released again.
        cases h
        exact .inr ⟨topics, asb, hctr, createOnNet_err hnet, rfl⟩
      | panicked => cases h
  | createWriter T' topic' =>
    cases hcr
    rw [exec_createWriter] at h
    rcases createWriter_cases config svcName c T topic with
      ⟨e', hctr, heq⟩ | ⟨topics, hctr, ⟨e', -, heq⟩ | ⟨w, -, -, heq⟩⟩
    · rw [heq] at h
      cases h
      exact .inl ⟨hrejected _ hctr, rfl⟩
    · rw [heq] at h
      cases h
      exact .inr ⟨topics, c.asb, hctr, .refl _, rfl⟩
    · rw [heq] at h
      cases h
  | cloneReader | cloneWriter | dropReader | dropWriter | write | read | readTimeout | tryRead
  | deliver | connClose | chanClose | pollError => cases hcr

/-- The count given back leaves similar connections, if the topic had an entry or can never be
configured. -/
theorem sim_failed {c : AsbConnection Val} {topics : TopicTable} {asb : NetAsb Val} {T : TypeId}
    {topic : String} (hctr : c.topics.getTopicCtr T topic = .ok topics)
    (hasb : c.asb.SameBroker asb)
    (h : (c.topics.lookup topic).isSome ∨ Unconfigured configs topic) :
    Sim configs c { c with asb, topics := topics.release topic } where
  kind := rfl
  exchange := rfl
  asb := hasb
  readers := rfl
  writers := rfl
  topics := by
    intro k
    rw [TopicTable.lookup_release_getTopicCtr hctr]
    by_cases hk : k = topic
    · subst hk
      rw [if_pos rfl]
      cases hl : c.topics.lookup k with
      | some e => exact .inl rfl
      | none =>
        have hvacant : c.topics.Vacant k := fun e he => nomatch hl.symm.trans he
        have hun := h.resolve_left (by rw [hl]; exact Bool.false_ne_true)
        exact .inr ⟨hun, hvacant, hvacant.release_getTopicCtr hctr⟩
    · rw [if_neg hk]
      exact .inl rfl

variable (qx) in
theorem call_createWriter {c : AsbConnection Val} {cfg : AsbConfig × String} {S : TypeId}
    {topic : String} {b : BusConfig} (hcfg : getBusConfig cfg.1 cfg.2 topic = .ok b)
    {topics : TopicTable} (hctr : c.topics.getTopicCtr S topic = .ok topics) :
    ∃ d, c.call qx ⟨cfg.1, cfg.2, .createWriter S topic⟩ = some d ∧ d.topics = topics := by
  refine ⟨_, step_createWriter c S topic, ?_⟩
  simp only [createWriter, hctr, hcfg]

/-- On a topic that had no entry, a failed creation shows as soon as a handle of another type is
made there. -/
theorem not_sameAnswers_failed {c : AsbConnection Val} {topics : TopicTable} {asb : NetAsb Val}
    {T : TypeId} {topic : String} (hctr : c.topics.getTopicCtr T topic = .ok topics)
    (hnone : c.topics.lookup topic = none) (hun : ¬ Unconfigured configs topic) :
    ¬ SameAnswers qx configs c { c with asb, topics := topics.release topic } := by
  intro hsame
  obtain ⟨cfg, hmem, b, hcfg⟩ : ∃ cfg ∈ configs, ∃ b, getBusConfig cfg.1 cfg.2 topic = .ok b := by
    by_contra hno
    refine hun fun cfg hmem => ?_
    cases hcfg : getBusConfig cfg.1 cfg.2 topic with
    | error e => exact ⟨e, rfl⟩
    | ok b => exact absurd ⟨cfg, hmem, b, hcfg⟩ hno
  have hST : (⟨T.hash + 1⟩ : TypeId) ≠ T := fun h => by simpa using congrArg TypeId.hash h
  have hvacant : c.topics.Vacant topic := fun e he => nomatch hnone.symm.trans he
  have hentry : (topics.release topic).lookup topic = some (PossessCtr.new, T) := by
    rw [TopicTable.lookup_release_getTopicCtr hctr, if_pos rfl, hnone]
    rfl
  -- A writer of another type is made on both.
  obtain ⟨t, ht⟩ := hvacant.exists_getTopicCtr ⟨T.hash + 1⟩
  obtain ⟨t', ht'⟩ := (hvacant.release_getTopicCtr hctr).exists_getTopicCtr ⟨T.hash + 1⟩
  obtain ⟨d, hd, rfl⟩ := call_createWriter qx hcfg ht
  obtain ⟨d', hd', rfl⟩ := call_createWriter qx
    (c := { c with asb, topics := topics.release topic }) hcfg ht'
  have hrel := hsame [⟨cfg.1, cfg.2, .createWriter ⟨T.hash + 1⟩ topic⟩] fun k hk => by
    rw [List.mem_singleton.1 hk]
    exact ⟨hmem, rfl⟩
  rw [run_cons, run_cons, hd, hd'] at hrel
  cases hrel with
  | some hchecks =>
    -- The type of the failed call is accepted behind it only.
    have hacc : d'.Accepts T topic := by
      refine TopicTable.getTopicCtr_ok_iff.2 fun count S hl => .inl ?_
      rw [TopicTable.lookup_getTopicCtr ht', if_pos rfl, hentry] at hl
      exact (Prod.mk.inj (Option.some.inj hl)).2.symm
    have hd_entry : d.topics.lookup topic = some (PossessCtr.ofOwners 2, ⟨T.hash + 1⟩) := by
      rw [TopicTable.lookup_getTopicCtr ht, if_pos rfl, hnone]
    rcases TopicTable.getTopicCtr_ok_iff.1 ((hchecks T topic).2 hacc) _ _ hd_entry with h | h
    · exact hST h
    · exact absurd h (by decide)

/-- **A creation that returns an error leaves no trace exactly when the type check rejected it,
its client topic already had an entry, or no later call can configure the topic.** -/
theorem failed_creation_traceless_iff {kind : NetworkKind} {exchange : Option String}
    {ks : List (Call Val)} {c c' : AsbConnection Val} {k : Call Val} {topic : String} {T : TypeId}
    {e : CalError} (hreach : run (call qx) (connected kind exchange) ks = some c)
    (hks : ∀ k ∈ ks, k.Uses configs) (hcr : k.op.creates = some (topic, T))
    (hfail : c.exec qx k.config k.svcName k.op = some (.err e, c')) :
    SameAnswers qx configs c c' ↔
      ¬ c.Accepts T topic ∨ (c.topics.lookup topic).isSome ∨ Unconfigured configs topic := by
  have hconf : c.HandlesConfigured configs :=
    (Always.of_inv (G := fun _ k => k.Uses configs) (fun c k c' hc hk h => hc.call hk h)
      (handlesConfigured_connected kind exchange) (.of_mem hks _)).last hreach
  rcases exec_creation_err hcr hfail with ⟨hrej, rfl⟩ | ⟨topics, asb, hctr, hasb, rfl⟩
  · refine iff_of_true (Sim.sameAnswers ?_ hconf) (.inl hrej)
    exact ⟨rfl, rfl, .refl _, fun _ => .inl rfl, rfl, rfl⟩
  · constructor
    · intro hsame
      by_contra hno
      obtain ⟨-, hentry, hun⟩ := not_or.1 hno |>.imp_right not_or.1
      exact not_sameAnswers_failed hctr (by simpa using hentry) hun hsame
    · rintro (hrej | h)
      · exact absurd ⟨topics, hctr⟩ hrej
      · exact (sim_failed hctr hasb h).sameAnswers hconf

/-- A broker that declares no queue. -/
def refusing : BrokerReply := ⟨.error (.netErr "queue refused"), .ok (), .ok "tag", .ok ()⟩

/-- A call in the service `svc` of a configuration that gives no topic settings of its own. -/
def svcCall (op : Op Unit) : Call Unit := ⟨.withBusTopics "svc" [], "svc", op⟩

/-- The broker refuses a reader on a topic that has a writer. -/
theorem failed_creation_traceless_with_writer :
    ∃ c c' : AsbConnection Unit,
      run (call .unit) (connected .amqp none) [svcCall (.createWriter ⟨0⟩ "t")] = some c ∧
      c.call .unit (svcCall (.createReader ⟨0⟩ "t" refusing 7)) = some c' ∧
      SameAnswers .unit {(.withBusTopics "svc" [], "svc")} c c' := by
  have hreach : run (call .unit) (connected .amqp none) [svcCall (.createWriter ⟨0⟩ "t")] =
      some (_ : AsbConnection Unit) := rfl
  refine ⟨_, _, hreach, rfl, ?_⟩
  exact (failed_creation_traceless_iff (k := svcCall (.createReader ⟨0⟩ "t" refusing 7)) hreach
    (by simp [svcCall, Call.Uses]) rfl rfl).2 (.inr (.inl rfl))

/-- A reader of type 0 that the broker refused decides between the types 0 and 1 once a writer of
type 1 is there. -/
theorem refused_reader_decides :
    ∃ c' d d' : AsbConnection Unit,
      (connected .amqp none).exec .unit (.withBusTopics "svc" []) "svc"
        (.createReader ⟨0⟩ "t" refusing 7) = some (.err (.netErr "queue refused"), c') ∧
      (connected .amqp none).call .unit (svcCall (.createWriter ⟨1⟩ "t")) = some d ∧
      c'.call .unit (svcCall (.createWriter ⟨1⟩ "t")) = some d' ∧
      (d.Accepts ⟨1⟩ "t" ∧ ¬ d.Accepts ⟨0⟩ "t") ∧ d'.Accepts ⟨0⟩ "t" ∧ ¬ d'.Accepts ⟨1⟩ "t" ∧
      ¬ SameAnswers .unit {(.withBusTopics "svc" [], "svc")} (connected .amqp none) c' := by
  refine ⟨_, _, _, rfl, rfl, rfl, by decide, by decide, by decide, fun hsame => ?_⟩
  have hrel := hsame [svcCall (.createWriter ⟨1⟩ "t")]
    (by simp [svcCall, Call.Uses, Op.isTransport])
  cases hrel with
  | some hchecks => exact absurd ((hchecks ⟨1⟩ "t").1 (by decide)) (by decide)

end AsbConnection

end Rounac

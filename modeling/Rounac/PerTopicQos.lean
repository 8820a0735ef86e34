import Rounac.FanOut
import Rounac.Networks.Steps

/-!
# QoS of readers that share a bus topic

QoS settings are found by client topic, and the time-based filter works in the ringmaster, which
there is one of for each bus topic. The ringmaster gets the settings of the reader that subscribed
first, so of two readers on one bus topic the second is filtered by the first one's settings. Both
are filtered by their own exactly when these are the same (`own_filters_iff`).
-/

namespace Rounac

open StepSystem SpacedFilter OverwriteRing

variable {Val : Type} {qx : QuickXml Val}

namespace NetAsb

/-! ## The ringmaster that serves a topic -/

/-- The ASB is open, and the topic's registered ringmaster is `k`. -/
def Serving (asb : NetAsb Val) (topic : String) (k : ReaderRingMaster) : Prop :=
  asb.shutdownFuse = false ∧ ∃ e, asb.readers.lookup topic = some e ∧ asb.masters e.ringmaster = k

/-- What a creation leaves: a reader `r` with a new, empty ring, the newest sender of the topic's
ringmaster, which was `k`; the older rings are as they were. -/
structure Attached (asb asb' : NetAsb Val) (topic : String) (k : ReaderRingMaster) (id : SenderId)
    (r : AsbReader) : Prop where
  serving : asb'.Serving topic (k.addSender id asb.nextRing)
  buffer : r.buffer = asb.nextRing
  nextRing : asb'.nextRing = asb.nextRing + 1
  empty : (asb'.rings asb.nextRing).items = []
  older : ∀ ρ, ρ ≠ asb.nextRing → asb'.rings ρ = asb.rings ρ

theorem Attached.of_attachReader {asb asb' : NetAsb Val} {config : BusConfig}
    {k : ReaderRingMaster} {e : Entry} {net : String → AsbReaderNet} {T : TypeId} {counter : String}
    {id : SenderId} {r : AsbReader} (he : asb.readers.lookup config.busTopic = some e)
    (hk : asb.masters e.ringmaster = k) (hfuse : asb.shutdownFuse = false)
    (h : asb.attachReader e.ringmaster net T counter config id = (.ok r, asb')) :
    asb.Attached asb' config.busTopic k id r := by
  unfold NetAsb.attachReader addReader at h
  rw [he] at h
  simp only [Prod.mk.injEq, Res.ok.injEq] at h
  obtain ⟨rfl, rfl⟩ := h
  subst hk
  have hserving : (Function.update asb.masters e.ringmaster
      ((asb.masters e.ringmaster).addSender id asb.nextRing)) e.ringmaster =
      (asb.masters e.ringmaster).addSender id asb.nextRing := Function.update_self _ _ _
  refine ⟨⟨hfuse, { e with count := e.count + 1 }, AList.lookup_insert _, hserving⟩, rfl, rfl, ?_,
    fun ρ hρ => Function.update_of_ne hρ _ _⟩
  show (Function.update asb.rings asb.nextRing _ asb.nextRing).items = []
  rw [Function.update_self]
  rfl

theorem attached_of_first {asb asb' : NetAsb Val}
    {subscribe : NetAsb Val → BusConfig → BrokerReply → Except CalError String × NetAsb Val}
    {net : String → AsbReaderNet} {T : TypeId} {counter : String} {config : BusConfig}
    {reply : BrokerReply} {id : SenderId} {r : AsbReader} (hfuse : asb.shutdownFuse = false)
    (hsub : ∃ requests, (subscribe asb config reply).2 = { asb with requests })
    (hnone : asb.readers.lookup config.busTopic = none)
    (h : createBrokerReader subscribe net asb T counter config reply id = (.ok r, asb')) :
    asb.Attached asb' config.busTopic (.new T config.wireFormat config.qos) id r := by
  obtain ⟨requests, hsub⟩ := hsub
  unfold createBrokerReader at h
  rw [getCloneFor, hnone] at h
  rcases hres : subscribe asb config reply with ⟨res, asb₁⟩
  simp only [hres, Option.map_none] at h hsub
  subst hsub
  cases res with
  | error e => cases h
  | ok tag =>
    have hlookup : ((({ asb with requests } : NetAsb Val).newMaster
        (.new T config.wireFormat config.qos)).2.insertReader config.busTopic asb.nextMaster
        tag).readers.lookup config.busTopic = some ⟨asb.nextMaster, 0, tag⟩ := AList.lookup_insert _
    have hatt := Attached.of_attachReader hlookup (Function.update_self _ _ _) hfuse h
    exact ⟨hatt.serving, hatt.buffer, hatt.nextRing, hatt.empty, hatt.older⟩

/-- A later reader of a topic joins its ringmaster. -/
theorem Serving.join {asb asb' : NetAsb Val}
    {subscribe : NetAsb Val → BusConfig → BrokerReply → Except CalError String × NetAsb Val}
    {net : String → AsbReaderNet} {T : TypeId} {counter : String} {config : BusConfig}
    {reply : BrokerReply} {id : SenderId} {r : AsbReader} {k : ReaderRingMaster}
    (hk : asb.Serving config.busTopic k)
    (h : createBrokerReader subscribe net asb T counter config reply id = (.ok r, asb')) :
    asb.Attached asb' config.busTopic k id r := by
  obtain ⟨hfuse, e, he, hm⟩ := hk
  unfold createBrokerReader at h
  rw [getCloneFor, he, Option.map_some] at h
  dsimp only at h
  split_ifs at h
  · exact .of_attachReader he hm hfuse h
  · cases h

/-! ## What it pushes -/

/-- The messages of a topic, as they come in. -/
def incoming (topic : String) (xs : List (Instant × ByteArray)) : List FanOp :=
  xs.map fun x => .handleMsg topic x.1 x.2

variable (qx) in
theorem Serving.handleMsg {asb : NetAsb Val} {topic : String} {k : ReaderRingMaster}
    (h : asb.Serving topic k) (now : Instant) (data : ByteArray) :
    asb.sends qx (.handleMsg topic now data) =
        (k.lets qx [(now, data)]).flatMap (fun x => k.senders.map fun s => (s.2, x)) ∧
      (asb.fan qx (.handleMsg topic now data)).Serving topic (k.after [(now, data)]) := by
  obtain ⟨hfuse, e, he, rfl⟩ := h
  refine ⟨?_, (fan_fuse asb _).trans hfuse, e, ?_, ?_⟩
  · simp only [sends, hfuse, Bool.false_eq_true, if_false, he]
    rw [ReaderRingMaster.distributeMsg_eq]
  · rw [fan_readers]
    exact he
  · simp only [fan, NetAsb.handleMsg, hfuse, Bool.false_eq_true, if_false, he]
    rw [Function.update_self, ReaderRingMaster.distributeMsg_eq]

/-- **What the topic's messages push into a ring with one sender**: what the ringmaster lets out. -/
theorem Serving.pushed_eq {asb : NetAsb Val} {topic : String} {k : ReaderRingMaster} {ρ : RingId}
    {s : ReaderSender} (h : asb.Serving topic k) (hs : k.senders.filter (·.2 = ρ) = [s])
    (xs : List (Instant × ByteArray)) : pushed qx ρ asb (incoming topic xs) = k.lets qx xs := by
  induction xs generalizing asb k with
  | nil => simp [incoming, pushed, ReaderRingMaster.lets]
  | cons x xs ih =>
    obtain ⟨hsends, hserving⟩ := h.handleMsg qx x.1 x.2
    have hrest := ih hserving hs
    show ((asb.sends qx (.handleMsg topic x.1 x.2)).filter (·.1 = ρ)).map Prod.snd ++
      pushed qx ρ (asb.fan qx (.handleMsg topic x.1 x.2)) (incoming topic xs) = _
    rw [hrest, hsends, push_of_filter hs, ← ReaderRingMaster.lets_append]
    rfl

variable (qx) in
theorem acts_incoming (ρ : RingId) (asb : NetAsb Val) (topic : String)
    (xs : List (Instant × ByteArray)) :
    acts qx ρ asb (incoming topic xs) = (pushed qx ρ asb (incoming topic xs)).map .send := by
  induction xs generalizing asb with
  | nil => rfl
  | cons x xs ih =>
    show actsOn qx ρ asb (.handleMsg topic x.1 x.2) ++ acts qx ρ _ (incoming topic xs) =
      (_ ++ pushed qx ρ _ (incoming topic xs)).map .send
    rw [ih, List.map_append]
    exact congrArg (· ++ _) (List.append_nil _)

variable (qx) in
/-- **What incoming messages leave in a ring**: the pushed ones, sent to what was there. -/
theorem rings_incoming {asb : NetAsb Val} {ρ : RingId} (hρ : ρ < asb.nextRing) (topic : String)
    (xs : List (Instant × ByteArray)) :
    (asb.fanAll qx (incoming topic xs)).rings ρ =
      (pushed qx ρ asb (incoming topic xs)).foldl RingBuf.send (asb.rings ρ) := by
  rw [fanAll_rings qx _ hρ, acts_incoming, List.foldl_map]
  rfl

end NetAsb

namespace AsbConnection

variable {config : AsbConfig} {svcName : String}

/-! ## Two readers on one bus topic -/

theorem attached_createReader {c c' : AsbConnection Val} {T : TypeId} {topic : String}
    {cfg : BusConfig} {reply : BrokerReply} {id : SenderId} {r : AsbReader}
    (hkind : c.kind = .amqp ∨ c.kind = .mqtt) (hfuse : c.asb.shutdownFuse = false)
    (hcfg : getBusConfig config svcName topic = .ok cfg)
    (hnone : c.asb.readers.lookup cfg.busTopic = none)
    (h : c.createReader config svcName T topic reply id = (.ok r, c')) :
    c'.kind = c.kind ∧
      c.asb.Attached c'.asb cfg.busTopic (.new T cfg.wireFormat cfg.qos) id r := by
  rcases createReader_cases config svcName c T topic reply id with
    ⟨e, -, heq⟩ | ⟨topics, -,
      ⟨e, -, heq⟩ | ⟨cfg', hcfg', ⟨r', asb, hnet, heq⟩ | ⟨res, asb, -, hres, heq⟩⟩⟩ <;>
    rw [heq] at h
  · cases h
  · cases h
  · cases h
    cases hcfg.symm.trans hcfg'
    refine ⟨rfl, ?_⟩
    unfold createOnNet at hnet
    rcases hkind with hk | hk <;> rw [hk] at hnet
    · exact NetAsb.attached_of_first hfuse (NetAsb.amqpSubscribe_snd _ _ _ _) hnone hnet
    · exact NetAsb.attached_of_first hfuse (NetAsb.mqttSubscribe_snd _ _ _) hnone hnet
  · cases h
    exact absurd rfl (hres r)

theorem Serving.createReader {c c' : AsbConnection Val} {T : TypeId} {topic : String}
    {cfg : BusConfig} {reply : BrokerReply} {id : SenderId} {r : AsbReader} {k : ReaderRingMaster}
    (hkind : c.kind = .amqp ∨ c.kind = .mqtt) (hcfg : getBusConfig config svcName topic = .ok cfg)
    (hk : c.asb.Serving cfg.busTopic k)
    (h : c.createReader config svcName T topic reply id = (.ok r, c')) :
    c.asb.Attached c'.asb cfg.busTopic k id r := by
  rcases createReader_cases config svcName c T topic reply id with
    ⟨e, -, heq⟩ | ⟨topics, -,
      ⟨e, -, heq⟩ | ⟨cfg', hcfg', ⟨r', asb, hnet, heq⟩ | ⟨res, asb, -, hres, heq⟩⟩⟩ <;>
    rw [heq] at h
  · cases h
  · cases h
  · cases h
    cases hcfg.symm.trans hcfg'
    unfold createOnNet at hnet
    rcases hkind with hkind | hkind <;> rw [hkind] at hnet <;> exact hk.join hnet
  · cases h
    exact absurd rfl (hres r)

end AsbConnection

variable (qx) in
/-- The data of a message of type `T`. -/
def Decodes (T : TypeId) (format : WireFormat) (data : ByteArray) : Prop :=
  ∃ msg, deserializeMsg qx T format data = .ok msg

variable (qx) in
/-- What the filter of a client topic's own settings admits of a bus topic's messages. -/
def BusConfig.ownFilter (cfg : BusConfig) (T : TypeId) (xs : List (Instant × ByteArray)) :
    List (Stamped Val) :=
  (admittedBy cfg.qos.timeBasedFilter none xs).filterMap (decodedAs qx T cfg.wireFormat)

theorem length_filterMap_decodedAs {T : TypeId} {format : WireFormat}
    {xs : List (Instant × ByteArray)} (h : ∀ x ∈ xs, Decodes qx T format x.2) :
    (xs.filterMap (decodedAs qx T format)).length = xs.length := by
  induction xs with
  | nil => rfl
  | cons x xs ih =>
    obtain ⟨msg, hmsg⟩ := h x List.mem_cons_self
    have hsome : decodedAs qx T format x = some (x.1, msg) := by simp [decodedAs, hmsg]
    rw [List.filterMap_cons_some hsome, List.length_cons, List.length_cons,
      ih fun y hy => h y (List.mem_cons_of_mem _ hy)]

/-- Two settings filter all messages alike exactly when the filters are of one width, or there are
no messages. -/
theorem ownFilter_eq_iff (ca cb : BusConfig) (T : TypeId) :
    (∀ xs, (∀ x ∈ xs, Decodes qx T ca.wireFormat x.2) →
        ca.ownFilter qx T xs = cb.ownFilter qx T xs) ↔
      ca.qos.timeBasedFilter.getD 0 = cb.qos.timeBasedFilter.getD 0 ∨
        ∀ data, ¬ Decodes qx T ca.wireFormat data := by
  have hformat : cb.wireFormat = ca.wireFormat := rfl
  unfold BusConfig.ownFilter
  rw [hformat]
  constructor
  · intro h
    by_cases hnone : ∀ data, ¬ Decodes qx T ca.wireFormat data
    · exact .inr hnone
    · obtain ⟨data, hdata⟩ := not_forall_not.1 hnone
      refine .inl (getD_eq_of_length_admittedBy (x := data) fun t => ?_)
      have hall : ∀ x ∈ [(0, data), (t, data)], Decodes qx T ca.wireFormat x.2 := by
        simpa using hdata
      have hlength := congrArg List.length (h _ hall)
      rwa [length_filterMap_decodedAs fun x hx => hall x (mem_of_mem_admittedBy hx),
        length_filterMap_decodedAs fun x hx => hall x (mem_of_mem_admittedBy hx)] at hlength
  · rintro (hwidth | hnone) xs hxs
    · rw [admittedBy_eq_admitted, admittedBy_eq_admitted, hwidth]
    · cases xs with
      | nil => simp
      | cons x xs => exact absurd (hxs x List.mem_cons_self) (hnone x.2)

namespace AsbConnection

variable {config : AsbConfig} {svcName : String}

/-- **Of two readers on one bus topic, each is filtered by its own settings exactly when the two
filters are of one width** (an absent filter counts as none), or no message decodes at their type.
The first reader of the bus topic is `ra`, on the client topic `a`. Both rings are empty when the
readers are made, and then hold what is pushed. -/
theorem own_filters_iff (c c₁ c₂ : AsbConnection Val) (a b : String) (T : TypeId)
    (ca cb : BusConfig)
    (reply reply' : BrokerReply) (id id' : SenderId) (ra rb : AsbReader)
    (hkind : c.kind = .amqp ∨ c.kind = .mqtt) (hfuse : c.asb.shutdownFuse = false)
    (hca : getBusConfig config svcName a = .ok ca) (hcb : getBusConfig config svcName b = .ok cb)
    (hbus : ca.busTopic = cb.busTopic) (hnone : c.asb.readers.lookup ca.busTopic = none)
    (hra : c.createReader config svcName T a reply id = (.ok ra, c₁))
    (hrb : c₁.createReader config svcName T b reply' id' = (.ok rb, c₂)) :
    (∀ ρ ∈ [ra.buffer, rb.buffer], (c₂.asb.rings ρ).items = [] ∧
      ∀ xs, (c₂.asb.fanAll qx (NetAsb.incoming ca.busTopic xs)).rings ρ =
        (NetAsb.pushed qx ρ c₂.asb (NetAsb.incoming ca.busTopic xs)).foldl RingBuf.send
          (c₂.asb.rings ρ)) ∧
    ((∀ xs, (∀ x ∈ xs, Decodes qx T ca.wireFormat x.2) →
      NetAsb.pushed qx ra.buffer c₂.asb (NetAsb.incoming ca.busTopic xs) = ca.ownFilter qx T xs ∧
      NetAsb.pushed qx rb.buffer c₂.asb (NetAsb.incoming ca.busTopic xs) = cb.ownFilter qx T xs) ↔
    ca.qos.timeBasedFilter.getD 0 = cb.qos.timeBasedFilter.getD 0 ∨
      ∀ data, ¬ Decodes qx T ca.wireFormat data) := by
  obtain ⟨hkind₁, hfirst⟩ := attached_createReader hkind hfuse hca hnone hra
  have hserving := hfirst.serving
  rw [hbus] at hserving
  have hlater := Serving.createReader (hkind₁ ▸ hkind) hcb hserving hrb
  have hserving₂ := hlater.serving
  have hbuffer₂ := hlater.buffer
  rw [← hbus, hfirst.nextRing] at hserving₂
  rw [hfirst.nextRing] at hbuffer₂
  have hnext : c₁.asb.nextRing < c₂.asb.nextRing := by
    rw [hlater.nextRing]
    exact Nat.lt_succ_self _
  constructor
  · intro ρ hρ
    -- Each creation made one of the rings, and the second one left the first one's ring alone.
    have hring : ρ < c₂.asb.nextRing ∧ (c₂.asb.rings ρ).items = [] := by
      rcases List.mem_pair.1 hρ with rfl | rfl
      · have hlt : c.asb.nextRing < c₁.asb.nextRing := by
          rw [hfirst.nextRing]
          exact Nat.lt_succ_self _
        rw [hfirst.buffer, hlater.older _ (Nat.ne_of_lt hlt)]
        exact ⟨Nat.lt_trans hlt hnext, hfirst.empty⟩
      · rw [hlater.buffer]
        exact ⟨hnext, hlater.empty⟩
    exact ⟨hring.2, NetAsb.rings_incoming qx hring.1 ca.busTopic⟩
  · have hpa : ∀ xs, NetAsb.pushed qx ra.buffer c₂.asb (NetAsb.incoming ca.busTopic xs) =
        ca.ownFilter qx T xs := by
      intro xs
      rw [hfirst.buffer]
      exact hserving₂.pushed_eq (s := (id, c.asb.nextRing))
        (by simp [ReaderRingMaster.addSender, ReaderRingMaster.new]) xs
    have hpb : ∀ xs, NetAsb.pushed qx rb.buffer c₂.asb (NetAsb.incoming ca.busTopic xs) =
        ca.ownFilter qx T xs := by
      intro xs
      rw [hbuffer₂]
      exact hserving₂.pushed_eq (s := (id', c.asb.nextRing + 1))
        (by simp [ReaderRingMaster.addSender, ReaderRingMaster.new]) xs
    rw [← ownFilter_eq_iff ca cb T]
    exact forall₂_congr fun xs _ => by rw [hpa, hpb]; exact and_iff_right rfl

/-- Two client topics on the bus topic `t`, without QoS settings. -/
theorem own_filters_without_settings :
    ∃ (ra rb : AsbReader) (c₁ c₂ : AsbConnection Unit),
      (connected .amqp none).createReader (.withBusTopics "svc" [("a", "t"), ("b", "t")]) "svc" ⟨0⟩
        "a" .accepting 1 = (.ok ra, c₁) ∧
      c₁.createReader (.withBusTopics "svc" [("a", "t"), ("b", "t")]) "svc" ⟨0⟩ "b" .accepting 2 =
        (.ok rb, c₂) ∧
      ∀ xs, (∀ x ∈ xs, Decodes .unit ⟨0⟩ .xml x.2) →
        NetAsb.pushed .unit ra.buffer c₂.asb (NetAsb.incoming "t" xs) =
          (⟨.xml, .default, "t"⟩ : BusConfig).ownFilter .unit ⟨0⟩ xs ∧
        NetAsb.pushed .unit rb.buffer c₂.asb (NetAsb.incoming "t" xs) =
          (⟨.xml, .default, "t"⟩ : BusConfig).ownFilter .unit ⟨0⟩ xs := by
  have hca : getBusConfig (.withBusTopics "svc" [("a", "t"), ("b", "t")]) "svc" "a" =
    .ok ⟨.xml, .default, "t"⟩ := rfl
  refine ⟨_, _, _, _, rfl, rfl, ?_⟩
  exact (own_filters_iff (connected .amqp none) _ _ "a" "b" ⟨0⟩ _ ⟨.xml, .default, "t"⟩ .accepting
    .accepting 1 2 _ _ (.inl rfl) rfl hca rfl rfl rfl rfl rfl).2.2 (.inl rfl)

/-- Two client topics on the bus topic `t`, the second one under a time filter of 5. -/
def halfFiltered : AsbConfig where
  services :=
    { defaultWireFormat := some .xml
      defaultQos := none
      service := (∅ : StrMap ServiceConfig).insert "svc"
        { wireFormat := none
          qos := none
          topics := ((∅ : StrMap TopicConfig).insert "a" ⟨some "t", none⟩).insert "b"
            ⟨some "t", some "slow"⟩ } }
  qos := (∅ : StrMap QosSettings).insert "slow"
    { QosSettings.default with timeBasedFilter := some 5 }

/-- Messages arrive at 0 and at 3. In whichever order the readers are made, both get what the first
one's settings admit: `b` a message too many, or `a` a message too few. -/
theorem first_reader_filters_both :
    let first : List (Stamped Unit) := [(0, ())]
    let both : List (Stamped Unit) := [(0, ()), (3, ())]
    let xs := [(0, "<msg/>".toUTF8), (3, "<msg/>".toUTF8)]
    (∃ (ra rb : AsbReader) (c₁ c₂ : AsbConnection Unit) (cb : BusConfig),
      getBusConfig halfFiltered "svc" "b" = .ok cb ∧ cb.ownFilter .unit ⟨0⟩ xs = first ∧
      (connected .mqtt none).createReader halfFiltered "svc" ⟨0⟩ "a" .accepting 1 = (.ok ra, c₁) ∧
      c₁.createReader halfFiltered "svc" ⟨0⟩ "b" .accepting 2 = (.ok rb, c₂) ∧
      NetAsb.pushed .unit rb.buffer c₂.asb (NetAsb.incoming "t" xs) = both) ∧
    ∃ (ra rb : AsbReader) (c₁ c₂ : AsbConnection Unit) (ca : BusConfig),
      getBusConfig halfFiltered "svc" "a" = .ok ca ∧ ca.ownFilter .unit ⟨0⟩ xs = both ∧
      (connected .mqtt none).createReader halfFiltered "svc" ⟨0⟩ "b" .accepting 2 = (.ok rb, c₁) ∧
      c₁.createReader halfFiltered "svc" ⟨0⟩ "a" .accepting 1 = (.ok ra, c₂) ∧
      NetAsb.pushed .unit ra.buffer c₂.asb (NetAsb.incoming "t" xs) = first :=
  ⟨⟨_, _, _, _, _, rfl, by decide, rfl, rfl, by decide⟩,
    ⟨_, _, _, _, _, rfl, by decide, rfl, rfl, by decide⟩⟩

end AsbConnection

end Rounac

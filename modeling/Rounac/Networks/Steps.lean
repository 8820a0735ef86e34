import Rounac.Networks.Connection

/-!
# What an operation can do

The spec lemmas of the operations of `AsbConnection`: how the creation of a reader can end, and
what a step does to the parts of the state. Proofs about runs use these and do not unfold `exec`.
-/

namespace Rounac

namespace NetAsb

variable {Val : Type}

/-- A reader made by a creation has the type and the client topic asked for. -/
theorem attachReader_ok {asb asb' : NetAsb Val} {m : MasterId} {net : String → AsbReaderNet}
    {T : TypeId} {counter : String} {config : BusConfig} {id : SenderId} {r : AsbReader}
    (h : asb.attachReader m net T counter config id = (.ok r, asb')) :
    r.counter = counter ∧ r.ty = T := by
  unfold attachReader at h
  cases hadd : asb.addReader config.busTopic with
  | none => rw [hadd] at h; simp at h
  | some asb₁ =>
    rw [hadd] at h
    simp only [Prod.mk.injEq, Res.ok.injEq] at h
    obtain ⟨rfl, -⟩ := h
    exact ⟨rfl, rfl⟩

theorem createBrokerReader_ok {asb asb' : NetAsb Val}
    {subscribe : NetAsb Val → BusConfig → BrokerReply → Except CalError String × NetAsb Val}
    {net : String → AsbReaderNet} {T : TypeId} {counter : String} {config : BusConfig}
    {reply : BrokerReply} {id : SenderId} {r : AsbReader}
    (h : createBrokerReader subscribe net asb T counter config reply id = (.ok r, asb')) :
    r.counter = counter ∧ r.ty = T := by
  unfold createBrokerReader at h
  split at h
  · split_ifs at h
    · exact attachReader_ok h
    · simp at h
  · split at h
    · simp at h
    · exact attachReader_ok h

theorem createLoopbackReader_ok {asb asb' : NetAsb Val} {T : TypeId} {counter : String}
    {config : BusConfig} {id : SenderId} {r : AsbReader}
    (h : asb.createLoopbackReader T counter config id = (.ok r, asb')) :
    r.counter = counter ∧ r.ty = T := by
  unfold createLoopbackReader at h
  dsimp only at h
  split at h
  · simp at h
  · simp only [Prod.mk.injEq, Res.ok.injEq] at h
    obtain ⟨rfl, -⟩ := h
    exact ⟨rfl, rfl⟩

/-- The creation of a null reader panics. -/
theorem createNullReader_eq (asb : NetAsb Val) (T : TypeId) (counter : String)
    (config : BusConfig) :
    asb.createNullReader T counter config =
      (.panicked, (asb.newMaster (.new T config.wireFormat config.qos)).2) := rfl

end NetAsb

/-- The operations that touch neither the topic table nor the live handles. -/
def Op.isTransport {Val : Type} : Op Val → Bool
  | .write .. | .read .. | .readTimeout .. | .tryRead .. | .deliver .. | .connClose | .chanClose
  | .pollError => true
  | _ => false

/-- The failure events of the transports. -/
def Op.isFailure {Val : Type} : Op Val → Bool
  | .connClose | .chanClose | .pollError => true
  | _ => false

namespace AsbConnection

variable {Val : Type} {qx : QuickXml Val} {config : AsbConfig} {svcName : String}

theorem createOnNet_ok {c : AsbConnection Val} {T : TypeId} {topic : String} {cfg : BusConfig}
    {reply : BrokerReply} {id : SenderId} {r : AsbReader} {asb : NetAsb Val}
    (h : c.createOnNet T topic cfg reply id = (.ok r, asb)) : r.counter = topic ∧ r.ty = T := by
  unfold createOnNet at h
  cases hk : c.kind with
  | amqp => rw [hk] at h; exact NetAsb.createBrokerReader_ok h
  | mqtt => rw [hk] at h; exact NetAsb.createBrokerReader_ok h
  | loopback => rw [hk] at h; exact NetAsb.createLoopbackReader_ok h
  | null => rw [hk] at h; cases h

variable (config svcName) in
/-- **The four ends of `create_reader`**: the type check rejects, the configuration is missing, the
network part makes a reader, or it fails (by an error or a panic). -/
theorem createReader_cases (c : AsbConnection Val) (T : TypeId) (topic : String)
    (reply : BrokerReply) (id : SenderId) :
    (∃ e, c.topics.getTopicCtr T topic = .error e ∧
      c.createReader config svcName T topic reply id = (.err e, c)) ∨
    ∃ topics, c.topics.getTopicCtr T topic = .ok topics ∧
      ((∃ e, getBusConfig config svcName topic = .error e ∧
        c.createReader config svcName T topic reply id =
          (.err e, { c with topics := topics.release topic })) ∨
      ∃ cfg, getBusConfig config svcName topic = .ok cfg ∧
        ((∃ r asb, c.createOnNet T topic cfg reply id = (.ok r, asb) ∧
          c.createReader config svcName T topic reply id =
            (.ok r, { c with asb, topics, readers := c.readers ++ [r] })) ∨
        ∃ res asb, c.createOnNet T topic cfg reply id = (res, asb) ∧ (∀ r, res ≠ .ok r) ∧
          c.createReader config svcName T topic reply id =
            (res, { c with asb, topics := topics.release topic }))) := by
  unfold createReader
  cases hctr : c.topics.getTopicCtr T topic with
  | error e => exact .inl ⟨e, rfl, rfl⟩
  | ok topics =>
    refine .inr ⟨topics, rfl, ?_⟩
    cases hcfg : getBusConfig config svcName topic with
    | error e => exact .inl ⟨e, rfl, rfl⟩
    | ok cfg =>
      refine .inr ⟨cfg, rfl, ?_⟩
      rcases hnet : c.createOnNet T topic cfg reply id with ⟨res, asb⟩
      cases res with
      | ok r => exact .inl ⟨r, asb, rfl, by simp only [hnet]⟩
      | err e => exact .inr ⟨.err e, asb, rfl, by simp, by simp only [hnet]⟩
      | panicked => exact .inr ⟨.panicked, asb, rfl, by simp, by simp only [hnet]⟩

theorem exec_createReader (c : AsbConnection Val) (T : TypeId) (topic : String)
    (reply : BrokerReply) (id : SenderId) :
    c.exec qx config svcName (.createReader T topic reply id) =
      some (match (c.createReader config svcName T topic reply id).1 with
        | .ok _ => .ok .done
        | .err e => .err e
        | .panicked => .panicked,
        (c.createReader config svcName T topic reply id).2) := by
  simp only [exec]
  rcases c.createReader config svcName T topic reply id with ⟨res, c'⟩
  cases res <;> rfl

theorem step_createReader (c : AsbConnection Val) (T : TypeId) (topic : String)
    (reply : BrokerReply) (id : SenderId) :
    c.step qx config svcName (.createReader T topic reply id) =
      some (c.createReader config svcName T topic reply id).2 := by
  rw [step, exec_createReader]
  rfl

variable (config svcName) in
/-- The ends of `create_writer`: nothing can fail after the configuration is found. -/
theorem createWriter_cases (c : AsbConnection Val) (T : TypeId) (topic : String) :
    (∃ e, c.topics.getTopicCtr T topic = .error e ∧
      c.createWriter config svcName T topic = (.err e, c)) ∨
    ∃ topics, c.topics.getTopicCtr T topic = .ok topics ∧
      ((∃ e, getBusConfig config svcName topic = .error e ∧
        c.createWriter config svcName T topic =
          (.err e, { c with topics := topics.release topic })) ∨
      ∃ w, w.counter = topic ∧ w.ty = T ∧
        c.createWriter config svcName T topic =
          (.ok w, { c with topics, writers := c.writers ++ [w] })) := by
  unfold createWriter
  cases hctr : c.topics.getTopicCtr T topic with
  | error e => exact .inl ⟨e, rfl, rfl⟩
  | ok topics =>
    refine .inr ⟨topics, rfl, ?_⟩
    cases hcfg : getBusConfig config svcName topic with
    | error e => exact .inl ⟨e, rfl, rfl⟩
    | ok cfg => exact .inr ⟨_, rfl, rfl, rfl⟩

theorem exec_createWriter (c : AsbConnection Val) (T : TypeId) (topic : String) :
    c.exec qx config svcName (.createWriter T topic) =
      some (match (c.createWriter config svcName T topic).1 with
        | .ok _ => .ok .done
        | .err e => .err e
        | .panicked => .panicked,
        (c.createWriter config svcName T topic).2) := by
  simp only [exec]
  rcases c.createWriter config svcName T topic with ⟨res, c'⟩
  cases res <;> rfl

theorem step_createWriter (c : AsbConnection Val) (T : TypeId) (topic : String) :
    c.step qx config svcName (.createWriter T topic) =
      some (c.createWriter config svcName T topic).2 := by
  rw [step, exec_createWriter]
  rfl

theorem step_cloneReader {c c' : AsbConnection Val} {i : ℕ} {id : SenderId}
    (h : c.step qx config svcName (.cloneReader i id) = some c') :
    ∃ r, c.readers[i]? = some r ∧
      c' = { c with
        asb := (c.asb.cloneReader r id).2
        topics := c.topics.retain r.counter
        readers := c.readers ++ [(c.asb.cloneReader r id).1] } := by
  simp only [step, exec, Option.map_map] at h
  obtain ⟨r, hr, rfl⟩ := Option.map_eq_some_iff.1 h
  exact ⟨r, hr, rfl⟩

theorem step_cloneWriter {c c' : AsbConnection Val} {i : ℕ}
    (h : c.step qx config svcName (.cloneWriter i) = some c') :
    ∃ w, c.writers[i]? = some w ∧
      c' = { c with topics := c.topics.retain w.counter, writers := c.writers ++ [w] } := by
  simp only [step, exec, Option.map_map] at h
  obtain ⟨w, hw, rfl⟩ := Option.map_eq_some_iff.1 h
  exact ⟨w, hw, rfl⟩

theorem step_dropReader {c c' : AsbConnection Val} {i : ℕ}
    (h : c.step qx config svcName (.dropReader i) = some c') :
    ∃ r, c.readers[i]? = some r ∧
      c' = { c with
        asb := c.asb.dropReader r (c.readers.eraseIdx i)
        topics := c.topics.release r.counter
        readers := c.readers.eraseIdx i } := by
  simp only [step, exec, Option.map_map] at h
  obtain ⟨r, hr, rfl⟩ := Option.map_eq_some_iff.1 h
  exact ⟨r, hr, rfl⟩

theorem step_dropWriter {c c' : AsbConnection Val} {i : ℕ}
    (h : c.step qx config svcName (.dropWriter i) = some c') :
    ∃ w, c.writers[i]? = some w ∧
      c' = { c with topics := c.topics.release w.counter, writers := c.writers.eraseIdx i } := by
  simp only [step, exec, Option.map_map] at h
  obtain ⟨w, hw, rfl⟩ := Option.map_eq_some_iff.1 h
  exact ⟨w, hw, rfl⟩

theorem write_snd (c : AsbConnection Val) (w : AsbWriter) (msg : Val) (now : Instant)
    (reply : Except CalError Unit) :
    ∃ asb, (c.write qx w msg now reply).2 = { c with asb } := by
  unfold write
  split
  · exact ⟨c.asb, rfl⟩
  · split
    · exact ⟨_, rfl⟩
    · split_ifs
      · exact ⟨c.asb, rfl⟩
      · exact ⟨_, rfl⟩
    · split
      · exact ⟨c.asb, rfl⟩
      · exact ⟨_, rfl⟩
    · exact ⟨c.asb, rfl⟩

theorem step_write {c c' : AsbConnection Val} {i : ℕ} {msg : Val} {now : Instant}
    {reply : Except CalError Unit}
    (h : c.step qx config svcName (.write i msg now reply) = some c') :
    ∃ w, c.writers[i]? = some w ∧ c' = (c.write qx w msg now reply).2 := by
  simp only [step, exec, Option.map_map] at h
  obtain ⟨w, hw, rfl⟩ := Option.map_eq_some_iff.1 h
  refine ⟨w, hw, ?_⟩
  simp only [Function.comp_apply]
  rcases c.write qx w msg now reply with ⟨res, c'⟩
  cases res <;> rfl

theorem write_ne_panicked (c : AsbConnection Val) (w : AsbWriter) (msg : Val) (now : Instant)
    (reply : Except CalError Unit) : (c.write qx w msg now reply).1 ≠ .panicked := by
  have hreply : Res.ofExcept reply ≠ .panicked := by
    cases reply <;> simp [Res.ofExcept]
  unfold write
  cases serializeMsg qx w.ty w.format msg with
  | error e => simp
  | ok data =>
    cases c.kind with
    | amqp => exact hreply
    | mqtt =>
      dsimp only
      split_ifs
      · simp
      · exact hreply
    | loopback =>
      dsimp only
      cases LoopbackAsb.publish qx c.asb w.busTopic now data <;> simp
    | null => simp

/-- **Only the network part of a creation panics.** -/
theorem exec_panicked {c c' : AsbConnection Val} {op : Op Val}
    (h : c.exec qx config svcName op = some (.panicked, c')) :
    ∃ T topic reply id topics cfg asb, op = .createReader T topic reply id ∧
      c.topics.getTopicCtr T topic = .ok topics ∧ getBusConfig config svcName topic = .ok cfg ∧
      c.createOnNet T topic cfg reply id = (.panicked, asb) := by
  cases op with
  | createReader T topic reply id =>
    rw [exec_createReader] at h
    rcases createReader_cases config svcName c T topic reply id with
      ⟨e, -, heq⟩ | ⟨topics, htop,
        ⟨e, -, heq⟩ | ⟨cfg, hcfg, ⟨r, asb, hnet, heq⟩ | ⟨res, asb, hnet, hres, heq⟩⟩⟩
    · rw [heq] at h; simp at h
    · rw [heq] at h; simp at h
    · rw [heq] at h; simp at h
    · rw [heq] at h
      have hpan : res = .panicked := by
        cases res with
        | ok r => exact absurd rfl (hres r)
        | err e => simp at h
        | panicked => rfl
      subst hpan
      exact ⟨T, topic, reply, id, topics, cfg, asb, rfl, htop, hcfg, hnet⟩
  | createWriter T topic =>
    rw [exec_createWriter] at h
    rcases createWriter_cases config svcName c T topic with
      ⟨e, -, heq⟩ | ⟨topics, -, ⟨e, -, heq⟩ | ⟨w, -, -, heq⟩⟩ <;> rw [heq] at h <;> simp at h
  | write i msg now reply =>
    obtain ⟨w, -, hw⟩ := Option.map_eq_some_iff.1 h
    have hne : (c.write qx w msg now reply).1 ≠ .panicked := write_ne_panicked c w msg now reply
    rcases hres : c.write qx w msg now reply with ⟨res, c₁⟩
    rw [hres] at hw hne
    cases res with
    | ok a => simp at hw
    | err e => simp at hw
    | panicked => exact absurd rfl hne
  | cloneReader | cloneWriter | dropReader | dropWriter | read | readTimeout | tryRead | deliver =>
    simp [exec, poll, Option.map_eq_some_iff] at h
  | connClose | chanClose | pollError =>
    simp only [exec] at h
    split_ifs at h
    simp at h

/-- An event of the transport, a poll or a write keeps the topic table and the live handles. -/
theorem step_transport {c c' : AsbConnection Val} {op : Op Val} (hop : op.isTransport)
    (h : c.step qx config svcName op = some c') :
    c'.topics = c.topics ∧ c'.readers = c.readers ∧ c'.writers = c.writers := by
  cases op with
  | createReader | createWriter | cloneReader | cloneWriter | dropReader | dropWriter =>
    simp [Op.isTransport] at hop
  | write i msg now reply =>
    obtain ⟨w, -, rfl⟩ := step_write h
    obtain ⟨asb, hasb⟩ := write_snd c w msg now reply
    rw [hasb]
    exact ⟨rfl, rfl, rfl⟩
  | read i clock | readTimeout i d start clock | tryRead i clock =>
    simp only [step, exec, poll, Option.map_map] at h
    obtain ⟨r, -, rfl⟩ := Option.map_eq_some_iff.1 h
    exact ⟨rfl, rfl, rfl⟩
  | deliver busTopic now data =>
    simp only [step, exec, deliver, Option.map_map] at h
    obtain ⟨d, hd, rfl⟩ := Option.map_eq_some_iff.1 h
    split at hd
    · cases hd; exact ⟨rfl, rfl, rfl⟩
    · split_ifs at hd; cases hd; exact ⟨rfl, rfl, rfl⟩
    · cases hd
  | connClose | chanClose | pollError =>
    simp only [step, exec] at h
    split_ifs at h
    · cases h; exact ⟨rfl, rfl, rfl⟩
    · cases h

/-- A connection stays on its network, and only a failure event changes its status. -/
theorem step_frame {c c' : AsbConnection Val} {op : Op Val}
    (h : c.step qx config svcName op = some c') :
    c'.kind = c.kind ∧ (op.isFailure = false → c'.status = c.status) := by
  cases op with
  | createReader T topic reply id =>
    rw [step_createReader] at h
    cases h
    rcases createReader_cases config svcName c T topic reply id with
      ⟨e, -, heq⟩ | ⟨topics, -,
        ⟨e, -, heq⟩ | ⟨cfg, -, ⟨r, asb, -, heq⟩ | ⟨res, asb, -, -, heq⟩⟩⟩ <;>
      rw [heq] <;> exact ⟨rfl, fun _ => rfl⟩
  | createWriter T topic =>
    rw [step_createWriter] at h
    cases h
    rcases createWriter_cases config svcName c T topic with
      ⟨e, -, heq⟩ | ⟨topics, -, ⟨e, -, heq⟩ | ⟨w, -, -, heq⟩⟩ <;>
      rw [heq] <;> exact ⟨rfl, fun _ => rfl⟩
  | cloneReader i id => obtain ⟨r, -, rfl⟩ := step_cloneReader h; exact ⟨rfl, fun _ => rfl⟩
  | cloneWriter i => obtain ⟨w, -, rfl⟩ := step_cloneWriter h; exact ⟨rfl, fun _ => rfl⟩
  | dropReader i => obtain ⟨r, -, rfl⟩ := step_dropReader h; exact ⟨rfl, fun _ => rfl⟩
  | dropWriter i => obtain ⟨w, -, rfl⟩ := step_dropWriter h; exact ⟨rfl, fun _ => rfl⟩
  | write i msg now reply =>
    obtain ⟨w, -, rfl⟩ := step_write h
    obtain ⟨asb, hasb⟩ := write_snd c w msg now reply
    rw [hasb]
    exact ⟨rfl, fun _ => rfl⟩
  | read i clock | readTimeout i d start clock | tryRead i clock =>
    simp only [step, exec, poll, Option.map_map] at h
    obtain ⟨r, -, rfl⟩ := Option.map_eq_some_iff.1 h
    exact ⟨rfl, fun _ => rfl⟩
  | deliver busTopic now data =>
    simp only [step, exec, deliver, Option.map_map] at h
    obtain ⟨d, hd, rfl⟩ := Option.map_eq_some_iff.1 h
    split at hd
    · cases hd; exact ⟨rfl, fun _ => rfl⟩
    · split_ifs at hd; cases hd; exact ⟨rfl, fun _ => rfl⟩
    · cases hd
  | connClose | chanClose | pollError =>
    simp only [step, exec] at h
    split_ifs at h
    · cases h; exact ⟨rfl, fun hno => absurd hno (by simp [Op.isFailure])⟩
    · cases h

end AsbConnection

end Rounac

import Rounac.Lib.StepSystem
import Rounac.Networks.Connection

/-!
# Interleaved creations and drops

The sequential model runs `create_reader` to its end. Here the calls on one bus topic, and the drops
of the readers they made, interleave: each section under the registry's lock, each awaited broker
call and each change of a ringmaster's senders is a step of one task. A task that runs alone does
what the sequential operations do (`alone_mqtt`, `alone_amqp`, `alone_delete`).

`Turn` lists what one step can do to the topic's registry entry.
-/

namespace Rounac

open StepSystem

/-- The networks with a broker behind them; AMQP may have an exchange. -/
inductive Broker
  | amqp (exchange : Option String)
  | mqtt

/-- What a task does next, or how it ended. -/
inductive Phase
  /-- Look for the topic's ringmaster. -/
  | lookup
  | declaring
  | binding (queue exchange : String)
  | consuming (queue : String)
  | subscribing
  /-- Put a new ringmaster into the registry. -/
  | inserting (tag : String)
  /-- Increment the reader count, with the ringmaster in hand. -/
  | counting (m : MasterId)
  /-- Register a sender. -/
  | registering (m : MasterId)
  | live (r : AsbReader)
  | failed (e : CalError)
  | panicked
  /-- The reader's sender is removed; decrement the count. -/
  | deleting (r : AsbReader)
  /-- The entry is removed; cancel it at the broker. -/
  | cancelling (net : AsbReaderNet) (last : Entry)
  | gone
deriving DecidableEq

namespace Phase

/-- The ringmaster a task holds. -/
def ringmaster : Phase → Option MasterId
  | .counting m | .registering m => some m
  | .live r | .deleting r => some r.ringmaster
  | _ => none

/-- The task is one of the readers that the registry counts. -/
def isCounted : Phase → Bool
  | .registering _ | .live _ | .deleting _ => true
  | _ => false

def isCounting : Phase → Bool
  | .counting _ => true
  | _ => false

def isInserting : Phase → Bool
  | .inserting _ => true
  | _ => false

def isDeleting : Phase → Bool
  | .deleting _ => true
  | _ => false

def isCancelling : Phase → Bool
  | .cancelling _ _ => true
  | _ => false

/-- The task has a live `AsbReaderNet`. -/
def isLive : Phase → Bool
  | .live _ => true
  | _ => false

/-- Nothing is in progress: the call has returned, and so has the drop, if there was one. -/
def isOver : Phase → Bool
  | .live _ | .failed _ | .panicked | .gone => true
  | _ => false

end Phase

namespace Broker

def net : Broker → String → AsbReaderNet
  | .amqp _ => .amqp
  | .mqtt => .mqtt

variable {Val : Type}

/-- The broker calls of a first subscription, one by one. -/
def subscribe (b : Broker) (cfg : BusConfig) (reply : BrokerReply) (asb : NetAsb Val) (p : Phase) :
    Option (Phase × NetAsb Val) :=
  match b, p with
  | .amqp exchange, .declaring =>
    let asb := asb.request (.queueDeclare (if exchange.isSome then "" else cfg.busTopic))
    match reply.queueDeclare, exchange with
    | .error e, _ => some (.failed e, asb)
    | .ok queue, some ex => some (.binding queue ex, asb)
    | .ok queue, none => some (.consuming queue, asb)
  | .amqp _, .binding queue ex =>
    let asb := asb.request (.queueBind queue ex cfg.busTopic)
    match reply.queueBind with
    | .error e => some (.failed e, asb)
    | .ok () => some (.consuming queue, asb)
  | .amqp _, .consuming queue =>
    let asb := asb.request (.basicConsume queue
      (match cfg.qos.reliability with | .bestEffort => true | .reliable => false))
    match reply.basicConsume with
    | .error e => some (.failed e, asb)
    | .ok tag => some (.inserting tag, asb)
  | .mqtt, .subscribing =>
    -- What the client answers is not looked at.
    some (.inserting cfg.busTopic, (asb.mqttSubscribe cfg reply).2)
  | _, _ => none

/-- One step of a task: a call of `create_amqp_reader_async` or `create_mqtt_reader_async`, or the
drop of its reader. `reply` is what the broker answers, `id` what the random generator does. -/
def advance (b : Broker) (T : TypeId) (counter : String) (cfg : BusConfig) (reply : BrokerReply)
    (id : SenderId) (asb : NetAsb Val) : Phase → Option (Phase × NetAsb Val)
  | .lookup =>
    match asb.getCloneFor cfg.busTopic with
    | some m =>
      if (asb.masters m).downcast T then some (.counting m, asb) else some (.panicked, asb)
    | none =>
      match b with
      | .amqp _ => some (.declaring, asb)
      | .mqtt => some (.subscribing, asb)
  | .inserting tag =>
    let (m, asb) := asb.newMaster (.new T cfg.wireFormat cfg.qos)
    some (.counting m, asb.insertReader cfg.busTopic m tag)
  | .counting m =>
    match asb.addReader cfg.busTopic with
    | none => some (.panicked, asb)
    | some asb => some (.registering m, asb)
  | .registering m =>
    let (ring, asb) := asb.ringBounded (max cfg.qos.buffer 1)
    let asb := asb.modifyMaster m (·.addSender id ring)
    let (netId, asb) := asb.newNet
    some (.live {
      buffer := ring
      expiration := cfg.qos.expiration
      ringmaster := m
      mySenderId := id
      net := ⟨netId, b.net cfg.busTopic⟩
      callbacksActive := false
      counter
      ty := T }, asb)
  | .deleting r =>
    match asb.delReaderLocked cfg.busTopic with
    | none => some (.gone, asb)
    | some (some last, asb) => some (.cancelling r.net.net last, asb)
    | some (none, asb) => some (.gone, asb)
  | .cancelling net last => some (.gone, ((net.cancel last).map asb.request).getD asb)
  | .live _ | .failed _ | .panicked | .gone => none
  | p => b.subscribe cfg reply asb p

/-! ## A task that runs alone -/

/-- Up to `n` steps of one task, with no other task between them. -/
def alone (b : Broker) (T : TypeId) (counter : String) (cfg : BusConfig) (reply : BrokerReply)
    (id : SenderId) : ℕ → Phase × NetAsb Val → Phase × NetAsb Val
  | 0, s => s
  | n + 1, s =>
    match b.advance T counter cfg reply id s.2 s.1 with
    | some s' => alone b T counter cfg reply id n s'
    | none => s

def ended : Res AsbReader × NetAsb Val → Phase × NetAsb Val
  | (.ok r, asb) => (.live r, asb)
  | (.err e, asb) => (.failed e, asb)
  | (.panicked, asb) => (.panicked, asb)

theorem alone_step {b : Broker} {T : TypeId} {counter : String} {cfg : BusConfig}
    {reply : BrokerReply} {id : SenderId} {s : Phase × NetAsb Val} (s' : Phase × NetAsb Val)
    (h : b.advance T counter cfg reply id s.2 s.1 = some s') (n : ℕ) :
    alone b T counter cfg reply id (n + 1) s = alone b T counter cfg reply id n s' := by
  rw [alone, h]

/-- From the count on, a call attaches its reader. -/
theorem alone_attach {b : Broker} {T : TypeId} {counter : String} {cfg : BusConfig}
    {reply : BrokerReply} {id : SenderId} {asb : NetAsb Val} (m : MasterId) (n : ℕ) :
    alone b T counter cfg reply id (n + 2) (.counting m, asb) =
      ended (asb.attachReader m b.net T counter cfg id) := by
  unfold NetAsb.attachReader
  cases h : asb.addReader cfg.busTopic with
  | none =>
    rw [alone_step (.panicked, asb) (by simp [advance, h])]
    rfl
  | some asb' =>
    rw [alone_step (.registering m, asb') (by simp [advance, h]), alone_step _ rfl]
    cases n <;> rfl

/-- A call on MQTT that runs alone is `create_mqtt_reader`. -/
theorem alone_mqtt (T : TypeId) (counter : String) (cfg : BusConfig) (reply : BrokerReply)
    (id : SenderId) (asb : NetAsb Val) :
    alone .mqtt T counter cfg reply id 5 (.lookup, asb) =
      ended (asb.createMqttReader T counter cfg reply id) := by
  unfold NetAsb.createMqttReader NetAsb.createBrokerReader
  cases h : asb.getCloneFor cfg.busTopic with
  | none =>
    refine (alone_step (.subscribing, asb) (by simp [advance, h]) 4).trans ?_
    exact alone_attach _ 0
  | some m =>
    dsimp only
    split_ifs with hty
    · refine (alone_step (.counting m, asb) (by simp [advance, h, hty]) 4).trans ?_
      exact alone_attach m 2
    · exact alone_step (.panicked, asb) (by simp [advance, h, hty]) 4

/-- A call on AMQP that runs alone is `create_amqp_reader`. -/
theorem alone_amqp (exchange : Option String) (T : TypeId) (counter : String)
    (cfg : BusConfig) (reply : BrokerReply) (id : SenderId) (asb : NetAsb Val) :
    alone (.amqp exchange) T counter cfg reply id 7 (.lookup, asb) =
      ended (asb.createAmqpReader exchange T counter cfg reply id) := by
  unfold NetAsb.createAmqpReader NetAsb.createBrokerReader
  cases h : asb.getCloneFor cfg.busTopic with
  | some m =>
    dsimp only
    split_ifs with hty
    · refine (alone_step (.counting m, asb) (by simp [advance, h, hty]) 6).trans ?_
      exact alone_attach m 4
    · exact alone_step (.panicked, asb) (by simp [advance, h, hty]) 6
  | none =>
    refine (alone_step (.declaring, asb) (by simp [advance, h]) 6).trans ?_
    obtain ⟨declared, bound, consumed, subscribed⟩ := reply
    cases declared with
    | error e => rfl
    | ok queue =>
      -- Without an exchange the bind is skipped, which leaves a turn to spare.
      cases exchange with
      | none =>
        cases consumed with
        | error e => rfl
        | ok tag => exact alone_attach _ 1
      | some ex =>
        cases bound with
        | error e => rfl
        | ok _ =>
          cases consumed with
          | error e => rfl
          | ok tag => exact alone_attach _ 0

/-- The removal of a reader that runs alone is the drop of its network handle. -/
theorem alone_delete {b : Broker} {T : TypeId} {counter : String} {cfg : BusConfig}
    {reply : BrokerReply} {id : SenderId} {asb : NetAsb Val} {r : AsbReader}
    (hnet : r.net.net = b.net cfg.busTopic) :
    alone b T counter cfg reply id 2 (.deleting r, asb) =
      (.gone, asb.dropNet (b.net cfg.busTopic)) := by
  have hdrop : asb.dropNet (b.net cfg.busTopic) =
      (asb.delReader (b.net cfg.busTopic).cancel cfg.busTopic).2 := by
    cases b <;> rfl
  rw [hdrop]
  unfold NetAsb.delReader
  rcases h : asb.delReaderLocked cfg.busTopic with _ | ⟨_ | last, asb'⟩
  · exact alone_step (.gone, asb) (by simp [advance, h]) 1
  · exact alone_step (.gone, asb') (by simp [advance, h]) 1
  · rw [alone_step (.cancelling r.net.net last, asb') (by simp [advance, h]), hnet]
    rfl

end Broker

/-! ## What one step can do -/

namespace NetAsb

variable {Val : Type}

def SameTypes (asb asb' : NetAsb Val) : Prop := ∀ m, (asb'.masters m).ty = (asb.masters m).ty

theorem SameTypes.modifyMaster {asb asb' : NetAsb Val} (h : asb.SameTypes asb') (m : MasterId)
    {f : ReaderRingMaster → ReaderRingMaster} (hf : ∀ r, (f r).ty = r.ty) :
    asb.SameTypes (asb'.modifyMaster m f) := fun k => by rw [ty_modifyMaster asb' m hf, h k]

end NetAsb

/-- The steps of a task on the bus topic `topic` and the type `T`, as far as the topic's registry
entry, the ringmasters' types and the ringmaster in the task's hands go. -/
inductive Turn {Val : Type} (T : TypeId) (topic : String) :
    Phase × NetAsb Val → Phase × NetAsb Val → Prop
  | kept {p p' : Phase} {asb asb' : NetAsb Val} (hm : p'.ringmaster = p.ringmaster)
      (hcounted : p'.isCounted = p.isCounted) (hne : p' ≠ .panicked)
      (hentry : asb'.readers.lookup topic = asb.readers.lookup topic) (hty : asb.SameTypes asb') :
      Turn T topic (p, asb) (p', asb')
  | found {asb : NetAsb Val} {e : Entry} (he : asb.readers.lookup topic = some e) :
      Turn T topic (.lookup, asb) (.counting e.ringmaster, asb)
  | mistyped {asb : NetAsb Val} {e : Entry} (he : asb.readers.lookup topic = some e)
      (hty : (asb.masters e.ringmaster).ty ≠ T) : Turn T topic (.lookup, asb) (.panicked, asb)
  | inserted {asb asb' : NetAsb Val} {m : MasterId} {tag : String}
      (he : asb'.readers.lookup topic = some ⟨m, 0, tag⟩) (hty : (asb'.masters m).ty = T) :
      Turn T topic (.inserting tag, asb) (.counting m, asb')
  | counted {asb asb' : NetAsb Val} {m : MasterId} {e : Entry}
      (he : asb.readers.lookup topic = some e)
      (he' : asb'.readers.lookup topic = some { e with count := e.count + 1 })
      (hty : asb.SameTypes asb') : Turn T topic (.counting m, asb) (.registering m, asb')
  | unlisted {asb : NetAsb Val} {m : MasterId} (he : asb.readers.lookup topic = none) :
      Turn T topic (.counting m, asb) (.panicked, asb)
  | removed {asb asb' : NetAsb Val} {r : AsbReader} {e : Entry}
      (he : asb.readers.lookup topic = some e) (hone : e.count = 1)
      (he' : asb'.readers.lookup topic = none) :
      Turn T topic (.deleting r, asb) (.cancelling r.net.net e, asb')
  | dropped {asb asb' : NetAsb Val} {r : AsbReader} {e : Entry}
      (he : asb.readers.lookup topic = some e)
      (he' : asb'.readers.lookup topic = some { e with count := e.count - 1 })
      (hty : asb.SameTypes asb') : Turn T topic (.deleting r, asb) (.gone, asb')
  | orphaned {asb : NetAsb Val} {r : AsbReader} (he : asb.readers.lookup topic = none) :
      Turn T topic (.deleting r, asb) (.gone, asb)

namespace Broker

variable {Val : Type} {b : Broker} {T : TypeId} {counter : String} {cfg : BusConfig}
  {reply : BrokerReply} {id : SenderId}

theorem turn_request {topic : String} {p p' : Phase} {asb : NetAsb Val} {r : BrokerRequest}
    (hm : p'.ringmaster = p.ringmaster := by rfl)
    (hcounted : p'.isCounted = p.isCounted := by rfl) (hne : p' ≠ .panicked := by simp) :
    Turn T topic (p, asb) (p', asb.request r) := .kept hm hcounted hne rfl fun _ => rfl

theorem advance_turn {s s' : Phase × NetAsb Val}
    (h : b.advance T counter cfg reply id s.2 s.1 = some s') : Turn T cfg.busTopic s s' := by
  obtain ⟨p, asb⟩ := s
  cases p with
  | lookup =>
    simp only [advance, NetAsb.getCloneFor] at h
    cases he : asb.readers.lookup cfg.busTopic with
    | some e =>
      rw [he] at h
      dsimp only [Option.map_some] at h
      split_ifs at h with hty <;> cases h
      · exact .found he
      · exact .mistyped he (by simpa [ReaderRingMaster.downcast] using hty)
    | none =>
      rw [he] at h
      cases b <;> cases h
      · exact .kept rfl rfl (by simp) rfl fun _ => rfl
      · exact .kept rfl rfl (by simp) rfl fun _ => rfl
  | live | failed | panicked | gone => cases h
  | declaring | binding | consuming =>
    cases b <;> simp only [advance, subscribe] at h <;> try split at h
    all_goals cases h <;> exact turn_request
  | subscribing =>
    cases b <;> cases h
    show Turn T cfg.busTopic _ (_, (asb.mqttSubscribe cfg reply).2)
    -- A client that refuses the filter makes no request.
    rcases asb.mqttSubscribe_cases cfg reply with h | h <;> rw [h]
    · exact turn_request
    · exact .kept rfl rfl (by simp) rfl fun _ => rfl
  | inserting tag =>
    cases h
    exact .inserted (AList.lookup_insert _) (by simp [NetAsb.insertReader])
  | counting m =>
    simp only [advance, NetAsb.addReader] at h
    cases he : asb.readers.lookup cfg.busTopic with
    | none => rw [he] at h; cases h; exact .unlisted he
    | some e =>
      rw [he] at h
      cases h
      exact .counted he (AList.lookup_insert _) fun _ => rfl
  | registering m =>
    cases h
    have hty := NetAsb.ty_modifyMaster (asb.ringBounded (max cfg.qos.buffer 1)).2 m
      (f := (·.addSender id asb.nextRing)) fun _ => rfl
    exact .kept rfl rfl (by simp) rfl hty
  | deleting r =>
    simp only [advance, NetAsb.delReaderLocked] at h
    cases he : asb.readers.lookup cfg.busTopic with
    | none => rw [he] at h; cases h; exact .orphaned he
    | some e =>
      rw [he] at h
      dsimp only at h
      split_ifs at h with hone <;> cases h
      · exact .removed he hone (AList.lookup_erase _ _)
      · exact .dropped he (AList.lookup_insert _) fun _ => rfl
  | cancelling net last =>
    cases h
    cases net.cancel last with
    | none => exact .kept rfl rfl (by simp) rfl fun _ => rfl
    | some r => exact turn_request

end Broker

/-! ## The interleaving -/

/-- A call with the client topic and configuration it was made with, and what it does next. -/
structure Task where
  counter : String
  wireFormat : WireFormat
  qos : QosSettings
  phase : Phase

/-- The ASB and the calls on one bus topic. -/
structure Race (Val : Type) where
  asb : NetAsb Val
  tasks : List Task

/-- A call is made, a task takes its next step, or a reader is dropped. -/
inductive RaceStep
  | call (counter : String) (wireFormat : WireFormat) (qos : QosSettings)
  | advance (i : ℕ) (reply : BrokerReply) (id : SenderId)
  | drop (i : ℕ)

namespace Race

variable {Val : Type}

/-- One step on the bus topic `topic`, on which all calls ask for the type `T`. -/
def step (b : Broker) (T : TypeId) (topic : String) (s : Race Val) :
    RaceStep → Option (Race Val)
  | .call counter wireFormat qos =>
      some { s with tasks := s.tasks ++ [⟨counter, wireFormat, qos, .lookup⟩] }
  | .advance i reply id =>
      s.tasks[i]?.bind fun t =>
        (b.advance T t.counter ⟨t.wireFormat, t.qos, topic⟩ reply id s.asb t.phase).map fun next =>
          ⟨next.2, s.tasks.set i { t with phase := next.1 }⟩
  | .drop i =>
      s.tasks[i]?.bind fun t =>
        match t.phase with
        | .live r =>
          some ⟨s.asb.modifyMaster r.ringmaster fun m => (m.removeSender r.mySenderId).2,
            s.tasks.set i { t with phase := .deleting r }⟩
        | _ => none

/-- No call or drop is in progress. -/
def Quiet (s : Race Val) : Prop := ∀ t ∈ s.tasks, t.phase.isOver

instance (s : Race Val) : Decidable s.Quiet := inferInstanceAs (Decidable (∀ t ∈ s.tasks, _))

theorem step_cases {b : Broker} {T : TypeId} {topic : String} {s s' : Race Val} {l : RaceStep}
    (h : s.step b T topic l = some s') :
    (∃ counter wireFormat qos, l = .call counter wireFormat qos ∧
      s' = { s with tasks := s.tasks ++ [⟨counter, wireFormat, qos, .lookup⟩] }) ∨
    ∃ i t next, s.tasks[i]? = some t ∧ Turn T topic (t.phase, s.asb) next ∧
      ((∃ reply id, l = .advance i reply id) ∨ l = .drop i ∧ t.phase.isLive) ∧
      s' = ⟨next.2, s.tasks.set i { t with phase := next.1 }⟩ := by
  cases l with
  | call counter wireFormat qos => cases h; exact .inl ⟨counter, wireFormat, qos, rfl, rfl⟩
  | advance i reply id =>
    obtain ⟨t, ht, h⟩ := Option.bind_eq_some_iff.1 h
    obtain ⟨next, hnext, rfl⟩ := Option.map_eq_some_iff.1 h
    have hturn : Turn T topic (t.phase, s.asb) next :=
      Broker.advance_turn (s := (t.phase, s.asb)) hnext
    exact .inr ⟨i, t, next, ht, hturn, .inl ⟨reply, id, rfl⟩, rfl⟩
  | drop i =>
    obtain ⟨t, ht, h⟩ := Option.bind_eq_some_iff.1 h
    cases hp : t.phase with
    | live r =>
      rw [hp] at h
      cases h
      have hty := s.asb.ty_modifyMaster r.ringmaster
        (f := fun m => (m.removeSender r.mySenderId).2) fun _ => rfl
      have hturn : Turn T topic (t.phase, s.asb)
          (.deleting r, s.asb.modifyMaster r.ringmaster fun m => (m.removeSender r.mySenderId).2) :=
        hp ▸ .kept rfl rfl (by simp) rfl hty
      exact .inr ⟨i, t, _, ht, hturn, .inr ⟨rfl, by simp [hp, Phase.isLive]⟩, rfl⟩
    | _ => rw [hp] at h; cases h

end Race

end Rounac

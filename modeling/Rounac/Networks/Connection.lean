import Rounac.Lib.StepSystem
import Rounac.Networks.Reader

/-!
# Connections

`AsbConnection` of `src/networks.rs` with the readers and writers its clients hold. Every public
call is an operation `Op`; `exec` runs one to its end and `step` keeps the state only. The broker
and the random generator are outside: an operation carries what they answer.

A reader or writer is named by its position in the list of live ones, which is all that a client's
ownership of it amounts to. Dropping one runs the `Drop` implementations in field order: the
sender is removed, then the network handle goes with its last owner, then the possession counter.
-/

namespace Rounac

open OverwriteRing

/-- `AsbWriter<T>`, with `T` as the field `ty`. -/
structure AsbWriter where
  busTopic : String
  mqttQos : MqttQos
  format : WireFormat
  counter : String
  ty : TypeId

/-- The map of client topics to their possession count and type. -/
abbrev TopicTable := StrMap (PossessCtr × TypeId)

namespace TopicTable

/-- A further owner of a topic's counter. -/
def retain (topics : TopicTable) (topic : String) : TopicTable :=
  match topics.lookup topic with
  | some (count, ty) => topics.insert topic (count.clone, ty)
  | none => topics

/-- An owner of a topic's counter goes away. -/
def release (topics : TopicTable) (topic : String) : TopicTable :=
  match topics.lookup topic with
  | some (count, ty) => topics.insert topic (count.drop, ty)
  | none => topics

/-- `get_topic_ctr::<T>`: the table in which the caller owns the topic's counter too. -/
def getTopicCtr (topics : TopicTable) (T : TypeId) (topic : String) : Except CalError TopicTable :=
  match topics.lookup topic with
  | some (count, ty) =>
    if T ≠ ty ∧ ¬ count.isUnique then .error (.illErr "Type mismatch with existing readers")
    else .ok (topics.insert topic (count.clone, ty))
  | none => .ok (topics.insert topic (PossessCtr.new.clone, T))

end TopicTable

/-- `AsbConnection`, with the live readers and writers made from it. `loopRunning` tells whether
the MQTT event loop still polls. -/
structure AsbConnection (Val : Type) where
  kind : NetworkKind
  exchange : Option String
  asb : NetAsb Val
  loopRunning : Bool
  topics : TopicTable
  status : AsbConnStatus
  readers : List AsbReader
  writers : List AsbWriter

/-- What the broker answers while a reader is created. `subscribe` is the answer of the MQTT client,
which makes no request of a filter that it refuses. -/
structure BrokerReply where
  queueDeclare : Except CalError String
  queueBind : Except CalError Unit
  basicConsume : Except CalError String
  subscribe : Except CalError Unit

/-- A broker that accepts everything. -/
def BrokerReply.accepting : BrokerReply := ⟨.ok "queue", .ok (), .ok "tag", .ok ()⟩

/-- The calls a client makes on a connection, its readers and its writers, and the events of the
transport. -/
inductive Op (Val : Type)
  | createReader (T : TypeId) (topic : String) (reply : BrokerReply) (id : SenderId)
  | createWriter (T : TypeId) (topic : String)
  | cloneReader (i : ℕ) (id : SenderId)
  | cloneWriter (i : ℕ)
  | dropReader (i : ℕ)
  | dropWriter (i : ℕ)
  | write (i : ℕ) (msg : Val) (now : Instant) (reply : Except CalError Unit)
  | read (i : ℕ) (clock : ℕ → Instant)
  | readTimeout (i : ℕ) (timeout : Duration) (start : Instant) (clock : ℕ → Instant)
  | tryRead (i : ℕ) (clock : ℕ → Instant)
  | deliver (busTopic : String) (now : Instant) (data : ByteArray)
  | connClose
  | chanClose
  | pollError

/-- What a completed operation gives its caller. -/
inductive Reply (Val : Type)
  | done
  | read (r : ReadRes Val)

namespace NetAsb

variable {Val : Type}

/-! ## Creating readers -/

/-- The broker calls of a first AMQP subscription: the consumer tag. -/
def amqpSubscribe (exchange : Option String) (asb : NetAsb Val) (config : BusConfig)
    (reply : BrokerReply) : Except CalError String × NetAsb Val :=
  let queueName := if exchange.isSome then "" else config.busTopic
  let autoAck := match config.qos.reliability with
    | .bestEffort => true
    | .reliable => false
  let asb := asb.request (.queueDeclare queueName)
  match reply.queueDeclare with
  | .error e => (.error e, asb)
  | .ok queue =>
    match exchange with
    | some ex =>
      let asb := asb.request (.queueBind queue ex config.busTopic)
      match reply.queueBind with
      | .error e => (.error e, asb)
      | .ok () => (reply.basicConsume, asb.request (.basicConsume queue autoAck))
    | none => (reply.basicConsume, asb.request (.basicConsume queue autoAck))

/-- A broker call changes nothing but the requests. -/
theorem amqpSubscribe_snd (exchange : Option String) (asb : NetAsb Val) (config : BusConfig)
    (reply : BrokerReply) :
    ∃ requests, (amqpSubscribe exchange asb config reply).2 = { asb with requests } := by
  unfold amqpSubscribe
  cases reply.queueDeclare with
  | error e => exact ⟨_, rfl⟩
  | ok queue =>
    cases exchange with
    | none => exact ⟨_, rfl⟩
    | some ex => cases reply.queueBind <;> exact ⟨_, rfl⟩

def mqttQos (qos : QosSettings) : MqttQos :=
  match qos.reliability with
  | .bestEffort => .atMostOnce
  | .reliable => .atLeastOnce

/-- The broker call of a first MQTT subscription. What the client answers is not looked at, and the
entry's tag is the bus topic. -/
def mqttSubscribe (asb : NetAsb Val) (config : BusConfig) (reply : BrokerReply) :
    Except CalError String × NetAsb Val :=
  (.ok config.busTopic,
    match reply.subscribe with
    | .ok () => asb.request (.subscribe config.busTopic (mqttQos config.qos))
    | .error _ => asb)

theorem mqttSubscribe_cases (asb : NetAsb Val) (config : BusConfig) (reply : BrokerReply) :
    (asb.mqttSubscribe config reply).2 =
        asb.request (.subscribe config.busTopic (mqttQos config.qos)) ∨
      (asb.mqttSubscribe config reply).2 = asb := by
  unfold mqttSubscribe
  cases reply.subscribe with
  | ok _ => exact .inl rfl
  | error _ => exact .inr rfl

theorem mqttSubscribe_snd (asb : NetAsb Val) (config : BusConfig) (reply : BrokerReply) :
    ∃ requests, (asb.mqttSubscribe config reply).2 = { asb with requests } := by
  rcases asb.mqttSubscribe_cases config reply with h | h <;> exact ⟨_, h⟩

/-- The end of a broker-backed creation, with the ringmaster in hand: count the reader, make its
ring, register the sender. -/
def attachReader (asb : NetAsb Val) (m : MasterId) (net : String → AsbReaderNet) (T : TypeId)
    (counter : String) (config : BusConfig) (id : SenderId) : Res AsbReader × NetAsb Val :=
  match asb.addReader config.busTopic with
  | none => (.panicked, asb)
  | some asb =>
    let (ring, asb) := asb.ringBounded (max config.qos.buffer 1)
    let asb := asb.modifyMaster m (·.addSender id ring)
    let (netId, asb) := asb.newNet
    (.ok {
      buffer := ring
      expiration := config.qos.expiration
      ringmaster := m
      mySenderId := id
      net := ⟨netId, net config.busTopic⟩
      callbacksActive := false
      counter
      ty := T }, asb)

/-- The creation of a reader on a broker-backed network: use the registered ringmaster, or
subscribe and register one. The failed `unwrap` of the downcast panics. -/
def createBrokerReader
    (subscribe : NetAsb Val → BusConfig → BrokerReply → Except CalError String × NetAsb Val)
    (net : String → AsbReaderNet) (asb : NetAsb Val) (T : TypeId) (counter : String)
    (config : BusConfig) (reply : BrokerReply) (id : SenderId) : Res AsbReader × NetAsb Val :=
  match asb.getCloneFor config.busTopic with
  | some m =>
    if (asb.masters m).downcast T then asb.attachReader m net T counter config id
    else (.panicked, asb)
  | none =>
    match subscribe asb config reply with
    | (.error e, asb) => (.err e, asb)
    | (.ok tag, asb) =>
      let (m, asb) := asb.newMaster (.new T config.wireFormat config.qos)
      (asb.insertReader config.busTopic m tag).attachReader m net T counter config id

/-- `create_amqp_reader`. -/
def createAmqpReader (exchange : Option String) (asb : NetAsb Val) (T : TypeId) (counter : String)
    (config : BusConfig) (reply : BrokerReply) (id : SenderId) : Res AsbReader × NetAsb Val :=
  createBrokerReader (amqpSubscribe exchange) .amqp asb T counter config reply id

/-- `create_mqtt_reader`. -/
def createMqttReader (asb : NetAsb Val) (T : TypeId) (counter : String) (config : BusConfig)
    (reply : BrokerReply) (id : SenderId) : Res AsbReader × NetAsb Val :=
  createBrokerReader mqttSubscribe .mqtt asb T counter config reply id

/-- `create_loopback_reader`. It makes a ringmaster of its own and counts the reader in the
registry, where it put no entry. -/
def createLoopbackReader (asb : NetAsb Val) (T : TypeId) (counter : String) (config : BusConfig)
    (id : SenderId) : Res AsbReader × NetAsb Val :=
  let (m, asb) := asb.newMaster (.new T config.wireFormat config.qos)
  let (ring, asb) := asb.ringBounded (max config.qos.buffer 1)
  let asb := asb.modifyMaster m (·.addSender id ring)
  match LoopbackAsb.addReader asb config.busTopic with
  | none => (.panicked, asb)
  | some asb =>
    let (netId, asb) := asb.newNet
    (.ok {
      buffer := ring
      expiration := config.qos.expiration
      ringmaster := m
      mySenderId := id
      net := ⟨netId, .loopback config.busTopic⟩
      callbacksActive := false
      counter
      ty := T }, asb)

/-- `create_null_reader`. It asks for a ring of capacity zero, where `ring_bounded` panics. -/
def createNullReader (asb : NetAsb Val) (T : TypeId) (counter : String) (config : BusConfig) :
    Res AsbReader × NetAsb Val :=
  let (m, asb) := asb.newMaster (.new T config.wireFormat config.qos)
  match asb.ringBoundedOrPanic 0 with
  | none => (.panicked, asb)
  | some (ring, asb) =>
    let (netId, asb) := asb.newNet
    (.ok {
      buffer := ring
      expiration := config.qos.expiration
      ringmaster := m
      mySenderId := 0
      net := ⟨netId, .null⟩
      callbacksActive := false
      counter
      ty := T }, asb)

/-! ## Cloning and dropping readers -/

/-- `impl Clone for AsbReader`. -/
def cloneReader (asb : NetAsb Val) (r : AsbReader) (id : SenderId) : AsbReader × NetAsb Val :=
  let (ring, asb) := asb.ringBounded (asb.rings r.buffer).capacity
  ({ r with buffer := ring, mySenderId := id, callbacksActive := false },
    asb.modifyMaster r.ringmaster (·.addSender id ring))

/-- `impl Drop for AsbReaderNet`. The results are ignored. -/
def dropNet (asb : NetAsb Val) : AsbReaderNet → NetAsb Val
  | .amqp topic => (AmqpAsb.delReader asb topic).2
  | .mqtt topic => (MqttAsb.delReader asb topic).2
  | .loopback topic => (LoopbackAsb.delReader asb topic).2
  | .null => asb

/-- `impl Drop for AsbReader`, then the drop of its fields, with `others` the readers that stay:
the network handle is dropped when none of them shares it. -/
def dropReader (asb : NetAsb Val) (r : AsbReader) (others : List AsbReader) : NetAsb Val :=
  let asb := asb.modifyMaster r.ringmaster fun m => (m.removeSender r.mySenderId).2
  if others.any fun o => o.net == r.net then asb else asb.dropNet r.net.net

/-- The unread messages of a ring after a call consumed a part of its script. -/
def consume (asb : NetAsb Val) (r : AsbReader) (left : Script Val) : NetAsb Val :=
  let unread := (left.filter fun a => match a.1 with | .got _ _ => true | _ => false).length
  let taken := (asb.rings r.buffer).items.length - unread
  { asb with rings :=
      Function.update asb.rings r.buffer ((RingBuf.advance^[taken]) (asb.rings r.buffer)) }

end NetAsb

namespace AsbConnection

variable {Val : Type}

/-- The state in which `connect` returns for a network of the given kind. -/
def connected (kind : NetworkKind) (exchange : Option String) : AsbConnection Val where
  kind
  exchange
  asb := .new
  loopRunning := true
  topics := ∅
  status := .normal
  readers := []
  writers := []

variable (qx : QuickXml Val) (config : AsbConfig) (svcName : String)

/-- The network-specific part of `create_reader`. -/
def createOnNet (c : AsbConnection Val) (T : TypeId) (topic : String) (cfg : BusConfig)
    (reply : BrokerReply) (id : SenderId) : Res AsbReader × NetAsb Val :=
  match c.kind with
  | .amqp => c.asb.createAmqpReader c.exchange T topic cfg reply id
  | .mqtt => c.asb.createMqttReader T topic cfg reply id
  | .loopback => c.asb.createLoopbackReader T topic cfg id
  | .null => c.asb.createNullReader T topic cfg

/-- `create_reader::<T>`. A call that fails or panics drops the counter it was given. -/
def createReader (c : AsbConnection Val) (T : TypeId) (topic : String) (reply : BrokerReply)
    (id : SenderId) : Res AsbReader × AsbConnection Val :=
  match c.topics.getTopicCtr T topic with
  | .error e => (.err e, c)
  | .ok topics =>
    match getBusConfig config svcName topic with
    | .error e => (.err e, { c with topics := topics.release topic })
    | .ok cfg =>
      match c.createOnNet T topic cfg reply id with
      | (.ok r, asb) => (.ok r, { c with asb, topics, readers := c.readers ++ [r] })
      | (.err e, asb) => (.err e, { c with asb, topics := topics.release topic })
      | (.panicked, asb) => (.panicked, { c with asb, topics := topics.release topic })

/-- `create_writer::<T>`. -/
def createWriter (c : AsbConnection Val) (T : TypeId) (topic : String) :
    Res AsbWriter × AsbConnection Val :=
  match c.topics.getTopicCtr T topic with
  | .error e => (.err e, c)
  | .ok topics =>
    match getBusConfig config svcName topic with
    | .error e => (.err e, { c with topics := topics.release topic })
    | .ok cfg =>
      let format := match c.kind with
        | .amqp | .mqtt => cfg.wireFormat
        | .loopback | .null => .xml
      let w : AsbWriter := ⟨cfg.busTopic, NetAsb.mqttQos cfg.qos, format, topic, T⟩
      (.ok w, { c with topics, writers := c.writers ++ [w] })

/-- `AsbWriter::write`; `reply` is the transport's answer. -/
def write (c : AsbConnection Val) (w : AsbWriter) (msg : Val) (now : Instant)
    (reply : Except CalError Unit) : Res Unit × AsbConnection Val :=
  match serializeMsg qx w.ty w.format msg with
  | .error e => (.err e, c)
  | .ok data =>
    match c.kind with
    | .amqp => (.ofExcept reply,
        { c with asb := c.asb.request (.basicPublish (c.exchange.getD "") w.busTopic data) })
    | .mqtt =>
      if c.asb.shutdownFuse then (.err (.netErr "ASB has been shut down."), c)
      else (.ofExcept reply, { c with asb := c.asb.request (.publish w.busTopic w.mqttQos data) })
    | .loopback =>
      match LoopbackAsb.publish qx c.asb w.busTopic now data with
      | .error e => (.err e, c)
      | .ok asb => (.ok (), { c with asb })
    | .null => (.ok (), c)

/-- A polling call on the `i`-th reader, its effect on the ring included. -/
def poll (c : AsbConnection Val) (i : ℕ) (call : AsbReader → ReadRes Val × Script Val) :
    Option (Res (Reply Val) × AsbConnection Val) :=
  c.readers[i]?.map fun r =>
    let (res, left) := call r
    (.ok (.read res), { c with asb := c.asb.consume r left })

/-- The transport hands over a message of a bus topic. -/
def deliver (c : AsbConnection Val) (busTopic : String) (now : Instant) (data : ByteArray) :
    Option (AsbConnection Val) :=
  match c.kind with
  | .amqp => some { c with asb := AmqpAsb.handleMsg qx c.asb busTopic now data }
  | .mqtt =>
    if c.loopRunning then some { c with asb := MqttAsb.handleMsg qx c.asb busTopic now data }
    else none
  | _ => none

/-- The server closes the AMQP connection: `ConnCb::close`. -/
def connClose (c : AsbConnection Val) : AsbConnection Val :=
  { c with status := setStatus c.status .failed }

/-- The server closes the AMQP channel: `ChanCb::close`. -/
def chanClose (c : AsbConnection Val) : AsbConnection Val :=
  { c with status := setStatus c.status .inoperable }

/-- The MQTT event loop polls an error: it shuts the ASB down, sets the status and ends. -/
def pollError (c : AsbConnection Val) : AsbConnection Val :=
  { c with
    asb := MqttAsb.shutdown c.asb
    status := setStatus c.status .failed
    loopRunning := false }

/-- Run an operation to its end; `none` when it cannot be made. -/
def exec (c : AsbConnection Val) : Op Val → Option (Res (Reply Val) × AsbConnection Val)
  | .createReader T topic reply id =>
      match c.createReader config svcName T topic reply id with
      | (.ok _, c') => some (.ok .done, c')
      | (.err e, c') => some (.err e, c')
      | (.panicked, c') => some (.panicked, c')
  | .createWriter T topic =>
      match c.createWriter config svcName T topic with
      | (.ok _, c') => some (.ok .done, c')
      | (.err e, c') => some (.err e, c')
      | (.panicked, c') => some (.panicked, c')
  | .cloneReader i id =>
      c.readers[i]?.map fun r =>
        let (r', asb) := c.asb.cloneReader r id
        (.ok .done,
          { c with asb, topics := c.topics.retain r.counter, readers := c.readers ++ [r'] })
  | .cloneWriter i =>
      c.writers[i]?.map fun w =>
        (.ok .done, { c with topics := c.topics.retain w.counter, writers := c.writers ++ [w] })
  | .dropReader i =>
      c.readers[i]?.map fun r =>
        (.ok .done,
          { c with
            asb := c.asb.dropReader r (c.readers.eraseIdx i)
            topics := c.topics.release r.counter
            readers := c.readers.eraseIdx i })
  | .dropWriter i =>
      c.writers[i]?.map fun w =>
        (.ok .done,
          { c with topics := c.topics.release w.counter, writers := c.writers.eraseIdx i })
  | .write i msg now reply =>
      c.writers[i]?.map fun w =>
        match c.write qx w msg now reply with
        | (.ok (), c') => (.ok .done, c')
        | (.err e, c') => (.err e, c')
        | (.panicked, c') => (.panicked, c')
  | .read i clock => c.poll i fun r => r.read (r.script c.asb clock [])
  | .readTimeout i timeout start clock =>
      c.poll i fun r => r.readTimeout timeout start (r.script c.asb clock [.nothing])
  | .tryRead i clock => c.poll i fun r => r.tryRead (r.script c.asb clock [.nothing])
  | .deliver busTopic now data => (c.deliver qx busTopic now data).map fun c' => (.ok .done, c')
  | .connClose => if c.kind = .amqp then some (.ok .done, c.connClose) else none
  | .chanClose => if c.kind = .amqp then some (.ok .done, c.chanClose) else none
  | .pollError =>
      if c.kind = .mqtt ∧ c.loopRunning then some (.ok .done, c.pollError) else none

/-- The state after an operation. -/
def step (c : AsbConnection Val) (op : Op Val) : Option (AsbConnection Val) :=
  (c.exec qx config svcName op).map Prod.snd

end AsbConnection

end Rounac

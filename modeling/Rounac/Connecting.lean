import Rounac.Networks.Connect

/-!
# What connecting comes to

`Asb::new` looks at the whole of its configuration before it makes the first call: a fault in the
service, the choice of its network or the parameters of that network is returned, the first one of
them, and no broker has heard of it. Then the calls are made one after the other up to the first
that fails. When none does, the connection is the one that every run starts from
(`Asb.new_outcome`).
-/

namespace Rounac

open Dialogues Validator ParamTool

/-! ## The exchange parameters -/

namespace TomlValue

/-- The value is a string with something in it. -/
def isName : TomlValue → Bool
  | string s => s ≠ ""
  | _ => false

def asBoolean : TomlValue → Option Bool
  | boolean b => some b
  | _ => none

end TomlValue

namespace Table

/-- The table has an `exchange` that is no name. -/
def BadExchange (params : Table) : Prop :=
  ((params.lookup "exchange").any fun v => !v.isName) = true

instance : DecidablePred BadExchange := fun _ => inferInstanceAs (Decidable (_ = true))

/-- The table has a `durable_exchange` that is not a boolean. -/
def BadDurable (params : Table) : Prop :=
  ((params.lookup "durable_exchange").any fun v => v.asBoolean.isNone) = true

instance : DecidablePred BadDurable := fun _ => inferInstanceAs (Decidable (_ = true))

def durable (params : Table) : Bool :=
  ((params.lookup "durable_exchange").bind TomlValue.asBoolean).getD true

end Table

theorem getExchange_checked (params : Table) :
    Checked (getExchange params) [fault params.BadExchange exchangeErr]
      (params.str "exchange") := by
  unfold getExchange Table.str
  cases hv : params.lookup "exchange" with
  | none => simp [Checked, fault, Table.BadExchange, hv]
  | some v =>
    cases v with
    | string ex =>
      by_cases hex : ex = "" <;>
        simp [Checked, fault, Table.BadExchange, hv, TomlValue.isName, TomlValue.asString, hex]
    | _ => simp [Checked, fault, Table.BadExchange, hv, TomlValue.isName]

theorem getDurable_checked (params : Table) :
    Checked (getDurable params) [fault params.BadDurable durableErr] params.durable := by
  unfold getDurable Table.durable
  cases hv : params.lookup "durable_exchange" with
  | none => simp [Checked, fault, Table.BadDurable, hv]
  | some v => cases v <;> simp [Checked, fault, Table.BadDurable, hv, TomlValue.asBoolean]

/-! ## The turns of connecting -/

/-- What is wrong with the parameters of an AMQP network, in the order of the checks. -/
def amqpFaults (params : Table) : List (Option CalError) :=
  fault params.BadExchange exchangeErr :: fault params.BadDurable durableErr ::
    amqpParams.map params.fault

/-- What is wrong with the parameters of an MQTT network. -/
def mqttFaults (params : Table) : List (Option CalError) :=
  mqttParams.map params.fault ++
    [fault (OnlyOne (params.str "username") (params.str "password"))
      (.configErr "Expected \"username\" and \"password\", or neither.")]

theorem verify_follows {ι α : Type} {r : Except CalError α}
    {faults : List (Option CalError)} {a : α} (h : Checked r faults a) :
    Follows (verify r : Dialogue ι Failure α)
      ((faults.map (Option.map Failure.err)).map Turn.ofCheck) a :=
  follows_check (h.mapError Failure.err)

namespace Dialer

variable {Args Opts : Type} (dial : Dialer Args Opts)

/-- The arguments that an AMQP connection is opened with. -/
def openArgs (params : Table) : Args :=
  dial.amqprs.new ((params.str "host").getD "localhost") (asU16 ((params.int "port").getD 5672))
    ((params.str "username").getD "guest") ((params.str "password").getD "guest")

/-- The options of an MQTT connection. -/
def mqttOpts (params : Table) : Opts :=
  dial.rumqttc.withCredentials
    (dial.rumqttc.new ((params.str "client_id").getD "") ((params.str "host").getD "localhost")
      (asU16 ((params.int "port").getD 1883)))
    (params.str "username") (params.str "password")

theorem openArgs_checked {network : NetworkConfig} (h : network.kind = .amqp) :
    Checked (openArgsForNet dial.amqprs network) (amqpParams.map network.params.fault)
      (dial.openArgs network.params) := by
  have hchecked := openArgsForNet_checked dial.amqprs network
  rw [fault, if_neg (not_not.2 h)] at hchecked
  exact hchecked

theorem mqttOpts_checked {network : NetworkConfig} (h : network.kind = .mqtt) :
    Checked (getMqttOpts dial.rumqttc network) (mqttFaults network.params)
      (dial.mqttOpts network.params) := by
  have hchecked := getMqttOpts_checked dial.rumqttc network
  rw [fault, if_neg (not_not.2 h)] at hchecked
  exact hchecked

/-- The calls that connecting to an AMQP broker makes. -/
def amqpCalls (params : Table) : List (ConnectCall Args Opts) :=
  [.openConnection (dial.openArgs params), .registerConnCallback, .openChannel,
      .registerChanCallback, .flow true] ++
    ((params.str "exchange").map (.exchangeDeclare · params.durable)).toList

/-- The turns of checks and of the calls after them. -/
def turns (faults : List (Option Failure)) (calls : List (ConnectCall Args Opts)) :
    List (Turn (ConnectCall Args Opts) Failure) :=
  faults.map Turn.ofCheck ++ calls.map (Turn.ofCall dial.answer)

theorem newAmqpAsync_follows {network : NetworkConfig} (h : network.kind = .amqp) :
    Follows (dial.newAmqpAsync network)
      (dial.turns ((amqpFaults network.params).map (Option.map Failure.err))
        (dial.amqpCalls network.params))
      (network.params.str "exchange") := by
  have hturns : dial.turns ((amqpFaults network.params).map (Option.map Failure.err))
        (dial.amqpCalls network.params) =
      [Turn.ofCheck ((fault network.params.BadExchange exchangeErr).map Failure.err)] ++
      ([Turn.ofCheck ((fault network.params.BadDurable durableErr).map Failure.err)] ++
      (((amqpParams.map network.params.fault).map (Option.map Failure.err)).map Turn.ofCheck ++
      ([Turn.ofCall dial.answer (.openConnection (dial.openArgs network.params))] ++
      ([Turn.ofCall dial.answer .registerConnCallback] ++
      ([Turn.ofCall dial.answer .openChannel] ++
      ([Turn.ofCall dial.answer .registerChanCallback] ++
      ([Turn.ofCall dial.answer (.flow true)] ++
      (((network.params.str "exchange").map
        (.exchangeDeclare · network.params.durable)).toList.map (Turn.ofCall dial.answer) ++
        [])))))))) := by
    rw [List.append_nil]
    unfold turns amqpFaults amqpCalls
    simp only [List.map_cons, List.cons_append, List.nil_append]
  rw [hturns]
  apply (verify_follows (getExchange_checked _)).bind
  apply (verify_follows (getDurable_checked _)).bind
  apply (verify_follows (dial.openArgs_checked h)).bind
  apply (follows_call _ _).bind
  apply (follows_call _ _).bind
  apply (follows_call _ _).bind
  apply (follows_call _ _).bind
  apply (follows_call _ _).bind
  cases network.params.str "exchange" with
  | none => exact (follows_pure _).bind (follows_pure _)
  | some ex => exact (follows_call _ _).bind (follows_pure _)

theorem newAmqp_follows {network : NetworkConfig} (h : network.kind = .amqp) :
    Follows (dial.newAmqp network)
      (dial.turns ((faultOf dial.build).map .err :: fault (dial.inRuntime = true) .panicked ::
        (amqpFaults network.params).map (Option.map Failure.err)) (dial.amqpCalls network.params))
      (network.params.str "exchange") := by
  unfold newAmqp
  apply (verify_follows (checked_faultOf dial.build)).bind
  by_cases hin : dial.inRuntime = true
  · rw [if_pos hin, fault, if_pos hin]
    exact fun made => congrArg _ (List.append_nil made).symm
  · rw [if_neg hin, fault, if_neg hin]
    exact (dial.newAmqpAsync_follows h).cons_ofCheck_none

theorem newMqtt_follows {network : NetworkConfig} (h : network.kind = .mqtt) :
    Follows (dial.newMqtt network)
      (dial.turns ((faultOf (if dial.inRuntime then .ok () else dial.build)).map .err ::
        (mqttFaults network.params).map (Option.map Failure.err))
        [.mqttConnect (dial.mqttOpts network.params)]) () := by
  unfold newMqtt
  apply (verify_follows (checked_faultOf _)).bind
  exact (verify_follows (dial.mqttOpts_checked h)).bind (follows_call _ _)

/-- What is wrong with connecting to a network before a call is made, in the order in which it is
noticed. -/
def faults (network : NetworkConfig) : List (Option Failure) :=
  match network.kind with
  | .amqp =>
    (faultOf dial.build).map .err :: fault (dial.inRuntime = true) .panicked ::
      (amqpFaults network.params).map (Option.map Failure.err)
  | .mqtt =>
    (faultOf (if dial.inRuntime then .ok () else dial.build)).map .err ::
      (mqttFaults network.params).map (Option.map Failure.err)
  | .loopback | .null => []

/-- The calls that connecting to a network makes. -/
def calls (network : NetworkConfig) : List (ConnectCall Args Opts) :=
  match network.kind with
  | .amqp => dial.amqpCalls network.params
  | .mqtt => [.mqttConnect (dial.mqttOpts network.params)]
  | .loopback | .null => []

end Dialer

/-- The exchange of a network. -/
def NetworkConfig.exchange (network : NetworkConfig) : Option String :=
  match network.kind with
  | .amqp => network.params.str "exchange"
  | _ => none

variable {Args Opts : Type} (dial : Dialer Args Opts) {Val : Type}

theorem AsbConnection.connect_follows {netName : String} {config : AsbConfig}
    {network : NetworkConfig} (h : config.networks.lookup netName = some network) :
    Follows (AsbConnection.connect dial netName config)
      (dial.turns (dial.faults network) (dial.calls network))
      (.connected network.kind network.exchange : AsbConnection Val) := by
  unfold AsbConnection.connect
  rw [h]
  obtain ⟨kind, params⟩ := network
  cases kind with
  | amqp =>
    have hnet := dial.newAmqp_follows (show NetworkConfig.kind ⟨.amqp, params⟩ = .amqp from rfl)
    exact hnet.bind_pure fun exchange => connected .amqp exchange
  | mqtt =>
    have hnet := dial.newMqtt_follows (show NetworkConfig.kind ⟨.mqtt, params⟩ = .mqtt from rfl)
    exact hnet.bind_pure fun _ => connected .mqtt none
  | loopback => exact follows_pure _
  | null => exact follows_pure _

/-- What is wrong with bringing up a service before a call is made, in the order in which it is
noticed. -/
def startFaults (config : AsbConfig) (serviceName : String) : List (Option Failure) :=
  match config.services.service.lookup serviceName with
  | none => [some (.err (.configErr ("Missing service config for " ++ serviceName)))]
  | some serviceConfig =>
    match serviceConfig.network.or config.services.defaultNetwork with
    | none => [some (.err (.configErr ("Missing network config for service " ++ serviceName)))]
    | some netName =>
      match config.networks.lookup netName with
      | none => [some (.err (.configErr ("Missing network config for " ++ netName)))]
      | some network => dial.faults network

/-- The service is there, and uses the network. -/
structure AsbConfig.Uses (config : AsbConfig) (serviceName : String) (serviceConfig : ServiceConfig)
    (netName : String) (network : NetworkConfig) : Prop where
  service : config.services.service.lookup serviceName = some serviceConfig
  chosen : serviceConfig.network.or config.services.defaultNetwork = some netName
  network : config.networks.lookup netName = some network

def Asb.up (serviceName : String) (config : AsbConfig) (systemV4 serviceV4 : Uuid)
    (serviceConfig : ServiceConfig) (network : NetworkConfig) : Asb Val where
  config
  serviceName
  systemUuid := config.systemUuid.getD systemV4
  serviceUuid := serviceConfig.serviceUuid.getD serviceV4
  connection := .connected network.kind network.exchange

theorem Asb.new_follows {serviceName : String} {config : AsbConfig} (systemV4 serviceV4 : Uuid)
    {serviceConfig : ServiceConfig} {netName : String} {network : NetworkConfig}
    (h : config.Uses serviceName serviceConfig netName network) :
    Follows (Asb.new dial serviceName config systemV4 serviceV4)
      (dial.turns (dial.faults network) (dial.calls network))
      (Asb.up serviceName config systemV4 serviceV4 serviceConfig network : Asb Val) := by
  unfold Asb.new
  rw [h.service]
  dsimp only
  rw [h.chosen]
  exact (AsbConnection.connect_follows dial h.network).bind_pure _

/-- **A configuration is checked as a whole before a broker hears of it, and then the calls are made
up to the first that fails.** `Asb::new` fails with the first of the configuration's faults, and
makes no call; or there is no fault, and it makes the network's calls in order, fails with the first
failure that is answered, and returns the ASB that is brought up when all are accepted. -/
theorem Asb.new_outcome (serviceName : String) (config : AsbConfig) (systemV4 serviceV4 : Uuid) :
    match (startFaults dial config serviceName).findSome? id with
    | some failure =>
      talk (Asb.new dial serviceName config systemV4 serviceV4 : Dialogue _ _ (Asb Val)) =
        (.error failure, [])
    | none =>
      ∃ serviceConfig netName network, config.Uses serviceName serviceConfig netName network ∧
        ((∀ c ∈ dial.calls network, dial.answer c = .ok ()) ∧
            talk (Asb.new dial serviceName config systemV4 serviceV4 : Dialogue _ _ (Asb Val)) =
              (.ok (Asb.up serviceName config systemV4 serviceV4 serviceConfig network),
                dial.calls network) ∨
          ∃ before c after failure, dial.calls network = before ++ c :: after ∧
            (∀ d ∈ before, dial.answer d = .ok ()) ∧ dial.answer c = .error failure ∧
            talk (Asb.new dial serviceName config systemV4 serviceV4 : Dialogue _ _ (Asb Val)) =
              (.error failure, before ++ [c])) := by
  -- On the way down to the network, the first lookup that fails is the first fault.
  cases hservice : config.services.service.lookup serviceName with
  | none =>
    rw [startFaults, hservice]
    show talk _ = _
    rw [Asb.new, hservice]
    rfl
  | some serviceConfig =>
    cases hchosen : serviceConfig.network.or config.services.defaultNetwork with
    | none =>
      rw [startFaults, hservice]
      dsimp only
      rw [hchosen]
      show talk _ = _
      rw [Asb.new, hservice]
      dsimp only
      rw [hchosen]
      rfl
    | some netName =>
      cases hnetwork : config.networks.lookup netName with
      | none =>
        rw [startFaults, hservice]
        dsimp only
        rw [hchosen]
        dsimp only
        rw [hnetwork]
        show talk _ = _
        rw [Asb.new, hservice]
        dsimp only
        rw [hchosen]
        dsimp only
        rw [AsbConnection.connect, hnetwork]
        rfl
      | some network =>
        have hstart : startFaults dial config serviceName = dial.faults network := by
          rw [startFaults, hservice]
          dsimp only
          rw [hchosen]
          dsimp only
          rw [hnetwork]
        have huses : config.Uses serviceName serviceConfig netName network :=
          ⟨hservice, hchosen, hnetwork⟩
        rw [hstart]
        cases hf : (dial.faults network).findSome? id with
        | some failure => exact (Asb.new_follows dial systemV4 serviceV4 huses).talk_of_fault hf
        | none =>
          refine ⟨serviceConfig, netName, network, huses, ?_⟩
          exact (Asb.new_follows dial systemV4 serviceV4 huses).talk_cases hf

end Rounac

import Rounac.Lib.Dialogue
import Rounac.NetworkParams
import Rounac.Networks.Connection

/-!
# Connecting

`Asb::new` of `src/lib.rs`, `AsbConnection::connect` and the constructors of `AsbNetMode` of
`src/networks.rs`, as dialogues with the client libraries. A call of a library answers from outside.
The call for MQTT stands for the whole handshake with the event loop (`Rounac.NewMqtt`), which may
panic and need not end.
-/

namespace Rounac

open Dialogues Validator

/-- How a call comes not to return a value. -/
inductive Failure
  | err (e : CalError)
  | panicked
  | waiting
deriving DecidableEq, Repr

/-- The calls that are made to connect. -/
inductive ConnectCall (Args Opts : Type)
  | openConnection (args : Args)
  | registerConnCallback
  | openChannel
  | registerChanCallback
  | flow (active : Bool)
  | exchangeDeclare (exchange : String) (durable : Bool)
  | mqttConnect (opts : Opts)

/-- What connecting depends on: the client libraries, whether the caller is inside of a runtime, how
building a runtime ends, and how the calls are answered. -/
structure Dialer (Args Opts : Type) where
  amqprs : OpenConnectionArguments Args
  rumqttc : MqttOptions Opts
  inRuntime : Bool
  build : Except CalError Unit
  answer : ConnectCall Args Opts → Except Failure Unit

def verify {ι α : Type} (r : Except CalError α) : Dialogue ι Failure α := check (r.mapError .err)

/-! ## The exchange parameters -/

namespace ParamTool

/-- The error about the parameter `exchange`. -/
def exchangeErr : CalError := .configErr "AMQP parameter \"exchange\" must be a non-empty string."

/-- The error about the parameter `durable_exchange`. -/
def durableErr : CalError := .configErr "AMQP parameter \"durable_exchange\" must be a boolean."

/-- The parameter `exchange` in `new_amqp_async`. -/
def getExchange (params : Table) : Except CalError (Option String) :=
  match params.lookup "exchange" with
  | some (.string ex) => if ex ≠ "" then .ok (some ex) else .error exchangeErr
  | some _ => .error exchangeErr
  | none => .ok none

/-- The parameter `durable_exchange` in `new_amqp_async`. -/
def getDurable (params : Table) : Except CalError Bool :=
  match params.lookup "durable_exchange" with
  | some (.boolean ex) => .ok ex
  | some _ => .error durableErr
  | none => .ok true

end ParamTool

open ParamTool

/-! ## The networks -/

namespace Dialer

variable {Args Opts : Type} (dial : Dialer Args Opts)

/-- `AsbNetMode::new_amqp_async`: the exchange. -/
def newAmqpAsync (network : NetworkConfig) :
    Dialogue (ConnectCall Args Opts) Failure (Option String) := do
  let exchange ← verify (getExchange network.params)
  let durable ← verify (getDurable network.params)
  let openArgs ← verify (openArgsForNet dial.amqprs network)
  call dial.answer (.openConnection openArgs)
  call dial.answer .registerConnCallback
  call dial.answer .openChannel
  call dial.answer .registerChanCallback
  call dial.answer (.flow true) -- Kickstart traffic flowing
  match exchange with
  | some ex => call dial.answer (.exchangeDeclare ex durable)
  | none => pure ()
  return exchange

/-- `AsbNetMode::new_amqp`. `block_on` panics inside of a runtime. -/
def newAmqp (network : NetworkConfig) :
    Dialogue (ConnectCall Args Opts) Failure (Option String) := do
  verify dial.build
  if dial.inRuntime then throw .panicked
  dial.newAmqpAsync network

/-- `AsbNetMode::new_mqtt`. It makes a runtime only when there is none. -/
def newMqtt (network : NetworkConfig) : Dialogue (ConnectCall Args Opts) Failure Unit := do
  verify (if dial.inRuntime then .ok () else dial.build)
  let opts ← verify (getMqttOpts dial.rumqttc network)
  call dial.answer (.mqttConnect opts)

end Dialer

variable {Args Opts : Type} (dial : Dialer Args Opts) {Val : Type}

/-- `AsbConnection::connect`. -/
def AsbConnection.connect (netName : String) (config : AsbConfig) :
    Dialogue (ConnectCall Args Opts) Failure (AsbConnection Val) := do
  match config.networks.lookup netName with
  | none => throw (.err (.configErr ("Missing network config for " ++ netName)))
  | some network =>
    match network.kind with
    | .amqp =>
      let exchange ← dial.newAmqp network
      return .connected .amqp exchange
    | .mqtt =>
      dial.newMqtt network
      return .connected .mqtt none
    | .loopback => return .connected .loopback none
    | .null => return .connected .null none

/-- `Asb`. -/
structure Asb (Val : Type) where
  config : AsbConfig
  serviceName : String
  systemUuid : Uuid
  serviceUuid : Uuid
  connection : AsbConnection Val

/-- `Asb::new`; `systemV4` and `serviceV4` are what `Uuid::new_v4` returned. -/
def Asb.new (serviceName : String) (config : AsbConfig) (systemV4 serviceV4 : Uuid) :
    Dialogue (ConnectCall Args Opts) Failure (Asb Val) := do
  match config.services.service.lookup serviceName with
  | none => throw (.err (.configErr ("Missing service config for " ++ serviceName)))
  | some serviceConfig =>
    let systemUuid := config.systemUuid.getD systemV4
    let serviceUuid := serviceConfig.serviceUuid.getD serviceV4
    -- The service's network comes first, then the default.
    match serviceConfig.network.or config.services.defaultNetwork with
    | none => throw (.err (.configErr ("Missing network config for service " ++ serviceName)))
    | some network =>
      let connection ← AsbConnection.connect dial network config
      return { config, serviceName, systemUuid, serviceUuid, connection }

end Rounac

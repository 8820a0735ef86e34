import Mathlib.Data.List.AList
import Rounac.Error

/-!
# Configuration

The data of `src/config.rs`: services with their topics, networks with their parameters, the named
QoS settings, and the defaults. A `HashMap` keyed by strings is an `AList`, whose keys are distinct
by construction. Durations and instants are numbers of nanoseconds, so that
`Instant::duration_since`, which saturates at zero, is the truncated subtraction.
-/

namespace Rounac

/-- A hash map keyed by strings. -/
abbrev StrMap (β : Type*) := AList (fun _ : String => β)

/-- A length of time, in nanoseconds. -/
abbrev Duration := ℕ

/-- A reading of the monotonic clock, in nanoseconds. -/
abbrev Instant := ℕ

/-- A value of a TOML document. -/
inductive TomlValue
  | string (s : String)
  | integer (i : Int64)
  | float (text : String)
  | boolean (b : Bool)
  | datetime (text : String)
  | array (vs : List TomlValue)
  | table (entries : List (String × TomlValue))

/-- A table of a TOML document. -/
abbrev Table := StrMap TomlValue

/-- `uuid::Uuid`. -/
abbrev Uuid := BitVec 128

/-- The kinds of networks supported by the configuration. -/
inductive NetworkKind
  | amqp
  | mqtt
  | loopback
  | null
deriving DecidableEq, Repr

/-- The format used when (de)serializing messages. -/
inductive WireFormat
  | xml
deriving DecidableEq, Repr

/-- Reliability types. -/
inductive ReliabilityQos
  | reliable
  | bestEffort
deriving DecidableEq, Repr

/-- Quality-of-Service settings. -/
structure QosSettings where
  timeBasedFilter : Option Duration
  reliability : ReliabilityQos
  expiration : Option Duration
  buffer : ℕ
deriving DecidableEq, Repr

/-- `impl Default for QosSettings`. -/
def QosSettings.default : QosSettings where
  timeBasedFilter := none
  reliability := .reliable
  expiration := none
  buffer := 100

/-- Topic-specific settings. -/
structure TopicConfig where
  busTopic : Option String
  qos : Option String

/-- Configuration of a single service. -/
structure ServiceConfig where
  serviceUuid : Option Uuid := none
  network : Option String := none
  wireFormat : Option WireFormat
  qos : Option String
  topics : StrMap TopicConfig

/-- Configuration for all services. -/
structure ServicesConfig where
  defaultNetwork : Option String := none
  defaultWireFormat : Option WireFormat
  defaultQos : Option String
  service : StrMap ServiceConfig

/-- Configuration of a single network. -/
structure NetworkConfig where
  kind : NetworkKind
  params : Table

/-- The configuration of the bus. -/
structure AsbConfig where
  systemUuid : Option Uuid := none
  services : ServicesConfig
  networks : StrMap NetworkConfig := ∅
  qos : StrMap QosSettings

/-- The configuration items needed to create a reader. -/
structure BusConfig where
  wireFormat : WireFormat
  qos : QosSettings
  busTopic : String
deriving DecidableEq, Repr

/-- The configuration of one service that only gives some client topics their bus topics. -/
def AsbConfig.withBusTopics (svcName : String) (topics : List (String × String)) : AsbConfig where
  services :=
    { defaultWireFormat := some .xml
      defaultQos := none
      service := (∅ : StrMap ServiceConfig).insert svcName
        { wireFormat := none
          qos := none
          topics := topics.foldr (fun t cfgs => cfgs.insert t.1 ⟨some t.2, none⟩) ∅ } }
  qos := ∅

/-- `AsbConnection::get_bus_config`: the wire format, the QoS and the bus topic of a client topic
under a service. -/
def getBusConfig (config : AsbConfig) (svcName topic : String) : Except CalError BusConfig := do
  let serviceCfg := config.services.service.lookup svcName
  let wireFormat ←
    match serviceCfg.bind fun cfg => cfg.wireFormat.or config.services.defaultWireFormat with
    | some w => .ok w
    | none => .error (.configErr
        ("No wire format specified for topic " ++ topic ++ " under service " ++ svcName ++ "."))
  -- The topic's QoS name comes first, then the service's, then the default.
  let qosName := serviceCfg.bind fun cfg =>
    (((cfg.topics.lookup topic).bind fun tcfg => tcfg.qos).or cfg.qos).or config.services.defaultQos
  let qos ←
    match qosName with
    | none => .ok .default
    | some name =>
      match config.qos.lookup name with
      | some q => .ok q
      | none => .error (.configErr ("Could not find QoS settings for " ++ name))
  let busTopic := (serviceCfg.bind fun cfg =>
    (cfg.topics.lookup topic).bind fun tcfg => tcfg.busTopic).getD topic
  return { wireFormat, qos, busTopic }

end Rounac

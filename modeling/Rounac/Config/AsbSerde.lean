import Rounac.Config.DurationSerde

/-!
# Reading a configuration

`AsbConfig::from_str` of `src/config.rs`. The `toml` crate makes a table of the text and the derived
implementations of `Deserialize` read it: the fields of a structure come in the order of their keys,
or in the order of their declaration when the structure is written as an array, and the first error
ends the reading. What the `toml` and `uuid` crates accept are parameters.

`ServicesConfig` collects the services by `#[serde(flatten)]`, which goes through a buffer of
serde's own: what is below them is read from there by `contentStruct`, `contentVariant` and
`contentUuid`, and these accept less than the `toml` crate does.
-/

namespace Rounac

/-! ## Fields and maps -/

/-- A field of type `Option`. -/
def fieldOpt {α : Type} (tbl : Table) (key : String) (read : TomlValue → DeRes α) :
    DeRes (Option α) :=
  fieldOr tbl key (fun v => do return some (← read v)) none

def require {α : Type} (key : String) : Option α → DeRes α
  | some a => .ok a
  | none => .err ("missing field `" ++ key ++ "`")

/-- A value read as a map. A date is one too, of a single private key. -/
def asTable (expected : String) : TomlValue → DeRes Table
  | .table entries => .ok (entries.foldr (fun e tbl => tbl.insert e.1 e.2) ∅)
  | .datetime text => .ok ((∅ : Table).insert "$__toml_private_datetime" (.string text))
  | v => .err (v.invalidType expected)

def deserializeEntries {β : Type} (read : TomlValue → DeRes β) :
    List (Sigma fun _ : String => TomlValue) → DeRes (StrMap β)
  | [] => .ok ∅
  | e :: es => do
    let b ← read e.2
    let rest ← deserializeEntries read es
    return rest.insert e.1 b

/-- `HashMap<String, _>`. -/
def deserializeMap {β : Type} (read : TomlValue → DeRes β) (v : TomlValue) : DeRes (StrMap β) := do
  let tbl ← asTable "a map" v
  deserializeEntries read tbl.entries

/-! ## Leaves -/

def deserializeString : TomlValue → DeRes String
  | .string s => .ok s
  | v => .err (v.invalidType "a string")

/-- `Uuid`; `uuid` is the `uuid` crate's reading of a value. -/
def deserializeUuid (uuid : TomlValue → Except String Uuid) (v : TomlValue) : DeRes Uuid :=
  match uuid v with
  | .ok id => .ok id
  | .error msg => .err msg

/-- The names of a `WireFormat`. -/
def WireFormat.ofName : String → DeRes WireFormat
  | "xml" | "XML" => .ok .xml
  | s => .err ("unknown variant `" ++ s ++ "`")

/-- The names of a `NetworkKind`. -/
def NetworkKind.ofName : String → DeRes NetworkKind
  | "amqp" | "AMQP" => .ok .amqp
  | "mqtt" | "MQTT" => .ok .mqtt
  | "loopback" => .ok .loopback
  | "null" | "NULL" => .ok .null
  | s => .err ("unknown variant `" ++ s ++ "`")

/-! ## Under a flattened map -/

/-- A structure; a sequence must have no more elements than it has fields. -/
def contentStruct {α : Type} (expected : String) (fields : ℕ) (visitSeq : List TomlValue → DeRes α)
    (visitMap : Table → DeRes α) : TomlValue → DeRes α
  | .array xs => do
    let a ← visitSeq xs
    if fields < xs.length then
      .err ("invalid length " ++ toString xs.length ++ ", expected " ++ toString fields ++
        " elements in sequence")
    else return a
  | v => do visitMap (← asTable expected v)

def element {α : Type} (expected : String) (xs : List TomlValue) (i : ℕ)
    (read : TomlValue → DeRes α) : DeRes α :=
  match xs[i]? with
  | some v => read v
  | none => .err ("invalid length " ++ toString i ++ ", expected " ++ expected)

/-- A unit variant: its name. A map of its name only would need the unit value, which TOML does not
have. -/
def contentVariant {α : Type} (ofName : String → DeRes α) : TomlValue → DeRes α
  | .string s => ofName s
  | .table [(name, v)] => do
    let _ ← ofName name
    .err (v.invalidType "unit")
  | .table _ => .err "invalid value: map, expected map with a single key"
  | .datetime text => do
    let _ ← ofName "$__toml_private_datetime"
    .err ((TomlValue.string text).invalidType "unit")
  | v => .err (v.invalidType "string or map")

/-- `Uuid`: nothing but a string gets to the `uuid` crate. -/
def contentUuid (uuid : TomlValue → Except String Uuid) : TomlValue → DeRes Uuid
  | .string s => deserializeUuid uuid (.string s)
  | v => .err (v.invalidType "a UUID string")

/-! ## Structures -/

namespace TopicConfig

/-- The derived `visit_map`. -/
def deserialize (tbl : Table) : DeRes TopicConfig := do
  let busTopic ← fieldOpt tbl "bus_topic" deserializeString
  let qos ← fieldOpt tbl "qos" deserializeString
  return { busTopic, qos }

/-- The derived `visit_seq`. -/
def visitSeq (xs : List TomlValue) : DeRes TopicConfig := do
  let expected := "struct TopicConfig with 2 elements"
  let busTopic ← element expected xs 0 deserializeString
  let qos ← element expected xs 1 deserializeString
  return { busTopic := some busTopic, qos := some qos }

/-- The derived `Deserialize`. -/
def ofContent : TomlValue → DeRes TopicConfig :=
  contentStruct "struct TopicConfig" 2 visitSeq deserialize

end TopicConfig

namespace ServiceConfig

variable (uuid : TomlValue → Except String Uuid)

/-- The derived `visit_map`. -/
def deserialize (tbl : Table) : DeRes ServiceConfig := do
  let network ← fieldOpt tbl "network" deserializeString
  let qos ← fieldOpt tbl "qos" deserializeString
  let serviceUuid ← fieldOpt tbl "service_uuid" (contentUuid uuid)
  let topics ← fieldOr tbl "topics" (deserializeMap TopicConfig.ofContent) ∅
  let wireFormat ← fieldOpt tbl "wire_format" (contentVariant WireFormat.ofName)
  return { serviceUuid, network, wireFormat, qos, topics }

/-- The derived `visit_seq`: only the topics have a default. -/
def visitSeq (xs : List TomlValue) : DeRes ServiceConfig := do
  let expected := "struct ServiceConfig with 5 elements"
  let serviceUuid ← element expected xs 0 (contentUuid uuid)
  let network ← element expected xs 1 deserializeString
  let wireFormat ← element expected xs 2 (contentVariant WireFormat.ofName)
  let qos ← element expected xs 3 deserializeString
  let topics ← elementOr xs 4 (deserializeMap TopicConfig.ofContent) ∅
  return {
    serviceUuid := some serviceUuid
    network := some network
    wireFormat := some wireFormat
    qos := some qos
    topics }

/-- The derived `Deserialize`. -/
def ofContent : TomlValue → DeRes ServiceConfig :=
  contentStruct "struct ServiceConfig" 5 (visitSeq uuid) (deserialize uuid)

end ServiceConfig

/-- The keys of `ServicesConfig` that are no services. -/
def ServicesConfig.keys : List String := ["default_network", "default_qos", "default_wire_format"]

/-- The derived `Deserialize` of `ServicesConfig`: every other key is a service. -/
def ServicesConfig.deserialize (uuid : TomlValue → Except String Uuid) (tbl : Table) :
    DeRes ServicesConfig := do
  let defaultNetwork ← fieldOpt tbl "default_network" deserializeString
  let defaultQos ← fieldOpt tbl "default_qos" deserializeString
  let defaultWireFormat ← fieldOpt tbl "default_wire_format" (unitVariant WireFormat.ofName)
  let service ← deserializeEntries (ServiceConfig.ofContent uuid)
    (tbl.entries.filter fun e => !keys.contains e.1)
  return { defaultNetwork, defaultWireFormat, defaultQos, service }

/-- The derived `Deserialize` of `NetworkConfig`: every other key is a parameter. -/
def NetworkConfig.deserialize (tbl : Table) : DeRes NetworkConfig := do
  let kind ← fieldOpt tbl "kind" (unitVariant NetworkKind.ofName)
  return { kind := ← require "kind" kind, params := tbl.erase "kind" }

namespace AsbConfig

def deserializeNetworks : TomlValue → DeRes (StrMap NetworkConfig) :=
  deserializeMap fun v => do NetworkConfig.deserialize (← asTable "struct NetworkConfig" v)

/-- One entry of the table of QoS settings: the derived `Deserialize` of `QosSettings`. -/
def deserializeQos : TomlValue → DeRes QosSettings
  | .array xs => QosSettings.visitSeq xs
  | v => do QosSettings.deserialize (← asTable "struct QosSettings" v)

def deserializeServices (uuid : TomlValue → Except String Uuid) (v : TomlValue) :
    DeRes ServicesConfig := do
  ServicesConfig.deserialize uuid (← asTable "struct ServicesConfig" v)

/-- The derived `Deserialize` of `AsbConfig`. -/
def deserialize (uuid : TomlValue → Except String Uuid) (tbl : Table) : DeRes AsbConfig := do
  let networks ← fieldOpt tbl "networks" deserializeNetworks
  let qos ← fieldOr tbl "qos" (deserializeMap deserializeQos) ∅
  let services ← fieldOpt tbl "services" (deserializeServices uuid)
  let systemUuid ← fieldOpt tbl "system_uuid" (deserializeUuid uuid)
  let services ← require "services" services
  let networks ← require "networks" networks
  return { systemUuid, services, networks, qos }

/-- `AsbConfig::from_str`; `toml` is the `toml` crate's reading of a text. -/
def fromStr (toml : String → Except String Table) (uuid : TomlValue → Except String Uuid)
    (s : String) : DeRes AsbConfig :=
  match toml s with
  | .error msg => .err msg
  | .ok tbl => deserialize uuid tbl

end AsbConfig

end Rounac

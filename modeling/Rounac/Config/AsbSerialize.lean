import Rounac.Config.AsbSerde
import Rounac.Lib.KeyedMap

/-!
# Writing a configuration

The derived implementations of `Serialize` of `src/config.rs`, down to the tables that the `toml`
crate makes of them. A field that is `None` is left out. The entries of a flattened map stand beside
the fields of the structure, and come after them, so an entry of the same key replaces a field. How
the `uuid` crate writes a UUID is a parameter.
-/

namespace Rounac

open QosSettings KeyedMap

def Table.toValue (tbl : Table) : TomlValue := .table (tbl.entries.map fun e => (e.1, e.2))

/-- `HashMap<String, _>`. -/
def serializeMap {β : Type} (write : β → TomlValue) (m : StrMap β) : TomlValue :=
  Table.toValue (mapVals write m)

/-- The derived `Serialize` of `WireFormat`. -/
def WireFormat.serialize : WireFormat → TomlValue
  | .xml => .string "xml"

/-- The derived `Serialize` of `NetworkKind`. -/
def NetworkKind.serialize : NetworkKind → TomlValue
  | .amqp => .string "amqp"
  | .mqtt => .string "mqtt"
  | .loopback => .string "loopback"
  | .null => .string "null"

/-- The derived `Serialize` of `TopicConfig`. -/
def TopicConfig.serialize (t : TopicConfig) : Table :=
  let tbl := putField ∅ "bus_topic" (t.busTopic.map .string)
  putField tbl "qos" (t.qos.map .string)

/-- The derived `Serialize` of `NetworkConfig`, with its parameters flattened. -/
def NetworkConfig.serialize (n : NetworkConfig) : Table :=
  n.params ∪ (∅ : Table).insert "kind" n.kind.serialize

section

variable (hyphenated : Uuid → String)

/-- The derived `Serialize` of `ServiceConfig`. -/
def ServiceConfig.serialize (s : ServiceConfig) : Table :=
  let tbl := putField ∅ "service_uuid" (s.serviceUuid.map fun id => .string (hyphenated id))
  let tbl := putField tbl "network" (s.network.map .string)
  let tbl := putField tbl "wire_format" (s.wireFormat.map WireFormat.serialize)
  let tbl := putField tbl "qos" (s.qos.map .string)
  putField tbl "topics" (some (serializeMap (fun t => t.serialize.toValue) s.topics))

/-- The derived `Serialize` of `ServicesConfig`, with its services flattened. -/
def ServicesConfig.serialize (s : ServicesConfig) : Table :=
  let tbl := putField ∅ "default_network" (s.defaultNetwork.map .string)
  let tbl := putField tbl "default_wire_format" (s.defaultWireFormat.map WireFormat.serialize)
  let tbl := putField tbl "default_qos" (s.defaultQos.map .string)
  mapVals (fun cfg => (cfg.serialize hyphenated).toValue) s.service ∪ tbl

/-- The entries of the table of QoS settings. -/
def serializeQos : List (Sigma fun _ : String => QosSettings) →
    Except String (List (Sigma fun _ : String => Table))
  | [] => .ok []
  | e :: es => do
    let tbl ← e.2.serialize
    let rest ← serializeQos es
    return ⟨e.1, tbl⟩ :: rest

/-- The derived `Serialize` of `AsbConfig`. -/
def AsbConfig.serialize (cfg : AsbConfig) : Except String Table := do
  let tbl := putField ∅ "system_uuid" (cfg.systemUuid.map fun id => .string (hyphenated id))
  let tbl := putField tbl "services" (some (cfg.services.serialize hyphenated).toValue)
  let tbl := putField tbl "networks"
    (some (serializeMap (fun n => n.serialize.toValue) cfg.networks))
  let qos ← serializeQos cfg.qos.entries
  return putField tbl "qos" (some (.table (qos.map fun e => (e.1, e.2.toValue))))

end

end Rounac

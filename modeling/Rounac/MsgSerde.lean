import Rounac.Config

/-!
# (De)serialization of messages

`src/msg_serde.rs`. The XML library is outside the repository and enters as the parameter
`QuickXml`: how it renders a value of a Rust type and how it reads one back. A value of any
message type is an element of one type `Val`; which Rust type is meant is told by its `TypeId`.
-/

namespace Rounac

/-- `any::TypeId`: two types are the same exactly when their ids are. -/
structure TypeId where
  hash : ℕ
deriving DecidableEq, Repr

/-- The calls made to `quick_xml`, at each message type. -/
structure QuickXml (Val : Type) where
  toString : TypeId → Val → Except CalError String
  fromStr : TypeId → String → Except CalError Val

/-- The calls of a library that reads every document as the one message there is. -/
def QuickXml.unit : QuickXml Unit where
  toString := fun _ _ => .ok "<msg/>"
  fromStr := fun _ _ => .ok ()

def xmlns : String := " xmlns=\"https://www.vdl.afrl.af.mil/programs/oam\""

/-- Splice `xmlns` in before the first `>`, if there is one. -/
def insertXmlns (s : String) : String :=
  match s.toList.span (· != '>') with
  | (front, '>' :: back) => String.ofList (front ++ xmlns.toList ++ '>' :: back)
  | _ => s

variable {Val : Type}

/-- `serialize_msg`. -/
def serializeMsg (qx : QuickXml Val) (T : TypeId) (format : WireFormat) (msg : Val) :
    Except CalError ByteArray :=
  match format with
  | .xml => do
    let s ← qx.toString T msg
    return (insertXmlns s).toUTF8

/-- `deserialize_msg`. -/
def deserializeMsg (qx : QuickXml Val) (T : TypeId) (format : WireFormat) (data : ByteArray) :
    Except CalError Val :=
  match format with
  | .xml =>
    match String.fromUTF8? data with
    | some dataStr => qx.fromStr T dataStr
    | none => .error (.serdeErr "XML deserialization requires UTF-8 data")

end Rounac

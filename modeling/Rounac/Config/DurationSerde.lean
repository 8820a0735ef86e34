import Mathlib.Algebra.Group.Nat.Defs
import Rounac.Config
import Rounac.Lib.Trim

/-!
# QoS settings as a configuration writes them

The serde side of `src/config.rs`: the module `opt_duration_serde`, and the derived
`Serialize` and `Deserialize` of `QosSettings`. What lies below, the text of a TOML document, is
the `toml` crate's, and a configuration enters as the table that crate makes of it.
-/

namespace Rounac

/-! ## The Rust standard library -/

/-- `char::is_whitespace`: the Unicode property `White_Space`. -/
def isWhitespace (c : Char) : Bool :=
  let n := c.toNat
  (9 ≤ n && n ≤ 13) || n == 0x20 || n == 0x85 || n == 0xA0 || n == 0x1680 ||
    (0x2000 ≤ n && n ≤ 0x200A) || n == 0x2028 || n == 0x2029 || n == 0x202F || n == 0x205F ||
    n == 0x3000

/-- `str::trim`. -/
def trim (s : List Char) : List Char := Trim.trimBy isWhitespace s

/-- The digits behind an optional sign. -/
def stripPlus : List Char → List Char
  | '+' :: digits => digits
  | digits => digits

/-- `u64::from_str`: an optional `+`, then decimal digits of a value that fits. -/
def u64FromStr (s : List Char) : Option ℕ :=
  let digits := stripPlus s
  if digits ≠ [] ∧ digits.all Char.isDigit ∧ Nat.ofDigitChars 10 digits 0 < 2 ^ 64 then
    some (Nat.ofDigitChars 10 digits 0)
  else
    none

/-- How a deserialization ends: with a value, with the text of an error, or with a panic. -/
inductive DeRes (α : Type)
  | ok (a : α)
  | err (msg : String)
  | panicked
deriving DecidableEq, Repr

namespace DeRes

/-- Go on with the value, if there is one. -/
def bind {α β : Type} (x : DeRes α) (f : α → DeRes β) : DeRes β :=
  match x with
  | .ok a => f a
  | .err msg => .err msg
  | .panicked => .panicked

instance : Monad DeRes where
  pure := .ok
  bind := .bind

@[simp] theorem ok_bind {α β : Type} (a : α) (f : α → DeRes β) : (DeRes.ok a >>= f) = f a := rfl

@[simp] theorem err_bind {α β : Type} (msg : String) (f : α → DeRes β) :
    (DeRes.err msg >>= f) = .err msg := rfl

@[simp] theorem panicked_bind {α β : Type} (f : α → DeRes β) :
    (DeRes.panicked >>= f) = .panicked := rfl

theorem bind_eq_ok {α β : Type} {x : DeRes α} {f : α → DeRes β} {b : β} :
    (x >>= f) = .ok b ↔ ∃ a, x = .ok a ∧ f a = .ok b := by
  cases x with
  | ok a => simp
  | err msg => simp
  | panicked => simp

end DeRes

namespace Duration

/-- A constructor of a unit of `secs` whole seconds: it panics when the seconds do not fit. -/
def ofUnit (secs v : ℕ) : DeRes Duration :=
  if (2 ^ 64 - 1) / secs < v then .panicked else .ok (v * secs * 10 ^ 9)

/-- `Duration::from_hours`. -/
def fromHours (v : ℕ) : DeRes Duration := ofUnit (60 * 60) v

/-- `Duration::from_mins`. -/
def fromMins (v : ℕ) : DeRes Duration := ofUnit 60 v

/-- `Duration::from_secs`. -/
def fromSecs (v : ℕ) : Duration := v * 10 ^ 9

/-- `Duration::from_millis`. -/
def fromMillis (v : ℕ) : Duration := v * 10 ^ 6

/-- `Duration::from_micros`. -/
def fromMicros (v : ℕ) : Duration := v * 10 ^ 3

/-- `Duration::from_nanos`. -/
def fromNanos (v : ℕ) : Duration := v

/-- `Duration::as_millis`: the whole milliseconds. -/
def asMillis (d : Duration) : ℕ := d / 10 ^ 6

end Duration

/-! ## The values of a configuration -/

/-- What an error calls a value of the wrong type. -/
def TomlValue.typeName : TomlValue → String
  | .string _ => "string"
  | .integer _ => "integer"
  | .float _ => "floating point"
  | .boolean _ => "boolean"
  | .datetime _ => "map"
  | .array _ => "sequence"
  | .table _ => "map"

/-- The error for a value of the wrong type, short of the value, which serde prints too. -/
def TomlValue.invalidType (v : TomlValue) (expected : String) : String :=
  "invalid type: " ++ v.typeName ++ ", expected " ++ expected

/-- The empty values of the `toml` crate. -/
def TomlValue.isEmpty : TomlValue → Bool
  | .table [] | .array [] => true
  | _ => false

/-- A unit variant of an enumeration: its name, or a table of its name only, with an empty value. -/
def unitVariant {α : Type} (ofName : String → DeRes α) : TomlValue → DeRes α
  | .string s => ofName s
  | .table [] => .err "wanted exactly 1 element, found 0 elements"
  | .table [(name, v)] => do
    let a ← ofName name
    if v.isEmpty then return a else .err "expected empty table"
  | .table _ => .err "wanted exactly 1 element, more than 1 element"
  | _ => .err "wanted string or table"

/-! ## Durations -/

namespace OptDurationSerde

/-- `duration_value_suffix`: no suffix means seconds. -/
def durationValueSuffix (v : ℕ) (suffix : Option String) : DeRes (Option Duration) :=
  match suffix with
  | some "h" => do return some (← Duration.fromHours v)
  | some "min" => do return some (← Duration.fromMins v)
  | some "s" => .ok (some (Duration.fromSecs v))
  | some "ms" => .ok (some (Duration.fromMillis v))
  | some "us" => .ok (some (Duration.fromMicros v))
  | some "ns" => .ok (some (Duration.fromNanos v))
  | some _ => .ok none
  | none => .ok (some (Duration.fromSecs v))

/-- `serialize`: the string written, or none for `serialize_none`. -/
def serialize : Option Duration → Option String
  | some d => some (toString d.asMillis ++ "ms")
  | none => none

/-- The characters that a suffix may start with. -/
def startsSuffix (c : Char) : Bool := ['h', 'm', 'n', 's', 'u'].contains c

/-- `deserialize`. -/
def deserialize (v : TomlValue) : DeRes (Option Duration) :=
  match v with
  | .string deString =>
    let durStr := trim deString.toList
    let (valStr, sufStr) := durStr.span (fun c => !startsSuffix c)
    let suf := trim sufStr
    match u64FromStr (trim valStr) with
    | none => .err "invalid integer"
    | some val =>
      if suf = [] then do
        -- The `unwrap` of the source, which calls this conversion infallible.
        match ← durationValueSuffix val none with
        | some d => return some d
        | none => .panicked
      else do
        match ← durationValueSuffix val (some (String.ofList suf)) with
        | some d => return some d
        | none => .err "invalid duration suffix"
  | v => .err (v.invalidType "positive integer with optional unit suffix")

end OptDurationSerde

/-! ## Settings -/

/-- The derived `Serialize` of `ReliabilityQos`. -/
def ReliabilityQos.serialize : ReliabilityQos → String
  | .reliable => "reliable"
  | .bestEffort => "best_effort"

/-- The derived `Deserialize` of `ReliabilityQos`. -/
def ReliabilityQos.deserialize : TomlValue → DeRes ReliabilityQos :=
  unitVariant fun
    | "reliable" => .ok .reliable
    | "best_effort" => .ok .bestEffort
    | s => .err ("unknown variant `" ++ s ++ "`, expected `reliable` or `best_effort`")

/-- `usize` read from an integer. -/
def deserializeUsize : TomlValue → DeRes ℕ
  | .integer i =>
    if i.toInt < 0 then
      .err ("invalid value: integer `" ++ toString i ++ "`, expected usize")
    else
      .ok i.toInt.toNat
  | v => .err (v.invalidType "usize")

/-- A value that takes its default when it is not there. -/
def valueOr {α : Type} (read : TomlValue → DeRes α) (dflt : α) : Option TomlValue → DeRes α
  | some v => read v
  | none => .ok dflt

def fieldOr {α : Type} (tbl : Table) (key : String) (read : TomlValue → DeRes α) (dflt : α) :
    DeRes α :=
  valueOr read dflt (tbl.lookup key)

def elementOr {α : Type} (xs : List TomlValue) (i : ℕ) (read : TomlValue → DeRes α) (dflt : α) :
    DeRes α :=
  valueOr read dflt xs[i]?

namespace QosSettings

/-- The derived `visit_map`: the entries of a table come in the order of their keys. -/
def deserialize (tbl : Table) : DeRes QosSettings := do
  let buffer ← fieldOr tbl "buffer" deserializeUsize QosSettings.default.buffer
  let expiration ←
    fieldOr tbl "expiration" OptDurationSerde.deserialize QosSettings.default.expiration
  let reliability ←
    fieldOr tbl "reliability" ReliabilityQos.deserialize QosSettings.default.reliability
  let timeBasedFilter ←
    fieldOr tbl "time_based_filter" OptDurationSerde.deserialize
      QosSettings.default.timeBasedFilter
  return { timeBasedFilter, reliability, expiration, buffer }

/-- The derived `visit_seq`: the fields in the order of their declaration. What the sequence has
behind them is not looked at. -/
def visitSeq (xs : List TomlValue) : DeRes QosSettings := do
  let timeBasedFilter ←
    elementOr xs 0 OptDurationSerde.deserialize QosSettings.default.timeBasedFilter
  let reliability ← elementOr xs 1 ReliabilityQos.deserialize QosSettings.default.reliability
  let expiration ← elementOr xs 2 OptDurationSerde.deserialize QosSettings.default.expiration
  let buffer ← elementOr xs 3 deserializeUsize QosSettings.default.buffer
  return { timeBasedFilter, reliability, expiration, buffer }

/-- Add an entry, unless its value is `None`, which a table cannot hold. -/
def putField (tbl : Table) (key : String) : Option TomlValue → Table
  | some v => tbl.insert key v
  | none => tbl

/-- The derived `Serialize`: a TOML integer has 64 bits and a sign. -/
def serialize (q : QosSettings) : Except String Table :=
  if q.buffer < 2 ^ 63 then
    let tbl := putField ∅ "time_based_filter"
      ((OptDurationSerde.serialize q.timeBasedFilter).map .string)
    let tbl := putField tbl "reliability" (some (.string q.reliability.serialize))
    let tbl := putField tbl "expiration" ((OptDurationSerde.serialize q.expiration).map .string)
    .ok (putField tbl "buffer" (some (.integer (Int64.ofNat q.buffer))))
  else
    .error "out-of-range value for u64 type"

end QosSettings

end Rounac

import Mathlib.Data.Option.NAry
import Rounac.Config.Params

/-!
# Network parameters

`open_args_for_net` of `src/networks/amqp.rs` and `get_mqtt_opts` of `src/networks/mqtt.rs` turn the
parameter table of a network into the options of the client library. They are to honour what is
configured or to reject it. They check the types of all parameters they use, and MQTT's credentials
for coming in a pair, but narrow the port with `as u16`: a port that does not fit is connected to
modulo `2 ^ 16` (`toNat_asU16`), unless something else is wrong with the table
(`network_params_honoured_iff`).
-/

namespace Rounac

open Validator ParamTool

/-! ## Ports -/

/-- The cast `i as u16` of an `i64`: its low 16 bits. -/
def asU16 (i : Int64) : UInt16 := i.toUInt64.toUInt16

def IsPort (i : Int64) : Prop := 0 ≤ i.toInt ∧ i.toInt ≤ 65535

instance : DecidablePred IsPort := fun _ => inferInstanceAs (Decidable (_ ∧ _))

theorem toNat_asU16 (i : Int64) : ((asU16 i).toNat : ℤ) = i.toInt % 65536 := by
  have hlow : (asU16 i).toNat = i.toBitVec.toNat % 2 ^ 16 := rfl
  have hint : i.toInt = i.toBitVec.toInt := rfl
  rw [hlow, hint, BitVec.toInt_eq_toNat_cond]
  split_ifs
  · omega
  · omega

/-- The cast keeps exactly the port numbers. -/
theorem toNat_asU16_eq_iff (i : Int64) : ((asU16 i).toNat : ℤ) = i.toInt ↔ IsPort i := by
  rw [toNat_asU16]
  unfold IsPort
  omega

/-- The port of a table is a port number, if it is an integer at all. -/
def Table.PortFits (params : Table) : Prop := ∀ i ∈ params.int "port", IsPort i

theorem Table.PortFits.toNat_asU16 {params : Table} (h : params.PortFits) {default : Int64}
    (hdefault : IsPort default) :
    ((asU16 ((params.int "port").getD default)).toNat : ℤ) =
      ((params.int "port").getD default).toInt := by
  rw [toNat_asU16_eq_iff]
  cases hport : params.int "port" with
  | none => exact hdefault
  | some i => exact h i hport

/-! ## AMQP -/

/-- What connecting to an AMQP broker needs. -/
structure AmqpSettings where
  host : String
  port : UInt16
  username : String
  password : String
deriving DecidableEq

/-- The constructor of `amqprs::OpenConnectionArguments`, and the settings it is to store. -/
structure OpenConnectionArguments (Args : Type) where
  new : String → UInt16 → String → String → Args
  settings : Args → AmqpSettings

/-- The constructor stores what it is given. -/
def OpenConnectionArguments.Stores {Args : Type} (amqprs : OpenConnectionArguments Args) : Prop :=
  ∀ host port user pass, amqprs.settings (amqprs.new host port user pass) = ⟨host, port, user, pass⟩

/-- `open_args_for_net`. -/
def openArgsForNet {Args : Type} (amqprs : OpenConnectionArguments Args) (network : NetworkConfig) :
    Except CalError Args := do
  -- Verify this network is the correct type.
  refuse (network.kind ≠ .amqp) (.configErr "Expected network kind \"amqp\".")
  let params := network.params
  let host := (← getStr params "host").getD "localhost"
  let port := (← getInt params "port").getD 5672
  let user := (← getStr params "username").getD "guest"
  let pass := (← getStr params "password").getD "guest"
  return amqprs.new host (asU16 port) user pass

/-- The parameters that an AMQP connection uses, in the order of their checks. -/
def amqpParams : List (String × ParamType) :=
  [("host", .string), ("port", .integer), ("username", .string), ("password", .string)]

/-- The settings are the configured ones, and the defaults for what is absent. -/
structure AmqpSettings.Configured (params : Table) (s : AmqpSettings) : Prop where
  host : s.host = (params.str "host").getD "localhost"
  port : (s.port.toNat : ℤ) = ((params.int "port").getD 5672).toInt
  username : s.username = (params.str "username").getD "guest"
  password : s.password = (params.str "password").getD "guest"

/-! ## MQTT -/

/-- What connecting to an MQTT broker needs. -/
structure MqttSettings where
  clientId : String
  host : String
  port : UInt16
  credentials : Option (String × String)
deriving DecidableEq

/-- The functions of `rumqttc::MqttOptions` that are used, and the settings they are to store. -/
structure MqttOptions (Opts : Type) where
  new : String → String → UInt16 → Opts
  setCredentials : Opts → String → String → Opts
  settings : Opts → MqttSettings

/-- The options store what they are given. -/
structure MqttOptions.Stores {Opts : Type} (rumqttc : MqttOptions Opts) : Prop where
  new : ∀ clientId host port,
    rumqttc.settings (rumqttc.new clientId host port) = ⟨clientId, host, port, none⟩
  setCredentials : ∀ opts user pass, rumqttc.settings (rumqttc.setCredentials opts user pass) =
    { rumqttc.settings opts with credentials := some (user, pass) }

/-- One of the credentials is there, and the other is not. -/
def OnlyOne (user pass : Option String) : Prop :=
  user.isSome ∧ pass.isNone ∨ pass.isSome ∧ user.isNone

instance (user pass : Option String) : Decidable (OnlyOne user pass) :=
  inferInstanceAs (Decidable (_ ∨ _))

/-- The credentials are set if both are there. -/
def MqttOptions.withCredentials {Opts : Type} (rumqttc : MqttOptions Opts) (opts : Opts) :
    Option String → Option String → Opts
  | some user, some pass => rumqttc.setCredentials opts user pass
  | _, _ => opts

/-- `get_mqtt_opts`. -/
def getMqttOpts {Opts : Type} (rumqttc : MqttOptions Opts) (network : NetworkConfig) :
    Except CalError Opts := do
  -- Verify this network is the correct type.
  refuse (network.kind ≠ .mqtt) (.configErr "Expected network kind \"mqtt\".")
  let params := network.params
  let host := (← getStr params "host").getD "localhost"
  let port := (← getInt params "port").getD 1883
  let clientId := (← getStr params "client_id").getD ""
  let user ← getStr params "username"
  let pass ← getStr params "password"
  -- Both username and password must be present if either is.
  refuse (OnlyOne user pass) (.configErr "Expected \"username\" and \"password\", or neither.")
  return rumqttc.withCredentials (rumqttc.new clientId host (asU16 port)) user pass

/-- The parameters that an MQTT connection uses, in the order of their checks. -/
def mqttParams : List (String × ParamType) :=
  [("host", .string), ("port", .integer), ("client_id", .string), ("username", .string),
    ("password", .string)]

/-- The table has one of the username and the password, and not the other. -/
def Table.HalfCredentials (params : Table) : Prop :=
  (params.lookup "username").isSome ≠ (params.lookup "password").isSome

instance : DecidablePred Table.HalfCredentials := fun _ => inferInstanceAs (Decidable (_ ≠ _))

/-- The settings are the configured ones, and the defaults for what is absent. -/
structure MqttSettings.Configured (params : Table) (s : MqttSettings) : Prop where
  clientId : s.clientId = (params.str "client_id").getD ""
  host : s.host = (params.str "host").getD "localhost"
  port : (s.port.toNat : ℤ) = ((params.int "port").getD 1883).toInt
  credentials : s.credentials = Option.map₂ Prod.mk (params.str "username") (params.str "password")

/-! ## The checks they make -/

theorem openArgsForNet_checked {Args : Type} (amqprs : OpenConnectionArguments Args)
    (network : NetworkConfig) :
    Checked (openArgsForNet amqprs network)
      (fault (network.kind ≠ .amqp) (.configErr "Expected network kind \"amqp\".") ::
        amqpParams.map network.params.fault)
      (amqprs.new ((network.params.str "host").getD "localhost")
        (asU16 ((network.params.int "port").getD 5672))
        ((network.params.str "username").getD "guest")
        ((network.params.str "password").getD "guest")) := by
  apply (checked_refuse _ _).bind
  apply (getStr_checked _ "host").bind
  apply (getInt_checked _ "port").bind
  apply (getStr_checked _ "username").bind
  apply (getStr_checked _ "password").bind
  exact checked_ok _

theorem getMqttOpts_checked {Opts : Type} (rumqttc : MqttOptions Opts) (network : NetworkConfig) :
    Checked (getMqttOpts rumqttc network)
      (fault (network.kind ≠ .mqtt) (.configErr "Expected network kind \"mqtt\".") ::
        (mqttParams.map network.params.fault ++
          [fault (OnlyOne (network.params.str "username") (network.params.str "password"))
            (.configErr "Expected \"username\" and \"password\", or neither.")]))
      (rumqttc.withCredentials
        (rumqttc.new ((network.params.str "client_id").getD "")
          ((network.params.str "host").getD "localhost")
          (asU16 ((network.params.int "port").getD 1883)))
        (network.params.str "username") (network.params.str "password")) := by
  apply (checked_refuse _ _).bind
  apply (getStr_checked _ "host").bind
  apply (getInt_checked _ "port").bind
  apply (getStr_checked _ "client_id").bind
  apply (getStr_checked _ "username").bind
  apply (getStr_checked _ "password").bind
  apply (checked_refuse _ _).bind
  exact checked_ok _

theorem onlyOne_iff {user pass : Option String} :
    OnlyOne user pass ↔ user.isSome ≠ pass.isSome := by
  cases user <;> cases pass <;> simp [OnlyOne]

/-- An AMQP network is rejected for its kind, or for the type of a parameter. -/
theorem openArgsForNet_error_iff {Args : Type} (amqprs : OpenConnectionArguments Args)
    (network : NetworkConfig) :
    (∃ e, openArgsForNet amqprs network = .error e) ↔
      network.kind ≠ .amqp ∨ ∃ p ∈ amqpParams, network.params.Mistyped p := by
  rw [(openArgsForNet_checked amqprs network).exists_error_iff, faulty_fault_cons, Table.faulty_iff]

/-- An MQTT network is rejected for its kind, for the type of a parameter, or for having one of the
credentials only. -/
theorem getMqttOpts_error_iff {Opts : Type} (rumqttc : MqttOptions Opts) (network : NetworkConfig) :
    (∃ e, getMqttOpts rumqttc network = .error e) ↔
      network.kind ≠ .mqtt ∨ (∃ p ∈ mqttParams, network.params.Mistyped p) ∨
        network.params.HalfCredentials := by
  rw [(getMqttOpts_checked rumqttc network).exists_error_iff]
  simp only [faulty_fault_cons, faulty_append, faulty_nil, Table.faulty_iff, or_false, onlyOne_iff]
  apply or_congr_right
  apply or_congr_right'
  intro htyped
  have husername : ¬ network.params.Mistyped ("username", .string) :=
    fun h => htyped ⟨_, by simp [mqttParams], h⟩
  have hpassword : ¬ network.params.Mistyped ("password", .string) :=
    fun h => htyped ⟨_, by simp [mqttParams], h⟩
  rw [Table.isSome_str husername, Table.isSome_str hpassword, Table.HalfCredentials]

/-- An error about an AMQP network's parameters is about one of them. -/
theorem openArgsForNet_error {Args : Type} {amqprs : OpenConnectionArguments Args} {params : Table}
    {e : CalError} (h : openArgsForNet amqprs ⟨.amqp, params⟩ = .error e) :
    ∃ p ∈ amqpParams, params.Mistyped p ∧ e = expectedParam p.2 p.1 := by
  have hmem := (openArgsForNet_checked amqprs ⟨.amqp, params⟩).mem_of_eq_error h
  rcases mem_fault_cons.1 hmem with ⟨hkind, -⟩ | hmem
  · exact absurd rfl hkind
  · exact Table.exists_mistyped_of_fault hmem

/-- An error about an MQTT network's parameters is about one of them, or about the credentials. -/
theorem getMqttOpts_error {Opts : Type} {rumqttc : MqttOptions Opts} {params : Table}
    {e : CalError} (h : getMqttOpts rumqttc ⟨.mqtt, params⟩ = .error e) :
    (∃ p ∈ mqttParams, params.Mistyped p ∧ e = expectedParam p.2 p.1) ∨
      e = .configErr "Expected \"username\" and \"password\", or neither." := by
  have hmem := (getMqttOpts_checked rumqttc ⟨.mqtt, params⟩).mem_of_eq_error h
  rcases mem_fault_cons.1 hmem with ⟨hkind, -⟩ | hmem
  · exact absurd rfl hkind
  · apply (List.mem_append.1 hmem).imp Table.exists_mistyped_of_fault
    intro hpair
    exact (fault_eq_some.1 (List.mem_singleton.1 hpair).symm).2.symm

/-! ## The settings they return -/

section Settings

variable {Args Opts : Type} {amqprs : OpenConnectionArguments Args} {rumqttc : MqttOptions Opts}
  {network : NetworkConfig}

theorem settings_openArgsForNet (hstores : amqprs.Stores) {args : Args}
    (h : openArgsForNet amqprs network = .ok args) :
    amqprs.settings args =
      { host := (network.params.str "host").getD "localhost"
        port := asU16 ((network.params.int "port").getD 5672)
        username := (network.params.str "username").getD "guest"
        password := (network.params.str "password").getD "guest" } := by
  obtain ⟨-, rfl⟩ := ((openArgsForNet_checked amqprs network).eq_ok_iff args).1 h
  exact hstores _ _ _ _

theorem MqttOptions.Stores.withCredentials (hstores : rumqttc.Stores) (opts : Opts)
    (hnew : (rumqttc.settings opts).credentials = none) (user pass : Option String) :
    rumqttc.settings (rumqttc.withCredentials opts user pass) =
      { rumqttc.settings opts with credentials := Option.map₂ Prod.mk user pass } := by
  cases user with
  | none =>
    rw [Option.map₂_none_left, ← hnew]
    rfl
  | some user =>
    cases pass with
    | none =>
      rw [Option.map₂_none_right, ← hnew]
      rfl
    | some pass => exact hstores.setCredentials opts user pass

theorem settings_getMqttOpts (hstores : rumqttc.Stores) {opts : Opts}
    (h : getMqttOpts rumqttc network = .ok opts) :
    rumqttc.settings opts =
      { clientId := (network.params.str "client_id").getD ""
        host := (network.params.str "host").getD "localhost"
        port := asU16 ((network.params.int "port").getD 1883)
        credentials :=
          Option.map₂ Prod.mk (network.params.str "username")
            (network.params.str "password") } := by
  obtain ⟨-, rfl⟩ := ((getMqttOpts_checked rumqttc network).eq_ok_iff opts).1 h
  have hnew := hstores.new ((network.params.str "client_id").getD "")
    ((network.params.str "host").getD "localhost") (asU16 ((network.params.int "port").getD 1883))
  rw [hstores.withCredentials _ (by rw [hnew]), hnew]

/-- The port connected to is the configured one modulo `2 ^ 16`. -/
theorem port_openArgsForNet (hstores : amqprs.Stores) {args : Args}
    (h : openArgsForNet amqprs network = .ok args) :
    ((amqprs.settings args).port.toNat : ℤ) =
      ((network.params.int "port").getD 5672).toInt % 65536 := by
  rw [settings_openArgsForNet hstores h, toNat_asU16]

theorem port_getMqttOpts (hstores : rumqttc.Stores) {opts : Opts}
    (h : getMqttOpts rumqttc network = .ok opts) :
    ((rumqttc.settings opts).port.toNat : ℤ) =
      ((network.params.int "port").getD 1883).toInt % 65536 := by
  rw [settings_getMqttOpts hstores h, toNat_asU16]

end Settings

/-! ## Parameters are honoured or rejected -/

/-- `open_args_for_net` returns what a parameter table configures, and rejects the invalid ones. -/
def OpenArgsHonoured {Args : Type} (amqprs : OpenConnectionArguments Args)
    (params : Table) : Prop :=
  Meets (openArgsForNet amqprs ⟨.amqp, params⟩)
    (fun args => (amqprs.settings args).Configured params)
    ((∃ p ∈ amqpParams, params.Mistyped p) ∨ ¬ params.PortFits)

/-- `get_mqtt_opts` returns what a parameter table configures, and rejects the invalid ones. -/
def MqttOptsHonoured {Opts : Type} (rumqttc : MqttOptions Opts) (params : Table) : Prop :=
  Meets (getMqttOpts rumqttc ⟨.mqtt, params⟩)
    (fun opts => (rumqttc.settings opts).Configured params)
    ((∃ p ∈ mqttParams, params.Mistyped p) ∨ ¬ params.PortFits ∨ params.HalfCredentials)

theorem isPort_5672 : IsPort 5672 := by decide

theorem isPort_1883 : IsPort 1883 := by decide

theorem openArgsHonoured_iff {Args : Type} {amqprs : OpenConnectionArguments Args}
    (hstores : amqprs.Stores) (params : Table) :
    OpenArgsHonoured amqprs params ↔ params.PortFits ∨ ∃ p ∈ amqpParams, params.Mistyped p := by
  apply meets_iff
  · simpa using openArgsForNet_error_iff amqprs ⟨.amqp, params⟩
  · intro args hargs hport
    rw [settings_openArgsForNet hstores hargs]
    exact ⟨rfl, hport.toNat_asU16 isPort_5672, rfl, rfl⟩
  · exact Iff.rfl

theorem mqttOptsHonoured_iff {Opts : Type} {rumqttc : MqttOptions Opts} (hstores : rumqttc.Stores)
    (params : Table) :
    MqttOptsHonoured rumqttc params ↔
      params.PortFits ∨ (∃ p ∈ mqttParams, params.Mistyped p) ∨ params.HalfCredentials := by
  apply meets_iff
  · simpa using getMqttOpts_error_iff rumqttc ⟨.mqtt, params⟩
  · intro opts hopts hport
    rw [settings_getMqttOpts hstores hopts]
    exact ⟨rfl, rfl, hport.toNat_asU16 isPort_1883, rfl⟩
  · rw [or_assoc, or_comm (a := params.HalfCredentials)]

/-- **Network parameters are honoured or rejected** exactly when the port is a port number or
something else is wrong with the table. -/
theorem network_params_honoured_iff {Args Opts : Type} {amqprs : OpenConnectionArguments Args}
    {rumqttc : MqttOptions Opts} (hamqprs : amqprs.Stores) (hrumqttc : rumqttc.Stores)
    (params : Table) :
    (OpenArgsHonoured amqprs params ↔ params.PortFits ∨ ∃ p ∈ amqpParams, params.Mistyped p) ∧
    (MqttOptsHonoured rumqttc params ↔
      params.PortFits ∨ (∃ p ∈ mqttParams, params.Mistyped p) ∨ params.HalfCredentials) :=
  ⟨openArgsHonoured_iff hamqprs params, mqttOptsHonoured_iff hrumqttc params⟩

/-- Connection arguments that are their settings. -/
def OpenConnectionArguments.plain : OpenConnectionArguments AmqpSettings := ⟨AmqpSettings.mk, id⟩

/-- MQTT options that are their settings. -/
def MqttOptions.plain : MqttOptions MqttSettings where
  new clientId host port := ⟨clientId, host, port, none⟩
  setCredentials opts user pass := { opts with credentials := some (user, pass) }
  settings := id

theorem OpenConnectionArguments.plain_stores : plain.Stores := fun _ _ _ _ => rfl

theorem MqttOptions.plain_stores : plain.Stores := ⟨fun _ _ _ => rfl, fun _ _ _ => rfl⟩

def Table.ofPort (port : Int64) : Table := AList.singleton "port" (.integer port)

/-- A port above the defaults, and no credentials: both networks get what is configured. -/
theorem network_params_honoured_8883 :
    (Table.ofPort 8883).PortFits ∧
      OpenArgsHonoured .plain (Table.ofPort 8883) ∧
        MqttOptsHonoured .plain (Table.ofPort 8883) := by
  have hfits : (Table.ofPort 8883).PortFits := by
    intro i hi
    cases hi
    decide
  have h := network_params_honoured_iff OpenConnectionArguments.plain_stores
    MqttOptions.plain_stores (Table.ofPort 8883)
  exact ⟨hfits, h.1.2 (.inl hfits), h.2.2 (.inl hfits)⟩

/-- `port = 70000` is accepted by both, and connects to port 4464. -/
theorem port_70000_not_honoured :
    OpenConnectionArguments.plain.Stores ∧ MqttOptions.plain.Stores ∧
      openArgsForNet .plain ⟨.amqp, Table.ofPort 70000⟩ =
        .ok { host := "localhost", port := 4464, username := "guest", password := "guest" } ∧
      getMqttOpts .plain ⟨.mqtt, Table.ofPort 70000⟩ =
        .ok { clientId := "", host := "localhost", port := 4464, credentials := none } ∧
      ¬ OpenArgsHonoured .plain (Table.ofPort 70000) ∧
      ¬ MqttOptsHonoured .plain (Table.ofPort 70000) := by
  have hamqp : openArgsForNet .plain ⟨.amqp, Table.ofPort 70000⟩ =
      .ok { host := "localhost", port := 4464, username := "guest", password := "guest" } := by
    rfl
  have hmqtt : getMqttOpts .plain ⟨.mqtt, Table.ofPort 70000⟩ =
      .ok { clientId := "", host := "localhost", port := 4464, credentials := none } := by
    rfl
  refine ⟨OpenConnectionArguments.plain_stores, MqttOptions.plain_stores, hamqp, hmqtt,
    fun h => ?_, fun h => ?_⟩
  · exact absurd (h.exact _ hamqp).port (by decide)
  · exact absurd (h.exact _ hmqtt).port (by decide)

end Rounac

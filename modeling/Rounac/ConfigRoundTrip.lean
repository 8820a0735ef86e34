import Rounac.Config.AsbSerialize
import Rounac.QosRoundTrip

/-!
# Writing a configuration and reading it back

A configuration that was read is written and read back with every duration of its QoS settings cut
down to whole milliseconds, and nothing else changed; or not at all, when one of them has more
milliseconds than a `u64` counts (`config_read_back`). So it survives exactly when its durations
do, and what was read back once survives from then on.
-/

namespace Rounac

open KeyedMap QosSettings

/-! ## Tables and maps -/

theorem asTable_toValue (expected : String) (tbl : Table) :
    asTable expected tbl.toValue = .ok tbl := by
  have hmap : (tbl.entries.map fun e => (e.1, e.2)).foldr
      (fun e (m : Table) => m.insert e.1 e.2) ∅ = tbl := by
    rw [List.foldr_map]
    exact foldr_insert tbl.nodupKeys
  exact congrArg DeRes.ok hmap

theorem deserializeEntries_mapEntries {β : Type} {read : TomlValue → DeRes β}
    {write : β → TomlValue}
    {m : StrMap β} (h : ∀ e ∈ m.entries, read (write e.2) = .ok e.2) :
    deserializeEntries read (mapEntries write m.entries) = .ok m := by
  obtain ⟨l, hl⟩ := m
  induction l with
  | nil => rfl
  | cons e l ih =>
    have hrest := ih (List.nodupKeys_of_nodupKeys_cons hl)
      fun e' he' => h e' (List.mem_cons_of_mem _ he')
    have hcons : deserializeEntries read (mapEntries write (e :: l)) =
        (do
          let b ← read (write e.2)
          let rest ← deserializeEntries read (mapEntries write l)
          return rest.insert e.1 b) := rfl
    rw [hcons, h e List.mem_cons_self, DeRes.ok_bind, hrest, DeRes.ok_bind,
      AList.mk_cons_eq_insert]
    rfl

theorem deserializeMap_serializeMap {β : Type} {read : TomlValue → DeRes β} {write : β → TomlValue}
    {m : StrMap β} (h : ∀ e ∈ m.entries, read (write e.2) = .ok e.2) :
    deserializeMap read (serializeMap write m) = .ok m := by
  rw [deserializeMap, serializeMap, asTable_toValue, DeRes.ok_bind]
  exact deserializeEntries_mapEntries h

theorem fieldOpt_of_lookup {α : Type} {tbl : Table} {key : String} {read : TomlValue → DeRes α}
    {write : α → TomlValue} {o : Option α} (hkey : tbl.lookup key = o.map write)
    (h : ∀ a ∈ o, read (write a) = .ok a) : fieldOpt tbl key read = .ok o := by
  unfold fieldOpt fieldOr
  rw [hkey]
  cases o with
  | none => rfl
  | some a =>
    simp only [Option.map_some, valueOr]
    rw [h a rfl]
    rfl

theorem keys_of_deserializeEntries {β : Type} {read : TomlValue → DeRes β}
    {es : List (Sigma fun _ : String => TomlValue)} {m : StrMap β}
    (h : deserializeEntries read es = .ok m) {key : String} (hkey : key ∈ m) : key ∈ es.keys := by
  induction es generalizing m with
  | nil =>
    cases h
    exact absurd hkey (AList.notMem_empty key)
  | cons e es ih =>
    obtain ⟨b, -, h⟩ := DeRes.bind_eq_ok.1 h
    obtain ⟨rest, hrest, h⟩ := DeRes.bind_eq_ok.1 h
    cases h
    rcases (AList.mem_insert _).1 hkey with rfl | hkey
    · exact List.mem_cons_self
    · exact List.mem_cons_of_mem _ (ih hrest hkey)

/-! ## Names -/

theorem WireFormat.read_back (w : WireFormat) :
    unitVariant WireFormat.ofName w.serialize = .ok w ∧
      contentVariant WireFormat.ofName w.serialize = .ok w := by
  cases w
  exact ⟨rfl, rfl⟩

theorem NetworkKind.read_back (k : NetworkKind) :
    unitVariant NetworkKind.ofName k.serialize = .ok k := by
  cases k <;> rfl

/-! ## Topics, services and networks -/

theorem contentStruct_toValue {α : Type} (expected : String) (fields : ℕ)
    (visitSeq : List TomlValue → DeRes α) (visitMap : Table → DeRes α) (tbl : Table) :
    contentStruct expected fields visitSeq visitMap tbl.toValue = visitMap tbl := by
  show asTable expected tbl.toValue >>= visitMap = _
  rw [asTable_toValue, DeRes.ok_bind]

theorem TopicConfig.read_back (t : TopicConfig) : deserialize t.serialize = .ok t := by
  have hbus : t.serialize.lookup "bus_topic" = t.busTopic.map .string := by
    rw [serialize, lookup_putField_ne _ (by decide),
      lookup_putField_of_notMem _ (AList.lookup_empty _)]
  have hqos : t.serialize.lookup "qos" = t.qos.map .string := by
    rw [serialize, lookup_putField_of_notMem]
    rw [lookup_putField_ne _ (by decide), AList.lookup_empty]
  rw [deserialize, fieldOpt_of_lookup hbus fun _ _ => rfl, DeRes.ok_bind,
    fieldOpt_of_lookup hqos fun _ _ => rfl, DeRes.ok_bind]
  rfl

section

variable {hyphenated : Uuid → String} {uuid : TomlValue → Except String Uuid}

/-- What the `uuid` crate writes it reads. -/
def ParsesBack (hyphenated : Uuid → String) (uuid : TomlValue → Except String Uuid) : Prop :=
  ∀ id, uuid (.string (hyphenated id)) = .ok id

theorem deserializeUuid_hyphenated (h : ParsesBack hyphenated uuid) (id : Uuid) :
    deserializeUuid uuid (.string (hyphenated id)) = .ok id := by
  simp only [deserializeUuid, h id]

variable (hyphenated) in
theorem ServiceConfig.lookup_serialize (s : ServiceConfig) :
    (s.serialize hyphenated).lookup "network" = s.network.map .string ∧
    (s.serialize hyphenated).lookup "qos" = s.qos.map .string ∧
    (s.serialize hyphenated).lookup "service_uuid" =
      s.serviceUuid.map (fun id => .string (hyphenated id)) ∧
    (s.serialize hyphenated).lookup "topics" =
      some (serializeMap (fun t => t.serialize.toValue) s.topics) ∧
    (s.serialize hyphenated).lookup "wire_format" = s.wireFormat.map WireFormat.serialize := by
  unfold serialize
  refine ⟨?_, ?_, ?_, lookup_putField_self .., ?_⟩
  · rw [lookup_putField_ne _ (by decide), lookup_putField_ne _ (by decide),
      lookup_putField_ne _ (by decide), lookup_putField_of_notMem]
    rw [lookup_putField_ne _ (by decide), AList.lookup_empty]
  · rw [lookup_putField_ne _ (by decide), lookup_putField_of_notMem]
    rw [lookup_putField_ne _ (by decide), lookup_putField_ne _ (by decide),
      lookup_putField_ne _ (by decide), AList.lookup_empty]
  · rw [lookup_putField_ne _ (by decide), lookup_putField_ne _ (by decide),
      lookup_putField_ne _ (by decide), lookup_putField_ne _ (by decide),
      lookup_putField_of_notMem _ (AList.lookup_empty _)]
  · rw [lookup_putField_ne _ (by decide), lookup_putField_ne _ (by decide),
      lookup_putField_of_notMem]
    rw [lookup_putField_ne _ (by decide), lookup_putField_ne _ (by decide), AList.lookup_empty]

theorem ServiceConfig.read_back (h : ParsesBack hyphenated uuid) (s : ServiceConfig) :
    deserialize uuid (s.serialize hyphenated) = .ok s := by
  obtain ⟨hnetwork, hqos, huuid, htopics, hformat⟩ := s.lookup_serialize hyphenated
  have hmap : fieldOr (s.serialize hyphenated) "topics"
      (deserializeMap TopicConfig.ofContent) ∅ = .ok s.topics := by
    rw [fieldOr, htopics]
    refine deserializeMap_serializeMap fun e _ => ?_
    rw [TopicConfig.ofContent, contentStruct_toValue, TopicConfig.read_back]
  have hcontent : ∀ id, contentUuid uuid (.string (hyphenated id)) = .ok id :=
    deserializeUuid_hyphenated h
  rw [deserialize, fieldOpt_of_lookup hnetwork fun _ _ => rfl, DeRes.ok_bind,
    fieldOpt_of_lookup hqos fun _ _ => rfl, DeRes.ok_bind,
    fieldOpt_of_lookup huuid fun id _ => hcontent id, DeRes.ok_bind, hmap, DeRes.ok_bind,
    fieldOpt_of_lookup hformat fun w _ => w.read_back.2, DeRes.ok_bind]
  rfl

theorem mem_putField {tbl : Table} {key key' : String} {v : Option TomlValue}
    (h : key' ∈ putField tbl key v) : key' = key ∨ key' ∈ tbl := by
  cases v with
  | none => exact .inr h
  | some v => exact (AList.mem_insert _).1 h

theorem ServicesConfig.read_back (h : ParsesBack hyphenated uuid) {s : ServicesConfig}
    (hkeys : ∀ key ∈ s.service, key ∉ keys) :
    deserialize uuid (s.serialize hyphenated) = .ok s := by
  let write : ServiceConfig → TomlValue := fun cfg => (cfg.serialize hyphenated).toValue
  let tbl := putField (putField (putField ∅ "default_network" (s.defaultNetwork.map .string))
    "default_wire_format" (s.defaultWireFormat.map WireFormat.serialize))
    "default_qos" (s.defaultQos.map .string)
  have htbl : s.serialize hyphenated = mapVals write s.service ∪ tbl := rfl
  have hreserved : ∀ key ∈ tbl, key ∈ keys := by
    intro key hkey
    rcases mem_putField hkey with rfl | hkey
    · decide
    · rcases mem_putField hkey with rfl | hkey
      · decide
      · rcases mem_putField hkey with rfl | hkey
        · decide
        · exact absurd hkey (AList.notMem_empty key)
  have hdisjoint : ∀ key ∈ mapVals write s.service, key ∉ tbl := fun key hkey hmem =>
    hkeys key (mem_mapVals.1 hkey) (hreserved key hmem)
  have hfield : ∀ key ∈ keys, (s.serialize hyphenated).lookup key = tbl.lookup key := by
    intro key hkey
    rw [htbl]
    exact AList.lookup_union_right fun hmem => hkeys key (mem_mapVals.1 hmem) hkey
  have hnetwork : (s.serialize hyphenated).lookup "default_network" =
      s.defaultNetwork.map .string := by
    rw [hfield _ (by decide), lookup_putField_ne _ (by decide), lookup_putField_ne _ (by decide),
      lookup_putField_of_notMem _ (AList.lookup_empty _)]
  have hformat : (s.serialize hyphenated).lookup "default_wire_format" =
      s.defaultWireFormat.map WireFormat.serialize := by
    rw [hfield _ (by decide), lookup_putField_ne _ (by decide), lookup_putField_of_notMem]
    rw [lookup_putField_ne _ (by decide), AList.lookup_empty]
  have hqos : (s.serialize hyphenated).lookup "default_qos" = s.defaultQos.map .string := by
    rw [hfield _ (by decide), lookup_putField_of_notMem]
    rw [lookup_putField_ne _ (by decide), lookup_putField_ne _ (by decide), AList.lookup_empty]
  -- What is no field is a service.
  have hservices : (s.serialize hyphenated).entries.filter (fun e => !keys.contains e.1) =
      mapEntries write s.service.entries := by
    rw [htbl, entries_union hdisjoint, List.filter_append, entries_mapVals]
    have hall : (mapEntries write s.service.entries).filter (fun e => !keys.contains e.1) =
        mapEntries write s.service.entries := by
      refine List.filter_eq_self.2 fun e he => ?_
      have hmem : e.1 ∈ s.service := by
        rw [AList.mem_keys, AList.keys, ← keys_mapEntries write]
        exact List.mem_keys_of_mem he
      simpa using hkeys e.1 hmem
    have hnone : tbl.entries.filter (fun e => !keys.contains e.1) = [] := by
      refine List.filter_eq_nil_iff.2 fun e he => ?_
      simpa using hreserved e.1 (List.mem_keys_of_mem he)
    rw [hall, hnone, List.append_nil]
  have hread : deserializeEntries (ServiceConfig.ofContent uuid)
      (mapEntries write s.service.entries) = .ok s.service := by
    refine deserializeEntries_mapEntries fun e _ => ?_
    rw [ServiceConfig.ofContent, contentStruct_toValue, ServiceConfig.read_back h]
  rw [deserialize, fieldOpt_of_lookup hnetwork fun _ _ => rfl, DeRes.ok_bind,
    fieldOpt_of_lookup hqos fun _ _ => rfl, DeRes.ok_bind,
    fieldOpt_of_lookup hformat fun w _ => w.read_back.1, DeRes.ok_bind, hservices, hread,
    DeRes.ok_bind]
  rfl

end

theorem NetworkConfig.read_back {n : NetworkConfig} (hkind : "kind" ∉ n.params) :
    deserialize n.serialize = .ok n := by
  have hlookup : n.serialize.lookup "kind" = (some n.kind).map NetworkKind.serialize := by
    rw [serialize, AList.lookup_union_right hkind, AList.lookup_insert]
    rfl
  rw [deserialize, fieldOpt_of_lookup hlookup fun k _ => k.read_back, DeRes.ok_bind, require,
    DeRes.ok_bind, serialize, erase_union_insert _ hkind]
  rfl

/-! ## Settings -/

/-- A duration without what is below a millisecond. -/
def Duration.inMillis (d : Duration) : Duration := Duration.fromMillis d.asMillis

theorem Duration.asMillis_inMillis (d : Duration) : d.inMillis.asMillis = d.asMillis :=
  Nat.mul_div_cancel _ (by decide)

theorem Duration.map_inMillis (o : Option Duration) :
    (o.map Duration.inMillis).map Duration.inMillis = o.map Duration.inMillis := by
  cases o with
  | none => rfl
  | some d =>
    rw [Option.map_some, Option.map_some, inMillis, asMillis_inMillis, ← inMillis]

namespace QosSettings

/-- The settings with their durations in whole milliseconds. -/
def inMillis (q : QosSettings) : QosSettings :=
  { q with
    timeBasedFilter := q.timeBasedFilter.map Duration.inMillis
    expiration := q.expiration.map Duration.inMillis }

/-- A `u64` counts the milliseconds of the durations. -/
def MillisFit (q : QosSettings) : Prop :=
  (∀ d ∈ q.timeBasedFilter, d.asMillis < 2 ^ 64) ∧ ∀ d ∈ q.expiration, d.asMillis < 2 ^ 64

/-- The durations are read back as they are. -/
def WholeMillis (q : QosSettings) : Prop :=
  (∀ d ∈ q.timeBasedFilter, d.WholeMillis) ∧ ∀ d ∈ q.expiration, d.WholeMillis

theorem fieldOr_duration {tbl : Table} {key : String} {o : Option Duration}
    (hkey : tbl.lookup key = (OptDurationSerde.serialize o).map .string) :
    ((∀ d ∈ o, d.asMillis < 2 ^ 64) → fieldOr tbl key OptDurationSerde.deserialize none =
      .ok (o.map Duration.inMillis)) ∧
    ((¬ ∀ d ∈ o, d.asMillis < 2 ^ 64) → fieldOr tbl key OptDurationSerde.deserialize none =
      .err "invalid integer") := by
  unfold fieldOr valueOr
  rw [hkey]
  cases o with
  | none => simp [OptDurationSerde.serialize]
  | some d =>
    simp only [OptDurationSerde.serialize, Option.map_some, Option.mem_some_iff, forall_eq',
      OptDurationSerde.deserialize_millis]
    exact ⟨fun hfit => by rw [if_pos hfit]; rfl, fun hlong => if_neg hlong⟩

/-- **Settings that were written are read back in whole milliseconds**, or not at all. -/
theorem read_back {q : QosSettings} (hbuffer : q.buffer < 2 ^ 63) :
    ∃ tbl, q.serialize = .ok tbl ∧ (q.MillisFit → deserialize tbl = .ok q.inMillis) ∧
      (¬ q.MillisFit → deserialize tbl = .err "invalid integer") := by
  obtain ⟨tbl, htbl, hbuf, hexp, hrel, hfilter⟩ := exists_serialize hbuffer
  have hbuf' : fieldOr tbl "buffer" deserializeUsize QosSettings.default.buffer = .ok q.buffer := by
    rw [fieldOr, hbuf]
    exact deserializeUsize_ofNat hbuffer
  have hrel' : fieldOr tbl "reliability" ReliabilityQos.deserialize
      QosSettings.default.reliability = .ok q.reliability := by
    rw [fieldOr, hrel]
    exact q.reliability.deserialize_serialize
  obtain ⟨hexpFit, hexpLong⟩ := fieldOr_duration hexp
  obtain ⟨hfilterFit, hfilterLong⟩ := fieldOr_duration hfilter
  refine ⟨tbl, htbl, fun hfit => ?_, fun hlong => ?_⟩
  · have h1 : fieldOr tbl "expiration" OptDurationSerde.deserialize
        QosSettings.default.expiration = .ok (q.expiration.map Duration.inMillis) := hexpFit hfit.2
    have h2 : fieldOr tbl "time_based_filter" OptDurationSerde.deserialize
        QosSettings.default.timeBasedFilter =
          .ok (q.timeBasedFilter.map Duration.inMillis) := hfilterFit hfit.1
    rw [deserialize, hbuf', DeRes.ok_bind, h1, DeRes.ok_bind, hrel', DeRes.ok_bind, h2]
    rfl
  · rw [deserialize, hbuf', DeRes.ok_bind]
    -- A table is read in the order of its keys: the first that is too long gives the error.
    by_cases hfits : ∀ d ∈ q.expiration, d.asMillis < 2 ^ 64
    · have hlong' : ¬ ∀ d ∈ q.timeBasedFilter, d.asMillis < 2 ^ 64 := fun h => hlong ⟨h, hfits⟩
      have h1 : fieldOr tbl "expiration" OptDurationSerde.deserialize
          QosSettings.default.expiration = .ok (q.expiration.map Duration.inMillis) := hexpFit hfits
      have h2 : fieldOr tbl "time_based_filter" OptDurationSerde.deserialize
          QosSettings.default.timeBasedFilter = .err "invalid integer" := hfilterLong hlong'
      rw [h1, DeRes.ok_bind, hrel', DeRes.ok_bind, h2]
      rfl
    · have h1 : fieldOr tbl "expiration" OptDurationSerde.deserialize
          QosSettings.default.expiration = .err "invalid integer" := hexpLong hfits
      rw [h1]
      rfl

theorem inMillis_inMillis (q : QosSettings) : q.inMillis.inMillis = q.inMillis := by
  rw [inMillis, inMillis]
  dsimp only
  rw [Duration.map_inMillis, Duration.map_inMillis]

theorem millisFit_inMillis (q : QosSettings) : q.inMillis.MillisFit ↔ q.MillisFit := by
  have hdur : ∀ o : Option Duration, (∀ d ∈ o.map Duration.inMillis, d.asMillis < 2 ^ 64) ↔
      ∀ d ∈ o, d.asMillis < 2 ^ 64 := by
    intro o
    cases o with
    | none => exact Iff.rfl
    | some d =>
      simp only [Option.map_some, Option.mem_some_iff, forall_eq', Duration.asMillis_inMillis]
  exact and_congr (hdur _) (hdur _)

/-- What is read back as it is has nothing below a millisecond. -/
theorem wholeMillis_iff (q : QosSettings) : q.WholeMillis ↔ q.MillisFit ∧ q.inMillis = q := by
  have hdur : ∀ o : Option Duration, (∀ d ∈ o, d.WholeMillis) ↔
      (∀ d ∈ o, d.asMillis < 2 ^ 64) ∧ o.map Duration.inMillis = o := by
    intro o
    cases o with
    | none => exact iff_of_true (fun _ h => nomatch h) ⟨fun _ h => (nomatch h), rfl⟩
    | some d =>
      have hmul : d.inMillis = d ↔ 10 ^ 6 ∣ d := (Nat.dvd_iff_div_mul_eq ..).symm
      rw [Option.map_some, Option.some_inj, hmul]
      simp only [Option.mem_some_iff, forall_eq', Duration.WholeMillis]
      exact and_comm
  have hsettings : q.inMillis = q ↔ q.timeBasedFilter.map Duration.inMillis = q.timeBasedFilter ∧
      q.expiration.map Duration.inMillis = q.expiration := by
    obtain ⟨timeBasedFilter, reliability, expiration, buffer⟩ := q
    unfold inMillis
    rw [QosSettings.mk.injEq]
    exact ⟨fun h => ⟨h.1, h.2.2.1⟩, fun h => ⟨h.1, rfl, h.2, rfl⟩⟩
  unfold WholeMillis MillisFit
  rw [hdur, hdur, hsettings]
  exact and_and_and_comm

end QosSettings

/-! ## The configuration -/

theorem forall_of_deserializeEntries {β : Type} {read : TomlValue → DeRes β} {P : β → Prop}
    (hread : ∀ {v b}, read v = .ok b → P b) {es : List (Sigma fun _ : String => TomlValue)}
    {m : StrMap β} (h : deserializeEntries read es = .ok m) : ∀ e ∈ m.entries, P e.2 := by
  induction es generalizing m with
  | nil =>
    cases h
    exact fun e he => absurd he List.not_mem_nil
  | cons e es ih =>
    obtain ⟨b, hb, h⟩ := DeRes.bind_eq_ok.1 h
    obtain ⟨rest, hrest, h⟩ := DeRes.bind_eq_ok.1 h
    cases h
    intro e' he'
    rcases List.mem_cons.1 he' with rfl | he'
    · exact hread hb
    · exact ih hrest e' ((List.kerase_sublist _ _).subset he')

theorem forall_of_deserializeMap {β : Type} {read : TomlValue → DeRes β} {P : β → Prop}
    (hread : ∀ {v b}, read v = .ok b → P b) {v : TomlValue} {m : StrMap β}
    (h : deserializeMap read v = .ok m) : ∀ e ∈ m.entries, P e.2 := by
  obtain ⟨tbl, -, h⟩ := DeRes.bind_eq_ok.1 h
  exact forall_of_deserializeEntries hread h

theorem exists_of_fieldOpt {α : Type} {tbl : Table} {key : String} {read : TomlValue → DeRes α}
    {a : α} (h : fieldOpt tbl key read = .ok (some a)) : ∃ v, read v = .ok a := by
  unfold fieldOpt fieldOr valueOr at h
  split at h
  · rename_i v hv
    obtain ⟨b, hb, h⟩ := DeRes.bind_eq_ok.1 h
    cases h
    exact ⟨v, hb⟩
  · cases h

theorem eq_some_of_require {α : Type} {key : String} {o : Option α} {a : α}
    (h : require key o = .ok a) : o = some a := by
  cases o with
  | none => cases h
  | some b =>
    cases h
    rfl

theorem NetworkConfig.kind_notMem_of_deserialize {tbl : Table} {n : NetworkConfig}
    (h : deserialize tbl = .ok n) : "kind" ∉ n.params := by
  obtain ⟨kind, -, h⟩ := DeRes.bind_eq_ok.1 h
  obtain ⟨k, -, h⟩ := DeRes.bind_eq_ok.1 h
  cases h
  rw [AList.mem_erase]
  exact fun hmem => hmem.1 rfl

theorem ServicesConfig.notMem_keys_of_deserialize {uuid : TomlValue → Except String Uuid}
    {tbl : Table}
    {s : ServicesConfig} (h : deserialize uuid tbl = .ok s) : ∀ key ∈ s.service, key ∉ keys := by
  obtain ⟨defaultNetwork, -, h⟩ := DeRes.bind_eq_ok.1 h
  obtain ⟨defaultQos, -, h⟩ := DeRes.bind_eq_ok.1 h
  obtain ⟨defaultWireFormat, -, h⟩ := DeRes.bind_eq_ok.1 h
  obtain ⟨service, hservice, h⟩ := DeRes.bind_eq_ok.1 h
  cases h
  intro key hkey
  obtain ⟨e, he, rfl⟩ := List.mem_map.1 (keys_of_deserializeEntries hservice hkey)
  simpa using (List.mem_filter.1 he).2

namespace AsbConfig

/-- No service has the name of a field, no network has a parameter `kind`, and the buffer sizes
fit a TOML integer. -/
structure WellFormed (cfg : AsbConfig) : Prop where
  services : ∀ key ∈ cfg.services.service, key ∉ ServicesConfig.keys
  networks : ∀ e ∈ cfg.networks.entries, "kind" ∉ e.2.params
  qos : ∀ e ∈ cfg.qos.entries, e.2.buffer < 2 ^ 63

theorem deserializeQos_toValue (tbl : Table) :
    deserializeQos tbl.toValue = QosSettings.deserialize tbl := by
  show asTable "struct QosSettings" tbl.toValue >>= QosSettings.deserialize = _
  rw [asTable_toValue, DeRes.ok_bind]

theorem buffer_lt_of_deserializeQos {v : TomlValue} {q : QosSettings}
    (h : deserializeQos v = .ok q) : q.buffer < 2 ^ 63 := by
  unfold deserializeQos at h
  split at h
  · exact buffer_lt_of_visitSeq h
  · obtain ⟨fields, -, h⟩ := DeRes.bind_eq_ok.1 h
    exact buffer_lt_of_deserialize h

theorem wellFormed_of_deserialize {uuid : TomlValue → Except String Uuid} {tbl : Table}
    {cfg : AsbConfig}
    (h : deserialize uuid tbl = .ok cfg) : cfg.WellFormed := by
  obtain ⟨networks, hnetworks, h⟩ := DeRes.bind_eq_ok.1 h
  obtain ⟨qos, hqos, h⟩ := DeRes.bind_eq_ok.1 h
  obtain ⟨services, hservices, h⟩ := DeRes.bind_eq_ok.1 h
  obtain ⟨systemUuid, -, h⟩ := DeRes.bind_eq_ok.1 h
  obtain ⟨services', hservices', h⟩ := DeRes.bind_eq_ok.1 h
  obtain ⟨networks', hnetworks', h⟩ := DeRes.bind_eq_ok.1 h
  cases h
  cases eq_some_of_require hservices'
  cases eq_some_of_require hnetworks'
  constructor
  · obtain ⟨v, hv⟩ := exists_of_fieldOpt hservices
    obtain ⟨fields, -, hv⟩ := DeRes.bind_eq_ok.1 hv
    exact ServicesConfig.notMem_keys_of_deserialize hv
  · obtain ⟨v, hv⟩ := exists_of_fieldOpt hnetworks
    refine forall_of_deserializeMap (P := fun n => "kind" ∉ n.params) (fun hread => ?_) hv
    obtain ⟨fields, -, hread⟩ := DeRes.bind_eq_ok.1 hread
    exact NetworkConfig.kind_notMem_of_deserialize hread
  · unfold fieldOr valueOr at hqos
    split at hqos
    · exact forall_of_deserializeMap (P := fun q => q.buffer < 2 ^ 63)
        buffer_lt_of_deserializeQos hqos
    · cases hqos
      exact fun e he => absurd he List.not_mem_nil

/-- The configuration with its durations in whole milliseconds. -/
def inMillis (cfg : AsbConfig) : AsbConfig :=
  { cfg with qos := mapVals QosSettings.inMillis cfg.qos }

/-- A `u64` counts the milliseconds of every duration. -/
def MillisFit (cfg : AsbConfig) : Prop := ∀ e ∈ cfg.qos.entries, e.2.MillisFit

/-- Every duration is read back as it is. -/
def WholeMillis (cfg : AsbConfig) : Prop := ∀ e ∈ cfg.qos.entries, e.2.WholeMillis

theorem exists_serializeQos {es : List (Sigma fun _ : String => QosSettings)}
    (hkeys : es.NodupKeys) (hbuffer : ∀ e ∈ es, e.2.buffer < 2 ^ 63) :
    ∃ tbls, serializeQos es = .ok tbls ∧ tbls.keys = es.keys ∧
      ((∀ e ∈ es, e.2.MillisFit) → deserializeEntries deserializeQos
        (mapEntries Table.toValue tbls) = .ok (mapVals QosSettings.inMillis ⟨es, hkeys⟩)) ∧
      ((¬ ∀ e ∈ es, e.2.MillisFit) → deserializeEntries deserializeQos
        (mapEntries Table.toValue tbls) = .err "invalid integer") := by
  induction es with
  | nil => exact ⟨[], rfl, rfl, fun _ => rfl, fun h => absurd (fun e he => nomatch he) h⟩
  | cons e es ih =>
    obtain ⟨tbls, htbls, hsame, hfit, hlong⟩ := ih (List.nodupKeys_of_nodupKeys_cons hkeys)
      fun e' he' => hbuffer e' (List.mem_cons_of_mem _ he')
    obtain ⟨tbl, htbl, hfit', hlong'⟩ := QosSettings.read_back (hbuffer e List.mem_cons_self)
    have hcons : deserializeEntries deserializeQos (mapEntries Table.toValue (⟨e.1, tbl⟩ :: tbls)) =
        (do
          let q ← QosSettings.deserialize tbl
          let rest ← deserializeEntries deserializeQos (mapEntries Table.toValue tbls)
          return rest.insert e.1 q) := by
      show (do
        let q ← deserializeQos tbl.toValue
        let rest ← deserializeEntries deserializeQos (mapEntries Table.toValue tbls)
        return rest.insert e.1 q) = _
      rw [deserializeQos_toValue]
    refine ⟨⟨e.1, tbl⟩ :: tbls, ?_, ?_, fun hall => ?_, fun hsome => ?_⟩
    · rw [serializeQos, htbl, htbls]
      rfl
    · rw [List.keys_cons, List.keys_cons, hsame]
    · rw [hcons, hfit' (hall e List.mem_cons_self), DeRes.ok_bind,
        hfit fun e' he' => hall e' (List.mem_cons_of_mem _ he'), DeRes.ok_bind]
      exact congrArg DeRes.ok (AList.mk_cons_eq_insert ⟨e.1, e.2.inMillis⟩ _
        (mapVals QosSettings.inMillis ⟨e :: es, hkeys⟩).nodupKeys).symm
    · rw [hcons]
      -- The first table that fails ends the reading, and they all fail alike.
      by_cases he : e.2.MillisFit
      · have hrest : ¬ ∀ e' ∈ es, e'.2.MillisFit := fun hall =>
          hsome (List.forall_mem_cons.2 ⟨he, hall⟩)
        rw [hfit' he, DeRes.ok_bind, hlong hrest]
        rfl
      · rw [hlong' he]
        rfl

section

variable {hyphenated : Uuid → String} {uuid : TomlValue → Except String Uuid}

/-- A well-formed configuration is read back in whole milliseconds, or not at all. -/
theorem read_back (h : ParsesBack hyphenated uuid) {cfg : AsbConfig} (hcfg : cfg.WellFormed) :
    ∃ out, cfg.serialize hyphenated = .ok out ∧
      (cfg.MillisFit → deserialize uuid out = .ok cfg.inMillis) ∧
      (¬ cfg.MillisFit → deserialize uuid out = .err "invalid integer") := by
  obtain ⟨tbls, htbls, hsame, hfit, hlong⟩ := exists_serializeQos cfg.qos.nodupKeys hcfg.qos
  have hnodup : (mapEntries Table.toValue tbls).NodupKeys := by
    have hnd := cfg.qos.nodupKeys
    unfold List.NodupKeys at *
    rwa [keys_mapEntries, hsame]
  let qos : Table := ⟨mapEntries Table.toValue tbls, hnodup⟩
  let out := putField (putField (putField (putField ∅ "system_uuid"
    (cfg.systemUuid.map fun id => .string (hyphenated id)))
    "services" (some (cfg.services.serialize hyphenated).toValue))
    "networks" (some (serializeMap (fun n => n.serialize.toValue) cfg.networks)))
    "qos" (some qos.toValue)
  have hserialize : cfg.serialize hyphenated = .ok out := by
    have hqos : tbls.map (fun e => (e.1, e.2.toValue)) = qos.entries.map fun e => (e.1, e.2) := by
      show _ = (mapEntries Table.toValue tbls).map fun e => (e.1, e.2)
      rw [mapEntries, List.map_map]
      rfl
    unfold serialize
    rw [htbls]
    show Except.ok (putField _ "qos" (some (.table (tbls.map fun e => (e.1, e.2.toValue))))) = _
    rw [hqos]
    rfl
  have huuid : out.lookup "system_uuid" =
      cfg.systemUuid.map fun id => .string (hyphenated id) := by
    rw [lookup_putField_ne _ (by decide), lookup_putField_ne _ (by decide),
      lookup_putField_ne _ (by decide), lookup_putField_of_notMem _ (AList.lookup_empty _)]
  have hservices : out.lookup "services" = (some cfg.services).map
      fun s => (s.serialize hyphenated).toValue := by
    rw [lookup_putField_ne _ (by decide), lookup_putField_ne _ (by decide), lookup_putField_self]
    rfl
  have hnetworks : out.lookup "networks" = (some cfg.networks).map
      (serializeMap fun n => n.serialize.toValue) := by
    rw [lookup_putField_ne _ (by decide), lookup_putField_self]
    rfl
  have hreadNetworks : fieldOpt out "networks" deserializeNetworks = .ok (some cfg.networks) := by
    refine fieldOpt_of_lookup hnetworks fun nets hnets => ?_
    cases hnets
    refine deserializeMap_serializeMap fun e he => ?_
    rw [asTable_toValue, DeRes.ok_bind, NetworkConfig.read_back (hcfg.networks e he)]
  have hreadServices : fieldOpt out "services" (deserializeServices uuid) =
      .ok (some cfg.services) := by
    refine fieldOpt_of_lookup hservices fun s hs => ?_
    cases hs
    rw [deserializeServices, asTable_toValue, DeRes.ok_bind,
      ServicesConfig.read_back h hcfg.services]
  have hreadQos : fieldOr out "qos" (deserializeMap deserializeQos) ∅ =
      deserializeEntries deserializeQos (mapEntries Table.toValue tbls) := by
    rw [fieldOr, lookup_putField_self]
    show deserializeMap deserializeQos qos.toValue = _
    rw [deserializeMap, asTable_toValue]
    rfl
  refine ⟨out, hserialize, fun hall => ?_, fun hsome => ?_⟩
  · rw [deserialize, hreadNetworks, DeRes.ok_bind, hreadQos, hfit hall, DeRes.ok_bind,
      hreadServices, DeRes.ok_bind,
      fieldOpt_of_lookup huuid fun id _ => deserializeUuid_hyphenated h id]
    rfl
  · rw [deserialize, hreadNetworks, DeRes.ok_bind, hreadQos, hlong hsome]
    rfl

end

theorem inMillis_eq_self_iff {cfg : AsbConfig} :
    cfg.inMillis = cfg ↔ ∀ e ∈ cfg.qos.entries, e.2.inMillis = e.2 := by
  obtain ⟨systemUuid, services, networks, qos⟩ := cfg
  unfold inMillis
  rw [AsbConfig.mk.injEq]
  exact ⟨fun h => mapVals_eq_self_iff.1 h.2.2.2,
    fun h => ⟨rfl, rfl, rfl, mapVals_eq_self_iff.2 h⟩⟩

theorem wholeMillis_iff {cfg : AsbConfig} :
    cfg.WholeMillis ↔ cfg.MillisFit ∧ cfg.inMillis = cfg := by
  rw [inMillis_eq_self_iff]
  unfold WholeMillis MillisFit
  rw [← forall₂_and]
  exact forall₂_congr fun e _ => e.2.wholeMillis_iff

theorem inMillis_inMillis (cfg : AsbConfig) : cfg.inMillis.inMillis = cfg.inMillis := by
  refine inMillis_eq_self_iff.2 fun e he => ?_
  obtain ⟨e', -, rfl⟩ := List.mem_map.1 he
  exact e'.2.inMillis_inMillis

theorem millisFit_inMillis {cfg : AsbConfig} (h : cfg.MillisFit) : cfg.inMillis.MillisFit := by
  intro e he
  obtain ⟨e', he', rfl⟩ := List.mem_map.1 he
  exact e'.2.millisFit_inMillis.2 (h e' he')

theorem wellFormed_inMillis {cfg : AsbConfig} (h : cfg.WellFormed) : cfg.inMillis.WellFormed := by
  refine ⟨h.services, h.networks, fun e he => ?_⟩
  obtain ⟨e', he', rfl⟩ := List.mem_map.1 he
  exact h.qos e' he'

end AsbConfig

/-- What a reader or a writer is given, with its durations in whole milliseconds. -/
def BusConfig.inMillis (b : BusConfig) : BusConfig := { b with qos := b.qos.inMillis }

/-- Each topic of each service keeps its wire format and its bus topic. -/
theorem getBusConfig_inMillis (cfg : AsbConfig) (svcName topic : String) :
    getBusConfig cfg.inMillis svcName topic =
      (getBusConfig cfg svcName topic).map BusConfig.inMillis := by
  unfold getBusConfig AsbConfig.inMillis
  simp only [lookup_mapVals]
  split
  · split
    · rfl
    · rename_i name hname
      cases cfg.qos.lookup name with
      | none => rfl
      | some q => rfl
  · rfl

namespace AsbConfig

/-- **Writing a configuration that was read and reading it back cuts its durations down to whole
milliseconds**, and changes nothing else: the result is what it was exactly when the durations are,
and reading back once more changes nothing. With a duration of more milliseconds than a `u64`
counts, what is written is not read at all. -/
theorem config_read_back {hyphenated : Uuid → String} {uuid : TomlValue → Except String Uuid}
    (h : ParsesBack hyphenated uuid) {tbl : Table} {cfg : AsbConfig}
    (hcfg : deserialize uuid tbl = .ok cfg) :
    ∃ out, cfg.serialize hyphenated = .ok out ∧
      (¬ cfg.MillisFit → deserialize uuid out = .err "invalid integer") ∧
      (cfg.MillisFit → deserialize uuid out = .ok cfg.inMillis ∧
        ∃ again, cfg.inMillis.serialize hyphenated = .ok again ∧
          deserialize uuid again = .ok cfg.inMillis) ∧
      (deserialize uuid out = .ok cfg ↔ cfg.WholeMillis) ∧
      ∀ svcName topic, getBusConfig cfg.inMillis svcName topic =
        (getBusConfig cfg svcName topic).map BusConfig.inMillis := by
  have hwf := wellFormed_of_deserialize hcfg
  obtain ⟨out, hout, hfit, hlong⟩ := read_back h hwf
  obtain ⟨again, hagain, hfit', -⟩ := read_back h (wellFormed_inMillis hwf)
  refine ⟨out, hout, hlong, fun hall => ⟨hfit hall, again, hagain, ?_⟩, ?_,
    getBusConfig_inMillis cfg⟩
  · rw [hfit' (millisFit_inMillis hall), inMillis_inMillis]
  · rw [wholeMillis_iff]
    by_cases hall : cfg.MillisFit
    · rw [hfit hall, DeRes.ok.injEq, and_iff_right hall]
    · rw [hlong hall]
      exact iff_of_false (nomatch ·) fun hwhole => hall hwhole.1

end AsbConfig

/-! ## A configuration of five minutes -/

namespace Uuid

/-- The last `k` hexadecimal digits of a number. -/
def hexDigits : ℕ → ℕ → List (Fin 16)
  | 0, _ => []
  | k + 1, n => hexDigits k (n / 16) ++ [Fin.ofNat 16 n]

def ofHexDigits (ds : List (Fin 16)) : ℕ := ds.foldl (fun n d => 16 * n + d.val) 0

def hexValue (c : Char) : Option (Fin 16) :=
  (List.finRange 16).find? fun d => d.val.digitChar == c.toLower

/-- A text in groups of the given lengths and what is left. -/
def hyphenate : List ℕ → List Char → List Char
  | [], cs => cs
  | k :: ks, cs => cs.take k ++ '-' :: hyphenate ks (cs.drop k)

def hyphenated (id : Uuid) : String :=
  .ofList (hyphenate [8, 4, 4, 4] ((hexDigits 32 id.toNat).map fun d => d.val.digitChar))

def parseStr (s : String) : Option Uuid := do
  let ds ← (s.toList.filter (· != '-')).mapM hexValue
  if ds.length = 32 then return BitVec.ofNat 128 (ofHexDigits ds) else none

def ofString : TomlValue → Except String Uuid
  | .string s => (parseStr s).elim (.error "UUID parsing failed") .ok
  | v => .error (v.invalidType "a UUID string")

@[simp] theorem length_hexDigits (k n : ℕ) : (hexDigits k n).length = k := by
  induction k generalizing n with
  | zero => rfl
  | succ k ih => rw [hexDigits, List.length_append, ih, List.length_singleton]

theorem ofHexDigits_hexDigits (k n : ℕ) : ofHexDigits (hexDigits k n) = n % 16 ^ k := by
  induction k generalizing n with
  | zero => exact (Nat.mod_one n).symm
  | succ k ih =>
    have hlast : ofHexDigits (hexDigits k (n / 16) ++ [Fin.ofNat 16 n]) =
        16 * ofHexDigits (hexDigits k (n / 16)) + n % 16 := by
      rw [ofHexDigits, List.foldl_append]
      rfl
    rw [hexDigits, hlast, ih, pow_succ', Nat.mod_mul, Nat.add_comm]

theorem mapM_hexValue (ds : List (Fin 16)) :
    (ds.map fun d => d.val.digitChar).mapM hexValue = some ds := by
  have hdigit : ∀ d : Fin 16, hexValue d.val.digitChar = some d := by decide
  induction ds with
  | nil => rfl
  | cons d ds ih =>
    rw [List.map_cons, List.mapM_cons, hdigit, ih]
    rfl

theorem filter_hyphenate {cs : List Char} (h : '-' ∉ cs) (ks : List ℕ) :
    (hyphenate ks cs).filter (· != '-') = cs := by
  have hself : ∀ cs : List Char, '-' ∉ cs → cs.filter (· != '-') = cs := fun cs h =>
    List.filter_eq_self.2 fun c hc => bne_iff_ne.2 (ne_of_mem_of_not_mem hc h)
  induction ks generalizing cs with
  | nil => exact hself cs h
  | cons k ks ih =>
    have htake : '-' ∉ cs.take k := fun hmem => h (List.mem_of_mem_take hmem)
    have hdrop : '-' ∉ cs.drop k := fun hmem => h (List.mem_of_mem_drop hmem)
    rw [hyphenate, List.filter_append, hself _ htake, List.filter_cons_of_neg (by decide),
      ih hdrop, List.take_append_drop]

theorem parseStr_hyphenated (id : Uuid) : parseStr (hyphenated id) = some id := by
  have hdigit : ∀ d : Fin 16, d.val.digitChar ≠ '-' := by decide
  have hnot : '-' ∉ (hexDigits 32 id.toNat).map fun d => d.val.digitChar := by
    intro hmem
    obtain ⟨d, -, hd⟩ := List.mem_map.1 hmem
    exact hdigit d hd
  have hvalue : ofHexDigits (hexDigits 32 id.toNat) = id.toNat := by
    rw [ofHexDigits_hexDigits]
    exact Nat.mod_eq_of_lt id.isLt
  rw [parseStr, hyphenated, String.toList_ofList, filter_hyphenate hnot, mapM_hexValue]
  simp only [Option.bind_eq_bind, Option.bind_some, length_hexDigits, hvalue, if_true]
  exact congrArg some (BitVec.ofNat_toNat ..)

theorem ofString_hyphenated : ParsesBack hyphenated ofString := fun id => by
  rw [ofString, parseStr_hyphenated]
  rfl

end Uuid

namespace AsbConfig

/-- A system with one service, one network and some settings. -/
def fiveMinutesTable : Table :=
  ((((∅ : Table).insert "qos"
    (.table [("slow", .table [("expiration", .string "5 min"), ("buffer", .integer 1)])])).insert
    "networks"
      (.table [("rabbit", .table [("kind", .string "AMQP"), ("port", .integer 5672)])])).insert
    "services" (.table [("default_network", .string "rabbit"), ("radar", .table
      [("qos", .string "slow"),
        ("service_uuid", .string "00000000-0000-4000-8000-0123456789ab")])])).insert
    "system_uuid" (.string "00000000-0000-0000-0000-000000000000")

def fiveMinutes : AsbConfig where
  systemUuid := some 0
  services :=
    { defaultNetwork := some "rabbit"
      defaultWireFormat := none
      defaultQos := none
      service := (∅ : StrMap ServiceConfig).insert "radar"
        { serviceUuid := some 0x00000000000040008000_0123456789ab
          wireFormat := none
          qos := some "slow"
          topics := ∅ } }
  networks := (∅ : StrMap NetworkConfig).insert "rabbit"
    ⟨.amqp, (∅ : Table).insert "port" (.integer 5672)⟩
  qos := (∅ : StrMap QosSettings).insert "slow" ⟨none, .reliable, some (300 * 10 ^ 9), 1⟩

/-- Five minutes come back as `300000ms`. -/
theorem config_read_back_five_minutes :
    ∃ out, fiveMinutes.serialize Uuid.hyphenated = .ok out ∧
      deserialize Uuid.ofString out = .ok fiveMinutes := by
  obtain ⟨out, hout, -, -, hwhole, -⟩ := @config_read_back Uuid.hyphenated Uuid.ofString
    Uuid.ofString_hyphenated fiveMinutesTable fiveMinutes rfl
  refine ⟨out, hout, hwhole.2 fun e he => ?_⟩
  cases List.mem_singleton.1 he
  refine ⟨fun d hd => (nomatch hd), fun d hd => ?_⟩
  cases hd
  simp [Duration.WholeMillis, Duration.asMillis]

end AsbConfig

end Rounac

import Rounac.Config.AsbSerde
import Rounac.DurationText

/-!
# When reading a configuration panics

Only the constructors of hours and minutes can panic, and only the settings in the `qos` table have
durations. So a text makes `AsbConfig::from_str` panic exactly when the reading comes to a duration
of `2 ^ 64` seconds or more (`panics_iff_overflow`), which a number below `2 ^ 64` of hours or of
minutes can well be. A number that does not fit is an error instead.

The reading stops at the first error, so what comes before such a duration must have been accepted:
the networks, the earlier settings, and the earlier fields of the same settings. Which fields these
are depends on whether the settings are written as a table or as an array.
-/

namespace Rounac

/-! ## Readings that do not panic -/

namespace DeRes

variable {α β : Type}

theorem bind_eq_panicked {x : DeRes α} {f : α → DeRes β} :
    (x >>= f) = .panicked ↔ x = .panicked ∨ ∃ a, x = .ok a ∧ f a = .panicked := by
  cases x with
  | ok a => simp
  | err msg => simp
  | panicked => simp

theorem bind_ne_panicked {x : DeRes α} {f : α → DeRes β} (hx : x ≠ .panicked)
    (hf : ∀ a, f a ≠ .panicked) : (x >>= f) ≠ .panicked := by
  rw [Ne, bind_eq_panicked, not_or, not_exists]
  exact ⟨hx, fun a ha => hf a ha.2⟩

@[simp] theorem pure_ne_panicked (a : α) : (pure a : DeRes α) ≠ .panicked := by
  intro h
  cases h

end DeRes

open DeRes

section Combinators

variable {α : Type} {read : TomlValue → DeRes α}

theorem valueOr_eq_panicked {dflt : α} {o : Option TomlValue} :
    valueOr read dflt o = .panicked ↔ ∃ v, o = some v ∧ read v = .panicked := by
  cases o with
  | none => simp [valueOr]
  | some v => simp [valueOr]

theorem valueOr_ne_panicked (hread : ∀ v, read v ≠ .panicked) (dflt : α) (o : Option TomlValue) :
    valueOr read dflt o ≠ .panicked := by
  rw [Ne, valueOr_eq_panicked]
  rintro ⟨v, -, hv⟩
  exact hread v hv

/-- A value is read without an error when it is absent or accepted. -/
theorem exists_valueOr_eq_ok {dflt : α} {o : Option TomlValue} :
    (∃ a, valueOr read dflt o = .ok a) ↔ ∀ v, o = some v → ∃ a, read v = .ok a := by
  cases o with
  | none => simp [valueOr]
  | some v => simp [valueOr]

theorem fieldOpt_ne_panicked (hread : ∀ v, read v ≠ .panicked) (tbl : Table) (key : String) :
    fieldOpt tbl key read ≠ .panicked :=
  valueOr_ne_panicked (fun v => bind_ne_panicked (hread v) fun _ => pure_ne_panicked _) none _

theorem exists_fieldOpt_eq_ok {tbl : Table} {key : String} :
    (∃ a, fieldOpt tbl key read = .ok a) ↔
      ∀ v, tbl.lookup key = some v → ∃ a, read v = .ok a := by
  refine exists_valueOr_eq_ok.trans (forall₂_congr fun v _ => ?_)
  cases read v with
  | ok a => exact ⟨fun _ => ⟨a, rfl⟩, fun _ => ⟨some a, rfl⟩⟩
  | err msg => simp
  | panicked => simp

theorem element_ne_panicked (hread : ∀ v, read v ≠ .panicked) (expected : String)
    (xs : List TomlValue) (i : ℕ) : element expected xs i read ≠ .panicked := by
  unfold element
  split
  · exact hread _
  · intro h; cases h

theorem require_ne_panicked (key : String) (o : Option α) : require key o ≠ .panicked := by
  cases o with
  | none => intro h; cases h
  | some a => intro h; cases h

theorem asTable_ne_panicked (expected : String) (v : TomlValue) :
    asTable expected v ≠ .panicked := by
  cases v <;> intro h <;> cases h

theorem deserializeEntries_eq_panicked {es : List (Sigma fun _ : String => TomlValue)} :
    deserializeEntries read es = .panicked ↔
      ∃ pre e post, es = pre ++ e :: post ∧ (∀ e' ∈ pre, ∃ a, read e'.2 = .ok a) ∧
        read e.2 = .panicked := by
  induction es with
  | nil => simp [deserializeEntries]
  | cons e es ih =>
    simp only [deserializeEntries, bind_eq_panicked, pure_ne_panicked, and_false, exists_false,
      or_false, ih]
    constructor
    · rintro (he | ⟨b, hb, pre, e', post, rfl, hpre, he'⟩)
      · exact ⟨[], e, es, rfl, by simp, he⟩
      · exact ⟨e :: pre, e', post, rfl, List.forall_mem_cons.2 ⟨⟨b, hb⟩, hpre⟩, he'⟩
    · rintro ⟨pre, e', post, hsplit, hpre, he'⟩
      rcases List.cons_eq_append_iff.1 hsplit with ⟨rfl, hcons⟩ | ⟨pre, rfl, rfl⟩
      · cases hcons
        exact .inl he'
      · obtain ⟨⟨b, hb⟩, hpre⟩ := List.forall_mem_cons.1 hpre
        exact .inr ⟨b, hb, pre, e', post, rfl, hpre, he'⟩

theorem deserializeEntries_ne_panicked (hread : ∀ v, read v ≠ .panicked)
    (es : List (Sigma fun _ : String => TomlValue)) : deserializeEntries read es ≠ .panicked := by
  rw [Ne, deserializeEntries_eq_panicked]
  rintro ⟨pre, e, post, -, -, he⟩
  exact hread e.2 he

theorem deserializeMap_ne_panicked (hread : ∀ v, read v ≠ .panicked) (v : TomlValue) :
    deserializeMap read v ≠ .panicked :=
  bind_ne_panicked (asTable_ne_panicked _ v) fun tbl =>
    deserializeEntries_ne_panicked hread tbl.entries

theorem unitVariant_ne_panicked {ofName : String → DeRes α} (hname : ∀ s, ofName s ≠ .panicked)
    (v : TomlValue) : unitVariant ofName v ≠ .panicked := by
  unfold unitVariant
  split
  · exact hname _
  · intro h; cases h
  · refine bind_ne_panicked (hname _) fun a => ?_
    split_ifs
    · exact pure_ne_panicked a
    · intro h; cases h
  · intro h; cases h
  · intro h; cases h

theorem contentVariant_ne_panicked {ofName : String → DeRes α} (hname : ∀ s, ofName s ≠ .panicked)
    (v : TomlValue) : contentVariant ofName v ≠ .panicked := by
  have hrefused : ∀ name msg, (do let _ ← ofName name; DeRes.err msg : DeRes α) ≠ .panicked :=
    fun name msg => bind_ne_panicked (hname name) fun _ h => by cases h
  unfold contentVariant
  split
  · exact hname _
  · exact hrefused _ _
  · intro h; cases h
  · exact hrefused _ _
  · intro h; cases h

theorem contentStruct_ne_panicked {expected : String} {fields : ℕ}
    {visitSeq : List TomlValue → DeRes α} {visitMap : Table → DeRes α}
    (hseq : ∀ xs, visitSeq xs ≠ .panicked) (hmap : ∀ tbl, visitMap tbl ≠ .panicked)
    (v : TomlValue) : contentStruct expected fields visitSeq visitMap v ≠ .panicked := by
  unfold contentStruct
  split
  · refine bind_ne_panicked (hseq _) fun a => ?_
    split_ifs
    · intro h; cases h
    · exact pure_ne_panicked a
  · exact bind_ne_panicked (asTable_ne_panicked _ _) hmap

end Combinators

theorem deserializeString_ne_panicked (v : TomlValue) : deserializeString v ≠ .panicked := by
  cases v <;> intro h <;> cases h

theorem deserializeUuid_ne_panicked (uuid : TomlValue → Except String Uuid) (v : TomlValue) :
    deserializeUuid uuid v ≠ .panicked := by
  unfold deserializeUuid
  split <;> intro h <;> cases h

theorem contentUuid_ne_panicked (uuid : TomlValue → Except String Uuid) (v : TomlValue) :
    contentUuid uuid v ≠ .panicked := by
  unfold contentUuid
  split
  · exact deserializeUuid_ne_panicked uuid _
  · intro h; cases h

theorem deserializeUsize_ne_panicked (v : TomlValue) : deserializeUsize v ≠ .panicked := by
  unfold deserializeUsize
  split
  · split_ifs <;> intro h <;> cases h
  · intro h; cases h

theorem WireFormat.ofName_ne_panicked (s : String) : WireFormat.ofName s ≠ .panicked := by
  unfold WireFormat.ofName
  split <;> intro h <;> cases h

theorem NetworkKind.ofName_ne_panicked (s : String) : NetworkKind.ofName s ≠ .panicked := by
  unfold NetworkKind.ofName
  split <;> intro h <;> cases h

theorem ReliabilityQos.deserialize_ne_panicked (v : TomlValue) :
    ReliabilityQos.deserialize v ≠ .panicked := by
  refine unitVariant_ne_panicked (fun s => ?_) v
  split <;> intro h <;> cases h

/-! ## Networks and services -/

theorem TopicConfig.ofContent_ne_panicked (v : TomlValue) : ofContent v ≠ .panicked := by
  refine contentStruct_ne_panicked (fun xs => ?_) (fun tbl => ?_) v
  · refine bind_ne_panicked (element_ne_panicked deserializeString_ne_panicked _ _ _) fun _ => ?_
    exact bind_ne_panicked (element_ne_panicked deserializeString_ne_panicked _ _ _) fun _ =>
      pure_ne_panicked _
  · refine bind_ne_panicked (fieldOpt_ne_panicked deserializeString_ne_panicked _ _) fun _ => ?_
    exact bind_ne_panicked (fieldOpt_ne_panicked deserializeString_ne_panicked _ _) fun _ =>
      pure_ne_panicked _

theorem ServiceConfig.ofContent_ne_panicked (uuid : TomlValue → Except String Uuid)
    (v : TomlValue) : ofContent uuid v ≠ .panicked := by
  have hstring := deserializeString_ne_panicked
  have huuid := contentUuid_ne_panicked uuid
  have hformat := contentVariant_ne_panicked WireFormat.ofName_ne_panicked
  have htopics : ∀ v, deserializeMap TopicConfig.ofContent v ≠ .panicked :=
    deserializeMap_ne_panicked TopicConfig.ofContent_ne_panicked
  refine contentStruct_ne_panicked (fun xs => ?_) (fun tbl => ?_) v
  · refine bind_ne_panicked (element_ne_panicked huuid _ _ _) fun _ => ?_
    refine bind_ne_panicked (element_ne_panicked hstring _ _ _) fun _ => ?_
    refine bind_ne_panicked (element_ne_panicked hformat _ _ _) fun _ => ?_
    refine bind_ne_panicked (element_ne_panicked hstring _ _ _) fun _ => ?_
    exact bind_ne_panicked (valueOr_ne_panicked htopics _ _) fun _ => pure_ne_panicked _
  · refine bind_ne_panicked (fieldOpt_ne_panicked hstring _ _) fun _ => ?_
    refine bind_ne_panicked (fieldOpt_ne_panicked hstring _ _) fun _ => ?_
    refine bind_ne_panicked (fieldOpt_ne_panicked huuid _ _) fun _ => ?_
    refine bind_ne_panicked (valueOr_ne_panicked htopics _ _) fun _ => ?_
    exact bind_ne_panicked (fieldOpt_ne_panicked hformat _ _) fun _ => pure_ne_panicked _

theorem ServicesConfig.deserialize_ne_panicked (uuid : TomlValue → Except String Uuid)
    (tbl : Table) : ServicesConfig.deserialize uuid tbl ≠ .panicked := by
  refine bind_ne_panicked (fieldOpt_ne_panicked deserializeString_ne_panicked _ _) fun _ => ?_
  refine bind_ne_panicked (fieldOpt_ne_panicked deserializeString_ne_panicked _ _) fun _ => ?_
  refine bind_ne_panicked
    (fieldOpt_ne_panicked (unitVariant_ne_panicked WireFormat.ofName_ne_panicked) _ _) fun _ => ?_
  exact bind_ne_panicked
    (deserializeEntries_ne_panicked (ServiceConfig.ofContent_ne_panicked uuid) _) fun _ =>
      pure_ne_panicked _

theorem NetworkConfig.deserialize_ne_panicked (tbl : Table) :
    NetworkConfig.deserialize tbl ≠ .panicked := by
  refine bind_ne_panicked
    (fieldOpt_ne_panicked (unitVariant_ne_panicked NetworkKind.ofName_ne_panicked) _ _) fun _ => ?_
  exact bind_ne_panicked (require_ne_panicked _ _) fun _ => pure_ne_panicked _

theorem AsbConfig.deserializeNetworks_ne_panicked (v : TomlValue) :
    deserializeNetworks v ≠ .panicked := by
  refine deserializeMap_ne_panicked (fun v => ?_) v
  exact bind_ne_panicked (asTable_ne_panicked _ v) NetworkConfig.deserialize_ne_panicked

theorem AsbConfig.deserializeServices_ne_panicked (uuid : TomlValue → Except String Uuid)
    (v : TomlValue) : deserializeServices uuid v ≠ .panicked :=
  bind_ne_panicked (asTable_ne_panicked _ v) (ServicesConfig.deserialize_ne_panicked uuid)

/-! ## Durations -/

namespace OptDurationSerde

/-- A duration text of `2 ^ 64` seconds or more. -/
def TooLong (v : TomlValue) : Prop :=
  ∃ s n unit, v = .string s ∧ DurationText s.toList n unit ∧
    2 ^ 64 * 10 ^ 9 ≤ n * unitNanos unit

/-- A duration text below `2 ^ 64` seconds. -/
def Fits (v : TomlValue) : Prop :=
  ∃ s n unit, v = .string s ∧ DurationText s.toList n unit ∧ n * unitNanos unit < 2 ^ 64 * 10 ^ 9

/-- What is not an error is a duration text. -/
theorem exists_text {v : TomlValue} (h : ∀ msg, deserialize v ≠ .err msg) :
    ∃ s n unit, v = .string s ∧ DurationText s.toList n unit ∧ deserialize v = convert n unit := by
  cases v with
  | string s =>
    obtain ⟨n, unit, htext⟩ := exists_durationText h
    exact ⟨s, n, unit, rfl, htext, deserialize_of_text htext⟩
  | _ => exact absurd rfl (h _)

theorem deserialize_eq_panicked {v : TomlValue} : deserialize v = .panicked ↔ TooLong v := by
  constructor
  · intro hv
    obtain ⟨s, n, unit, rfl, htext, hread⟩ := exists_text (v := v) fun msg h => by
      rw [hv] at h
      cases h
    refine ⟨s, n, unit, rfl, htext, Nat.le_of_not_lt fun hlt => ?_⟩
    rw [hread, convert, if_pos hlt] at hv
    cases hv
  · rintro ⟨s, n, unit, rfl, htext, hle⟩
    rw [deserialize_of_text htext, convert, if_neg (Nat.not_lt.2 hle)]

theorem exists_deserialize_eq_ok {v : TomlValue} : (∃ d, deserialize v = .ok d) ↔ Fits v := by
  constructor
  · rintro ⟨d, hd⟩
    obtain ⟨s, n, unit, rfl, htext, hread⟩ := exists_text (v := v) fun msg h => by
      rw [hd] at h
      cases h
    refine ⟨s, n, unit, rfl, htext, Nat.lt_of_not_le fun hle => ?_⟩
    rw [hread, convert, if_neg (Nat.not_lt.2 hle)] at hd
    cases hd
  · rintro ⟨s, n, unit, rfl, htext, hlt⟩
    rw [deserialize_of_text htext, convert, if_pos hlt]
    exact ⟨_, rfl⟩

end OptDurationSerde

open OptDurationSerde

/-! ## Settings -/

namespace QosSettings

/-- The reading of a table of settings comes to a duration that is too long. -/
inductive Overflows (tbl : Table) : Prop
  | expiration {v : TomlValue}
      (buffer : ∀ b, tbl.lookup "buffer" = some b → ∃ n, deserializeUsize b = .ok n)
      (field : tbl.lookup "expiration" = some v) (long : TooLong v)
  | timeBasedFilter {v : TomlValue}
      (buffer : ∀ b, tbl.lookup "buffer" = some b → ∃ n, deserializeUsize b = .ok n)
      (expiration : ∀ e, tbl.lookup "expiration" = some e → Fits e)
      (reliability : ∀ r, tbl.lookup "reliability" = some r →
        ∃ q, ReliabilityQos.deserialize r = .ok q)
      (field : tbl.lookup "time_based_filter" = some v) (long : TooLong v)

/-- The reading of an array of settings comes to a duration that is too long. -/
inductive OverflowsSeq (xs : List TomlValue) : Prop
  | timeBasedFilter {v : TomlValue} (element : xs[0]? = some v) (long : TooLong v)
  | expiration {v : TomlValue} (timeBasedFilter : ∀ f, xs[0]? = some f → Fits f)
      (reliability : ∀ r, xs[1]? = some r → ∃ q, ReliabilityQos.deserialize r = .ok q)
      (element : xs[2]? = some v) (long : TooLong v)

theorem duration_eq_panicked {dflt : Option Duration} {o : Option TomlValue} :
    valueOr OptDurationSerde.deserialize dflt o = .panicked ↔ ∃ v, o = some v ∧ TooLong v :=
  valueOr_eq_panicked.trans (exists_congr fun _ =>
    and_congr_right fun _ => OptDurationSerde.deserialize_eq_panicked)

theorem exists_duration_eq_ok {dflt : Option Duration} {o : Option TomlValue} :
    (∃ d, valueOr OptDurationSerde.deserialize dflt o = .ok d) ↔ ∀ v, o = some v → Fits v :=
  exists_valueOr_eq_ok.trans (forall₂_congr fun _ _ => exists_deserialize_eq_ok)

theorem deserialize_eq_panicked {tbl : Table} : deserialize tbl = .panicked ↔ Overflows tbl := by
  have hbuffer : fieldOr tbl "buffer" deserializeUsize default.buffer ≠ .panicked :=
    valueOr_ne_panicked deserializeUsize_ne_panicked _ _
  have hreliability :
      fieldOr tbl "reliability" ReliabilityQos.deserialize default.reliability ≠ .panicked :=
    valueOr_ne_panicked ReliabilityQos.deserialize_ne_panicked _ _
  simp only [deserialize, bind_eq_panicked, hbuffer, hreliability, pure_ne_panicked, and_false,
    exists_false, or_false, false_or]
  constructor
  · rintro ⟨n, hn, hexp | ⟨d, hd, q, hq, hfilter⟩⟩
    · obtain ⟨v, hv, hlong⟩ := duration_eq_panicked.1 hexp
      exact .expiration (exists_valueOr_eq_ok.1 ⟨n, hn⟩) hv hlong
    · obtain ⟨v, hv, hlong⟩ := duration_eq_panicked.1 hfilter
      exact .timeBasedFilter (exists_valueOr_eq_ok.1 ⟨n, hn⟩) (exists_duration_eq_ok.1 ⟨d, hd⟩)
        (exists_valueOr_eq_ok.1 ⟨q, hq⟩) hv hlong
  · intro h
    cases h with
    | expiration buffer field long =>
      obtain ⟨n, hn⟩ := exists_valueOr_eq_ok.2 buffer
      exact ⟨n, hn, .inl (duration_eq_panicked.2 ⟨_, field, long⟩)⟩
    | timeBasedFilter buffer expiration reliability field long =>
      obtain ⟨n, hn⟩ := exists_valueOr_eq_ok.2 buffer
      obtain ⟨d, hd⟩ := exists_duration_eq_ok.2 expiration
      obtain ⟨q, hq⟩ := exists_valueOr_eq_ok.2 reliability
      exact ⟨n, hn, .inr ⟨d, hd, q, hq, duration_eq_panicked.2 ⟨_, field, long⟩⟩⟩

theorem visitSeq_eq_panicked {xs : List TomlValue} :
    visitSeq xs = .panicked ↔ OverflowsSeq xs := by
  have hbuffer : elementOr xs 3 deserializeUsize default.buffer ≠ .panicked :=
    valueOr_ne_panicked deserializeUsize_ne_panicked _ _
  have hreliability :
      elementOr xs 1 ReliabilityQos.deserialize default.reliability ≠ .panicked :=
    valueOr_ne_panicked ReliabilityQos.deserialize_ne_panicked _ _
  simp only [visitSeq, bind_eq_panicked, hbuffer, hreliability, pure_ne_panicked, and_false,
    exists_false, or_false, false_or]
  constructor
  · rintro (hfilter | ⟨d, hd, q, hq, hexp⟩)
    · obtain ⟨v, hv, hlong⟩ := duration_eq_panicked.1 hfilter
      exact .timeBasedFilter hv hlong
    · obtain ⟨v, hv, hlong⟩ := duration_eq_panicked.1 hexp
      exact .expiration (exists_duration_eq_ok.1 ⟨d, hd⟩) (exists_valueOr_eq_ok.1 ⟨q, hq⟩) hv hlong
  · intro h
    cases h with
    | timeBasedFilter element long => exact .inl (duration_eq_panicked.2 ⟨_, element, long⟩)
    | expiration timeBasedFilter reliability element long =>
      obtain ⟨d, hd⟩ := exists_duration_eq_ok.2 timeBasedFilter
      obtain ⟨q, hq⟩ := exists_valueOr_eq_ok.2 reliability
      exact .inr ⟨d, hd, q, hq, duration_eq_panicked.2 ⟨_, element, long⟩⟩

end QosSettings

/-! ## The configuration -/

namespace AsbConfig

/-- The reading of an entry of the `qos` table comes to a duration that is too long. -/
inductive QosOverflows : TomlValue → Prop
  | map {v : TomlValue} {fields : Table} (struct : asTable "struct QosSettings" v = .ok fields)
      (long : QosSettings.Overflows fields) : QosOverflows v
  | seq {xs : List TomlValue} (long : QosSettings.OverflowsSeq xs) : QosOverflows (.array xs)

/-- The reading of the configuration comes to a duration that is too long: in the first settings
that are not read well, and the networks are read before. -/
inductive Overflows (tbl : Table) : Prop
  | qos {v : TomlValue} {settings : Table} {pre post : List (Sigma fun _ : String => TomlValue)}
      {e : Sigma fun _ : String => TomlValue}
      (networks : ∀ w, tbl.lookup "networks" = some w → ∃ nets, deserializeNetworks w = .ok nets)
      (field : tbl.lookup "qos" = some v) (map : asTable "a map" v = .ok settings)
      (split : settings.entries = pre ++ e :: post)
      (earlier : ∀ e' ∈ pre, ∃ q, deserializeQos e'.2 = .ok q) (long : QosOverflows e.2)

theorem deserializeQos_eq_panicked {v : TomlValue} :
    deserializeQos v = .panicked ↔ QosOverflows v := by
  unfold deserializeQos
  split
  · rename_i xs
    rw [QosSettings.visitSeq_eq_panicked]
    refine ⟨.seq, fun h => ?_⟩
    cases h with
    | map struct _ => cases struct
    | seq long => exact long
  · rename_i v hv
    simp only [bind_eq_panicked, asTable_ne_panicked, false_or,
      QosSettings.deserialize_eq_panicked]
    refine ⟨fun ⟨fields, struct, long⟩ => .map struct long, fun h => ?_⟩
    cases h with
    | map struct long => exact ⟨_, struct, long⟩
    | seq long => exact absurd rfl (hv _)

theorem deserialize_eq_panicked {uuid : TomlValue → Except String Uuid} {tbl : Table} :
    deserialize uuid tbl = .panicked ↔ Overflows tbl := by
  have hnetworks : fieldOpt tbl "networks" deserializeNetworks ≠ .panicked :=
    fieldOpt_ne_panicked deserializeNetworks_ne_panicked _ _
  have hservices : fieldOpt tbl "services" (deserializeServices uuid) ≠ .panicked :=
    fieldOpt_ne_panicked (deserializeServices_ne_panicked uuid) _ _
  have huuid : fieldOpt tbl "system_uuid" (deserializeUuid uuid) ≠ .panicked :=
    fieldOpt_ne_panicked (deserializeUuid_ne_panicked uuid) _ _
  simp only [deserialize, bind_eq_panicked, hnetworks, hservices, huuid, require_ne_panicked,
    pure_ne_panicked, and_false, exists_false, or_false, false_or, fieldOr, valueOr_eq_panicked]
  constructor
  · rintro ⟨nets, hnets, v, hv, hmap⟩
    obtain hmap | ⟨settings, hsettings, hentries⟩ := bind_eq_panicked.1 hmap
    · exact absurd hmap (asTable_ne_panicked _ v)
    · obtain ⟨pre, e, post, hsplit, hpre, he⟩ := deserializeEntries_eq_panicked.1 hentries
      exact .qos (exists_fieldOpt_eq_ok.1 ⟨nets, hnets⟩) hv hsettings hsplit hpre
        (deserializeQos_eq_panicked.1 he)
  · rintro ⟨networks, field, map, split, earlier, long⟩
    obtain ⟨nets, hnets⟩ := exists_fieldOpt_eq_ok.2 networks
    refine ⟨nets, hnets, _, field, bind_eq_panicked.2 (.inr ⟨_, map, ?_⟩)⟩
    exact deserializeEntries_eq_panicked.2
      ⟨_, _, _, split, earlier, deserializeQos_eq_panicked.2 long⟩

/-- **Reading panics exactly on durations that are too long**: one duration by itself, and a
configuration exactly when its reading comes to one. -/
theorem panics_iff_overflow (v : TomlValue) (toml : String → Except String Table)
    (uuid : TomlValue → Except String Uuid) (s : String) :
    (OptDurationSerde.deserialize v ≠ .panicked ↔ ¬ TooLong v) ∧
      (fromStr toml uuid s ≠ .panicked ↔ ∀ tbl, toml s = .ok tbl → ¬ Overflows tbl) := by
  constructor
  · exact not_congr OptDurationSerde.deserialize_eq_panicked
  · unfold fromStr
    cases htoml : toml s with
    | error msg =>
      refine ⟨fun _ tbl htbl => ?_, fun _ h => ?_⟩
      · cases htbl
      · cases h
    | ok tbl =>
      refine ⟨fun hne tbl' htbl hover => ?_, fun hno hpanic => ?_⟩
      · cases htbl
        exact hne (deserialize_eq_panicked.2 hover)
      · exact hno tbl rfl (deserialize_eq_panicked.1 hpanic)

/-- The largest number of hours: by itself, as the expiration of some settings, and as the first
element of settings that are written as an array. -/
theorem largest_hours_panic :
    OptDurationSerde.deserialize (.string "18446744073709551615h") = .panicked ∧
    fromStr
      (fun _ => .ok ((((∅ : Table).insert "qos" (.table [("q",
          .table [("expiration", .string "18446744073709551615h")])])).insert
        "networks" (.table [])).insert "services" (.table [])))
      (fun _ => .error "not a UUID")
      "[services]\n[networks]\n[qos.q]\nexpiration = \"18446744073709551615h\"\n" =
        .panicked ∧
    fromStr
      (fun _ => .ok ((((∅ : Table).insert "qos" (.table [("q",
          .array [.string "18446744073709551615h"])])).insert
        "networks" (.table [])).insert "services" (.table [])))
      (fun _ => .error "not a UUID")
      "[services]\n[networks]\n[qos]\nq = [\"18446744073709551615h\"]\n" = .panicked :=
  ⟨rfl, rfl, rfl⟩

end AsbConfig

end Rounac

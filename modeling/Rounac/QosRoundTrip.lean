import Rounac.DurationText

/-!
# QoS settings through a configuration and back

A duration is written as its whole milliseconds and read in any of six units. What is read back
is therefore the duration rounded down to a millisecond, and nothing at all when the count of
milliseconds does not fit the `u64` the reader takes.
-/

namespace Rounac

/-! ## Numbers -/

theorem u64FromStr_toDigits (n : ℕ) :
    u64FromStr (Nat.toDigits 10 n) = if n < 2 ^ 64 then some n else none := by
  have hdigit : ∀ c ∈ Nat.toDigits 10 n, c.isDigit :=
    fun c hc => Nat.isDigit_of_mem_toDigits (by decide) (by decide) hc
  have hread := u64FromStr_of_digits (.inl rfl) Nat.toDigits_ne_nil hdigit
  rwa [List.nil_append, Nat.ofDigitChars_ten_toDigits] at hread

/-! ## Durations -/

/-- A whole number of milliseconds that a `u64` can count. -/
def Duration.WholeMillis (d : Duration) : Prop := 10 ^ 6 ∣ d ∧ d.asMillis < 2 ^ 64

namespace OptDurationSerde

theorem deserialize_millis (n : ℕ) :
    deserialize (.string (toString n ++ "ms")) =
      if n < 2 ^ 64 then .ok (some (Duration.fromMillis n)) else .err "invalid integer" := by
  have hdigit : ∀ c ∈ Nat.toDigits 10 n, c.isDigit :=
    fun c hc => Nat.isDigit_of_mem_toDigits (by decide) (by decide) hc
  have htext : (toString n ++ "ms").toList = Nat.toDigits 10 n ++ ['m', 's'] := by
    simp
  -- The text has no white space at either end, and its first letter is the `m`.
  have htrim : trim (Nat.toDigits 10 n ++ ['m', 's']) = Nat.toDigits 10 n ++ ['m', 's'] := by
    refine trim_eq_self fun c hc => ?_
    rcases List.mem_append.1 hc with hc | hc
    · exact isWhitespace_of_isDigit (hdigit c hc)
    · simp only [List.mem_cons, List.not_mem_nil, or_false] at hc
      rcases hc with rfl | rfl <;> decide
  have hspan : (Nat.toDigits 10 n ++ ['m', 's']).span (fun c => !startsSuffix c) =
      (Nat.toDigits 10 n, ['m', 's']) := by
    have hall : ∀ c ∈ Nat.toDigits 10 n, (!startsSuffix c) = true :=
      fun c hc => by rw [startsSuffix_of_isDigit (hdigit c hc)]; rfl
    rw [List.span_eq_takeWhile_dropWhile, List.takeWhile_append_of_pos hall,
      List.dropWhile_append_of_pos hall]
    simp [startsSuffix]
  have hsuf : trim ['m', 's'] = ['m', 's'] := by decide
  simp only [deserialize, htext, htrim, hspan, hsuf,
    trim_eq_self fun c hc => isWhitespace_of_isDigit (hdigit c hc), u64FromStr_toDigits]
  by_cases hn : n < 2 ^ 64
  · simp only [if_pos hn]
    rfl
  · simp only [if_neg hn]

/-- A duration is read back exactly when no part of a millisecond and no high bit is lost. -/
theorem deserialize_serialize_iff (d : Duration) :
    deserialize (.string (toString d.asMillis ++ "ms")) = .ok (some d) ↔ d.WholeMillis := by
  rw [deserialize_millis]
  by_cases hn : d.asMillis < 2 ^ 64
  · have hmul : Duration.fromMillis d.asMillis = d ↔ 10 ^ 6 ∣ d := (Nat.dvd_iff_div_mul_eq ..).symm
    rw [if_pos hn, DeRes.ok.injEq, Option.some.injEq, hmul]
    exact (and_iff_left hn).symm
  · rw [if_neg hn]
    exact iff_of_false (nomatch ·) fun h => hn h.2

theorem exists_of_deserialize {v : TomlValue} {o : Option Duration}
    (h : deserialize v = .ok o) : ∃ d, o = some d := by
  cases v with
  | string s =>
    simp only [deserialize] at h
    split at h
    · cases h
    · split at h
      all_goals
        obtain ⟨o', -, h⟩ := DeRes.bind_eq_ok.1 h
        cases o' with
        | none => cases h
        | some d => exact ⟨d, by cases h; rfl⟩
  | _ => cases h

end OptDurationSerde

/-! ## Settings -/

theorem ReliabilityQos.deserialize_serialize (r : ReliabilityQos) :
    deserialize (.string r.serialize) = .ok r := by
  cases r <;> rfl

theorem deserializeUsize_ofNat {n : ℕ} (hn : n < 2 ^ 63) :
    deserializeUsize (.integer (Int64.ofNat n)) = .ok n := by
  have htoInt : (Int64.ofNat n).toInt = n := Int64.toInt_ofNat_of_lt hn
  simp [deserializeUsize, htoInt]

theorem lt_of_deserializeUsize {v : TomlValue} {n : ℕ} (h : deserializeUsize v = .ok n) :
    n < 2 ^ 63 := by
  cases v with
  | integer i =>
    have hi := i.toInt_lt
    simp only [deserializeUsize] at h
    split at h
    · cases h
    · cases h
      omega
  | _ => cases h

namespace QosSettings

@[simp] theorem lookup_putField_self (tbl : Table) (key : String) (v : TomlValue) :
    (putField tbl key (some v)).lookup key = some v :=
  AList.lookup_insert tbl

theorem lookup_putField_ne {tbl : Table} {key key' : String} (v : Option TomlValue)
    (hne : key' ≠ key) : (putField tbl key v).lookup key' = tbl.lookup key' := by
  cases v with
  | none => rfl
  | some v => exact AList.lookup_insert_ne hne

theorem lookup_putField_of_notMem {tbl : Table} {key : String} (v : Option TomlValue)
    (hkey : tbl.lookup key = none) : (putField tbl key v).lookup key = v := by
  cases v with
  | none => exact hkey
  | some v => exact AList.lookup_insert tbl

/-- What `serialize` puts into the table, key by key. -/
theorem exists_serialize {q : QosSettings} (hbuffer : q.buffer < 2 ^ 63) :
    ∃ tbl, q.serialize = .ok tbl ∧
      tbl.lookup "buffer" = some (.integer (Int64.ofNat q.buffer)) ∧
      tbl.lookup "expiration" = (OptDurationSerde.serialize q.expiration).map .string ∧
      tbl.lookup "reliability" = some (.string q.reliability.serialize) ∧
      tbl.lookup "time_based_filter" =
        (OptDurationSerde.serialize q.timeBasedFilter).map .string := by
  refine ⟨_, if_pos hbuffer, lookup_putField_self .., ?_, ?_, ?_⟩
  · rw [lookup_putField_ne _ (by decide), lookup_putField_of_notMem]
    rw [lookup_putField_ne _ (by decide), lookup_putField_ne _ (by decide), AList.lookup_empty]
  · rw [lookup_putField_ne _ (by decide), lookup_putField_ne _ (by decide), lookup_putField_self]
  · rw [lookup_putField_ne _ (by decide), lookup_putField_ne _ (by decide),
      lookup_putField_ne _ (by decide), lookup_putField_of_notMem _ (AList.lookup_empty _)]

/-- A duration field written and read back, `None` standing for the default of an absent key. -/
theorem fieldOr_duration_iff {tbl : Table} {key : String} {o : Option Duration}
    (hkey : tbl.lookup key = (OptDurationSerde.serialize o).map .string) :
    fieldOr tbl key OptDurationSerde.deserialize none = .ok o ↔ ∀ d ∈ o, d.WholeMillis := by
  cases o with
  | none => simp [fieldOr, valueOr, hkey, OptDurationSerde.serialize]
  | some d =>
    simp only [fieldOr, valueOr, hkey, OptDurationSerde.serialize, Option.map_some,
      OptDurationSerde.deserialize_serialize_iff, Option.mem_some_iff, forall_eq']

theorem buffer_lt_of_valueOr {o : Option TomlValue} {n : ℕ}
    (h : valueOr deserializeUsize default.buffer o = .ok n) : n < 2 ^ 63 := by
  cases o with
  | none =>
    cases h
    simp [default]
  | some v => exact lt_of_deserializeUsize h

theorem buffer_lt_of_deserialize {tbl : Table} {q : QosSettings} (h : deserialize tbl = .ok q) :
    q.buffer < 2 ^ 63 := by
  obtain ⟨buffer, hbuffer, h⟩ := DeRes.bind_eq_ok.1 h
  obtain ⟨expiration, -, h⟩ := DeRes.bind_eq_ok.1 h
  obtain ⟨reliability, -, h⟩ := DeRes.bind_eq_ok.1 h
  obtain ⟨timeBasedFilter, -, h⟩ := DeRes.bind_eq_ok.1 h
  cases h
  exact buffer_lt_of_valueOr hbuffer

theorem buffer_lt_of_visitSeq {xs : List TomlValue} {q : QosSettings} (h : visitSeq xs = .ok q) :
    q.buffer < 2 ^ 63 := by
  obtain ⟨timeBasedFilter, -, h⟩ := DeRes.bind_eq_ok.1 h
  obtain ⟨reliability, -, h⟩ := DeRes.bind_eq_ok.1 h
  obtain ⟨expiration, -, h⟩ := DeRes.bind_eq_ok.1 h
  obtain ⟨buffer, hbuffer, h⟩ := DeRes.bind_eq_ok.1 h
  cases h
  exact buffer_lt_of_valueOr hbuffer

/-- Settings are read back when both their durations are. -/
theorem deserialize_serialize_iff {q : QosSettings} (hbuffer : q.buffer < 2 ^ 63) :
    ∃ tbl, q.serialize = .ok tbl ∧
      (deserialize tbl = .ok q ↔
        (∀ d ∈ q.timeBasedFilter, d.WholeMillis) ∧ ∀ d ∈ q.expiration, d.WholeMillis) := by
  obtain ⟨tbl, htbl, hbuf, hexp, hrel, hfilter⟩ := exists_serialize hbuffer
  refine ⟨tbl, htbl, ?_⟩
  have hbuf' : fieldOr tbl "buffer" deserializeUsize QosSettings.default.buffer = .ok q.buffer := by
    rw [fieldOr, hbuf]
    exact deserializeUsize_ofNat hbuffer
  have hrel' : fieldOr tbl "reliability" ReliabilityQos.deserialize
      QosSettings.default.reliability = .ok q.reliability := by
    rw [fieldOr, hrel]
    exact q.reliability.deserialize_serialize
  rw [← fieldOr_duration_iff hfilter, ← fieldOr_duration_iff hexp]
  simp only [deserialize, hbuf', hrel', DeRes.ok_bind]
  constructor
  · intro h
    obtain ⟨expiration, hexp', h⟩ := DeRes.bind_eq_ok.1 h
    obtain ⟨timeBasedFilter, hfilter', h⟩ := DeRes.bind_eq_ok.1 h
    have hq := DeRes.ok.inj h
    exact ⟨congrArg QosSettings.timeBasedFilter hq ▸ hfilter',
      congrArg QosSettings.expiration hq ▸ hexp'⟩
  · rintro ⟨hfilter', hexp'⟩
    exact DeRes.bind_eq_ok.2 ⟨_, hexp', DeRes.bind_eq_ok.2 ⟨_, hfilter', rfl⟩⟩

/-- **Settings that were read from a table or an array of a configuration survive a round trip
exactly when each of their durations is a whole number of milliseconds that a `u64` counts**, and
the same holds of every duration that is read. -/
theorem round_trip_iff {tbl : Table} {xs : List TomlValue} {q : QosSettings}
    (hq : deserialize tbl = .ok q ∨ visitSeq xs = .ok q) {v : TomlValue} {o : Option Duration}
    (ho : OptDurationSerde.deserialize v = .ok o) :
    ((∃ out, q.serialize = .ok out ∧ deserialize out = .ok q) ↔
      (∀ d ∈ q.timeBasedFilter, d.WholeMillis) ∧ ∀ d ∈ q.expiration, d.WholeMillis) ∧
    ((∃ s, OptDurationSerde.serialize o = some s ∧
        OptDurationSerde.deserialize (.string s) = .ok o) ↔ ∀ d ∈ o, d.WholeMillis) := by
  constructor
  · have hbuffer := hq.elim buffer_lt_of_deserialize buffer_lt_of_visitSeq
    obtain ⟨out, hout, hiff⟩ := deserialize_serialize_iff hbuffer
    rw [← hiff]
    constructor
    · rintro ⟨out', hout', hback⟩
      cases hout.symm.trans hout'
      exact hback
    · exact fun hback => ⟨out, hout, hback⟩
  · obtain ⟨d, rfl⟩ := OptDurationSerde.exists_of_deserialize ho
    have hd := OptDurationSerde.deserialize_serialize_iff d
    constructor
    · rintro ⟨s, hs, hback⟩
      cases hs
      simpa using hd.1 hback
    · exact fun hwhole => ⟨_, rfl, hd.2 (hwhole d rfl)⟩

def withExpiration (text : String) : Table :=
  (∅ : Table).insert "expiration" (.string text)

theorem round_trip_iff_five_minutes :
    (∃ q, deserialize (withExpiration "5 min") = .ok q ∧
      ∃ out, q.serialize = .ok out ∧ deserialize out = .ok q) ∧
    ∃ o, OptDurationSerde.deserialize (.string "2 h") = .ok o ∧
      ∃ s, OptDurationSerde.serialize o = some s ∧
        OptDurationSerde.deserialize (.string s) = .ok o := by
  have hq : deserialize (withExpiration "5 min") =
      .ok ⟨none, .reliable, some (300 * 10 ^ 9), 100⟩ := rfl
  have ho : OptDurationSerde.deserialize (.string "2 h") = .ok (some (7200 * 10 ^ 9)) := rfl
  have hiff := @round_trip_iff (withExpiration "5 min") [] _ (.inl hq) _ _ ho
  refine ⟨⟨_, hq, hiff.1.2 ⟨by simp, ?_⟩⟩, _, ho, hiff.2.2 ?_⟩
  · simp [Duration.WholeMillis, Duration.asMillis]
  · simp [Duration.WholeMillis, Duration.asMillis]

/-- Ten microseconds are read back as no time at all, and the most seconds there are are written
as more milliseconds than are read. -/
theorem short_and_long_expirations_lost :
    (∃ q, deserialize (withExpiration "10us") = .ok q ∧
      ¬ ∃ out, q.serialize = .ok out ∧ deserialize out = .ok q) ∧
    ∃ q, deserialize (withExpiration "18446744073709551615") = .ok q ∧
      ¬ ∃ out, q.serialize = .ok out ∧ deserialize out = .ok q := by
  refine ⟨⟨⟨none, .reliable, some (10 * 10 ^ 3), 100⟩, rfl, ?_⟩,
    ⟨none, .reliable, some (18446744073709551615 * 10 ^ 9), 100⟩, rfl, ?_⟩
  · rintro ⟨out, hout, hback⟩
    cases hout
    change DeRes.ok (⟨none, .reliable, some 0, 100⟩ : QosSettings) = _ at hback
    simp at hback
  · rintro ⟨out, hout, hback⟩
    cases hout
    change DeRes.err "invalid integer" = _ at hback
    cases hback

end QosSettings

end Rounac

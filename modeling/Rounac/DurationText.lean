import Mathlib.Data.List.TakeDrop
import Rounac.Config.DurationSerde
import Rounac.Lib.Trim

/-!
# The texts of durations

A duration text is `ws* ['+'] digits ws* [unit] ws*`, of a number below `2 ^ 64` and one of six
units. `opt_duration_serde::deserialize` reads it as the number times the unit, without a unit in
seconds, unless that is `2 ^ 64` seconds or more: then the constructor of the duration panics. Every
other text is an error (`deserialize_of_text`, `exists_durationText`).

The reader never looks for the grammar: it trims, splits at the first letter that a unit may start
with, and trims the two parts again.
-/

namespace Rounac

open Trim

/-! ## Grammar -/

/-- The units of a duration text. -/
inductive TimeUnit
  | h
  | min
  | s
  | ms
  | us
  | ns
deriving DecidableEq, Repr

namespace TimeUnit

def text : TimeUnit → String
  | h => "h"
  | min => "min"
  | s => "s"
  | ms => "ms"
  | us => "us"
  | ns => "ns"

def nanos : TimeUnit → ℕ
  | h => 60 * 60 * 10 ^ 9
  | min => 60 * 10 ^ 9
  | s => 10 ^ 9
  | ms => 10 ^ 6
  | us => 10 ^ 3
  | ns => 1

end TimeUnit

def unitText (unit : Option TimeUnit) : List Char := (unit.map fun u => u.text.toList).getD []

/-- Seconds when there is no unit. -/
def unitNanos (unit : Option TimeUnit) : ℕ := (unit.map TimeUnit.nanos).getD (10 ^ 9)

/-- The duration texts, each with its number and its unit. -/
inductive DurationText : List Char → ℕ → Option TimeUnit → Prop
  | mk {front sign digits mid back : List Char} {unit : Option TimeUnit}
      (hfront : ∀ c ∈ front, isWhitespace c) (hsign : sign = [] ∨ sign = ['+'])
      (hne : digits ≠ []) (hdigits : ∀ c ∈ digits, c.isDigit)
      (hfits : Nat.ofDigitChars 10 digits 0 < 2 ^ 64) (hmid : ∀ c ∈ mid, isWhitespace c)
      (hback : ∀ c ∈ back, isWhitespace c) :
      DurationText (front ++ (sign ++ digits) ++ mid ++ unitText unit ++ back)
        (Nat.ofDigitChars 10 digits 0) unit

theorem DurationText.lt {s : List Char} {n : ℕ} {unit : Option TimeUnit}
    (h : DurationText s n unit) :
    n < 2 ^ 64 := by
  cases h with
  | mk _ _ _ _ hfits _ _ => exact hfits

/-! ## Characters and numbers -/

theorem toNat_of_isDigit {c : Char} (h : c.isDigit) : 48 ≤ c.toNat ∧ c.toNat ≤ 57 := by
  simpa [Char.isDigit, UInt32.le_iff_toNat_le] using h

theorem isWhitespace_of_isDigit {c : Char} (h : c.isDigit) : isWhitespace c = false := by
  have hc := toNat_of_isDigit h
  simp only [isWhitespace, Bool.or_eq_false_iff, Bool.and_eq_false_iff, decide_eq_false_iff_not,
    beq_eq_false_iff_ne]
  omega

theorem trim_eq_self {s : List Char} (h : ∀ c ∈ s, isWhitespace c = false) : trim s = s :=
  trimBy_eq_self_of_forall h

theorem stripPlus_of_digits {ds : List Char} (hds : ∀ c ∈ ds, c.isDigit) : stripPlus ds = ds := by
  unfold stripPlus
  split
  · exact absurd (hds '+' List.mem_cons_self) (by decide)
  · rfl

/-- A text of digits, with or without a sign, is read as its value, if that fits. -/
theorem u64FromStr_of_digits {sign ds : List Char} (hsign : sign = [] ∨ sign = ['+'])
    (hne : ds ≠ []) (hds : ∀ c ∈ ds, c.isDigit) :
    u64FromStr (sign ++ ds) =
      if Nat.ofDigitChars 10 ds 0 < 2 ^ 64 then some (Nat.ofDigitChars 10 ds 0) else none := by
  have hstrip : stripPlus (sign ++ ds) = ds := by
    rcases hsign with rfl | rfl
    · exact stripPlus_of_digits hds
    · rfl
  have hall : ds.all Char.isDigit := List.all_eq_true.2 hds
  simp only [u64FromStr, hstrip, hall, ne_eq, hne, not_false_eq_true, true_and]

/-- What is read as a number is digits, with or without a sign. -/
theorem exists_of_u64FromStr {s : List Char} {n : ℕ} (h : u64FromStr s = some n) :
    ∃ sign digits, s = sign ++ digits ∧ (sign = [] ∨ sign = ['+']) ∧ digits ≠ [] ∧
      (∀ c ∈ digits, c.isDigit) ∧ n = Nat.ofDigitChars 10 digits 0 ∧ n < 2 ^ 64 := by
  have hsplit : ∃ sign, s = sign ++ stripPlus s ∧ (sign = [] ∨ sign = ['+']) := by
    unfold stripPlus
    split
    · exact ⟨['+'], rfl, .inr rfl⟩
    · exact ⟨[], rfl, .inl rfl⟩
  obtain ⟨sign, hs, hsign⟩ := hsplit
  simp only [u64FromStr] at h
  split_ifs at h with hok
  cases h
  exact ⟨sign, stripPlus s, hs, hsign, hok.1, List.all_eq_true.1 hok.2.1, rfl, hok.2.2⟩

namespace OptDurationSerde

theorem startsSuffix_iff {c : Char} :
    startsSuffix c = true ↔ c = 'h' ∨ c = 'm' ∨ c = 'n' ∨ c = 's' ∨ c = 'u' := by
  simp [startsSuffix]

theorem startsSuffix_of_isDigit {c : Char} (h : c.isDigit) : startsSuffix c = false := by
  have hc := toNat_of_isDigit h
  by_contra hs
  rcases startsSuffix_iff.1 (by simpa using hs) with rfl | rfl | rfl | rfl | rfl <;> simp at hc

theorem startsSuffix_of_isWhitespace {c : Char} (h : isWhitespace c) : startsSuffix c = false := by
  by_contra hs
  rcases startsSuffix_iff.1 (by simpa using hs) with rfl | rfl | rfl | rfl | rfl <;> revert h <;>
    decide

/-! ## Units -/

/-- A conversion in a unit: it panics where the seconds do not fit. -/
def convert (n : ℕ) (unit : Option TimeUnit) : DeRes (Option Duration) :=
  if n * unitNanos unit < 2 ^ 64 * 10 ^ 9 then .ok (some (n * unitNanos unit)) else .panicked

theorem ofUnit_bind {secs : ℕ} (hsecs : 0 < secs) (n : ℕ) :
    (do return some (← Duration.ofUnit secs n)) =
      if n * (secs * 10 ^ 9) < 2 ^ 64 * 10 ^ 9 then DeRes.ok (some (n * (secs * 10 ^ 9)))
      else .panicked := by
  have hiff : (2 ^ 64 - 1) / secs < n ↔ ¬ n * (secs * 10 ^ 9) < 2 ^ 64 * 10 ^ 9 := by
    rw [Nat.div_lt_iff_lt_mul hsecs, ← Nat.mul_assoc]
    omega
  unfold Duration.ofUnit
  by_cases hfits : n * (secs * 10 ^ 9) < 2 ^ 64 * 10 ^ 9
  · rw [if_neg (by rw [hiff]; exact not_not.2 hfits), if_pos hfits, Nat.mul_assoc]
    rfl
  · rw [if_pos (hiff.2 hfits), if_neg hfits]
    rfl

theorem fits_of_le {n nanos : ℕ} (hn : n < 2 ^ 64) (h : nanos ≤ 10 ^ 9) :
    n * nanos < 2 ^ 64 * 10 ^ 9 :=
  Nat.lt_of_le_of_lt (Nat.mul_le_mul_left n h) (Nat.mul_lt_mul_of_pos_right hn (by decide))

theorem durationValueSuffix_unit {n : ℕ} (hn : n < 2 ^ 64) (unit : Option TimeUnit) :
    durationValueSuffix n (unit.map TimeUnit.text) = convert n unit := by
  unfold convert
  cases unit with
  | none => exact (if_pos (fits_of_le hn (by decide))).symm
  | some u =>
    cases u with
    | h => exact ofUnit_bind (by decide) n
    | min => exact ofUnit_bind (by decide) n
    | s | ms | us => exact (if_pos (fits_of_le hn (by decide))).symm
    | ns =>
      have hfits : n * 1 < 2 ^ 64 * 10 ^ 9 := fits_of_le hn (by decide)
      show DeRes.ok (some n) = if n * 1 < 2 ^ 64 * 10 ^ 9 then .ok (some (n * 1)) else .panicked
      rw [if_pos hfits, Nat.mul_one]

theorem durationValueSuffix_eq_none {n : ℕ} {suf : String} (h : ∀ u : TimeUnit, suf ≠ u.text) :
    durationValueSuffix n (some suf) = .ok none := by
  unfold durationValueSuffix
  split
  · exact absurd (Option.some.inj ‹_›) (h .h)
  · exact absurd (Option.some.inj ‹_›) (h .min)
  · exact absurd (Option.some.inj ‹_›) (h .s)
  · exact absurd (Option.some.inj ‹_›) (h .ms)
  · exact absurd (Option.some.inj ‹_›) (h .us)
  · exact absurd (Option.some.inj ‹_›) (h .ns)
  · rfl
  · cases ‹some suf = none›

/-! ## Soundness and completeness -/

/-- That no character passes a test can be computed. -/
theorem not_of_all_not {p : Char → Bool} {s : List Char} (h : (s.all fun c => !p c) = true) :
    ∀ c ∈ s, p c = false := by
  intro c hc
  simpa using List.all_eq_true.1 h c hc

theorem unit_text (u : TimeUnit) :
    (∀ c ∈ u.text.toList, isWhitespace c = false) ∧
      ∃ c rest, u.text.toList = c :: rest ∧ startsSuffix c = true := by
  cases u <;> exact ⟨not_of_all_not (by decide), _, _, rfl, by decide⟩

theorem span_unit {s : List Char} (hs : ∀ c ∈ s, startsSuffix c = false) (unit : Option TimeUnit) :
    (s ++ unitText unit).span (fun c => !startsSuffix c) = (s, unitText unit) := by
  have hall : ∀ c ∈ s, (!startsSuffix c) = true := fun c hc => by rw [hs c hc]; rfl
  rw [List.span_eq_takeWhile_dropWhile, List.takeWhile_append_of_pos hall,
    List.dropWhile_append_of_pos hall]
  cases unit with
  | none => simp [unitText]
  | some u =>
    obtain ⟨-, c, rest, htext, hc⟩ := unit_text u
    simp [unitText, htext, hc]

theorem trim_durationText {front core mid back : List Char} (unit : Option TimeUnit)
    (hfront : ∀ c ∈ front, isWhitespace c) (hne : core ≠ [])
    (hcore : ∀ c ∈ core, isWhitespace c = false) (hmid : ∀ c ∈ mid, isWhitespace c)
    (hback : ∀ c ∈ back, isWhitespace c) :
    ∃ mid', trim (front ++ core ++ mid ++ unitText unit ++ back) = core ++ mid' ++ unitText unit ∧
      ∀ c ∈ mid', isWhitespace c := by
  have hedges : trim (front ++ core ++ mid ++ unitText unit ++ back) =
      trim (core ++ mid ++ unitText unit) := by
    show trimBy isWhitespace _ = trimBy isWhitespace _
    rw [trimBy_append_right hback, List.append_assoc, List.append_assoc,
      trimBy_append_left hfront, List.append_assoc]
  rw [hedges]
  cases unit with
  | none =>
    refine ⟨[], ?_, by simp⟩
    show trimBy isWhitespace (core ++ mid ++ []) = core ++ [] ++ []
    rw [List.append_nil, trimBy_append_right hmid, trimBy_eq_self_of_forall hcore]
    simp
  | some u =>
    obtain ⟨hspace, c, rest, htext, -⟩ := unit_text u
    refine ⟨mid, trimBy_eq_self hne ?_ hcore hspace mid, hmid⟩
    simp [htext]

theorem deserialize_of_parts {s : String} {valStr sufStr : List Char} {n : ℕ}
    {unit : Option TimeUnit}
    (hspan : (trim s.toList).span (fun c => !startsSuffix c) = (valStr, sufStr))
    (hnum : u64FromStr (trim valStr) = some n) (hsuf : trim sufStr = unitText unit) :
    deserialize (.string s) = convert n unit := by
  have hn : n < 2 ^ 64 := by
    obtain ⟨-, -, -, -, -, -, -, hn⟩ := exists_of_u64FromStr hnum
    exact hn
  have hconv := durationValueSuffix_unit hn unit
  simp only [deserialize, hspan, hnum, hsuf]
  cases unit with
  | none =>
    have hnil : unitText none = [] := rfl
    rw [if_pos hnil]
    show durationValueSuffix n none >>= _ = _
    rw [show durationValueSuffix n none = convert n none from hconv]
    unfold convert
    split_ifs <;> rfl
  | some u =>
    have hne : unitText (some u) ≠ [] := by
      obtain ⟨-, c, rest, htext, -⟩ := unit_text u
      simp [unitText, htext]
    have htext : String.ofList (unitText (some u)) = u.text := String.ofList_toList
    rw [if_neg hne, htext]
    show durationValueSuffix n (some u.text) >>= _ = _
    rw [show durationValueSuffix n (some u.text) = convert n (some u) from hconv]
    unfold convert
    split_ifs <;> rfl

/-- **A duration text is read** as its number in its unit. -/
theorem deserialize_of_text {s : String} {n : ℕ} {unit : Option TimeUnit}
    (h : DurationText s.toList n unit) : deserialize (.string s) = convert n unit := by
  generalize htext : s.toList = text at h
  cases h with
  | @mk front sign digits mid back _ hfront hsign hne hdigits hfits hmid hback =>
    have hcore : ∀ c ∈ sign ++ digits, isWhitespace c = false ∧ startsSuffix c = false := by
      intro c hc
      rcases List.mem_append.1 hc with hc | hc
      · rcases hsign with rfl | rfl
        · cases hc
        · cases List.mem_singleton.1 hc
          decide
      · exact ⟨isWhitespace_of_isDigit (hdigits c hc), startsSuffix_of_isDigit (hdigits c hc)⟩
    obtain ⟨mid', htrim, hmid'⟩ := trim_durationText unit hfront (by simp [hne])
      (fun c hc => (hcore c hc).1) hmid hback
    -- The letters of the unit are the first that a suffix may start with.
    have hspan : (trim s.toList).span (fun c => !startsSuffix c) =
        (sign ++ digits ++ mid', unitText unit) := by
      rw [htext, htrim]
      refine span_unit (fun c hc => ?_) unit
      rcases List.mem_append.1 hc with hc | hc
      · exact (hcore c hc).2
      · exact startsSuffix_of_isWhitespace (hmid' c hc)
    have hval : trim (sign ++ digits ++ mid') = sign ++ digits := by
      show trimBy isWhitespace _ = _
      rw [trimBy_append_right hmid', trimBy_eq_self_of_forall fun c hc => (hcore c hc).1]
    refine deserialize_of_parts hspan ?_ ?_
    · rw [hval, u64FromStr_of_digits hsign hne hdigits, if_pos hfits]
    · cases unit with
      | none => rfl
      | some u => exact trim_eq_self (unit_text u).1

/-- The parts that `deserialize` reads make a duration text. -/
theorem durationText_of_parts {s valStr sufStr : List Char} {n : ℕ} {unit : Option TimeUnit}
    (hdur : trim s = valStr ++ sufStr) (hnum : u64FromStr (trim valStr) = some n)
    (hsuf : trim sufStr = unitText unit) : DurationText s n unit := by
  obtain ⟨front, back, hs, hfront, hback⟩ := exists_trimBy isWhitespace s
  obtain ⟨front', mid, hval, hfront', hmid⟩ := exists_trimBy isWhitespace valStr
  obtain ⟨mid', back', hsuf', hmid', hback'⟩ := exists_trimBy isWhitespace sufStr
  obtain ⟨sign, digits, htrim, hsign, hne, hdigits, rfl, hfits⟩ := exists_of_u64FromStr hnum
  have htext : s = front ++ front' ++ (sign ++ digits) ++ (mid ++ mid') ++ unitText unit ++
      (back' ++ back) := by
    rw [← htrim, ← hsuf]
    calc s = front ++ (valStr ++ sufStr) ++ back := by rw [← hdur]; exact hs
      _ = front ++ ((front' ++ trim valStr ++ mid) ++ (mid' ++ trim sufStr ++ back')) ++ back :=
        congrArg₂ (fun x y => front ++ (x ++ y) ++ back) hval hsuf'
      _ = _ := by simp only [List.append_assoc]
  rw [htext]
  refine .mk ?_ hsign hne hdigits hfits ?_ ?_
  · exact List.forall_mem_append.2 ⟨hfront, hfront'⟩
  · exact List.forall_mem_append.2 ⟨hmid, hmid'⟩
  · exact List.forall_mem_append.2 ⟨hback', hback⟩

/-- **What is not refused is a duration text.** -/
theorem exists_durationText {s : String} (h : ∀ msg, deserialize (.string s) ≠ .err msg) :
    ∃ n unit, DurationText s.toList n unit := by
  rcases hspan : (trim s.toList).span (fun c => !startsSuffix c) with ⟨valStr, sufStr⟩
  have hdur : trim s.toList = valStr ++ sufStr := by
    rw [List.span_eq_takeWhile_dropWhile] at hspan
    cases hspan
    exact List.takeWhile_append_dropWhile.symm
  cases hnum : u64FromStr (trim valStr) with
  | none => exact absurd (by simp only [deserialize, hspan, hnum]) (h "invalid integer")
  | some n =>
    by_cases hnil : trim sufStr = []
    · exact ⟨n, none, durationText_of_parts hdur hnum hnil⟩
    · by_cases hunit : ∃ u : TimeUnit, String.ofList (trim sufStr) = u.text
      · obtain ⟨u, hu⟩ := hunit
        refine ⟨n, some u, durationText_of_parts hdur hnum ?_⟩
        rw [← String.toList_ofList (l := trim sufStr), hu]
        rfl
      · have hnone := durationValueSuffix_eq_none (n := n) (not_exists.1 hunit)
        refine absurd ?_ (h "invalid duration suffix")
        simp only [deserialize, hspan, hnum, if_neg hnil, hnone]
        rfl

/-- **The parser accepts exactly the duration texts**: every other text is an error, and a duration
text of less than `2 ^ 64` seconds is read as exactly its number in its unit. -/
theorem accepts_exactly_duration_texts :
    (∀ s : String, (¬ ∃ n unit, DurationText s.toList n unit) →
      ∃ msg, deserialize (.string s) = .err msg) ∧
    ∀ (s : String) (n : ℕ) (unit : Option TimeUnit), DurationText s.toList n unit →
      n * unitNanos unit < 2 ^ 64 * 10 ^ 9 →
      deserialize (.string s) = .ok (some (n * unitNanos unit)) := by
  constructor
  · intro s hno
    by_contra herr
    exact hno (exists_durationText fun msg hmsg => herr ⟨msg, hmsg⟩)
  · intro s n unit htext hfits
    rw [deserialize_of_text htext, convert, if_pos hfits]

/-- A text with a sign and white space all over, and an empty one. -/
theorem accepts_plus_five_minutes :
    (∃ msg, deserialize (.string "") = .err msg) ∧
      deserialize (.string " +5 min ") = .ok (some (300 * 10 ^ 9)) := by
  constructor
  · refine accepts_exactly_duration_texts.1 "" ?_
    rintro ⟨n, unit, htext⟩
    have hread := deserialize_of_text htext
    change DeRes.err "invalid integer" = _ at hread
    unfold convert at hread
    split_ifs at hread
  · refine accepts_exactly_duration_texts.2 " +5 min " 5 (some .min) ?_ (by decide)
    have htext : " +5 min ".toList =
        [' '] ++ (['+'] ++ ['5']) ++ [' '] ++ unitText (some .min) ++ [' '] := by decide
    rw [htext]
    have hspace : ∀ c ∈ [' '], isWhitespace c := List.all_eq_true.1 (by decide)
    have hdigit : ∀ c ∈ ['5'], c.isDigit := List.all_eq_true.1 (by decide)
    exact .mk hspace (.inr rfl) (List.cons_ne_nil _ _) hdigit (by decide) hspace hspace

end OptDurationSerde

end Rounac

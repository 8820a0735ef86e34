import Mathlib.Data.BitVec

/-!
# Wrapping counters

An atomic counter of `w` bits that counts a number of owners wraps at `2 ^ w`. The counter that
has counted `n` owners is `BitVec.ofNat w n`; adding and removing one owner step it, and a test
against `1` tells "exactly one owner" only up to a multiple of `2 ^ w`.
-/

namespace WrapCounter

variable {w : ℕ}

/-- The value of a `w`-bit counter that has counted `n` owners. -/
abbrev counted (w n : ℕ) : BitVec w := BitVec.ofNat w n

theorem counted_add_one (n : ℕ) : counted w n + 1 = counted w (n + 1) := by
  simp [counted, BitVec.ofNat_add]

theorem counted_sub_one {n : ℕ} (hn : 0 < n) : counted w n - 1 = counted w (n - 1) := by
  obtain ⟨m, rfl⟩ := Nat.exists_eq_add_of_lt hn
  rw [Nat.zero_add, ← counted_add_one, Nat.add_sub_cancel]
  exact BitVec.add_sub_cancel _ _

/-- The test against `1` looks at the number of owners modulo `2 ^ w`. -/
theorem counted_eq_one_iff (hw : 0 < w) (n : ℕ) : counted w n = 1 ↔ n % 2 ^ w = 1 := by
  have h1 : (1 : ℕ) % 2 ^ w = 1 := Nat.mod_eq_of_lt (Nat.one_lt_two_pow hw.ne')
  constructor
  · intro h
    have := congrArg BitVec.toNat h
    simpa [counted, h1] using this
  · intro h
    apply BitVec.eq_of_toNat_eq
    simp [counted, h, h1]

theorem counted_eq_one_iff_of_lt {n : ℕ} (hw : 0 < w) (hn : n < 2 ^ w) :
    counted w n = 1 ↔ n = 1 := by
  rw [counted_eq_one_iff hw, Nat.mod_eq_of_lt hn]

theorem toNat_counted_of_lt {n : ℕ} (hn : n < 2 ^ w) : (counted w n).toNat = n := by
  simp [counted, Nat.mod_eq_of_lt hn]

end WrapCounter

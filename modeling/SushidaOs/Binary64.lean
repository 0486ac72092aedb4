import Mathlib.Algebra.Order.Ring.Rat
import Mathlib.Data.Int.Log
import Mathlib.Data.Rat.Floor
import Mathlib.Tactic.FieldSimp
import Mathlib.Tactic.Linarith

/-!
# SushidaOs.Binary64

The double nearest to a rational, as a rational again.

A double has 53 binary digits, the last of them at the place `lastPlace`, which
is at least `2 ^ (-1074)`.  Of two nearest ones the even is taken
(`roundEven`).  The exponent has no upper end here; `Overflows` says where a
double is infinite.
-/

namespace SushidaOs

namespace Binary64

/-- The nearest integer, and of two the even one. -/
def roundEven (q : ℚ) : ℤ :=
  if Int.fract q < 1 / 2 then ⌊q⌋
  else if 1 / 2 < Int.fract q then ⌊q⌋ + 1
  else if ⌊q⌋ % 2 = 0 then ⌊q⌋
  else ⌊q⌋ + 1

/-- The exponent of the last of 53 binary digits. -/
def lastPlace (q : ℚ) : ℤ := max (Int.log 2 |q| - 52) (-1074)

/-- The value of the nearest double. -/
def nearest (q : ℚ) : ℚ := roundEven (q / 2 ^ lastPlace q) * 2 ^ lastPlace q

/-- The nearest double would have an exponent above the largest one. -/
def Overflows (q : ℚ) : Prop := 2 ^ 1024 ≤ |nearest q|

instance (q : ℚ) : Decidable (Overflows q) := inferInstanceAs (Decidable (_ ≤ _))

@[simp] theorem roundEven_intCast (n : ℤ) : roundEven n = n := by
  simp [roundEven]

/-- An integer in units of the last place is its own double. -/
theorem nearest_of_units {q : ℚ} {n : ℤ} (h : q = n * 2 ^ lastPlace q) : nearest q = q := by
  have hpow : (2 : ℚ) ^ lastPlace q ≠ 0 := zpow_ne_zero _ two_ne_zero
  have hunits : q / 2 ^ lastPlace q = n := (div_eq_iff hpow).mpr h
  rw [nearest, hunits, roundEven_intCast, ← h]

/-- The last place of a number of at most 53 binary digits is not above its own. -/
theorem lastPlace_le {m k : ℤ} (hne : m ≠ 0) (hm : |m| < 2 ^ 53) (hk : -1074 ≤ k) :
    lastPlace (m * 2 ^ k) ≤ k := by
  refine max_le ?_ hk
  have hpow : (0 : ℚ) < 2 ^ k := zpow_pos two_pos k
  have habs : |(m : ℚ) * 2 ^ k| = |(m : ℚ)| * 2 ^ k := by rw [abs_mul, abs_of_pos hpow]
  have hpos : 0 < |(m : ℚ) * 2 ^ k| := by
    rw [habs]
    exact mul_pos (abs_pos.mpr (Int.cast_ne_zero.mpr hne)) hpow
  have hbound : |(m : ℚ)| < 2 ^ 53 := by exact_mod_cast hm
  have hlt : |(m : ℚ) * 2 ^ k| < ((2 : ℕ) : ℚ) ^ (53 + k) := by
    rw [habs, Nat.cast_two, zpow_add₀ two_ne_zero]
    exact mul_lt_mul_of_pos_right (by exact_mod_cast hbound) hpow
  have hlog := (Int.lt_zpow_iff_log_lt one_lt_two hpos).mp hlt
  omega

/-- A number of at most 53 binary digits is its own double. -/
theorem nearest_eq_self {m k : ℤ} (hm : |m| < 2 ^ 53) (hk : -1074 ≤ k) :
    nearest (m * 2 ^ k) = m * 2 ^ k := by
  by_cases hne : m = 0
  · exact nearest_of_units (n := 0) (by simp [hne])
  obtain ⟨j, hj⟩ := Int.le.dest (lastPlace_le hne hm hk)
  refine nearest_of_units (n := m * 2 ^ j) ?_
  have hpow : (2 : ℚ) ^ k = 2 ^ j * 2 ^ lastPlace (m * 2 ^ k) := by
    rw [← zpow_natCast, ← zpow_add₀ two_ne_zero, add_comm, hj]
  calc (m : ℚ) * 2 ^ k = m * (2 ^ j * 2 ^ lastPlace (m * 2 ^ k)) := congrArg _ hpow
    _ = ((m * 2 ^ j : ℤ) : ℚ) * 2 ^ lastPlace (m * 2 ^ k) := by push_cast; ring

/-- The double of an integer is an integer. -/
theorem nearest_intCast (n : ℤ) : ∃ m : ℤ, nearest n = m := by
  by_cases hplace : 0 ≤ lastPlace n
  · obtain ⟨k, hk⟩ := Int.eq_ofNat_of_zero_le hplace
    exact ⟨roundEven (n / 2 ^ k) * 2 ^ k, by simp [nearest, hk]⟩
  · obtain ⟨k, hk⟩ := Int.exists_eq_neg_ofNat (le_of_not_ge hplace)
    refine ⟨n, nearest_of_units (n := n * 2 ^ k) ?_⟩
    rw [hk]
    simp

end Binary64

end SushidaOs

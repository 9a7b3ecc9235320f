import Mathlib.Data.Int.Log
import Mathlib.Data.Rat.Floor
import Mathlib.Tactic.FieldSimp
import Mathlib.Tactic.Linarith
import Mathlib.Tactic.Ring

/-! Binary floating-point numbers as exact rationals. Every operation rounds its exact
result to nearest, ties to even; infinities and signed zeros are not modelled. -/
namespace Dhtperf.Library

def nearest (x : Rat) : Int :=
  if x - ⌊x⌋ < 1 / 2 then ⌊x⌋ else if 1 / 2 < x - ⌊x⌋ then ⌊x⌋ + 1 else ⌊x⌋ + ⌊x⌋ % 2

@[simp] theorem nearest_intCast (k : Int) : nearest k = k := by
  simp [nearest]

theorem nearest_bounds (x : Rat) : ⌊x⌋ ≤ nearest x ∧ nearest x ≤ ⌊x⌋ + 1 := by
  unfold nearest
  split
  · omega
  · split <;> omega

theorem nearest_magnitude {x : Rat} {bound : Int} (below : |x| < bound) : |nearest x| ≤ bound := by
  obtain ⟨negative,positive⟩ := abs_lt.mp below
  obtain ⟨low,high⟩ := nearest_bounds x
  have least : -bound ≤ ⌊x⌋ := Int.le_floor.mpr (by push_cast; exact le_of_lt negative)
  have most : ⌊x⌋ < bound := Int.floor_lt.mpr positive
  exact abs_le.mpr ⟨by omega,by omega⟩

/-- So many binary digits, and the exponent of the smallest spacing. -/
structure FloatFormat where
  digits : Nat
  least : Int
  positive : 0 < digits

namespace FloatFormat
variable (format : FloatFormat)

/-- The exponent of the last digit kept of `x`. -/
def lastPlace (x : Rat) : Int := max (Int.log 2 |x| + 1 - format.digits) format.least

def round (x : Rat) : Rat := nearest (x / 2 ^ format.lastPlace x) * 2 ^ format.lastPlace x

@[simp] theorem round_zero : format.round 0 = 0 := by
  simp [round,nearest]

theorem magnitude_below (x : Rat) : |x / 2 ^ format.lastPlace x| < ((2 ^ format.digits : Int) : Rat) := by
  have unit : (0 : Rat) < 2 ^ format.lastPlace x := zpow_pos (by norm_num) _
  have place : Int.log 2 |x| + 1 ≤ format.digits + format.lastPlace x := by
    unfold lastPlace
    omega
  rw [abs_div,abs_of_pos unit,div_lt_iff₀ unit]
  calc |x| < ((2 : Nat) : Rat) ^ (Int.log 2 |x| + 1) := Int.lt_zpow_succ_log_self (by decide) _
    _ ≤ ((2 : Nat) : Rat) ^ (format.digits + format.lastPlace x) := zpow_le_zpow_right₀ (by norm_num) place
    _ = ((2 ^ format.digits : Int) : Rat) * 2 ^ format.lastPlace x := by
      rw [zpow_add₀ (by norm_num),zpow_natCast]
      push_cast
      rfl

/-- A multiple of its own last place is not changed. -/
theorem round_multiple (y : Rat) (k : Int) (multiple : y = k * 2 ^ format.lastPlace y) : format.round y = y := by
  have unit : (2 : Rat) ^ format.lastPlace y ≠ 0 := zpow_ne_zero _ (by norm_num)
  have exact : y / 2 ^ format.lastPlace y = k := (div_eq_iff unit).mpr multiple
  rw [round,exact,nearest_intCast,← multiple]

theorem round_scaled (k e : Int) (place : format.least ≤ e) (size : |k| ≤ 2 ^ format.digits) :
    format.round (k * 2 ^ e) = k * 2 ^ e := by
  have positive := format.positive
  by_cases zero : k = 0
  · simp [zero]
  have unit : (0 : Rat) < 2 ^ e := zpow_pos (by norm_num) _
  have magnitude : |(k : Rat) * 2 ^ e| = ((|k| : Int) : Rat) * 2 ^ e := by
    rw [abs_mul,abs_of_pos unit,Int.cast_abs]
  have nonzero : (0 : Rat) < |(k : Rat) * 2 ^ e| :=
    abs_pos.mpr (mul_ne_zero (Int.cast_ne_zero.mpr zero) (ne_of_gt unit))
  rcases lt_or_eq_of_le size with inside | full
  · -- the last place is at or below `e`
    have small : |(k : Rat) * 2 ^ e| < ((2 : Nat) : Rat) ^ ((format.digits : Int) + e) := by
      rw [magnitude,zpow_add₀ (by norm_num),zpow_natCast]
      have cast : ((|k| : Int) : Rat) < ((2 : Nat) : Rat) ^ format.digits := by exact_mod_cast inside
      exact mul_lt_mul_of_pos_right cast unit
    have log := (Int.lt_zpow_iff_log_lt (by decide) nonzero).mp small
    have lower : format.lastPlace (k * 2 ^ e) ≤ e := by
      unfold lastPlace
      omega
    obtain ⟨gap,shift⟩ := Int.eq_ofNat_of_zero_le (sub_nonneg.mpr lower)
    apply round_multiple _ _ (k * 2 ^ gap)
    push_cast
    rw [mul_assoc,← zpow_natCast,← zpow_add₀ (by norm_num)]
    congr 2
    omega
  · -- rounded up to the next power of two: one place higher
    have power : |(k : Rat) * 2 ^ e| = ((2 : Nat) : Rat) ^ ((format.digits : Int) + e) := by
      rw [magnitude,full,zpow_add₀ (by norm_num),zpow_natCast]
      push_cast
      rfl
    have higher : format.lastPlace (k * 2 ^ e) = e + 1 := by
      unfold lastPlace
      rw [power,Int.log_zpow (by decide)]
      omega
    obtain ⟨half,digits⟩ := Nat.exists_eq_succ_of_ne_zero (ne_of_gt positive)
    have sign : k = k.sign * 2 ^ half * 2 := by
      rw [digits,pow_succ] at full
      calc k = k.sign * |k| := (Int.sign_mul_abs k).symm
        _ = k.sign * 2 ^ half * 2 := by rw [full,mul_assoc]
    apply round_multiple _ _ (k.sign * 2 ^ half)
    rw [higher,zpow_add₀ (by norm_num),zpow_one,mul_comm ((2 : Rat) ^ e),← mul_assoc]
    congr 1
    exact_mod_cast sign

theorem round_round (x : Rat) : format.round (format.round x) = format.round x :=
  format.round_scaled _ _ (le_max_right _ _) (nearest_magnitude (format.magnitude_below x))

structure Number (format : FloatFormat) where
  value : Rat
  exact : format.round value = value
deriving DecidableEq

namespace Number
variable {format : FloatFormat}

def ofRat (x : Rat) : Number format := ⟨format.round x,format.round_round x⟩

instance : Zero (Number format) := ⟨⟨0,format.round_zero⟩⟩

instance : Add (Number format) := ⟨fun a b => ofRat (a.value + b.value)⟩

instance : Sub (Number format) := ⟨fun a b => ofRat (a.value - b.value)⟩

instance : Div (Number format) := ⟨fun a b => ofRat (a.value / b.value)⟩

end Number
end FloatFormat
end Dhtperf.Library

import Mathlib.Data.Int.Log
import Mathlib.Data.Rat.Floor
import Mathlib.Tactic.Linarith
import Mathlib.Tactic.FieldSimp
import Mathlib.Tactic.Ring
import Mathlib.Tactic.NormNum

/-! # Decimal numbers of bounded length

Numbers are rounded half away from zero, to a number of decimals or to a number of significant
digits. A number that fits is kept as it is. -/
namespace Decimals

def roundHalfUp (x : ℚ) : ℤ := if 0 ≤ x then ⌊x + 1 / 2⌋ else -⌊-x + 1 / 2⌋

def toPlaces (places : ℕ) (x : ℚ) : ℚ := roundHalfUp (x * 10 ^ places) / 10 ^ places

/-- The exponent of the last of `digits` significant digits. -/
def lastExponent (digits : ℕ) (x : ℚ) : ℤ := Int.log 10 |x| + 1 - digits

def toSignificant (digits : ℕ) (x : ℚ) : ℚ :=
  roundHalfUp (x / 10 ^ lastExponent digits x) * 10 ^ lastExponent digits x

def HasPlaces (places : ℕ) (x : ℚ) : Prop := ∃ n : ℤ, x = n / 10 ^ places

@[simp] theorem roundHalfUp_intCast (n : ℤ) : roundHalfUp n = n := by
  have hhalf : ⌊(1 / 2 : ℚ)⌋ = 0 := by
    rw [Int.floor_eq_zero_iff]
    constructor <;> norm_num
  have hneg : ⌊-(n : ℚ) + 1 / 2⌋ = -n := by
    rw [← Int.cast_neg, Int.floor_intCast_add, hhalf, add_zero]
  rw [roundHalfUp, Int.floor_intCast_add, hhalf, hneg, add_zero, neg_neg, ite_self]

theorem roundHalfUp_neg (x : ℚ) : roundHalfUp (-x) = -roundHalfUp x := by
  rcases lt_trichotomy x 0 with hx | rfl | hx
  · rw [roundHalfUp, roundHalfUp, if_pos (by linarith), if_neg (by linarith), neg_neg]
  · have hzero : roundHalfUp 0 = 0 := by exact_mod_cast roundHalfUp_intCast 0
    rw [neg_zero, hzero, neg_zero]
  · rw [roundHalfUp, roundHalfUp, if_neg (by linarith), if_pos (by linarith), neg_neg]

variable {x y : ℚ}

theorem le_roundHalfUp {n : ℤ} (h : (n : ℚ) ≤ x) : n ≤ roundHalfUp x := by
  rw [roundHalfUp]
  split
  · apply Int.le_floor.mpr
    linarith
  · have hlt : ⌊-x + 1 / 2⌋ < -n + 1 := by
      apply Int.floor_lt.mpr
      push_cast
      linarith
    omega

theorem pow_pos' (places : ℕ) : (0 : ℚ) < 10 ^ places := by positivity

theorem hasPlaces_toPlaces (places : ℕ) (x : ℚ) : HasPlaces places (toPlaces places x) :=
  ⟨roundHalfUp (x * 10 ^ places), rfl⟩

variable {digits places n : ℕ} {k : ℤ}

theorem toPlaces_eq (h : HasPlaces places x) : toPlaces places x = x := by
  obtain ⟨n, rfl⟩ := h
  have hpow := (pow_pos' places).ne'
  rw [toPlaces, div_mul_cancel₀ _ hpow, roundHalfUp_intCast]

theorem toPlaces_nonneg (h : 0 ≤ x) : 0 ≤ toPlaces places x := by
  have hround : 0 ≤ roundHalfUp (x * 10 ^ places) := by
    apply le_roundHalfUp
    push_cast
    positivity
  rw [toPlaces]
  positivity

theorem HasPlaces.add (hx : HasPlaces places x) (hy : HasPlaces places y) :
    HasPlaces places (x + y) := by
  obtain ⟨n, rfl⟩ := hx
  obtain ⟨m, rfl⟩ := hy
  exact ⟨n + m, by push_cast; ring⟩

theorem HasPlaces.neg (hx : HasPlaces places x) : HasPlaces places (-x) := by
  obtain ⟨n, rfl⟩ := hx
  exact ⟨-n, by push_cast; ring⟩

theorem HasPlaces.sub (hx : HasPlaces places x) (hy : HasPlaces places y) :
    HasPlaces places (x - y) := by
  rw [sub_eq_add_neg]
  exact hx.add hy.neg

theorem HasPlaces.add_iff (hx : HasPlaces places x) :
    HasPlaces places (x + y) ↔ HasPlaces places y := by
  refine ⟨fun h => ?_, hx.add⟩
  have hsub := h.sub hx
  rwa [add_sub_cancel_left] at hsub

theorem toSignificant_neg (digits : ℕ) (x : ℚ) :
    toSignificant digits (-x) = -toSignificant digits x := by
  rw [toSignificant, toSignificant, lastExponent, abs_neg, ← lastExponent, neg_div,
    roundHalfUp_neg, Int.cast_neg, neg_mul]

theorem toSignificant_nonneg (h : 0 ≤ x) : 0 ≤ toSignificant digits x := by
  have hpow : (0 : ℚ) < 10 ^ lastExponent digits x := zpow_pos (by norm_num) _
  have hround : 0 ≤ roundHalfUp (x / 10 ^ lastExponent digits x) := by
    apply le_roundHalfUp
    push_cast
    positivity
  rw [toSignificant]
  positivity

theorem toSignificant_eq (h : HasPlaces places x) (hbound : |x| < 10 ^ ((digits : ℤ) - places)) :
    toSignificant digits x = x := by
  rcases eq_or_ne x 0 with rfl | hne
  · have hzero : roundHalfUp 0 = 0 := by exact_mod_cast roundHalfUp_intCast 0
    rw [toSignificant, zero_div, hzero, Int.cast_zero, zero_mul]
  · have hpos : 0 < |x| := abs_pos.mpr hne
    have hlog : Int.log 10 |x| < (digits : ℤ) - places := by
      by_contra hle
      have hge : ((10 : ℕ) : ℚ) ^ ((digits : ℤ) - places) ≤ |x| :=
        (Int.zpow_le_iff_le_log (by norm_num) hpos).mpr (not_lt.mp hle)
      push_cast at hge
      linarith
    obtain ⟨k, hk⟩ : ∃ k : ℕ, lastExponent digits x = -((places : ℤ) + k) := by
      refine ⟨(-(lastExponent digits x) - places).toNat, ?_⟩
      rw [lastExponent]
      omega
    have hpow : (0 : ℚ) < 10 ^ lastExponent digits x := zpow_pos (by norm_num) _
    obtain ⟨n, hn⟩ := h
    have hwhole : x / 10 ^ lastExponent digits x = ((n * 10 ^ k : ℤ) : ℚ) := by
      rw [hk, zpow_neg, div_inv_eq_mul, hn, zpow_add₀ (by norm_num), zpow_natCast, zpow_natCast]
      push_cast
      field_simp
    rw [toSignificant, hwhole, roundHalfUp_intCast, ← hwhole, div_mul_cancel₀ _ hpow.ne']

theorem pow_le_toSignificant (hdigits : 0 < digits) (h : (10 : ℚ) ^ k ≤ x) :
    (10 : ℚ) ^ k ≤ toSignificant digits x := by
  have hx : 0 < x := lt_of_lt_of_le (zpow_pos (by norm_num) k) h
  have habs : |x| = x := abs_of_pos hx
  have hlog : k ≤ Int.log 10 x :=
    (Int.zpow_le_iff_le_log (by norm_num) hx).mp (by push_cast; exact h)
  have hself : (10 : ℚ) ^ Int.log 10 x ≤ x := by
    have hle := Int.zpow_log_le_self (b := 10) (by norm_num) hx
    push_cast at hle
    exact hle
  have hpow : (0 : ℚ) < 10 ^ lastExponent digits x := zpow_pos (by norm_num) _
  have hsplit : (10 : ℚ) ^ Int.log 10 x =
      ((10 ^ (digits - 1) : ℤ) : ℚ) * 10 ^ lastExponent digits x := by
    push_cast
    rw [← zpow_natCast, ← zpow_add₀ (by norm_num), lastExponent, habs]
    congr 1
    omega
  have hround : (10 ^ (digits - 1) : ℤ) ≤ roundHalfUp (x / 10 ^ lastExponent digits x) := by
    apply le_roundHalfUp
    rw [le_div_iff₀ hpow, ← hsplit]
    exact hself
  calc (10 : ℚ) ^ k ≤ 10 ^ Int.log 10 x := zpow_le_zpow_right₀ (by norm_num) hlog
    _ = ((10 ^ (digits - 1) : ℤ) : ℚ) * 10 ^ lastExponent digits x := hsplit
    _ ≤ toSignificant digits x := by
      rw [toSignificant]
      exact mul_le_mul_of_nonneg_right (by exact_mod_cast hround) hpow.le

theorem pow_le_abs_toSignificant (hdigits : 0 < digits) (h : (10 : ℚ) ^ k ≤ |x|) :
    (10 : ℚ) ^ k ≤ |toSignificant digits x| := by
  rcases le_total 0 x with hx | hx
  · rw [abs_of_nonneg hx] at h
    exact (pow_le_toSignificant hdigits h).trans (le_abs_self _)
  · rw [abs_of_nonpos hx] at h
    have hneg := pow_le_toSignificant hdigits h
    rw [toSignificant_neg] at hneg
    exact hneg.trans (neg_le_abs _)

theorem toPlaces_neg (places : ℕ) (x : ℚ) : toPlaces places (-x) = -toPlaces places x := by
  rw [toPlaces, toPlaces, neg_mul, roundHalfUp_neg, Int.cast_neg, neg_div]

theorem natCast_le_toPlaces (h : (n : ℚ) ≤ x) : (n : ℚ) ≤ toPlaces places x := by
  have hpow := pow_pos' places
  have hround : ((n * 10 ^ places : ℕ) : ℤ) ≤ roundHalfUp (x * 10 ^ places) := by
    apply le_roundHalfUp
    push_cast
    exact mul_le_mul_of_nonneg_right h hpow.le
  rw [toPlaces, le_div_iff₀ hpow]
  exact_mod_cast hround

theorem natCast_le_abs_toPlaces (h : (n : ℚ) ≤ |x|) : (n : ℚ) ≤ |toPlaces places x| := by
  rcases le_total 0 x with hx | hx
  · rw [abs_of_nonneg hx] at h
    exact (natCast_le_toPlaces h).trans (le_abs_self _)
  · rw [abs_of_nonpos hx] at h
    have hneg : (n : ℚ) ≤ toPlaces places (-x) := natCast_le_toPlaces h
    rw [toPlaces_neg] at hneg
    exact hneg.trans (neg_le_abs _)

/-! A column of a table that holds so many digits, some of them decimals. -/

structure Column (digits places : ℕ) where
  value : ℚ
  hasPlaces : HasPlaces places value
  bounded : |value| < 10 ^ ((digits : ℤ) - places)

namespace Column

variable {digits places : ℕ}

/-- None of a number that is too large. -/
def write (x : ℚ) : Option (Column digits places) :=
  if h : |toPlaces places x| < 10 ^ ((digits : ℤ) - places) then
    some ⟨toPlaces places x, hasPlaces_toPlaces places x, h⟩
  else none

variable {column : Column digits places}

theorem write_some {x : ℚ} (h : write x = some column) : column.value = toPlaces places x := by
  rw [write] at h
  split at h
  · cases h
    rfl
  · cases h

@[simp] theorem write_toPlaces (x : ℚ) :
    (write (toPlaces places x) : Option (Column digits places)) = write x := by
  simp only [write, toPlaces_eq (hasPlaces_toPlaces places x)]

theorem write_toSignificant {long : ℕ} {x : ℚ} (hx : HasPlaces places x) (hlong : digits ≤ long)
    (hplaces : places ≤ digits) (hdigits : 0 < digits)
    (h : write (toSignificant long x) = some column) : column.value = x := by
  have hvalue := write_some h
  by_cases hbound : |x| < 10 ^ ((long : ℤ) - places)
  · rw [hvalue, toSignificant_eq hx hbound, toPlaces_eq hx]
  · have hlarge : (10 : ℚ) ^ ((long : ℤ) - places) ≤ |toSignificant long x| :=
      pow_le_abs_toSignificant (by omega) (not_lt.mp hbound)
    have hpow : (10 : ℚ) ^ ((long : ℤ) - places) = ((10 ^ (long - places) : ℕ) : ℚ) := by
      rw [← Nat.cast_sub (hplaces.trans hlong), zpow_natCast]
      push_cast
      rfl
    rw [hpow] at hlarge
    have hstored : ((10 ^ (long - places) : ℕ) : ℚ) ≤ |toPlaces places (toSignificant long x)| :=
      natCast_le_abs_toPlaces hlarge
    rw [← hpow, ← hvalue] at hstored
    have hwider : (10 : ℚ) ^ ((digits : ℤ) - places) ≤ 10 ^ ((long : ℤ) - places) :=
      zpow_le_zpow_right₀ (by norm_num) (by omega)
    have hbounded := column.bounded
    linarith

theorem write_value (column : Column digits places) : write column.value = some column := by
  have hkept := toPlaces_eq column.hasPlaces
  have hbounded : |toPlaces places column.value| < 10 ^ ((digits : ℤ) - places) := by
    rw [hkept]
    exact column.bounded
  rw [write, dif_pos hbounded]
  congr 1
  cases column
  simpa using hkept

end Column

end Decimals

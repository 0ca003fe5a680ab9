import Mathlib.Algebra.Order.BigOperators.Group.List
import Mathlib.Algebra.Order.Floor.Ring
import Mathlib.Tactic.Linarith
import Mathlib.Tactic.Ring

/-! # Rounding shares to whole units by their largest remainders

A whole total is shared out; every share is rounded down, and the units left over go to the
shares that lost the most. -/
namespace LargestRemainder

theorem take_positive {R α : Type*} [LinearOrder R] [Zero R] {remainder : α → R} {l : List α} {n : ℕ}
    (hsorted : l.Pairwise fun a b => remainder b ≤ remainder a)
    (hn : n ≤ l.countP fun a => 0 < remainder a) : ∀ a ∈ l.take n, 0 < remainder a := by
  induction l generalizing n with
  | nil => simp
  | cons x xs ih =>
    obtain ⟨hx, hxs⟩ := List.pairwise_cons.mp hsorted
    cases n with
    | zero => simp
    | succ n =>
      rw [List.countP_cons] at hn
      have hpos : 0 < remainder x := by
        by_contra hneg
        have hnone : xs.countP (fun a => decide (0 < remainder a)) = 0 := by
          rw [List.countP_eq_zero]
          intro a ha
          have hle := hx a ha
          simp only [decide_eq_true_eq]
          intro ha'
          exact hneg (ha'.trans_le hle)
        simp [hneg, hnone] at hn
      intro a ha
      rcases List.mem_cons.mp ha with rfl | hrest
      · exact hpos
      · exact ih hxs (by simp [hpos] at hn; exact hn) a hrest

theorem sum_picked {R α : Type*} [CommRing R] (place : α → ℕ) (value : α → R) {l : List α} {picked : List ℕ}
    (hl : (l.map place).Nodup) (hp : picked.Nodup) (hsub : ∀ i ∈ picked, i ∈ l.map place) :
    (l.map fun a => if place a ∈ picked then value a + 1 else value a).sum =
      (l.map value).sum + picked.length := by
  have hcount : (l.map place).countP (fun i => decide (i ∈ picked)) = picked.length := by
    rw [List.countP_eq_length_filter]
    apply List.Perm.length_eq
    rw [List.perm_ext_iff_of_nodup (hl.filter _) hp]
    intro i
    simp only [List.mem_filter, decide_eq_true_eq]
    exact ⟨fun h => h.2, fun h => ⟨hsub i h, h⟩⟩
  rw [← hcount]
  clear hl hp hsub hcount
  induction l with
  | nil => simp
  | cons a rest ih =>
    simp only [List.map_cons, List.sum_cons, List.countP_cons, ih]
    by_cases h : place a ∈ picked
    · simp only [h, if_true, decide_true, Nat.cast_add, Nat.cast_one]
      ring
    · simp only [h, if_false, decide_false, Bool.false_eq_true, Nat.add_zero]
      ring

variable {K : Type*} [Field K] [LinearOrder K] [IsStrictOrderedRing K] [FloorRing K]

def leftover (total : ℤ) (shares : List K) : ℤ := total - (shares.map Int.floor).sum

theorem sum_floor_fract (shares : List K) :
    (((shares.map Int.floor).sum : ℤ) : K) + (shares.map Int.fract).sum = shares.sum := by
  induction shares with
  | nil => simp
  | cons x xs ih =>
    have hx := Int.floor_add_fract x
    simp only [List.map_cons, List.sum_cons, Int.cast_add]
    linarith

variable {shares : List K} {total : ℤ}

theorem leftover_eq (h : shares.sum = total) :
    (leftover total shares : K) = (shares.map Int.fract).sum := by
  have hs := sum_floor_fract shares
  rw [leftover, Int.cast_sub]
  linarith

theorem leftover_nonneg (h : shares.sum = total) : 0 ≤ leftover total shares := by
  have hsum : 0 ≤ (shares.map Int.fract).sum := by
    apply List.sum_nonneg
    intro x hx
    obtain ⟨y, _, rfl⟩ := List.mem_map.mp hx
    exact Int.fract_nonneg y
  rw [← leftover_eq h] at hsum
  exact_mod_cast hsum

theorem sum_fract_le (shares : List K) :
    (shares.map Int.fract).sum ≤ (shares.countP fun x => 0 < Int.fract x : ℕ) := by
  induction shares with
  | nil => simp
  | cons x xs ih =>
    have hlt := Int.fract_lt_one x
    by_cases hx : 0 < Int.fract x
    · simp only [List.map_cons, List.sum_cons, List.countP_cons, hx, decide_true, if_true,
        Nat.cast_add, Nat.cast_one]
      linarith
    · have hzero : Int.fract x = 0 := le_antisymm (not_lt.mp hx) (Int.fract_nonneg x)
      simpa [hzero] using ih

theorem leftover_le_count (h : shares.sum = total) :
    leftover total shares ≤ (shares.countP fun x => 0 < Int.fract x : ℕ) := by
  have hle := sum_fract_le shares
  rw [← leftover_eq h] at hle
  exact_mod_cast hle

end LargestRemainder

import Mathlib.Algebra.Order.Field.Basic
import Mathlib.Data.List.Sort
import Mathlib.Tactic.Linarith
import Mathlib.Tactic.Ring

/-! # Token buckets

A bucket that starts full, holds `burst` tokens and gains `rate` of them in a unit of time admits
exactly the sequences of events that stay within the linear bound over every interval. Events are
listed from the latest to the first. -/
namespace TokenBucket

variable {K : Type*} [Field K] [LinearOrder K] [IsStrictOrderedRing K] {burst rate : K}

/-- What is left at a moment after the events, each of which took a token. -/
def level (burst rate : K) : List K → K → K
  | [], _ => burst
  | event :: events, t => min burst (level burst rate events event - 1 + rate * (t - event))

def countIn (events : List K) (a b : K) : ℕ := events.countP fun t => a ≤ t ∧ t ≤ b

def Bounded (burst rate : K) (events : List K) : Prop :=
  ∀ a b, a ≤ b → (countIn events a b : K) ≤ burst + rate * (b - a)

variable {events : List K} {t : K}

/-- The level is the least of the capacity and what each run of late events leaves of it. -/
theorem le_level_iff {q : K} :
    q ≤ level burst rate events t ↔
      q ≤ burst ∧ ∀ late event early, events = late ++ event :: early →
        q + late.length + 1 ≤ burst + rate * (t - event) := by
  induction events generalizing t q with
  | nil => simp [level]
  | cons first events ih =>
    rw [level, le_min_iff]
    have hshift : q ≤ level burst rate events first - 1 + rate * (t - first) ↔
        q + 1 - rate * (t - first) ≤ level burst rate events first := by
      constructor <;> intro h <;> linarith
    rw [hshift, ih]
    refine and_congr_right fun _ => ?_
    constructor
    · rintro ⟨hfirst, hrest⟩ late event early h
      cases late with
      | nil =>
        obtain ⟨rfl, rfl⟩ := List.cons.inj h
        rw [List.length_nil, Nat.cast_zero]
        linarith
      | cons next late =>
        obtain ⟨rfl, hevents⟩ := List.cons.inj h
        have hle := hrest late event early hevents
        rw [List.length_cons, Nat.cast_succ]
        have hsum : rate * (t - event) = rate * (t - first) + rate * (first - event) := by ring
        rw [hsum]
        linarith
    · intro h
      constructor
      · have hle := h [] first events rfl
        rw [List.length_nil, Nat.cast_zero] at hle
        linarith
      · intro late event early hevents
        have hle := h (first :: late) event early (by rw [hevents, List.cons_append])
        rw [List.length_cons, Nat.cast_succ] at hle
        have hsum : rate * (t - event) = rate * (t - first) + rate * (first - event) := by ring
        rw [hsum] at hle
        linarith

theorem bounded_nil (hburst : 0 ≤ burst) (hrate : 0 ≤ rate) : Bounded burst rate [] := by
  intro a b hab
  rw [countIn, List.countP_nil, Nat.cast_zero]
  have hgain : 0 ≤ rate * (b - a) := mul_nonneg hrate (by linarith)
  linarith

omit [Field K] [IsStrictOrderedRing K] in
theorem countP_ge (hsorted : events.Pairwise (· ≥ ·)) (a : K) :
    events.countP (fun t => a ≤ t) = 0 ∨ ∃ late event early, events = late ++ event :: early ∧
      a ≤ event ∧ events.countP (fun t => a ≤ t) = late.length + 1 := by
  induction events with
  | nil => exact .inl rfl
  | cons first events ih =>
    obtain ⟨hfirst, hrest⟩ := List.pairwise_cons.mp hsorted
    by_cases ha : a ≤ first
    · right
      rw [List.countP_cons_of_pos (by simpa using ha)]
      rcases ih hrest with hzero | ⟨late, event, early, rfl, hevent, hcount⟩
      · exact ⟨[], first, events, rfl, ha, by rw [hzero, List.length_nil]⟩
      · exact ⟨first :: late, event, early, rfl, hevent, by rw [hcount, List.length_cons]⟩
    · left
      rw [List.countP_eq_zero]
      intro t ht
      rcases List.mem_cons.mp ht with rfl | ht
      · simpa using ha
      · have hle := hfirst t ht
        simp only [decide_eq_true_eq]
        intro h
        exact ha (h.trans hle)

/-- One more event stays within the bound exactly when there is a token for it. -/
theorem bounded_cons_iff (hrate : 0 ≤ rate) (hsorted : (t :: events).Pairwise (· ≥ ·)) :
    Bounded burst rate (t :: events) ↔
      Bounded burst rate events ∧ 1 ≤ level burst rate events t := by
  obtain ⟨hlatest, hrest⟩ := List.pairwise_cons.mp hsorted
  constructor
  · intro h
    refine ⟨fun a b hab => ?_, le_level_iff.mpr ⟨?_, ?_⟩⟩
    · have hle := h a b hab
      have hmono : countIn events a b ≤ countIn (t :: events) a b := by
        rw [countIn, countIn, List.countP_cons]
        omega
      have hcast : (countIn events a b : K) ≤ countIn (t :: events) a b := by exact_mod_cast hmono
      exact hcast.trans hle
    · have hle := h t t le_rfl
      have hone : 1 ≤ countIn (t :: events) t t := by
        rw [countIn, List.countP_cons_of_pos (by simp)]
        omega
      have hcast : (1 : K) ≤ countIn (t :: events) t t := by exact_mod_cast hone
      rw [sub_self, mul_zero, add_zero] at hle
      exact hcast.trans hle
    · rintro late event early rfl
      -- the interval from the event to the new one has all that lie between
      have hle := h event t (hlatest event (by simp))
      obtain ⟨-, -, hbetween⟩ := List.pairwise_append.mp hrest
      have hlate : late.countP (fun x => event ≤ x ∧ x ≤ t) = late.length := by
        rw [List.countP_eq_length]
        intro x hx
        have hge : event ≤ x := hbetween x hx event List.mem_cons_self
        have hlt : x ≤ t := hlatest x (List.mem_append_left _ hx)
        simp [hge, hlt]
      have hcount : late.length + 2 ≤ countIn (t :: (late ++ event :: early)) event t := by
        have hevent : event ≤ t := hlatest event (by simp)
        rw [countIn, List.countP_cons_of_pos (by simpa using hevent), List.countP_append, hlate,
          List.countP_cons_of_pos (by simpa using hevent)]
        omega
      have hcast : (late.length : K) + 2 ≤ countIn (t :: (late ++ event :: early)) event t := by
        exact_mod_cast hcount
      linarith
  · rintro ⟨h, hlevel⟩ a b hab
    obtain ⟨hburst, hroom⟩ := le_level_iff.mp hlevel
    by_cases hin : a ≤ t ∧ t ≤ b
    · have hlate : countIn events a b = events.countP fun x => a ≤ x := by
        apply List.countP_congr
        intro x hx
        have hle : x ≤ b := (hlatest x hx).trans hin.2
        simp [hle]
      have hgain : 0 ≤ rate * (b - a) := mul_nonneg hrate (by linarith)
      rw [countIn, List.countP_cons_of_pos (by simpa using hin)]
      change ((countIn events a b + 1 : ℕ) : K) ≤ _
      rw [hlate]
      rcases countP_ge hrest a with hzero | ⟨late, event, early, hevents, hevent, hcount⟩
      · rw [hzero, Nat.zero_add, Nat.cast_one]
        linarith
      · have hle := hroom late event early hevents
        have hspan : rate * (t - event) ≤ rate * (b - a) :=
          mul_le_mul_of_nonneg_left (by linarith [hin.2]) hrate
        rw [hcount]
        push_cast
        linarith
    · have hsame : countIn (t :: events) a b = countIn events a b :=
        List.countP_cons_of_neg (by simpa using hin)
      rw [hsame]
      exact h a b hab

theorem level_later (hrate : 0 ≤ rate) (events : List K) {now : K} (hle : now ≤ t) :
    level burst rate events t = min burst (level burst rate events now + rate * (t - now)) := by
  have hgain : 0 ≤ rate * (t - now) := mul_nonneg hrate (by linarith)
  cases events with
  | nil =>
    rw [level, level, min_eq_left]
    linarith
  | cons event events =>
    rw [level, level, min_add, ← min_assoc, min_eq_left (by linarith : burst ≤ burst + _)]
    congr 1
    ring

omit [IsStrictOrderedRing K] in
theorem level_cons_self (event : K) (events : List K) :
    level burst rate (event :: events) event =
      min burst (level burst rate events event - 1) := by
  rw [level, sub_self, mul_zero, add_zero]

end TokenBucket

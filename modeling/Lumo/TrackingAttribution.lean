import Lumo.Decimals
import Mathlib.Algebra.BigOperators.Group.List.Basic
import Mathlib.Tactic.Positivity

/-! # Attribution credits

The credit that each touchpoint of a journey is given, over exact rationals. Every credit is rounded
to six decimals on its own. -/
namespace Tracking

open Decimals

inductive AttributionModel where
  | firstTouch
  | lastTouch
  | linear
  | positionBased
  | timeDecay
  | dataDriven

/-- The time is in milliseconds. -/
structure Touchpoint where
  occurredAt : ℤ

structure AttributionCredit where
  touchIndex : ℕ
  model : AttributionModel
  weight : ℚ

def positionFirstWeight : ℚ := 4 / 10

def positionLastWeight : ℚ := 4 / 10

def timeDecayHalfLifeDays : ℕ := 7

def credit (touchIndex : ℕ) (model : AttributionModel) (weight : ℚ) : AttributionCredit :=
  ⟨touchIndex, model, toPlaces 6 weight⟩

def evenly (count : ℕ) (model : AttributionModel) : List AttributionCredit :=
  (List.range count).map fun index => credit index model (1 / count)

def positionBased (count : ℕ) (model : AttributionModel) : List AttributionCredit :=
  if count = 1 then [credit 0 model 1]
  else if count = 2 then [credit 0 model (1 / 2), credit 1 model (1 / 2)]
  else
    let middleCount := count - 2
    let middleWeight := (1 - positionFirstWeight - positionLastWeight) / middleCount
    (List.range count).map fun index =>
      if index = 0 then credit index model positionFirstWeight
      else if index = count - 1 then credit index model positionLastWeight
      else credit index model middleWeight

/-- `Math.pow` is given. -/
def timeDecay (pow : ℚ → ℚ → ℚ) (touchpoints : List Touchpoint) (model : AttributionModel)
    (conversionAt : ℤ) : List AttributionCredit :=
  let halfLifeMs : ℚ := timeDecayHalfLifeDays * 24 * 60 * 60 * 1000
  let raw := touchpoints.map fun touch =>
    pow (1 / 2) (max 0 (conversionAt - touch.occurredAt) / halfLifeMs)
  let total := raw.sum
  if total = 0 then evenly touchpoints.length model
  else raw.zipIdx.map fun (weight, index) => credit index model (weight / total)

def assignCredit (pow : ℚ → ℚ → ℚ) (touchpoints : List Touchpoint) (model : AttributionModel)
    (conversionAt : ℤ) : List AttributionCredit :=
  let count := touchpoints.length
  if count = 0 then []
  else
    match model with
    | .firstTouch => [credit 0 model 1]
    | .lastTouch => [credit (count - 1) model 1]
    | .linear => evenly count model
    | .positionBased => positionBased count model
    | .timeDecay => timeDecay pow touchpoints model conversionAt
    | .dataDriven => evenly count model

def defaultTolerance : ℚ := 1 / 10 ^ 6

def creditsAreNormalized (credits : List AttributionCredit) (tolerance : ℚ) : Bool :=
  if credits = [] then true
  else |(credits.map AttributionCredit.weight).sum - 1| ≤ tolerance

/-- Every credit is a share, and together they pass the check. -/
structure Normalised (credits : List AttributionCredit) : Prop where
  shares : ∀ c ∈ credits, 0 ≤ c.weight ∧ c.weight ≤ 1
  checked : creditsAreNormalized credits defaultTolerance = true

/-- So many parts come out even, or leave a remainder of one or want one more. -/
def ComesOut (units parts : ℕ) : Prop :=
  (parts : ℤ) ∣ units ∨ (parts : ℤ) ∣ units - 1 ∨ (parts : ℤ) ∣ units + 1

instance (units parts : ℕ) : Decidable (ComesOut units parts) :=
  inferInstanceAs (Decidable (_ ∨ _ ∨ _))

/-- The units are the millionths that are shared out. -/
def RoundsOut (model : AttributionModel) (count : ℕ) : Prop :=
  match model with
  | .linear | .dataDriven => ComesOut 1000000 count
  | .positionBased => 2 < count → ComesOut 200000 (count - 2)
  | .firstTouch | .lastTouch | .timeDecay => True

section Parts

variable {units parts : ℕ}

theorem roundHalfUp_natDiv (h : 0 < parts) :
    roundHalfUp ((units : ℚ) / parts) = ((2 * units + parts) / (2 * parts) : ℕ) := by
  have hparts : (0 : ℚ) < parts := by exact_mod_cast h
  have hnonneg : (0 : ℚ) ≤ (units : ℚ) / parts := by positivity
  have hsum : (units : ℚ) / parts + 1 / 2 = ((2 * units + parts : ℕ) : ℚ) / (2 * parts : ℕ) := by
    push_cast
    field_simp
  rw [roundHalfUp, if_pos hnonneg, hsum, Rat.floor_natCast_div_natCast, Int.natCast_div]

/-- What the rounded parts come to is off by no more than half of the parts. -/
theorem rounded_within (units : ℕ) (h : 0 < parts) : ∃ off : ℤ,
    (parts : ℤ) * roundHalfUp ((units : ℚ) / parts) = units + off ∧ -parts < 2 * off ∧
      2 * off ≤ parts := by
  rw [roundHalfUp_natDiv h]
  have hmod := Nat.div_add_mod (2 * units + parts) (2 * parts)
  have hlt := Nat.mod_lt (2 * units + parts) (show 2 * parts > 0 by omega)
  have hmin := Nat.zero_le ((2 * units + parts) % (2 * parts))
  refine ⟨parts * ((2 * units + parts) / (2 * parts) : ℕ) - units, by ring, ?_, ?_⟩
  · zify at hmod hlt ⊢
    nlinarith only [hmod, hlt]
  · zify at hmod hmin ⊢
    nlinarith only [hmod, hmin]

/-- Two such differences that leave the same remainder differ by no more than one. -/
theorem le_one_of_dvd {off e : ℤ} (hlow : -(parts : ℤ) < 2 * off) (hhigh : 2 * off ≤ parts)
    (he : |e| ≤ 1) (hdvd : (parts : ℤ) ∣ off - e) : |off| ≤ 1 := by
  obtain ⟨k, hk⟩ := hdvd
  rw [abs_le] at he ⊢
  rcases lt_trichotomy k 0 with hneg | rfl | hpos
  · have hmul : (parts : ℤ) * k ≤ -parts := by nlinarith
    omega
  · omega
  · have hmul : (parts : ℤ) ≤ parts * k := by nlinarith
    omega

theorem rounded_iff (h : 0 < parts) :
    |(parts : ℤ) * roundHalfUp ((units : ℚ) / parts) - units| ≤ 1 ↔ ComesOut units parts := by
  obtain ⟨off, hoff, hlow, hhigh⟩ := rounded_within units h
  rw [hoff, add_sub_cancel_left]
  have hdvd : (parts : ℤ) ∣ units + off := ⟨_, hoff.symm⟩
  have hsame (e : ℤ) (he : |e| ≤ 1) (hunits : (parts : ℤ) ∣ units + e) : |off| ≤ 1 := by
    refine le_one_of_dvd hlow hhigh he ?_
    have := dvd_sub hdvd hunits
    rwa [add_sub_add_left_eq_sub] at this
  constructor
  · intro hle
    rw [abs_le] at hle
    obtain rfl | rfl | rfl : off = 0 ∨ off = -1 ∨ off = 1 := by omega
    · exact .inl (by simpa using hdvd)
    · exact .inr (.inl hdvd)
    · exact .inr (.inr hdvd)
  · rintro (hunits | hunits | hunits)
    · exact hsame 0 (by simp) (by simpa using hunits)
    · exact hsame (-1) (by simp) (by rwa [← sub_eq_add_neg])
    · exact hsame 1 (by simp) hunits

/-- The parts of a share are rounded to millionths, and the rest makes up a whole. -/
theorem within_iff {rest share : ℚ} (h : 0 < parts) (hshare : share * 10 ^ 6 = units)
    (hrest : rest + share = 1) :
    |rest + parts * toPlaces 6 (share / parts) - 1| ≤ defaultTolerance ↔ ComesOut units parts := by
  rw [← rounded_iff h]
  have hoff : rest + parts * toPlaces 6 (share / parts) - 1 =
      (((parts : ℤ) * roundHalfUp ((units : ℚ) / parts) - units : ℤ) : ℚ) / 10 ^ 6 := by
    rw [toPlaces, div_mul_eq_mul_div, hshare, ← hrest]
    push_cast
    rw [← hshare]
    ring
  rw [hoff, abs_div, defaultTolerance, abs_of_pos (show (0 : ℚ) < 10 ^ 6 by norm_num),
    div_le_div_iff_of_pos_right (by norm_num)]
  exact_mod_cast Iff.rfl

end Parts

section Credits

variable {model : AttributionModel} {count : ℕ}

theorem toPlaces_share {x : ℚ} (hlow : 0 ≤ x) (hhigh : x ≤ 1) :
    0 ≤ toPlaces 6 x ∧ toPlaces 6 x ≤ 1 := by
  refine ⟨toPlaces_nonneg hlow, ?_⟩
  have hneg : ((-10 ^ 6 : ℤ) : ℚ) ≤ -(x * 10 ^ 6) := by
    push_cast
    linarith
  have hle := le_roundHalfUp hneg
  rw [roundHalfUp_neg] at hle
  rw [toPlaces, div_le_one (by norm_num)]
  exact_mod_cast (by omega : roundHalfUp (x * 10 ^ 6) ≤ 10 ^ 6)

/-- Only the weights count. -/
theorem normalised_iff {credits : List AttributionCredit} (h : credits ≠ [])
    (hshares : ∀ w ∈ credits.map AttributionCredit.weight, 0 ≤ w ∧ w ≤ 1) : Normalised credits ↔
      |(credits.map AttributionCredit.weight).sum - 1| ≤ defaultTolerance := by
  constructor
  · intro hn
    simpa [creditsAreNormalized, h] using hn.checked
  · intro hsum
    refine ⟨fun c hc => hshares c.weight (List.mem_map_of_mem hc), ?_⟩
    simpa [creditsAreNormalized, h] using hsum

theorem toPlaces_whole (n : ℕ) : toPlaces 6 (n / 10) = n / 10 :=
  toPlaces_eq ⟨n * 10 ^ 5, by push_cast; ring⟩

theorem single_normalised (index : ℕ) : Normalised [credit index model 1] := by
  have hone : toPlaces 6 1 = 1 := by simpa using toPlaces_whole 10
  rw [normalised_iff (by simp)] <;> simp [credit, hone, defaultTolerance]

theorem evenly_iff (h : 0 < count) :
    Normalised (evenly count model) ↔ ComesOut 1000000 count := by
  have hpos : (0 : ℚ) < count := by exact_mod_cast h
  have hweights : (evenly count model).map AttributionCredit.weight =
      List.replicate count (toPlaces 6 (1 / count)) := by
    simp [evenly, credit, Function.comp_def]
  have hne : evenly count model ≠ [] := by simp [evenly, h.ne']
  rw [normalised_iff hne, hweights]
  · rw [List.sum_replicate, nsmul_eq_mul, ← zero_add (count * toPlaces 6 (1 / count) : ℚ)]
    exact within_iff h (by norm_num) (zero_add 1)
  · rw [hweights]
    intro w hw
    rw [List.eq_of_mem_replicate hw]
    refine toPlaces_share (by positivity) ?_
    rw [div_le_one hpos]
    exact_mod_cast h

/-- The first and the last credit stand around equal parts. -/
theorem positionBased_weights (model : AttributionModel) {middle : ℕ} (h : 0 < middle) :
    (positionBased (middle + 2) model).map AttributionCredit.weight =
      4 / 10 :: (List.replicate middle
        (toPlaces 6 ((1 - positionFirstWeight - positionLastWeight) / middle)) ++ [4 / 10]) := by
  have hfour : toPlaces 6 (4 / 10) = 4 / 10 := by simpa using toPlaces_whole 4
  rw [positionBased, if_neg (by omega), if_neg (by omega), List.range_succ,
    List.range_succ_eq_map]
  simp only [List.map_append, List.map_cons, List.map_map, List.map_nil, List.cons_append]
  refine congrArg₂ List.cons hfour (congrArg₂ (· ++ ·) ?_ ?_)
  · refine List.eq_replicate_iff.mpr ⟨by simp, ?_⟩
    intro w hw
    obtain ⟨index, hindex, rfl⟩ := List.mem_map.mp hw
    have hne : index ≠ middle := (List.mem_range.mp hindex).ne
    simp [credit, hne]
  · simp [credit, positionLastWeight, hfour]

theorem positionBased_iff (h : 2 < count) :
    Normalised (positionBased count model) ↔ ComesOut 200000 (count - 2) := by
  obtain ⟨middle, rfl⟩ : ∃ middle, count = middle + 2 := ⟨count - 2, by omega⟩
  have hmiddle : 0 < middle := by omega
  have hpos : (1 : ℚ) ≤ middle := by exact_mod_cast hmiddle
  have hweights := positionBased_weights model hmiddle
  have hne : positionBased (middle + 2) model ≠ [] := by
    intro hnil
    simp [hnil] at hweights
  have htwenty : (1 - positionFirstWeight - positionLastWeight : ℚ) = 1 / 5 := by
    norm_num [positionFirstWeight, positionLastWeight]
  rw [normalised_iff hne, hweights, htwenty]
  · have hsum : (4 / 10 :: (List.replicate middle (toPlaces 6 (1 / 5 / middle)) ++ [4 / 10])).sum =
        8 / 10 + middle * toPlaces 6 (1 / 5 / middle) := by
      simp
      ring
    rw [hsum]
    exact within_iff hmiddle (by norm_num) (by norm_num)
  · rw [hweights, htwenty]
    have hshare : 0 ≤ toPlaces 6 (1 / 5 / middle) ∧ toPlaces 6 (1 / 5 / middle) ≤ 1 := by
      refine toPlaces_share (by positivity) ?_
      rw [div_le_one (by linarith)]
      linarith
    intro w hw
    simp only [List.mem_cons, List.mem_append, List.mem_replicate, List.not_mem_nil, or_false]
      at hw
    rcases hw with rfl | ⟨-, rfl⟩ | rfl
    · norm_num
    · exact hshare
    · norm_num

/-- A half each, or a whole. -/
theorem positionBased_few (h : 0 < count) (hfew : count ≤ 2) :
    Normalised (positionBased count model) := by
  obtain rfl | rfl : count = 1 ∨ count = 2 := by omega
  · exact single_normalised 0
  · have hweights : (positionBased 2 model).map AttributionCredit.weight = [5 / 10, 5 / 10] := by
      have hhalf : toPlaces 6 (1 / 2) = 5 / 10 := by
        rw [show (1 / 2 : ℚ) = (5 : ℕ) / 10 by norm_num, toPlaces_whole]
        norm_num
      simp [positionBased, credit, -one_div, hhalf]
    rw [normalised_iff (by simp [positionBased]), hweights]
    · norm_num [defaultTolerance]
    · rw [hweights]
      norm_num

end Credits

/-- The credits that are assigned make up a whole exactly when the millionths come out, to one. -/
theorem assignCredit_normalised_iff (pow : ℚ → ℚ → ℚ) {touchpoints : List Touchpoint}
    {model : AttributionModel} (conversionAt : ℤ) (h : touchpoints ≠ [])
    (hmodel : model ≠ .timeDecay) :
    Normalised (assignCredit pow touchpoints model conversionAt) ↔
      RoundsOut model touchpoints.length := by
  have hpos := List.length_pos_of_ne_nil h
  unfold assignCredit
  rw [if_neg hpos.ne']
  cases model with
  | firstTouch | lastTouch => simp [RoundsOut, single_normalised]
  | linear | dataDriven => exact evenly_iff hpos
  | timeDecay => exact absurd rfl hmodel
  | positionBased =>
    rcases Nat.lt_or_ge 2 touchpoints.length with hmany | hfew
    · simp [RoundsOut, hmany, positionBased_iff hmany]
    · simp [RoundsOut, hfew.not_gt, positionBased_few hpos hfew]

theorem assignCredit_normalised_three :
    Normalised (assignCredit (fun _ _ => 0) [⟨0⟩, ⟨1⟩, ⟨2⟩] .linear 3) :=
  (assignCredit_normalised_iff _ 3 (by simp) (by simp)).mpr (show ComesOut 1000000 3 by decide)

/-- Six times 0.166667 is two millionths too much. -/
theorem assignCredit_not_normalised : ¬ ∀ (pow : ℚ → ℚ → ℚ) (touchpoints : List Touchpoint)
    (model : AttributionModel) (conversionAt : ℤ), touchpoints ≠ [] → model ≠ .timeDecay →
    Normalised (assignCredit pow touchpoints model conversionAt) := by
  intro h
  have hsix := (h (fun _ _ => 0) (List.replicate 6 ⟨0⟩) .linear 0 (by simp) (by simp)).checked
  revert hsix
  decide +kernel

end Tracking

import Lumo.FinanceTax

/-! # Bounds on the tax

The tax against the exact tax, before it is rounded, on the amounts that the lines keep after their
shares of the discount. -/
namespace Finance

open SharedKernel Builtins
open Promotions (IsWhole)

theorem mathRound_near (x : ℚ) : |(mathRound x : ℚ) - x| ≤ 1 / 2 := by
  have hle := Int.floor_le (x + 1 / 2)
  have hlt := Int.lt_floor_add_one (x + 1 / 2)
  rw [mathRound, abs_le]
  constructor <;> linarith

variable {x amount : ℚ}

theorem mathRound_nonneg (h : 0 ≤ x) : 0 ≤ mathRound x := by
  apply Int.floor_nonneg.mpr
  linarith

theorem mathRound_le_succ {y : ℚ} (h : x ≤ y + 1) : mathRound x ≤ mathRound y + 1 := by
  rw [mathRound, mathRound, ← Int.floor_add_one]
  apply Int.floor_mono
  linarith

theorem mathRound_half (h : 0 ≤ amount) (hx : x ≤ amount / 2) : (mathRound x : ℚ) ≤ amount := by
  by_cases hone : 1 ≤ amount
  · have hnear := (abs_le.mp (mathRound_near x)).2
    linarith
  · have hzero : mathRound x < 1 := by
      rw [mathRound, Int.floor_lt]
      push_cast
      linarith
    have hle : mathRound x ≤ 0 := by omega
    have hcast : (mathRound x : ℚ) ≤ 0 := by exact_mod_cast hle
    exact hcast.trans h

def divisorOf (included : Bool) (rate : ℚ) : ℚ := if included then 10000 + rate else 10000

def exactTaxOf (included : Bool) (rate amountMinor : ℚ) : ℚ :=
  amountMinor * rate / divisorOf included rate

theorem validRate_iff {value : ℚ} (h : validRate value = true) : 0 ≤ value ∧ value ≤ 10000 := by
  rw [validRate, Bool.and_eq_true, Bool.and_eq_true, decide_eq_true_eq, decide_eq_true_eq] at h
  exact ⟨h.1.2, h.2⟩

variable {included : Bool} {rate : ℚ}

theorem divisorOf_pos (included : Bool) (hrate : validRate rate = true) :
    0 < divisorOf included rate := by
  have h := validRate_iff hrate
  rw [divisorOf]
  split <;> linarith

theorem taxOf_eq (hrate : validRate rate = true) (amount : ℚ) :
    taxOf included rate amount = mathRound (exactTaxOf included rate amount) := by
  have hpos := divisorOf_pos included hrate
  have hshare : taxOf included rate amount =
      roundedShare amount rate (divisorOf included rate) := by
    rw [taxOf, divisorOf]
    cases included <;> rfl
  rw [hshare, roundedShare, mathRound, exactTaxOf]
  congr 2
  field_simp

/-- The tax taken out of a price and charged on top of what is left gives the price back, to within
one minor unit. -/
theorem taxOf_putBack (region : TaxRegion) (province : Option String) (grossMinor : ℚ) :
    let rate := region.rateFor province
    let netMinor := grossMinor - taxOf true rate grossMinor
    |netMinor + taxOf false rate netMinor - grossMinor| ≤ 1 := by
  intro rate netMinor
  have hrate : validRate rate = true := region.rateFor_valid province
  obtain ⟨hnonneg, hmax⟩ := validRate_iff hrate
  obtain ⟨taken, htaken⟩ : ∃ taken, mathRound (exactTaxOf true rate grossMinor) = taken := ⟨_, rfl⟩
  have hnet : netMinor = grossMinor - taken := by
    rw [← htaken, ← taxOf_eq hrate]
  have hnear := mathRound_near (exactTaxOf true rate grossMinor)
  rw [htaken, abs_le] at hnear
  -- the error of the rounding is taxed along
  have hexact : exactTaxOf false rate netMinor - taken =
      (exactTaxOf true rate grossMinor - taken) * (1 + rate / 10000) := by
    have hpos := divisorOf_pos true hrate
    rw [hnet]
    simp only [exactTaxOf, divisorOf, if_true, Bool.false_eq_true, if_false] at hpos ⊢
    field_simp
    ring
  have hle' := mathRound_le_succ (show exactTaxOf false rate netMinor ≤ taken + 1 by nlinarith)
  have hge' := mathRound_le_succ (show (taken : ℚ) ≤ exactTaxOf false rate netMinor + 1 by nlinarith)
  have hwhole : mathRound (taken : ℚ) = taken := by
    rw [mathRound, Int.floor_intCast_add]
    norm_num
  rw [hwhole] at hle' hge'
  rw [taxOf_eq hrate, abs_le]
  have hup : (mathRound (exactTaxOf false rate netMinor) : ℚ) ≤ taken + 1 := by exact_mod_cast hle'
  have hdown : (taken : ℚ) ≤ mathRound (exactTaxOf false rate netMinor) + 1 := by
    exact_mod_cast hge'
  constructor <;> linarith

theorem exactTaxOf_nonneg (included : Bool) (hrate : validRate rate = true) (h : 0 ≤ amount) :
    0 ≤ exactTaxOf included rate amount :=
  div_nonneg (mul_nonneg h (validRate_iff hrate).1) (divisorOf_pos included hrate).le

theorem exactTaxOf_step (included : Bool) (hrate : validRate rate = true) {a b : ℚ}
    (h : a ≤ b + 1) :
    exactTaxOf included rate a ≤ exactTaxOf included rate b + 1 := by
  obtain ⟨hnonneg, hle⟩ := validRate_iff hrate
  have hpos := divisorOf_pos included hrate
  have hrate' : rate ≤ divisorOf included rate := by
    rw [divisorOf]
    split <;> linarith
  rw [exactTaxOf, exactTaxOf, div_add_one hpos.ne', div_le_div_iff_of_pos_right hpos]
  calc a * rate ≤ (b + 1) * rate := mul_le_mul_of_nonneg_right h hnonneg
    _ = b * rate + rate := by ring
    _ ≤ b * rate + divisorOf included rate := by linarith

theorem exactTaxOf_included (hrate : validRate rate = true) (h : 0 ≤ amount) :
    exactTaxOf true rate amount ≤ amount / 2 := by
  obtain ⟨hnonneg, hle⟩ := validRate_iff hrate
  have hpos : (0 : ℚ) < 10000 + rate := by linarith
  rw [exactTaxOf, divisorOf, if_pos rfl, div_le_iff₀ hpos]
  have hhalf : rate ≤ (10000 + rate) / 2 := by linarith
  calc amount * rate ≤ amount * ((10000 + rate) / 2) := mul_le_mul_of_nonneg_left hhalf h
    _ = amount / 2 * (10000 + rate) := by ring

/-- What the line at a place keeps after its share of the order's discount. -/
def kept (lines : List TaxableLine) (discounts : TaxDiscounts) (i : ℕ) : ℚ :=
  (lineAmounts lines).getD i 0 -
    (allocateDiscount (lineAmounts lines) (discounts.orderMinor.getD 0)).getD i 0

def taxedPlaces (lines : List TaxableLine) : List ℕ :=
  (lines.zipIdx.filter (·.1.taxable)).map (·.2)

def taxedShipping (settings : TaxSettings) (shippingMinor : ℚ) (discounts : TaxDiscounts) :
    List ℚ :=
  if settings.chargeTaxOnShipping && 0 < shippingAfterDiscount shippingMinor discounts then
    [shippingAfterDiscount shippingMinor discounts]
  else []

/-- The discounted amounts of the taxable lines, and the shipping price where it is taxed. -/
def taxedAmounts (settings : TaxSettings) (lines : List TaxableLine) (shippingMinor : ℚ)
    (discounts : TaxDiscounts) : List ℚ :=
  (taxedPlaces lines).map (kept lines discounts) ++ taxedShipping settings shippingMinor discounts

/-- The tax before it is rounded. -/
def exactTax (settings : TaxSettings) (lines : List TaxableLine) (destination : TaxDestination)
    (shippingMinor : ℚ) (discounts : TaxDiscounts) : ℚ :=
  match settings.regionFor destination.country with
  | none => 0
  | some region =>
    ((taxedAmounts settings lines shippingMinor discounts).map
      (exactTaxOf settings.pricesIncludeTax (region.rateFor destination.province))).sum

variable {settings : TaxSettings} {lines : List TaxableLine} {destination : TaxDestination}
  {shippingMinor : ℚ} {discounts lower : TaxDiscounts}

theorem foldl_taxable (f : ℕ → ℚ) (l : List (TaxableLine × ℕ)) :
    l.foldl (fun tax line => if line.1.taxable then tax + f line.2 else tax) 0 =
      (((l.filter (·.1.taxable)).map (·.2)).map f).sum := by
  rw [List.sum_eq_foldl, List.foldl_map, List.foldl_map, List.foldl_filter]

theorem calculateTax_eq {region : TaxRegion}
    (hregion : settings.regionFor destination.country = some region) :
    (calculateTax settings lines destination shippingMinor discounts).taxMinor =
      ((taxedAmounts settings lines shippingMinor discounts).map
        (taxOf settings.pricesIncludeTax (region.rateFor destination.province))).sum := by
  have hlines := foldl_taxable (fun i => taxOf settings.pricesIncludeTax
    (region.rateFor destination.province) (kept lines discounts i)) lines.zipIdx
  simp only [calculateTax, hregion]
  rw [taxedAmounts, List.map_append, List.sum_append, List.map_map, taxedShipping]
  split
  · exact congrArg₂ (· + ·) hlines (List.sum_singleton).symm
  · exact hlines.trans (add_zero _).symm

theorem calculateTax_none (hregion : settings.regionFor destination.country = none) :
    (calculateTax settings lines destination shippingMinor discounts).taxMinor = 0 := by
  simp only [calculateTax, hregion]

theorem forall₂_getD {α β : Type} {R : α → β → Prop} {l : List α} {l' : List β} {a : α} {b : β}
    (h : List.Forall₂ R l l') (hdefault : R a b) (i : ℕ) : R (l.getD i a) (l'.getD i b) := by
  induction h generalizing i with
  | nil => exact hdefault
  | cons hfirst _ ih =>
    cases i with
    | zero => exact hfirst
    | succ i => exact ih i

/-- A discount within what the lines hold, in whole units. -/
structure Discounted (lines : List TaxableLine) (discounts : TaxDiscounts) : Prop where
  whole : IsAmount (discounts.orderMinor.getD 0)
  le : discounts.orderMinor.getD 0 ≤ (lineAmounts lines).sum

theorem Discounted.fair (h : Discounted lines discounts)
    (hlines : ∀ a ∈ lineAmounts lines, IsAmount a) (i : ℕ) :
    FairShare (discounts.orderMinor.getD 0) (lineAmounts lines).sum ((lineAmounts lines).getD i 0)
      ((allocateDiscount (lineAmounts lines) (discounts.orderMinor.getD 0)).getD i 0) := by
  obtain ⟨hfair, _⟩ := allocateDiscount_fair hlines h.whole h.le
  exact forall₂_getD hfair (FairShare.none le_rfl (mul_zero _)) i

theorem taxedAmounts_nonneg (settings : TaxSettings) (shippingMinor : ℚ)
    (h : Discounted lines discounts) (hlines : ∀ a ∈ lineAmounts lines, IsAmount a) :
    ∀ a ∈ taxedAmounts settings lines shippingMinor discounts, 0 ≤ a := by
  intro a ha
  rcases List.mem_append.mp ha with ha | ha
  · obtain ⟨i, _, rfl⟩ := List.mem_map.mp ha
    exact sub_nonneg.mpr (h.fair hlines i).le
  · rw [taxedShipping] at ha
    split at ha
    · rw [List.mem_singleton.mp ha]
      exact le_max_left _ _
    · cases ha

theorem kept_lower (h : Discounted lines discounts) (hlow : Discounted lines lower)
    (hle : lower.orderMinor.getD 0 ≤ discounts.orderMinor.getD 0)
    (hlines : ∀ a ∈ lineAmounts lines, IsAmount a) (i : ℕ) :
    kept lines discounts i ≤ kept lines lower i + 1 := by
  have hshare := h.fair hlines i
  have hshare' := hlow.fair hlines i
  have hamount : 0 ≤ (lineAmounts lines).getD i 0 := hshare.nonneg.trans hshare.le
  have hsum : 0 ≤ (lineAmounts lines).sum := (IsAmount.sum hlines).nonneg
  have hexact := div_le_div_of_nonneg_right (mul_le_mul_of_nonneg_right hle hamount) hsum
  have hnear := (abs_lt.mp hshare.near).1
  have hnear' := (abs_lt.mp hshare'.near).2
  obtain ⟨z, hz⟩ := hshare.whole
  obtain ⟨z', hz'⟩ := hshare'.whole
  rw [hz] at hnear
  rw [hz'] at hnear'
  have hlt : (z' : ℚ) < z + 2 := by linarith
  have hle' : z' ≤ z + 1 := by
    have hlt' : z' < z + 2 := by exact_mod_cast hlt
    omega
  have hcast : (z' : ℚ) ≤ z + 1 := by exact_mod_cast hle'
  rw [kept, kept, hz, hz']
  linarith

theorem sum_near {f g : ℚ → ℚ} {c : ℚ} {l : List ℚ} (h : ∀ a ∈ l, |f a - g a| ≤ c) :
    |(l.map f).sum - (l.map g).sum| ≤ l.length * c := by
  induction l with
  | nil => simp
  | cons a rest ih =>
    have hfirst := h a (by simp)
    have hrest := ih fun x hx => h x (by simp [hx])
    rw [List.map_cons, List.map_cons, List.sum_cons, List.sum_cons, List.length_cons]
    calc |f a + (rest.map f).sum - (g a + (rest.map g).sum)|
        = |(f a - g a) + ((rest.map f).sum - (rest.map g).sum)| := by
          congr 1
          ring
      _ ≤ |f a - g a| + |(rest.map f).sum - (rest.map g).sum| := abs_add_le _ _
      _ ≤ c + rest.length * c := add_le_add hfirst hrest
      _ = ((rest.length + 1 : ℕ) : ℚ) * c := by
          push_cast
          ring

theorem calculateTax_amount (h : Discounted lines discounts)
    (hlines : ∀ a ∈ lineAmounts lines, IsAmount a) :
    IsAmount (calculateTax settings lines destination shippingMinor discounts).taxMinor := by
  cases hregion : settings.regionFor destination.country with
  | none =>
    rw [calculateTax_none hregion]
    exact IsAmount.zero
  | some region =>
    have hrate := region.rateFor_valid destination.province
    rw [calculateTax_eq hregion]
    apply IsAmount.sum
    intro tax htax
    obtain ⟨amount, hamount, rfl⟩ := List.mem_map.mp htax
    rw [taxOf_eq hrate]
    have hnonneg := taxedAmounts_nonneg settings shippingMinor h hlines amount hamount
    have hround := mathRound_nonneg
      (exactTaxOf_nonneg settings.pricesIncludeTax hrate hnonneg)
    exact IsAmount.of_int (by exact_mod_cast hround)

theorem calculateTax_included (hincluded : settings.pricesIncludeTax = true)
    (h : Discounted lines discounts) (hlines : ∀ a ∈ lineAmounts lines, IsAmount a) :
    (calculateTax settings lines destination shippingMinor discounts).taxMinor ≤
      (taxedAmounts settings lines shippingMinor discounts).sum := by
  have hnonneg := taxedAmounts_nonneg settings shippingMinor h hlines
  cases hregion : settings.regionFor destination.country with
  | none =>
    rw [calculateTax_none hregion]
    exact List.sum_nonneg hnonneg
  | some region =>
    have hrate := region.rateFor_valid destination.province
    rw [calculateTax_eq hregion, hincluded]
    conv_rhs => rw [← List.map_id (taxedAmounts settings lines shippingMinor discounts)]
    apply List.sum_le_sum
    intro amount hamount
    rw [taxOf_eq hrate]
    exact mathRound_half (hnonneg amount hamount)
      (exactTaxOf_included hrate (hnonneg amount hamount))

theorem calculateTax_near :
    |(calculateTax settings lines destination shippingMinor discounts).taxMinor -
        exactTax settings lines destination shippingMinor discounts| ≤
      (taxedAmounts settings lines shippingMinor discounts).length * (1 / 2) := by
  cases hregion : settings.regionFor destination.country with
  | none =>
    rw [calculateTax_none hregion, exactTax, hregion, sub_self, abs_zero]
    positivity
  | some region =>
    have hrate := region.rateFor_valid destination.province
    rw [calculateTax_eq hregion, exactTax, hregion]
    apply sum_near
    intro amount _
    rw [taxOf_eq hrate]
    exact mathRound_near _

theorem sum_taxedShipping (hrate : validRate rate = true) :
    ((taxedShipping settings shippingMinor discounts).map (taxOf included rate)).sum =
      if settings.chargeTaxOnShipping then
        (mathRound (exactTaxOf included rate (shippingAfterDiscount shippingMinor discounts)) : ℚ)
      else 0 := by
  rw [taxedShipping]
  cases settings.chargeTaxOnShipping with
  | false => simp
  | true =>
    by_cases hpos : 0 < shippingAfterDiscount shippingMinor discounts
    · simp [hpos, taxOf_eq hrate]
    · have hzero : shippingAfterDiscount shippingMinor discounts = 0 :=
        le_antisymm (not_lt.mp hpos) (le_max_left _ _)
      have hround : mathRound 0 = 0 := by decide +kernel
      simp [hzero, exactTaxOf, hround]

theorem taxedShipping_lower (included : Bool) (settings : TaxSettings) (shippingMinor : ℚ)
    (hrate : validRate rate = true)
    (hle : lower.shippingMinor.getD 0 ≤ discounts.shippingMinor.getD 0) :
    ((taxedShipping settings shippingMinor discounts).map (taxOf included rate)).sum ≤
      ((taxedShipping settings shippingMinor lower).map (taxOf included rate)).sum := by
  rw [sum_taxedShipping hrate, sum_taxedShipping hrate]
  split
  · have hship : shippingAfterDiscount shippingMinor discounts ≤
        shippingAfterDiscount shippingMinor lower :=
      max_le_max_left 0 (sub_le_sub_left (max_le_max_left 0 hle) _)
    have hexact : exactTaxOf included rate (shippingAfterDiscount shippingMinor discounts) ≤
        exactTaxOf included rate (shippingAfterDiscount shippingMinor lower) :=
      div_le_div_of_nonneg_right (mul_le_mul_of_nonneg_right hship (validRate_iff hrate).1)
        (divisorOf_pos included hrate).le
    exact_mod_cast Int.floor_mono (add_le_add_left hexact (1 / 2))
  · exact le_rfl

/-- A line's share may rise by a unit when the discount falls. -/
theorem calculateTax_lower (h : Discounted lines discounts) (hlow : Discounted lines lower)
    (horder : lower.orderMinor.getD 0 ≤ discounts.orderMinor.getD 0)
    (hship : lower.shippingMinor.getD 0 ≤ discounts.shippingMinor.getD 0)
    (hlines : ∀ a ∈ lineAmounts lines, IsAmount a) :
    (calculateTax settings lines destination shippingMinor discounts).taxMinor ≤
      (calculateTax settings lines destination shippingMinor lower).taxMinor +
        (taxedPlaces lines).length := by
  cases hregion : settings.regionFor destination.country with
  | none =>
    rw [calculateTax_none hregion, calculateTax_none hregion]
    positivity
  | some region =>
    have hrate := region.rateFor_valid destination.province
    have hshipping := taxedShipping_lower settings.pricesIncludeTax settings shippingMinor hrate
      hship
    have hplaces : (((taxedPlaces lines).map (kept lines discounts)).map
        (taxOf settings.pricesIncludeTax (region.rateFor destination.province))).sum ≤
        (((taxedPlaces lines).map (kept lines lower)).map
          (taxOf settings.pricesIncludeTax (region.rateFor destination.province))).sum +
        (taxedPlaces lines).length := by
      induction taxedPlaces lines with
      | nil => simp
      | cons i rest ih =>
        have hkept := kept_lower h hlow horder hlines i
        have hround := mathRound_le_succ
          (exactTaxOf_step settings.pricesIncludeTax hrate hkept)
        have hcast : (mathRound (exactTaxOf settings.pricesIncludeTax
            (region.rateFor destination.province) (kept lines discounts i)) : ℚ) ≤
            mathRound (exactTaxOf settings.pricesIncludeTax
              (region.rateFor destination.province) (kept lines lower i)) + 1 := by
          exact_mod_cast hround
        simp only [List.map_cons, List.sum_cons, List.length_cons, Nat.cast_add, Nat.cast_one,
          taxOf_eq hrate] at ih ⊢
        linarith
    rw [calculateTax_eq hregion, calculateTax_eq hregion, taxedAmounts, taxedAmounts,
      List.map_append, List.map_append, List.sum_append, List.sum_append]
    linarith

/-- What holds of the tax under any settings, for whole discounts within the subtotal. Each line's
own rounding bounds the distance to the exact tax; a lower discount may cost a whole unit a line. -/
theorem tax_bounds (settings : TaxSettings) (lines : List TaxableLine)
    (destination : TaxDestination) (shippingMinor : ℚ) (discounts : TaxDiscounts)
    (hlines : ∀ a ∈ lineAmounts lines, IsAmount a) (h : Discounted lines discounts) :
    IsAmount (calculateTax settings lines destination shippingMinor discounts).taxMinor ∧
      (settings.pricesIncludeTax = true →
        (calculateTax settings lines destination shippingMinor discounts).taxMinor ≤
          (taxedAmounts settings lines shippingMinor discounts).sum) ∧
      |(calculateTax settings lines destination shippingMinor discounts).taxMinor -
          exactTax settings lines destination shippingMinor discounts| ≤
        (taxedAmounts settings lines shippingMinor discounts).length * (1 / 2) ∧
      ∀ lower, Discounted lines lower →
        lower.orderMinor.getD 0 ≤ discounts.orderMinor.getD 0 →
        lower.shippingMinor.getD 0 ≤ discounts.shippingMinor.getD 0 →
        (calculateTax settings lines destination shippingMinor discounts).taxMinor ≤
          (calculateTax settings lines destination shippingMinor lower).taxMinor +
            (taxedPlaces lines).length := by
  refine ⟨calculateTax_amount h hlines, ?_, calculateTax_near, ?_⟩
  · intro hincluded
    exact calculateTax_included hincluded h hlines
  · intro lower hlow horder hship
    exact calculateTax_lower h hlow horder hship hlines

/-- Two lines that are not taxable, and one that is. -/
def threeLines : List TaxableLine := [⟨10, 1, false⟩, ⟨10, 1, false⟩, ⟨6, 1, true⟩]

/-- Prices include tax, and Egypt's rate is 14%. -/
def egyptSettings : TaxSettings where
  pricesIncludeTax := true
  chargeTaxOnShipping := false
  regions := [⟨⟨"r-0", by decide⟩, "EG", 1400, [], by decide +kernel⟩]

theorem threeLines_amounts : ∀ a ∈ lineAmounts threeLines, IsAmount a := by
  have hamounts : lineAmounts threeLines = [((10 : ℕ) : ℚ), ((10 : ℕ) : ℚ), ((6 : ℕ) : ℚ)] := by
    decide +kernel
  rw [hamounts]
  simp only [List.forall_mem_cons]
  exact ⟨IsAmount.natCast _, IsAmount.natCast _, IsAmount.natCast _, by simp⟩

theorem threeLines_discounted (n : ℕ) (h : n ≤ 26) :
    Discounted threeLines { orderMinor := some n } where
  whole := IsAmount.natCast n
  le := by
    have hsum : (lineAmounts threeLines).sum = 26 := by decide +kernel
    rw [hsum]
    change (n : ℚ) ≤ 26
    exact_mod_cast h

theorem tax_bounds_three :
    IsAmount (calculateTax egyptSettings threeLines ⟨"EG", none⟩ 0
      { orderMinor := some (7 : ℕ) }).taxMinor :=
  (tax_bounds egyptSettings threeLines ⟨"EG", none⟩ 0 { orderMinor := some (7 : ℕ) }
    threeLines_amounts (threeLines_discounted 7 (by decide))).1

/-- With the discount one lower, the third line's share rises from one to two, and its tax is
rounded down instead of up. -/
theorem lower_discount_fails :
    ¬ ∀ (settings : TaxSettings) (lines : List TaxableLine) (destination : TaxDestination)
        (shippingMinor : ℚ) (discounts lower : TaxDiscounts),
      (∀ a ∈ lineAmounts lines, IsAmount a) → Discounted lines discounts →
      Discounted lines lower → lower.orderMinor.getD 0 ≤ discounts.orderMinor.getD 0 →
      lower.shippingMinor.getD 0 ≤ discounts.shippingMinor.getD 0 →
      (calculateTax settings lines destination shippingMinor discounts).taxMinor -
          (calculateTax settings lines destination shippingMinor lower).taxMinor ≤
        (taxedAmounts settings lines shippingMinor discounts).length * (1 / 2) := by
  intro hall
  have hsix := hall egyptSettings threeLines ⟨"EG", none⟩ 0 { orderMinor := some (7 : ℕ) }
    { orderMinor := some (6 : ℕ) } threeLines_amounts (threeLines_discounted 7 (by decide))
    (threeLines_discounted 6 (by decide)) (by decide +kernel) le_rfl
  have hone : (calculateTax egyptSettings threeLines ⟨"EG", none⟩ 0
      { orderMinor := some (7 : ℕ) }).taxMinor = 1 := by decide +kernel
  have hzero : (calculateTax egyptSettings threeLines ⟨"EG", none⟩ 0
      { orderMinor := some (6 : ℕ) }).taxMinor = 0 := by decide +kernel
  have hlength : (taxedAmounts egyptSettings threeLines 0
      { orderMinor := some (7 : ℕ) }).length = 1 := by decide +kernel
  rw [hone, hzero, hlength] at hsix
  norm_num at hsix

end Finance

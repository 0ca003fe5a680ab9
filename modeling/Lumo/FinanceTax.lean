import Lumo.KeyedLines
import Lumo.PromotionsLineDiscounts

/-! # The store's tax

The regions where a shop collects tax, the discount shared over the lines, and the tax of a
checkout under the shop's settings. Amounts are in minor units, rates in basis points. -/
namespace Finance

open SharedKernel Builtins

def MAX_RATE_BASIS_POINTS : ℚ := 10000

/-- The code is ISO 3166-2, for example `EG-C`. -/
structure ProvinceRate where
  code : String
  rateBasisPoints : ℚ

structure TaxRegionInput where
  countryCode : String
  rateBasisPoints : ℚ
  provinces : List ProvinceRate

def validRate (value : ℚ) : Bool :=
  isInteger value && 0 ≤ value && value ≤ MAX_RATE_BASIS_POINTS

/-- The pattern `^[A-Z]{2}$`. -/
def isAlpha2 (value : String) : Bool :=
  value.toList.length == 2 && value.toList.all fun c => 'A' ≤ c && c ≤ 'Z'

def provinceIssues (countryCode : String) : List String → List ProvinceRate → List FieldIssue
  | _, [] => []
  | seen, province :: rest =>
    (if (countryCode ++ "-").toList.isPrefixOf province.code.toList then [] else
      [⟨"provinces", province.code ++ " is not a province of " ++ countryCode⟩]) ++
    (if province.code ∈ seen then [⟨"provinces", province.code ++ " is listed twice"⟩] else []) ++
    (if validRate province.rateBasisPoints then [] else
      [⟨"provinces", province.code ++ ": the rate must be a whole number from 0 to 10000"⟩]) ++
    provinceIssues countryCode (province.code :: seen) rest

def regionIssues (input : TaxRegionInput) : List FieldIssue :=
  (if isAlpha2 input.countryCode then [] else
    [⟨"countryCode", "must be an ISO 3166-1 alpha-2 code"⟩]) ++
  (if validRate input.rateBasisPoints then [] else
    [⟨"rateBasisPoints", "must be a whole number from 0 to 10000"⟩]) ++
  provinceIssues input.countryCode [] input.provinces

theorem provinceIssues_nil {countryCode : String} {seen : List String}
    {provinces : List ProvinceRate} (h : provinceIssues countryCode seen provinces = []) :
    ∀ p ∈ provinces, validRate p.rateBasisPoints = true := by
  induction provinces generalizing seen with
  | nil => simp
  | cons province rest ih =>
    rw [provinceIssues] at h
    obtain ⟨hfirst, hrest⟩ := List.append_eq_nil_iff.mp h
    obtain ⟨_, hrate⟩ := List.append_eq_nil_iff.mp hfirst
    intro p hp
    rcases List.mem_cons.mp hp with rfl | hp
    · by_contra hinvalid
      simp [hinvalid] at hrate
    · exact ih hrest p hp

theorem regionIssues_nil {input : TaxRegionInput} (h : regionIssues input = []) :
    validRate input.rateBasisPoints = true ∧
      ∀ p ∈ input.provinces, validRate p.rateBasisPoints = true := by
  obtain ⟨hfirst, hprovinces⟩ := List.append_eq_nil_iff.mp h
  obtain ⟨_, hrate⟩ := List.append_eq_nil_iff.mp hfirst
  refine ⟨?_, provinceIssues_nil hprovinces⟩
  by_contra hinvalid
  simp [hinvalid] at hrate

/-- Where the shop collects tax, at rates that passed the check. The province rates replace the
country's. -/
structure TaxRegion where
  id : UniqueEntityId
  countryCode : String
  rateBasisPoints : ℚ
  provinces : List ProvinceRate
  valid : validRate rateBasisPoints = true ∧
    ∀ p ∈ provinces, validRate p.rateBasisPoints = true

namespace TaxRegion

variable (text : TextOps)

/-- `cleanRegion`, and the region of what it cleaned. -/
def create (id : UniqueEntityId) (input : TaxRegionInput) : Except DomainError TaxRegion :=
  if h : regionIssues input = [] then
    .ok {
      id
      countryCode := input.countryCode
      rateBasisPoints := input.rateBasisPoints
      provinces := sortBy (fun a b => text.localeCompare a.code b.code) input.provinces
      valid := ⟨(regionIssues_nil h).1, fun p hp =>
        (regionIssues_nil h).2 p ((sortBy_perm _ _).mem_iff.mp hp)⟩ }
  else .error (.validation "Invalid tax region" (regionIssues input))

def rateFor (region : TaxRegion) (province : Option String) : ℚ :=
  match province.bind fun code => region.provinces.find? fun p => p.code == code with
  | some override => override.rateBasisPoints
  | none => region.rateBasisPoints

theorem rateFor_valid (region : TaxRegion) (province : Option String) :
    validRate (region.rateFor province) = true := by
  rw [rateFor]
  split
  · rename_i override h
    obtain ⟨code, _, hfound⟩ := Option.bind_eq_some_iff.mp h
    exact region.valid.2 override (List.mem_of_find?_eq_some hfound)
  · exact region.valid.1

end TaxRegion

/-- With no region the tax is zero. -/
structure TaxSettings where
  pricesIncludeTax : Bool
  chargeTaxOnShipping : Bool
  regions : List TaxRegion

namespace TaxSettings

def defaults : TaxSettings where
  pricesIncludeTax := true
  chargeTaxOnShipping := false
  regions := []

def setFlags (settings : TaxSettings) (pricesIncludeTax chargeTaxOnShipping : Bool) : TaxSettings :=
  { settings with pricesIncludeTax, chargeTaxOnShipping }

def upsertRegion (text : TextOps) (settings : TaxSettings) (id : UniqueEntityId)
    (input : TaxRegionInput) : Except DomainError TaxSettings := do
  match settings.regions.find? fun r => r.countryCode == input.countryCode with
  | some current =>
    let region ← TaxRegion.create text current.id input
    let existing := settings.regions.findIdx fun r => r.countryCode == input.countryCode
    return { settings with regions := settings.regions.set existing region }
  | none =>
    let region ← TaxRegion.create text id input
    return { settings with regions := settings.regions ++ [region] }

def removeRegion (settings : TaxSettings) (countryCode : String) :
    Except DomainError TaxSettings :=
  if settings.regions.any fun r => r.countryCode == countryCode then
    .ok { settings with
      regions := settings.regions.eraseIdx
        (settings.regions.findIdx fun r => r.countryCode == countryCode) }
  else .error (.notFound "Tax region not found")

def regionFor (settings : TaxSettings) (countryCode : String) : Option TaxRegion :=
  settings.regions.find? fun r => r.countryCode == countryCode

end TaxSettings

structure TaxableLine where
  unitPriceMinor : ℚ
  quantity : ℚ
  taxable : Bool

structure TaxDestination where
  country : String
  province : Option String := none

structure TaxResult where
  taxMinor : ℚ
  included : Bool

structure TaxDiscounts where
  orderMinor : Option ℚ := none
  shippingMinor : Option ℚ := none

/-- `a % b`. -/
def remainder (a b : ℚ) : ℚ :=
  a - b * (if 0 ≤ a / b then ⌊a / b⌋ else ⌈a / b⌉ : ℤ)

structure Remainder where
  index : ℕ
  remainder : ℚ

/-- `b.remainder - a.remainder || a.index - b.index`. -/
def compareRemainders (a b : Remainder) : ℚ :=
  if b.remainder - a.remainder = 0 then (a.index : ℚ) - b.index else b.remainder - a.remainder

def addLeft : ℚ → List Remainder → List ℚ → List ℚ
  | _, [], shares => shares
  | left, r :: rest, shares =>
    if left = 0 then shares else addLeft (left - 1) rest (shares.modify r.index (· + 1))

/-- What the floors leave over goes to the largest remainders, the earlier line first on a tie. -/
def allocateDiscount (amounts : List ℚ) (discountMinor : ℚ) : List ℚ :=
  let total := amounts.sum
  let discount := min (max 0 discountMinor) total
  if total = 0 ∨ discount = 0 then amounts.map fun _ => 0
  else
    let shares := amounts.map fun amount => (⌊discount * amount / total⌋ : ℚ)
    let remainders := amounts.zipIdx.map fun a =>
      { index := a.2, remainder := remainder (discount * a.1) total : Remainder }
    addLeft (discount - shares.sum) (sortBy compareRemainders remainders) shares

/-- `amount × bp / divisor`, rounded half up. -/
def roundedShare (amountMinor basisPoints divisor : ℚ) : ℚ :=
  ⌊(2 * (amountMinor * basisPoints) + divisor) / (2 * divisor)⌋

def taxOf (included : Bool) (rate amountMinor : ℚ) : ℚ :=
  if included then roundedShare amountMinor rate (10000 + rate)
  else roundedShare amountMinor rate 10000

def lineAmounts (lines : List TaxableLine) : List ℚ :=
  lines.map fun line => line.unitPriceMinor * line.quantity

def shippingAfterDiscount (shippingMinor : ℚ) (discounts : TaxDiscounts) : ℚ :=
  max 0 (shippingMinor - max 0 (discounts.shippingMinor.getD 0))

/-- Worked out after discounts, line by line. A line that is not taxable still absorbs its share of
the order's discount. -/
def calculateTax (settings : TaxSettings) (lines : List TaxableLine) (destination : TaxDestination)
    (shippingMinor : ℚ) (discounts : TaxDiscounts) : TaxResult :=
  let included := settings.pricesIncludeTax
  match settings.regionFor destination.country with
  | none => ⟨0, included⟩
  | some region =>
    let rate := region.rateFor destination.province
    let amounts := lineAmounts lines
    let shares := allocateDiscount amounts (discounts.orderMinor.getD 0)
    let taxMinor := lines.zipIdx.foldl (fun tax line =>
      if line.1.taxable then
        tax + taxOf included rate (amounts.getD line.2 0 - shares.getD line.2 0)
      else tax) 0
    let shipping := shippingAfterDiscount shippingMinor discounts
    if settings.chargeTaxOnShipping && 0 < shipping then
      ⟨taxMinor + taxOf included rate shipping, included⟩
    else ⟨taxMinor, included⟩

end Finance

/-! ## One rule for sharing a discount out

The discount calculator and the tax share a discount over the lines with code of their own. Both
hand what the floors leave over to the largest remainders, so their shares are the same. -/
namespace Finance

open SharedKernel Builtins
open Promotions (Base Share IsWhole compareShares handOut shareOf sharesOf rounded roundedUp)

variable {base : List Base} {total : ℚ}

def remainderOf (sum : ℚ) (share : Share) : Remainder where
  index := share.index
  remainder := sum * share.fraction

variable {sum : ℚ}

theorem compareRemainders_le (hsum : 0 < sum) (a b : Share) :
    compareRemainders (remainderOf sum a) (remainderOf sum b) ≤ 0 ↔ compareShares a b ≤ 0 := by
  rw [compareRemainders, Promotions.compareShares]
  simp only [remainderOf, ← mul_sub, mul_eq_zero, hsum.ne', false_or]
  by_cases h : b.fraction - a.fraction = 0
  · rw [if_pos h, if_pos h]
  · rw [if_neg h, if_neg h, ← neg_nonneg, ← mul_neg, mul_nonneg_iff_of_pos_left hsum, neg_nonneg]

theorem sortBy_remainders (hsum : 0 < sum) (l : List Share) :
    sortBy compareRemainders (l.map (remainderOf sum)) =
      (sortBy compareShares l).map (remainderOf sum) := by
  symm
  apply List.map_insertionSort
  intro a _ b _
  exact (compareRemainders_le hsum a b).symm

theorem addLeft_handOut (sum left : ℚ) (l : List Share) (shares : List ℚ) :
    addLeft left (l.map (remainderOf sum)) shares =
      (handOut left l).foldl (fun shares i => shares.modify i (· + 1)) shares := by
  induction l generalizing left shares with
  | nil => rfl
  | cons share rest ih =>
    rw [List.map_cons, addLeft, Promotions.handOut]
    by_cases hleft : left = 0
    · rw [if_pos hleft, if_pos hleft, List.foldl_nil]
    · rw [if_neg hleft, if_neg hleft, List.foldl_cons, ih]
      rfl

theorem handOut_sublist (left : ℚ) (l : List Share) :
    (handOut left l).Sublist (l.map (·.index)) := by
  induction l generalizing left with
  | nil => exact List.Sublist.refl _
  | cons share rest ih =>
    rw [Promotions.handOut]
    split
    · exact List.nil_sublist _
    · exact (ih _).cons_cons _

theorem raised_mapIdx {picked : List ℕ} (h : picked.Nodup) (values : List ℚ) :
    picked.foldl (fun values i => values.modify i (· + 1)) values =
      values.mapIdx fun i v => if i ∈ picked then v + 1 else v := by
  induction picked generalizing values with
  | nil =>
    apply List.ext_getElem?
    intro i
    simp
  | cons first rest ih =>
    obtain ⟨hfirst, hrest⟩ := List.nodup_cons.mp h
    rw [List.foldl_cons, ih hrest]
    apply List.ext_getElem?
    intro i
    rw [List.getElem?_mapIdx, List.getElem?_mapIdx, List.getElem?_modify]
    by_cases hi : first = i
    · subst hi
      cases values[first]? <;> simp [hfirst]
    · cases values[i]? <;> simp [hi, Ne.symm hi]

theorem sharesOf_mapIdx (total : ℚ) (base : List Base) :
    sharesOf total base =
      base.mapIdx fun i b => shareOf total (base.map (·.amount)).sum b i := by
  rw [Promotions.sharesOf, List.mapIdx_eq_zipIdx_map]

theorem remainder_mul (hsum : 0 < sum) {a : ℚ} (ha : 0 ≤ a) :
    remainder a sum = sum * (a / sum - ⌊a / sum⌋) := by
  rw [remainder, if_pos (div_nonneg ha hsum.le), mul_sub, mul_div_cancel₀ a hsum.ne']

theorem remainders_of_shares (hpos : 0 < total) (hsum : 0 < (base.map (·.amount)).sum)
    (hamounts : ∀ b ∈ base, IsAmount b.amount) :
    ((base.map (·.amount)).zipIdx.map fun a =>
        { index := a.2
          remainder := remainder (total * a.1) (base.map (·.amount)).sum : Remainder }) =
      (sharesOf total base).map (remainderOf (base.map (·.amount)).sum) := by
  rw [List.zipIdx_map, List.map_map, Promotions.sharesOf, List.map_map]
  apply List.map_congr_left
  rintro ⟨b, i⟩ hb
  have hamount := hamounts b (List.fst_mem_of_mem_zipIdx hb)
  simp only [Function.comp_apply, Prod.map_apply, id_eq, remainderOf, Promotions.shareOf]
  rw [remainder_mul hsum (mul_nonneg hpos.le hamount.nonneg)]

theorem allocateDiscount_rounded (hpos : 0 < total) (hle : total ≤ (base.map (·.amount)).sum)
    (hamounts : ∀ b ∈ base, IsAmount b.amount) :
    allocateDiscount (base.map (·.amount)) total =
      (sharesOf total base).map (rounded (roundedUp total base)) := by
  have hsum : 0 < (base.map (·.amount)).sum := hpos.trans_le hle
  have hcapped : min (max 0 total) (base.map (·.amount)).sum = total := by
    rw [max_eq_right hpos.le, min_eq_left hle]
  have hvalues : ((base.map (·.amount)).map fun amount =>
      ((⌊total * amount / (base.map (·.amount)).sum⌋ : ℤ) : ℚ)) =
        (sharesOf total base).map (·.value) := by
    rw [Promotions.sharesOf_values, Promotions.exactShares, List.map_map, List.map_map]
    rfl
  have hnodup : (roundedUp total base).Nodup := by
    have hindexes := ((Promotions.sortBy_shares_indexes total base).nodup_iff).mpr
      List.nodup_range
    exact hindexes.sublist (handOut_sublist _ _)
  simp only [allocateDiscount, hcapped]
  rw [if_neg (not_or.mpr ⟨hsum.ne', hpos.ne'⟩), hvalues, remainders_of_shares hpos hsum hamounts,
    sortBy_remainders hsum, addLeft_handOut]
  change (roundedUp total base).foldl _ _ = _
  rw [raised_mapIdx hnodup, sharesOf_mapIdx]
  apply List.ext_getElem?
  intro i
  simp only [List.getElem?_mapIdx, List.getElem?_map, Option.map_map]
  rfl

theorem allocateDiscount_zero {amounts : List ℚ} (h : 0 ≤ amounts.sum) :
    allocateDiscount amounts 0 = amounts.map fun _ => 0 := by
  have hcapped : min (max 0 0) amounts.sum = 0 := by rw [max_self, min_eq_left h]
  simp only [allocateDiscount, hcapped, or_true, if_true]

structure FairShare (discount total amount share : ℚ) : Prop where
  whole : IsWhole share
  nonneg : 0 ≤ share
  le : share ≤ amount
  near : |share - discount * amount / total| < 1

theorem FairShare.none {discount total amount : ℚ} (h : 0 ≤ amount)
    (hzero : discount * amount = 0) : FairShare discount total amount 0 where
  whole := ⟨0, by simp⟩
  nonneg := le_refl 0
  le := h
  near := by simp [hzero]

theorem rounded_fair (htotal : IsWhole total) (hpos : 0 < total)
    (hle : total ≤ (base.map (·.amount)).sum) (hamounts : ∀ b ∈ base, IsAmount b.amount) :
    List.Forall₂ (fun b share => FairShare total (base.map (·.amount)).sum b.amount share) base
      ((sharesOf total base).map (rounded (roundedUp total base))) := by
  have hsum : 0 < (base.map (·.amount)).sum := hpos.trans_le hle
  rw [Promotions.sharesOf, List.map_map]
  conv => arg 2; rw [← List.zipIdx_map_fst 0 base]
  rw [List.forall₂_map_left_iff, List.forall₂_map_right_iff, List.forall₂_same]
  rintro ⟨b, i⟩ hb
  obtain ⟨hup, hdown⟩ := Promotions.rounded_near htotal hsum.ne' hb
  obtain ⟨hnonneg, hbound⟩ := Promotions.rounded_bounds htotal hpos hle hb
    (hamounts b (List.fst_mem_of_mem_zipIdx hb))
  refine ⟨Promotions.rounded_whole _ _ _ b i, hnonneg, hbound, ?_⟩
  rw [Function.comp_apply, abs_lt]
  constructor <;> linarith

def linesOf (amounts : List ℚ) : List Base := amounts.map fun amount => ⟨"", amount, 0⟩

theorem linesOf_amounts (amounts : List ℚ) : (linesOf amounts).map (·.amount) = amounts := by
  rw [linesOf, List.map_map]
  exact List.map_id amounts

theorem allocateDiscount_fair {amounts : List ℚ} (hamounts : ∀ a ∈ amounts, IsAmount a)
    (htotal : IsAmount total) (hle : total ≤ amounts.sum) :
    List.Forall₂ (FairShare total amounts.sum) amounts (allocateDiscount amounts total) ∧
      (allocateDiscount amounts total).sum = total := by
  rcases htotal.nonneg.eq_or_lt with rfl | hpos
  · rw [allocateDiscount_zero hle, List.forall₂_map_right_iff, List.forall₂_same]
    refine ⟨fun a ha => FairShare.none (hamounts a ha).nonneg (zero_mul a), ?_⟩
    simp
  · have hlines : ∀ b ∈ linesOf amounts, IsAmount b.amount := by
      intro b hb
      apply hamounts
      rw [← linesOf_amounts amounts]
      exact List.mem_map_of_mem hb
    have hwhole := Promotions.isWhole_of_amount htotal
    have hle' : total ≤ ((linesOf amounts).map (·.amount)).sum := by rwa [linesOf_amounts]
    have hfair := rounded_fair hwhole hpos hle' hlines
    have hsum := Promotions.rounded_total hwhole (hpos.trans_le hle').ne'
    rw [← allocateDiscount_rounded hpos hle' hlines, linesOf_amounts] at hfair hsum
    refine ⟨?_, hsum⟩
    rwa [linesOf, List.forall₂_map_left_iff] at hfair

theorem allocate_shares (hamounts : ∀ b ∈ base, IsAmount b.amount) (htotal : 0 ≤ total)
    (hle : total ≤ (base.map (·.amount)).sum) :
    Promotions.allocate total base = OrderedMap.ofEntries
      ((base.map (·.ref)).zip (allocateDiscount (base.map (·.amount)) total)) := by
  rw [Promotions.allocate_eq]
  rcases htotal.eq_or_lt with rfl | hpos
  · rw [if_pos (Or.inl le_rfl), allocateDiscount_zero hle, List.map_map, List.zip_map']
    rfl
  · have hsum : 0 < (base.map (·.amount)).sum := hpos.trans_le hle
    rw [if_neg (not_or.mpr ⟨hpos.not_ge, hsum.not_ge⟩), allocateDiscount_rounded hpos hle hamounts,
      ← Promotions.sharesOf_refs total base, List.zip_map']

/-- One rule for both: the same shares, which add up to the total, each within its amount and less
than a unit from the exact share. -/
theorem allocations_agree (base : List Base) (total : ℚ) (hamounts : ∀ b ∈ base, IsAmount b.amount)
    (htotal : IsAmount total) (hle : total ≤ (base.map (·.amount)).sum) :
    Promotions.allocate total base = OrderedMap.ofEntries
        ((base.map (·.ref)).zip (allocateDiscount (base.map (·.amount)) total)) ∧
      (allocateDiscount (base.map (·.amount)) total).sum = total ∧
      List.Forall₂ (fun b share => 0 ≤ share ∧ share ≤ b.amount ∧
          |share - total * b.amount / (base.map (·.amount)).sum| < 1)
        base (allocateDiscount (base.map (·.amount)) total) := by
  have hall : ∀ a ∈ base.map (·.amount), IsAmount a := by
    intro a ha
    obtain ⟨b, hb, rfl⟩ := List.mem_map.mp ha
    exact hamounts b hb
  obtain ⟨hfair, hsum⟩ := allocateDiscount_fair hall htotal hle
  refine ⟨allocate_shares hamounts htotal.nonneg hle, hsum, ?_⟩
  rw [List.forall₂_map_left_iff] at hfair
  exact hfair.imp fun _ _ h => ⟨h.nonneg, h.le, h.near⟩

/-- A discount of seven on two lines of ten and one of six. -/
theorem allocations_agree_three :
    let base : List Base := [⟨"a", 10, 1⟩, ⟨"b", 10, 1⟩, ⟨"c", 6, 1⟩]
    (7 : ℚ) ≤ (base.map (·.amount)).sum ∧
      Promotions.allocate 7 base = OrderedMap.ofEntries
        ((base.map (·.ref)).zip (allocateDiscount (base.map (·.amount)) 7)) := by
  have hle : (7 : ℚ) ≤ (([⟨"a", 10, 1⟩, ⟨"b", 10, 1⟩, ⟨"c", 6, 1⟩] : List Base).map
      (·.amount)).sum := by norm_num
  refine ⟨hle, (allocations_agree _ 7 ?_ (IsAmount.natCast 7) hle).1⟩
  simp only [List.forall_mem_cons]
  exact ⟨IsAmount.natCast 10, IsAmount.natCast 10, IsAmount.natCast 6, by simp⟩

end Finance

/-! ## Edits of the settings

Each edit replaces the row of the shop; one that is refused leaves it as it was. -/
namespace Finance

open SharedKernel Builtins KeyedLines

inductive TaxEdit where
  | setFlags (pricesIncludeTax chargeTaxOnShipping : Bool)
  | upsertRegion (id : UniqueEntityId) (input : TaxRegionInput)
  | removeRegion (countryCode : String)

def TaxSettings.perform (text : TextOps) (settings : TaxSettings) : TaxEdit → TaxSettings
  | .setFlags pricesIncludeTax chargeTaxOnShipping =>
    settings.setFlags pricesIncludeTax chargeTaxOnShipping
  | .upsertRegion id input => (settings.upsertRegion text id input).toOption.getD settings
  | .removeRegion countryCode => (settings.removeRegion countryCode).toOption.getD settings

/-- What a shop has declared: under each country, the input last accepted there, with the id its
region was first given. -/
abbrev Declared := String → Option (UniqueEntityId × TaxRegionInput)

def Declared.perform (declared : Declared) : TaxEdit → Declared
  | .setFlags .. => declared
  | .upsertRegion id input =>
    if regionIssues input = [] then
      Function.update declared input.countryCode
        (some (((declared input.countryCode).map (·.1)).getD id, input))
    else declared
  | .removeRegion countryCode => Function.update declared countryCode none

/-- The rate named for the province, whichever place it has in the list, else the country's. -/
def TaxRegionInput.rateAt (input : TaxRegionInput) (province : Option String) : ℚ :=
  match province.bind fun code => input.provinces.find? fun p => p.code == code with
  | some override => override.rateBasisPoints
  | none => input.rateBasisPoints

theorem provinceIssues_distinct {countryCode : String} {seen : List String}
    {provinces : List ProvinceRate} (h : provinceIssues countryCode seen provinces = []) :
    Distinct ProvinceRate.code provinces ∧ ∀ p ∈ provinces, p.code ∉ seen := by
  induction provinces generalizing seen with
  | nil => simp [Distinct]
  | cons province rest ih =>
    simp only [provinceIssues, List.append_eq_nil_iff, ite_eq_left_iff, List.cons_ne_nil,
      imp_false, not_not, ite_eq_right_iff] at h
    obtain ⟨hdistinct, hnew⟩ := ih h.2
    refine ⟨distinct_cons.mpr ⟨fun p hp heq => hnew p hp (by simp [heq]), hdistinct⟩, ?_⟩
    intro p hp hseen
    rcases List.mem_cons.mp hp with rfl | hp
    · exact h.1.1.2 hseen
    · exact hnew p hp (List.mem_cons_of_mem _ hseen)

variable {text : TextOps} {id : UniqueEntityId} {input : TaxRegionInput} {region : TaxRegion}

/-- The clean copy has the provinces in another order, but each of them once. -/
theorem TaxRegion.create_ok (text : TextOps) (id : UniqueEntityId)
    (hissues : regionIssues input = []) :
    ∃ region, TaxRegion.create text id input = .ok region ∧ region.id = id ∧
      region.countryCode = input.countryCode ∧
      ∀ province, region.rateFor province = input.rateAt province := by
  refine ⟨_, dif_pos hissues, rfl, rfl, ?_⟩
  intro province
  have hprovinces := (provinceIssues_distinct (List.append_eq_nil_iff.mp hissues).2).1
  rw [TaxRegion.rateFor, TaxRegionInput.rateAt]
  cases province with
  | none => rfl
  | some code =>
    simp only [Option.bind_some]
    rw [← hprovinces.find?_perm (sortBy_perm _ _).symm code]

/-- The settings keep one region for each declared country. -/
structure Keeps (settings : TaxSettings) (declared : Declared) : Prop where
  distinct : Distinct TaxRegion.countryCode settings.regions
  regions : ∀ country province,
    (settings.regionFor country).map (fun region => (region.id, region.rateFor province)) =
      (declared country).map fun entry => (entry.1, entry.2.rateAt province)

variable {settings : TaxSettings} {declared : Declared}

theorem Keeps.upsertRegion (h : Keeps settings declared) (text : TextOps) (id : UniqueEntityId)
    (input : TaxRegionInput) :
    Keeps (settings.perform text (.upsertRegion id input))
      (declared.perform (.upsertRegion id input)) := by
  rw [TaxSettings.perform, TaxSettings.upsertRegion, Declared.perform]
  by_cases hissues : regionIssues input = []
  · rw [if_pos hissues]
    have hdeclared := h.regions input.countryCode none
    rw [TaxSettings.regionFor] at hdeclared
    cases hfound : settings.regions.find? fun r => r.countryCode == input.countryCode with
    | none =>
      obtain ⟨region, hregion, hid, hcountry, hrate⟩ := TaxRegion.create_ok text id hissues
      rw [hfound, Option.map_none, eq_comm, Option.map_eq_none_iff] at hdeclared
      simp only [hregion, hdeclared, Option.map_none, Option.getD_none]
      change Keeps { settings with regions := settings.regions ++ [region] } _
      constructor
      · refine distinct_concat.mpr ⟨h.distinct, ?_⟩
        intro r hr
        simpa [hcountry] using List.find?_eq_none.mp hfound r hr
      · intro country province
        rw [TaxSettings.regionFor, List.find?_append]
        by_cases heq : country = input.countryCode
        · rw [heq, hfound]
          simp [hcountry, hid, hrate]
        · rw [Function.update_of_ne heq, ← h.regions]
          simp [hcountry, beq_false_of_ne (Ne.symm heq), TaxSettings.regionFor]
    | some current =>
      obtain ⟨region, hregion, hid, hcountry, hrate⟩ := TaxRegion.create_ok text current.id hissues
      obtain ⟨hcurrent, hkey⟩ := h.distinct.find?_eq_some.mp hfound
      obtain ⟨hkeys, hfind⟩ := set_findIdx input.countryCode hcountry ⟨current, hcurrent, hkey⟩
      rw [hfound] at hdeclared
      simp only [hregion]
      constructor
      · exact (congrArg List.Nodup hkeys).mpr h.distinct
      · intro country province
        refine (congrArg (Option.map _) (hfind country)).trans ?_
        by_cases heq : country = input.countryCode
        · obtain ⟨entry, hentry, hshown⟩ := Option.map_eq_some_iff.mp hdeclared.symm
          rw [if_pos heq, heq, Function.update_self, hentry]
          simp [hid, hrate, (Prod.mk.inj hshown).1]
        · rw [if_neg heq, Function.update_of_ne heq, ← h.regions]
          rfl
  · rw [if_neg hissues]
    have hrefused (id : UniqueEntityId) : TaxRegion.create text id input =
        .error (.validation "Invalid tax region" (regionIssues input)) := dif_neg hissues
    split
    · rw [hrefused]
      exact h
    · rw [hrefused]
      exact h

theorem Keeps.removeRegion (h : Keeps settings declared) (text : TextOps) (countryCode : String) :
    Keeps (settings.perform text (.removeRegion countryCode))
      (declared.perform (.removeRegion countryCode)) := by
  rw [TaxSettings.perform, TaxSettings.removeRegion, Declared.perform]
  split
  · constructor
    · exact h.distinct.sublist (List.eraseIdx_sublist _ _)
    · intro country province
      rw [TaxSettings.regionFor]
      simp only [Except.toOption, Option.getD_some]
      rw [h.distinct.find?_eraseIdx]
      by_cases heq : country = countryCode
      · rw [if_pos heq, heq, Function.update_self]
        rfl
      · rw [if_neg heq, Function.update_of_ne heq]
        exact h.regions country province
  · rename_i habsent
    refine ⟨h.distinct, ?_⟩
    intro country province
    by_cases heq : country = countryCode
    · rw [heq, Function.update_self, Option.map_none, Option.map_eq_none_iff]
      exact List.find?_eq_none.mpr fun r hr hkey => habsent (List.any_eq_true.mpr ⟨r, hr, hkey⟩)
    · rw [Function.update_of_ne heq]
      exact h.regions country province

/-- Along every run of edits from the defaults, accepted or refused, the shop charges at each
country and province the rate last declared there and not taken back since. -/
theorem edits_keep (text : TextOps) (edits : List TaxEdit) :
    Keeps (edits.foldl (TaxSettings.perform text) .defaults)
      (edits.foldl Declared.perform fun _ => none) := by
  have hrun : ∀ (settings : TaxSettings) (declared : Declared), Keeps settings declared →
      Keeps (edits.foldl (TaxSettings.perform text) settings)
        (edits.foldl Declared.perform declared) := by
    induction edits with
    | nil => exact fun _ _ h => h
    | cons edit rest ih =>
      intro settings declared h
      apply ih
      cases edit with
      | setFlags pricesIncludeTax chargeTaxOnShipping => exact ⟨h.distinct, h.regions⟩
      | upsertRegion id input => exact h.upsertRegion text id input
      | removeRegion countryCode => exact h.removeRegion text countryCode
  exact hrun _ _ ⟨List.nodup_nil, fun _ _ => rfl⟩

end Finance

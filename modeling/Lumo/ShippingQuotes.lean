import Mathlib.Data.List.Pairwise
import Lumo.ShippingZones

/-! # The rates of a quote

Which zone an address is quoted from, which of its rates are offered and in which order. -/
namespace ShippingZones

open SharedKernel Builtins

/-- No address is held by both zones equally specifically. -/
def Separate (zone other : ShippingZone) : Prop :=
  ∀ address level, HoldsAt zone address level → ¬ HoldsAt other address level

variable {zone : ShippingZone} {subtotalMinor weightGrams : ℚ} {cuts : List ℚ} {high : Option ℚ}

theorem Separate.symm {other : ShippingZone} (h : Separate zone other) : Separate other zone :=
  fun address level hother hzone => h address level hzone hother

instance : Std.Symm Separate := ⟨fun _ _ h => h.symm⟩

/-- The zone holds the address more specifically than any other. -/
def MostSpecific (zones : List ShippingZone) (address : QuoteAddress) (zone : ShippingZone) :
    Prop :=
  zone ∈ zones ∧ ∃ level, HoldsAt zone address level ∧
    ∀ other ∈ zones, other ≠ zone → ∀ l, HoldsAt other address l → l < level

variable {address : QuoteAddress} {zones : List ShippingZone}

theorem bestZone_mostSpecific (h : zones.Pairwise Separate)
    (hbest : bestZone address zones = some zone) : MostSpecific zones address zone := by
  obtain ⟨hmem, hpos, hmax⟩ := bestZone_some hbest
  have hholds := holdsAt_matchLevel hpos
  refine ⟨hmem, matchLevel zone address, hholds, fun other hother hne l hl => ?_⟩
  have hle := (le_matchLevel hl).trans (hmax other hother)
  rcases Nat.lt_or_eq_of_le hle with hlt | rfl
  · exact hlt
  · have hapart : Separate other zone :=
      h.forall hother hmem hne
    exact absurd hholds (hapart address _ hl)

theorem mostSpecific_unique {zone' : ShippingZone} (h : MostSpecific zones address zone)
    (h' : MostSpecific zones address zone') : zone = zone' := by
  obtain ⟨hmem, level, hholds, hless⟩ := h
  obtain ⟨hmem', level', hholds', hless'⟩ := h'
  by_contra hne
  have hlt := hless zone' hmem' (Ne.symm hne) level' hholds'
  have hlt' := hless' zone hmem hne level hholds
  omega

theorem MostSpecific.perm {zones' : List ShippingZone} (h : MostSpecific zones address zone)
    (hp : zones.Perm zones') : MostSpecific zones' address zone := by
  obtain ⟨hmem, level, hholds, hless⟩ := h
  exact ⟨hp.mem_iff.mp hmem, level, hholds, fun other hother => hless other (hp.mem_iff.mpr hother)⟩

theorem bestZone_iff (h : zones.Pairwise Separate) (zone : ShippingZone) :
    bestZone address zones = some zone ↔ MostSpecific zones address zone := by
  constructor
  · exact bestZone_mostSpecific h
  · intro hspecific
    have ⟨hmem, level, hholds, _⟩ := hspecific
    cases hbest : bestZone address zones with
    | none =>
      have hzero := bestZone_none hbest zone hmem
      have hle := le_matchLevel hholds
      have hpos := hholds.pos
      omega
    | some best =>
      rw [mostSpecific_unique (bestZone_mostSpecific h hbest) hspecific]

theorem bestZone_perm {zones' : List ShippingZone} (h : zones.Pairwise Separate)
    (hp : zones.Perm zones') : bestZone address zones' = bestZone address zones := by
  have h' : zones'.Pairwise Separate := (hp.pairwise_iff fun hs => Separate.symm hs).mp h
  apply Option.ext
  intro zone
  rw [bestZone_iff h, bestZone_iff h']
  exact ⟨fun hs => hs.perm hp.symm, fun hs => hs.perm hp⟩

def InRange (value : ℚ) (min max : Option ℚ) : Prop :=
  (∀ low, min = some low → low ≤ value) ∧ ∀ high, max = some high → value < high

/-- An order of this price and weight meets the condition. -/
def RateCondition.Meets (subtotalMinor weightGrams : ℚ) : RateCondition → Prop
  | .none => True
  | .orderPrice minMinor maxMinor => InRange subtotalMinor minMinor maxMinor
  | .weight minGrams maxGrams => InRange weightGrams minGrams maxGrams

theorem within_iff {value : ℚ} {min max : Option ℚ} :
    within value min max = true ↔ InRange value min max := by
  simp only [within, InRange, Bool.and_eq_true, Option.all_eq_true, decide_eq_true_eq]

theorem applies_iff {condition : RateCondition} :
    condition.applies subtotalMinor weightGrams = true ↔
      condition.Meets subtotalMinor weightGrams := by
  cases condition with
  | none => simp [RateCondition.applies, RateCondition.Meets]
  | orderPrice | weight => exact within_iff

def Precedes (a b : ShippingRate) : Prop :=
  a.priceMinor < b.priceMinor ∨ (a.priceMinor = b.priceMinor ∧ a.position ≤ b.position)

instance (a b : ShippingRate) : Decidable (Precedes a b) :=
  inferInstanceAs (Decidable (_ ∨ _))

instance : Std.Total Precedes where
  total a b := by
    rcases lt_trichotomy a.priceMinor b.priceMinor with hlt | heq | hgt
    · exact Or.inl (Or.inl hlt)
    · rcases le_total a.position b.position with hle | hle
      · exact Or.inl (Or.inr ⟨heq, hle⟩)
      · exact Or.inr (Or.inr ⟨heq.symm, hle⟩)
    · exact Or.inr (Or.inl hgt)

instance : IsTrans ShippingRate Precedes where
  trans a b c := by
    rintro (hab | ⟨hab, hpos⟩) (hbc | ⟨hbc, hpos'⟩)
    · exact Or.inl (hab.trans hbc)
    · exact Or.inl (hbc ▸ hab)
    · exact Or.inl (hab ▸ hbc)
    · exact Or.inr ⟨hab.trans hbc, hpos.trans hpos'⟩

def ShippingRate.quoted (rate : ShippingRate) : QuotedRate :=
  ⟨rate.id.value, rate.name, rate.priceMinor, rate.description⟩

def RateCondition.isOrderPrice : RateCondition → Bool
  | .orderPrice _ _ => true
  | _ => false

def bands (low : Option ℚ) : List ℚ → Option ℚ → List RateCondition
  | [], high => [.orderPrice low high]
  | cut :: cuts, high => .orderPrice low (some cut) :: bands (some cut) cuts high

def Increasing (low : Option ℚ) (cuts : List ℚ) (high : Option ℚ) : Prop :=
  (low.toList ++ cuts ++ high.toList).Pairwise (· < ·)

theorem countP_bands_below {low : ℚ} (h : Increasing (some low) cuts high)
    (hbelow : subtotalMinor < low) :
    (bands (some low) cuts high).countP (·.applies subtotalMinor weightGrams) = 0 := by
  rw [List.countP_eq_zero]
  induction cuts generalizing low with
  | nil =>
    intro condition hmem happlies
    rw [List.mem_singleton.mp hmem, applies_iff] at happlies
    exact absurd (happlies.1 low rfl) (not_le.mpr hbelow)
  | cons cut cuts ih =>
    obtain ⟨hfirst, hrest⟩ := List.pairwise_cons.mp h
    have hcut := hfirst cut (by simp)
    intro condition hmem happlies
    rcases List.mem_cons.mp hmem with rfl | hmem
    · exact absurd ((applies_iff.mp happlies).1 low rfl) (not_le.mpr hbelow)
    · exact ih hrest (hbelow.trans hcut) condition hmem happlies

theorem countP_bands {low : Option ℚ} (h : Increasing low cuts high)
    (hin : InRange subtotalMinor low high) :
    (bands low cuts high).countP (·.applies subtotalMinor weightGrams) = 1 := by
  induction cuts generalizing low with
  | nil =>
    have happlies : RateCondition.applies subtotalMinor weightGrams (.orderPrice low high) = true :=
      applies_iff.mpr hin
    rw [bands, List.countP_singleton, if_pos happlies]
  | cons cut cuts ih =>
    have hrest : Increasing (some cut) cuts high := by
      rw [Increasing, List.append_assoc] at h
      exact (List.pairwise_append.mp h).2.1
    rw [bands, List.countP_cons]
    by_cases hcut : subtotalMinor < cut
    · rw [countP_bands_below hrest hcut, if_pos]
      apply applies_iff.mpr
      refine ⟨hin.1, fun bound hbound => ?_⟩
      cases hbound
      exact hcut
    · rw [ih hrest ⟨fun bound hbound => ?_, hin.2⟩, if_neg]
      · intro happlies
        exact hcut ((applies_iff.mp happlies).2 cut rfl)
      · cases hbound
        exact not_lt.mp hcut

instance (subtotalMinor weightGrams : ℚ) (condition : RateCondition) :
    Decidable (condition.Meets subtotalMinor weightGrams) :=
  decidable_of_iff _ applies_iff

def subtotalOf (lines : List QuoteLine) : ℚ :=
  (lines.map fun line => line.unitPriceMinor * line.quantity).sum

def weightOf (lines : List QuoteLine) : ℚ :=
  ((lines.filter (·.requiresShipping)).map fun line =>
    line.weightGrams.getD 0 * line.quantity).sum

/-- What an order is offered of a zone: the rates whose conditions it meets, cheapest first and then
as they were declared; of adjacent price bands, exactly one. -/
structure Offer (zone : ShippingZone) (lines : List QuoteLine) (offered : List ShippingRate) :
    Prop where
  exact : offered.Perm (zone.rates.filter fun rate =>
    rate.condition.Meets (subtotalOf lines) (weightOf lines))
  sorted : offered.Pairwise Precedes
  banded : ∀ low cuts high, Increasing low cuts high →
    ((zone.rates.map (·.condition)).filter (·.isOrderPrice)).Perm (bands low cuts high) →
    InRange (subtotalOf lines) low high →
    (offered.filter (·.condition.isOrderPrice)).length = 1

theorem banded_once {rates offered : List ShippingRate}
    (hexact : offered.Perm (rates.filter fun rate =>
      rate.condition.Meets subtotalMinor weightGrams)) {low : Option ℚ}
    (h : Increasing low cuts high)
    (hbands : ((rates.map (·.condition)).filter (·.isOrderPrice)).Perm (bands low cuts high))
    (hin : InRange subtotalMinor low high) :
    (offered.filter (·.condition.isOrderPrice)).length = 1 := by
  calc (offered.filter (·.condition.isOrderPrice)).length
      = ((rates.filter fun rate => rate.condition.Meets subtotalMinor weightGrams).filter
          (·.condition.isOrderPrice)).length := (hexact.filter _).length_eq
    _ = ((rates.map (·.condition)).filter (·.isOrderPrice)).countP
          (·.applies subtotalMinor weightGrams) := by
        rw [List.countP_filter, List.filter_filter, ← List.countP_eq_length_filter,
          List.countP_map]
        apply List.countP_congr
        intro rate _
        simp only [Function.comp_apply, Bool.and_eq_true, decide_eq_true_eq, applies_iff]
        exact and_comm
    _ = (bands low cuts high).countP (·.applies subtotalMinor weightGrams) := hbands.countP_eq _
    _ = 1 := countP_bands h hin

theorem quoteRates_offer {zones : List ShippingZone} {address : QuoteAddress}
    {lines : List QuoteLine} (hships : lines.any (·.requiresShipping) = true)
    (hbest : bestZone address zones = some zone) :
    ∃ offered, Offer zone lines offered ∧
      quoteRates zones address lines = offered.map ShippingRate.quoted := by
  have hquote : quoteRates zones address lines =
      ((zone.rates.filter fun rate => rate.condition.applies (subtotalOf lines)
        (weightOf lines)).insertionSort Precedes).map ShippingRate.quoted := by
    rw [quoteRates, if_neg (not_not.mpr hships), hbest]
    rfl
  have hfilter : (zone.rates.filter fun rate => rate.condition.applies (subtotalOf lines)
      (weightOf lines)) = zone.rates.filter fun rate =>
        rate.condition.Meets (subtotalOf lines) (weightOf lines) := by
    apply List.filter_congr
    intro rate _
    rw [Bool.eq_iff_iff, applies_iff, decide_eq_true_eq]
  rw [hfilter] at hquote
  have hperm := List.perm_insertionSort Precedes (zone.rates.filter fun rate =>
    rate.condition.Meets (subtotalOf lines) (weightOf lines))
  refine ⟨_, ⟨hperm, ?_, ?_⟩, hquote⟩
  · exact List.pairwise_insertionSort Precedes _
  · intro low cuts high hincreasing hbands hin
    exact banded_once hperm hincreasing hbands hin

/-- An order with something to ship is quoted from the one zone that holds its address most
specifically, whatever the order of the zones; one with nothing to ship has the one implicit
rate. -/
theorem quoteRates_exact {zones : List ShippingZone} (h : zones.Pairwise Separate)
    (address : QuoteAddress) (lines : List QuoteLine) :
    (lines.any (·.requiresShipping) = false →
      quoteRates zones address lines = [noShippingRequired]) ∧
    (lines.any (·.requiresShipping) = true →
      ((∀ zone ∈ zones, ∀ level, ¬ HoldsAt zone address level) ∧
          quoteRates zones address lines = []) ∨
        ∃! zone, MostSpecific zones address zone ∧ ∃ offered, Offer zone lines offered ∧
          quoteRates zones address lines = offered.map ShippingRate.quoted) ∧
    ∀ zones', zones.Perm zones' →
      quoteRates zones' address lines = quoteRates zones address lines := by
  refine ⟨?_, ?_, ?_⟩
  · intro hnone
    rw [quoteRates, if_pos]
    rw [hnone]
    exact Bool.false_ne_true
  · intro hships
    cases hbest : bestZone address zones with
    | none =>
      left
      constructor
      · intro zone hzone level hholds
        have hle := le_matchLevel hholds
        have hpos := hholds.pos
        have hzero := bestZone_none hbest zone hzone
        omega
      · rw [quoteRates, if_neg (not_not.mpr hships), hbest]
    | some zone =>
      right
      have hspecific := bestZone_mostSpecific h hbest
      refine ⟨zone, ⟨hspecific, quoteRates_offer hships hbest⟩, ?_⟩
      intro other hother
      exact mostSpecific_unique hother.1 hspecific
  · intro zones' hperm
    unfold quoteRates
    rw [bestZone_perm h hperm]

/-! Egypt in two price bands, and the rest of the world. -/

def egyptInBands : ShippingZone where
  id := ⟨"zone-egypt", by decide⟩
  name := "Egypt"
  profile := generalProfile
  countries := [⟨"EG", none⟩]
  rates := [⟨⟨"rate-1", by decide⟩, "Parcel", 50, .orderPrice none (some 1000), none, 0⟩,
    ⟨⟨"rate-2", by decide⟩, "Free", 0, .orderPrice (some 1000) none, none, 1⟩]
  position := 0

def everywhereElse : ShippingZone where
  id := ⟨"zone-world", by decide⟩
  name := "World"
  profile := generalProfile
  countries := [⟨restOfWorld, none⟩]
  rates := []
  position := 1

theorem egyptInBands_separate : [everywhereElse, egyptInBands].Pairwise Separate := by
  refine List.pairwise_pair.mpr ?_
  rintro address level ⟨c, hc, hholds⟩ ⟨c', hc', hholds'⟩
  rw [List.mem_singleton.mp hc] at hholds
  rw [List.mem_singleton.mp hc'] at hholds'
  cases hholds with
  | restOfWorld =>
    cases hholds' with
    | restOfWorld hcode => exact absurd hcode (by decide)
  | country hcode | province hcode => exact absurd rfl hcode

/-- A price on the cut is in the upper band. -/
theorem quoteRates_exact_bands :
    quoteRates [egyptInBands, everywhereElse] ⟨"EG", none⟩ [⟨500, 2, true, none⟩] =
        [⟨"rate-2", "Free", 0, none⟩] ∧
      quoteRates [egyptInBands, everywhereElse] ⟨"EG", none⟩ [⟨500, 2, true, none⟩] =
        quoteRates [everywhereElse, egyptInBands] ⟨"EG", none⟩ [⟨500, 2, true, none⟩] :=
  ⟨by decide +kernel, (quoteRates_exact egyptInBands_separate ⟨"EG", none⟩
    [⟨500, 2, true, none⟩]).2.2 _ (List.Perm.swap _ _ _)⟩

/-- Nothing that is ordered has to be shipped. -/
theorem quoteRates_nothing_to_ship : ¬ ∀ (zones : List ShippingZone) (address : QuoteAddress)
    (lines : List QuoteLine) (zone : ShippingZone), zones.Pairwise Separate →
    MostSpecific zones address zone → ∃ offered, Offer zone lines offered ∧
      quoteRates zones address lines = offered.map ShippingRate.quoted := by
  intro h
  have hspecific : MostSpecific [everywhereElse] ⟨"EG", none⟩ everywhereElse := by
    refine ⟨List.mem_singleton_self _, 1, ⟨_, List.mem_singleton_self _, .restOfWorld rfl⟩, ?_⟩
    intro other hother hne
    exact absurd (List.mem_singleton.mp hother) hne
  obtain ⟨offered, hoffer, hquote⟩ := h [everywhereElse] ⟨"EG", none⟩ [⟨500, 2, false, none⟩]
    everywhereElse (List.pairwise_singleton _ _) hspecific
  have hnone : offered = [] := hoffer.exact.eq_nil
  rw [hnone] at hquote
  exact absurd hquote (by decide +kernel)

end ShippingZones

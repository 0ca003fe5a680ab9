import Lumo.Builtins

/-! # Shipping zones

The zone with its rates, the checks of its countries against the region data and the other zones,
and the quote for an address. Numbers are rationals, so that what is not a whole number can be
refused; when a zone was created is where it stands in a list. -/
namespace ShippingZones

open SharedKernel Builtins

def maxNameLength : ℕ := 80

def maxDescriptionLength : ℕ := 200

def maxPriceMinor : ℚ := 2147483647

def generalProfile : String := "general"

/-- The code of the rest of the world. -/
def restOfWorld : String := "*"

inductive RateCondition where
  | none
  | orderPrice (minMinor maxMinor : Option ℚ)
  | weight (minGrams maxGrams : Option ℚ)
  deriving DecidableEq

structure ZoneCountry where
  code : String
  provinces : Option (List String)
  deriving DecidableEq

structure RateInput where
  name : String
  priceMinor : ℚ
  condition : Option RateCondition
  description : Option String

structure ZoneInput where
  name : String
  countries : List ZoneCountry
  profile : Option String

abbrev Checked (α : Type) := α × List FieldIssue

def fail (issues : List FieldIssue) : DomainError := .validation "Invalid shipping zone" issues

def cleanName (value : String) : Checked String :=
  let name := trim value
  (name, if stringLength name = 0 ∨ maxNameLength < stringLength name then
    [⟨"name", "must be 1-80 characters"⟩] else [])

def isSafeInteger (value : ℚ) : Bool := value.den == 1 && decide (|value| ≤ 9007199254740991)

def boundIsValid (value : Option ℚ) : Bool := value.all fun v => isSafeInteger v && decide (0 ≤ v)

def cleanBounds (build : Option ℚ → Option ℚ → RateCondition) (min max : Option ℚ) :
    Checked RateCondition :=
  if ¬ (boundIsValid min ∧ boundIsValid max) then
    (.none, [⟨"condition", "bounds must be whole numbers from 0"⟩])
  else if min.any fun low => max.any fun high => decide (high ≤ low) then
    (.none, [⟨"condition", "the minimum must be below the maximum"⟩])
  else if min.isNone ∧ max.isNone then (.none, [])
  else (build min max, [])

def cleanCondition : Option RateCondition → Checked RateCondition
  | none | some .none => (.none, [])
  | some (.orderPrice min max) => cleanBounds .orderPrice min max
  | some (.weight min max) => cleanBounds .weight min max

def provinceIssues (country : ZoneCountry) : List String :=
  match country.provinces with
  | none => []
  | some provinces =>
    (if provinces.isEmpty then
      [country.code ++ ": list at least one province, or the whole country"] else []) ++
    (if provinces.Nodup then [] else [country.code ++ ": a province is listed twice"])

def countryIssues (seen : List String) : List ZoneCountry → List String
  | [] => []
  | country :: countries =>
    (if country.code ∈ seen then [country.code ++ " is listed twice"] else []) ++
      provinceIssues country ++ countryIssues (country.code :: seen) countries

def restOfWorldIssues (countries : List ZoneCountry) : List String :=
  match countries.find? fun country => country.code == restOfWorld with
  | none => []
  | some whole =>
    if 1 < countries.length ∨ whole.provinces ≠ none then
      ["rest of world stands alone and covers everything"] else []

def cleanCountries (countries : List ZoneCountry) : Checked (List ZoneCountry) :=
  (countries, ((if countries.isEmpty then ["a zone needs at least one country"] else []) ++
    countryIssues [] countries ++ restOfWorldIssues countries).map fun message =>
      ⟨"countries", message⟩)

structure ShippingRate where
  id : UniqueEntityId
  name : String
  priceMinor : ℚ
  condition : RateCondition
  description : Option String
  position : ℕ
  deriving DecidableEq

namespace ShippingRate

/-- The description is kept unless it is blank. -/
def validate (id : UniqueEntityId) (input : RateInput) (position : ℕ) :
    Except DomainError ShippingRate :=
  let (name, nameIssues) := cleanName input.name
  let priceIssues : List FieldIssue :=
    if ¬ isSafeInteger input.priceMinor ∨ input.priceMinor < 0 ∨ maxPriceMinor < input.priceMinor
    then [⟨"priceMinor", "must be a whole number of minor units from 0"⟩] else []
  let description := (input.description.map trim).getD ""
  let descriptionIssues : List FieldIssue :=
    if maxDescriptionLength < stringLength description then
      [⟨"description", "must be at most 200 characters"⟩] else []
  let (condition, conditionIssues) := cleanCondition input.condition
  let issues := nameIssues ++ priceIssues ++ descriptionIssues ++ conditionIssues
  if issues.isEmpty then
    .ok ⟨id, name, input.priceMinor, condition,
      if description.isEmpty then none else some description, position⟩
  else .error (fail issues)

def replace (input : RateInput) (rate : ShippingRate) : Except DomainError ShippingRate :=
  validate rate.id input rate.position

end ShippingRate

structure ShippingZone where
  id : UniqueEntityId
  name : String
  profile : String
  countries : List ZoneCountry
  rates : List ShippingRate
  position : ℕ
  deriving DecidableEq

namespace ShippingZone

def create (id : UniqueEntityId) (input : ZoneInput) (position : ℕ) :
    Except DomainError ShippingZone :=
  let (name, nameIssues) := cleanName input.name
  let (countries, countriesIssues) := cleanCountries input.countries
  let issues := nameIssues ++ countriesIssues
  if issues.isEmpty then
    .ok ⟨id, name, input.profile.getD generalProfile, countries, [], position⟩
  else .error (fail issues)

def rename (name : String) (zone : ShippingZone) : Except DomainError ShippingZone :=
  let (cleaned, issues) := cleanName name
  if issues.isEmpty then .ok { zone with name := cleaned } else .error (fail issues)

def setCountries (countries : List ZoneCountry) (zone : ShippingZone) :
    Except DomainError ShippingZone :=
  let (cleaned, issues) := cleanCountries countries
  if issues.isEmpty then .ok { zone with countries := cleaned } else .error (fail issues)

def addRate (id : UniqueEntityId) (input : RateInput) (zone : ShippingZone) :
    Except DomainError ShippingZone := do
  let position := zone.rates.foldl (fun last rate => max last (rate.position + 1)) 0
  let rate ← ShippingRate.validate id input position
  return { zone with rates := zone.rates ++ [rate] }

def rateOrThrow (rateId : String) (zone : ShippingZone) : Except DomainError ShippingRate :=
  match zone.rates.find? fun rate => rate.id.value == rateId with
  | none => .error (.notFound "Shipping rate not found")
  | some rate => .ok rate

def updateRate (rateId : String) (input : RateInput) (zone : ShippingZone) :
    Except DomainError ShippingZone := do
  let rate ← zone.rateOrThrow rateId
  let replaced ← rate.replace input
  return { zone with rates := zone.rates.replace rate replaced }

def removeRate (rateId : String) (zone : ShippingZone) : Except DomainError ShippingZone := do
  let rate ← zone.rateOrThrow rateId
  return { zone with rates := zone.rates.erase rate }

end ShippingZone

/-- `COUNTRY_CODES`, and the codes of `PROVINCES`. -/
structure Regions where
  countryCodes : List String
  provinces : String → List String

def countryRegionIssues (regions : Regions) (country : ZoneCountry) : List FieldIssue :=
  if country.code = restOfWorld then []
  else if country.code ∉ regions.countryCodes then
    [⟨"countries", country.code ++ " is not a country code"⟩]
  else ((country.provinces.getD []).filter fun province =>
    !(regions.provinces country.code).contains province).map fun province =>
      ⟨"countries", province ++ " is not a province of " ++ country.code⟩

def regionIssues (regions : Regions) (countries : List ZoneCountry) : List FieldIssue :=
  countries.flatMap (countryRegionIssues regions)

def clashOf (mine theirs : ZoneCountry) : Option String :=
  match mine.provinces, theirs.provinces with
  | some provinces, some others => provinces.find? fun province => others.contains province
  | _, _ => some mine.code

def overlapIssue (countries : List ZoneCountry) (other : ShippingZone) : Option FieldIssue :=
  countries.findSome? fun mine => do
    let theirs ← other.countries.find? fun country => country.code == mine.code
    (clashOf mine theirs).map fun clash => ⟨"countries", clash ++ " is already in zone \"" ++
      other.name ++ "\"; a country can only be in one zone"⟩

def overlapIssues (countries : List ZoneCountry) (others : List ShippingZone) : List FieldIssue :=
  others.filterMap (overlapIssue countries)

structure QuoteLine where
  unitPriceMinor : ℚ
  quantity : ℚ
  requiresShipping : Bool
  weightGrams : Option ℚ

structure QuoteAddress where
  country : String
  province : Option String

structure QuotedRate where
  id : String
  name : String
  priceMinor : ℚ
  description : Option String
  deriving DecidableEq

def noShippingRequired : QuotedRate := ⟨"none", "No shipping required", 0, none⟩

def raiseLevel (address : QuoteAddress) (level : ℕ) (country : ZoneCountry) : ℕ :=
  if country.code = restOfWorld then max level 1
  else if country.code = address.country then
    match country.provinces with
    | none => max level 2
    | some provinces => if address.province.any provinces.contains then 3 else level
  else level

/-- 3: the zone lists the address's province; 2: it holds the whole country; 1: it is the rest of
world; 0: no match. -/
def matchLevel (zone : ShippingZone) (address : QuoteAddress) : ℕ :=
  zone.countries.foldl (raiseLevel address) 0

def within (value : ℚ) (min max : Option ℚ) : Bool :=
  (min.all fun low => decide (low ≤ value)) && max.all fun high => decide (value < high)

def RateCondition.applies (subtotalMinor weightGrams : ℚ) : RateCondition → Bool
  | none => true
  | orderPrice min max => within subtotalMinor min max
  | weight min max => within weightGrams min max

def better (address : QuoteAddress) (best : Option ShippingZone × ℕ) (zone : ShippingZone) :
    Option ShippingZone × ℕ :=
  if best.2 < matchLevel zone address then (some zone, matchLevel zone address) else best

/-- The first zone of the highest level there is. -/
def bestZone (address : QuoteAddress) (zones : List ShippingZone) : Option ShippingZone :=
  (zones.foldl (better address) (none, 0)).1

def quoteRates (zones : List ShippingZone) (address : QuoteAddress) (lines : List QuoteLine) :
    List QuotedRate :=
  if ¬ lines.any (·.requiresShipping) then [noShippingRequired]
  else match bestZone address zones with
  | none => []
  | some best =>
    let subtotalMinor := (lines.map fun line => line.unitPriceMinor * line.quantity).sum
    let weightGrams := ((lines.filter (·.requiresShipping)).map fun line =>
      line.weightGrams.getD 0 * line.quantity).sum
    ((best.rates.filter fun rate => rate.condition.applies subtotalMinor weightGrams).insertionSort
      fun a b => a.priceMinor < b.priceMinor ∨
        (a.priceMinor = b.priceMinor ∧ a.position ≤ b.position)).map fun rate =>
      ⟨rate.id.value, rate.name, rate.priceMinor, rate.description⟩

def Clash (mine theirs : ZoneCountry) : Prop :=
  mine.code = theirs.code ∧ (mine.provinces = none ∨ theirs.provinces = none ∨
    ∃ provinces others province, mine.provinces = some provinces ∧
      theirs.provinces = some others ∧ province ∈ provinces ∧ province ∈ others)

variable {mine country theirs : ZoneCountry} {countries : List ZoneCountry}
  {zone new : ShippingZone} {address : QuoteAddress} {level : ℕ}

theorem Clash.symm (h : Clash mine theirs) : Clash theirs mine := by
  obtain ⟨hcode, hmine | htheirs | ⟨provinces, others, province, hp, ho, hmem, hmem'⟩⟩ := h
  · exact ⟨hcode.symm, Or.inr (Or.inl hmine)⟩
  · exact ⟨hcode.symm, Or.inl htheirs⟩
  · exact ⟨hcode.symm, Or.inr (Or.inr ⟨others, provinces, province, ho, hp, hmem', hmem⟩)⟩

theorem clashOf_none (hcode : theirs.code = mine.code) :
    clashOf mine theirs = none ↔ ¬ Clash mine theirs := by
  unfold clashOf
  split
  · rename_i provinces others hp ho
    rw [List.find?_eq_none]
    constructor
    · rintro hnone ⟨-, hmine | htheirs | ⟨_, _, province, hp', ho', hmem, hmem'⟩⟩
      · cases hmine.symm.trans hp
      · cases htheirs.symm.trans ho
      · cases hp'.symm.trans hp
        cases ho'.symm.trans ho
        exact hnone province hmem (List.contains_iff_mem.mpr hmem')
    · intro hclash province hmem hcontains
      exact hclash ⟨hcode.symm, Or.inr (Or.inr ⟨provinces, others, province, hp, ho, hmem,
        List.contains_iff_mem.mp hcontains⟩)⟩
  · rename_i hnot
    constructor
    · intro h
      cases h
    · intro hclash
      exfalso
      cases hp : mine.provinces with
      | none => exact hclash ⟨hcode.symm, Or.inl hp⟩
      | some provinces =>
        cases ho : theirs.provinces with
        | none => exact hclash ⟨hcode.symm, Or.inr (Or.inl ho)⟩
        | some others => exact hnot provinces others hp ho

structure Clean (countries : List ZoneCountry) : Prop where
  codes : (countries.map (·.code)).Nodup
  rest : ∀ country ∈ countries, country.code = restOfWorld → country.provinces = none

theorem find_code (h : (countries.map (·.code)).Nodup) (hmem : country ∈ countries) :
    (countries.find? fun c => c.code == country.code) = some country := by
  induction countries with
  | nil => cases hmem
  | cons first countries ih =>
    obtain ⟨hout, hnodup⟩ := List.nodup_cons.mp h
    rcases List.mem_cons.mp hmem with rfl | hmem
    · exact List.find?_cons_of_pos (beq_self_eq_true _)
    · have hne : first.code ≠ country.code := by
        intro heq
        exact hout (List.mem_map.mpr ⟨country, hmem, heq.symm⟩)
      rw [List.find?_cons_of_neg (by simpa using hne)]
      exact ih hnodup hmem

theorem overlapIssue_none {other : ShippingZone} (h : Clean other.countries) :
    overlapIssue countries other = none ↔
      ∀ mine ∈ countries, ∀ theirs ∈ other.countries, ¬ Clash mine theirs := by
  rw [overlapIssue, List.findSome?_eq_none_iff]
  refine forall₂_congr fun mine _ => ?_
  cases hfind : other.countries.find? fun country => country.code == mine.code with
  | none =>
    refine iff_of_true rfl fun theirs htheirs hclash => ?_
    have hne := List.find?_eq_none.mp hfind theirs htheirs
    exact hne (by simpa using hclash.1.symm)
  | some theirs =>
    have hmem := List.mem_of_find?_eq_some hfind
    have hcode : theirs.code = mine.code := by simpa using List.find?_some hfind
    change (clashOf mine theirs).map _ = none ↔ _
    rw [Option.map_eq_none_iff, clashOf_none hcode]
    refine ⟨fun hclash others hothers h' => ?_, fun hall => hall theirs hmem⟩
    have hsame : others = theirs := by
      have hfound := find_code h.codes hothers
      rw [← h'.1, hfind] at hfound
      exact (Option.some.inj hfound).symm
    exact hclash (hsame ▸ h')

theorem overlapIssues_nil {others : List ShippingZone} (h : ∀ other ∈ others, Clean other.countries) :
    overlapIssues countries others = [] ↔
      ∀ other ∈ others, ∀ mine ∈ countries, ∀ theirs ∈ other.countries, ¬ Clash mine theirs := by
  rw [overlapIssues, List.filterMap_eq_nil_iff]
  exact forall₂_congr fun other hother => overlapIssue_none (h other hother)

theorem countryIssues_nil {seen : List String} (h : countryIssues seen countries = []) :
    (countries.map (·.code)).Nodup ∧
      ∀ country ∈ countries, country.code ∉ seen := by
  induction countries generalizing seen with
  | nil => exact ⟨List.nodup_nil, fun _ hmem => (by cases hmem)⟩
  | cons first countries ih =>
    obtain ⟨hfirst, hrest⟩ := List.append_eq_nil_iff.mp h
    obtain ⟨hseen, -⟩ := List.append_eq_nil_iff.mp hfirst
    obtain ⟨hnodup, hnew⟩ := ih hrest
    have hout : first.code ∉ seen := by
      intro hmem
      rw [if_pos hmem] at hseen
      cases hseen
    refine ⟨List.nodup_cons.mpr ⟨fun hmem => ?_, hnodup⟩, fun country hmem => ?_⟩
    · obtain ⟨country, hcountry, heq⟩ := List.mem_map.mp hmem
      exact hnew country hcountry (heq ▸ List.mem_cons_self)
    · rcases List.mem_cons.mp hmem with rfl | hmem
      · exact hout
      · exact fun hold => hnew country hmem (List.mem_cons_of_mem _ hold)

theorem restOfWorldIssues_nil (h : restOfWorldIssues countries = [])
    (hcodes : (countries.map (·.code)).Nodup) (hmem : country ∈ countries)
    (hrest : country.code = restOfWorld) : country.provinces = none := by
  have hfind := find_code hcodes hmem
  rw [hrest] at hfind
  rw [restOfWorldIssues, hfind] at h
  by_contra hsome
  simp [hsome] at h

theorem cleanCountries_nil (h : (cleanCountries countries).2 = []) : Clean countries := by
  obtain ⟨hissues, hrest⟩ := List.append_eq_nil_iff.mp (List.map_eq_nil_iff.mp h)
  obtain ⟨-, hcountries⟩ := List.append_eq_nil_iff.mp hissues
  obtain ⟨hcodes, -⟩ := countryIssues_nil hcountries
  exact ⟨hcodes, fun country hmem hcode => restOfWorldIssues_nil hrest hcodes hmem hcode⟩

variable {id : UniqueEntityId} {input : RateInput} {rateId : String} {zones : List ShippingZone}

theorem create_ok {input : ZoneInput} {position : ℕ}
    (h : ShippingZone.create id input position = .ok zone) :
    zone.id = id ∧ zone.countries = input.countries ∧ Clean zone.countries := by
  simp only [ShippingZone.create] at h
  split at h
  · rename_i hissues
    cases h
    have hnil := (List.append_eq_nil_iff.mp (List.isEmpty_iff.mp hissues)).2
    exact ⟨rfl, rfl, cleanCountries_nil hnil⟩
  · cases h

theorem setCountries_ok (h : zone.setCountries countries = .ok new) :
    new.id = zone.id ∧ new.countries = countries ∧ Clean countries := by
  simp only [ShippingZone.setCountries] at h
  split at h
  · rename_i hissues
    cases h
    exact ⟨rfl, rfl, cleanCountries_nil (List.isEmpty_iff.mp hissues)⟩
  · cases h

theorem rename_ok {name : String} (h : zone.rename name = .ok new) :
    new.id = zone.id ∧ new.countries = zone.countries := by
  simp only [ShippingZone.rename] at h
  split at h
  · cases h
    exact ⟨rfl, rfl⟩
  · cases h

theorem addRate_ok (h : zone.addRate id input = .ok new) :
    new.id = zone.id ∧ new.countries = zone.countries := by
  obtain ⟨rate, _, hnew⟩ := bind_eq_ok.mp h
  cases hnew
  exact ⟨rfl, rfl⟩

theorem updateRate_ok (h : zone.updateRate rateId input = .ok new) :
    new.id = zone.id ∧ new.countries = zone.countries := by
  obtain ⟨rate, _, hnew⟩ := bind_eq_ok.mp h
  obtain ⟨replaced, _, hnew⟩ := bind_eq_ok.mp hnew
  cases hnew
  exact ⟨rfl, rfl⟩

theorem removeRate_ok (h : zone.removeRate rateId = .ok new) :
    new.id = zone.id ∧ new.countries = zone.countries := by
  obtain ⟨rate, _, hnew⟩ := bind_eq_ok.mp h
  cases hnew
  exact ⟨rfl, rfl⟩

/-- How specifically an entry holds an address: as its province, as its country, or as the rest of
the world. -/
inductive HoldsAs (address : QuoteAddress) (country : ZoneCountry) : ℕ → Prop where
  | restOfWorld (hcode : country.code = restOfWorld) : HoldsAs address country 1
  | country (hcode : country.code ≠ restOfWorld) (haddress : country.code = address.country)
      (hwhole : country.provinces = none) : HoldsAs address country 2
  | province {provinces : List String} {province : String} (hcode : country.code ≠ restOfWorld)
      (haddress : country.code = address.country) (hlisted : country.provinces = some provinces)
      (hprovince : address.province = some province) (hmem : province ∈ provinces) :
    HoldsAs address country 3

def HoldsAt (zone : ShippingZone) (address : QuoteAddress) (level : ℕ) : Prop :=
  ∃ country ∈ zone.countries, HoldsAs address country level

theorem raiseLevel_spec (address : QuoteAddress) (level : ℕ) (country : ZoneCountry)
    (h : level ≤ 3) : level ≤ raiseLevel address level country ∧
      raiseLevel address level country ≤ 3 ∧
      (raiseLevel address level country = level ∨
        HoldsAs address country (raiseLevel address level country)) ∧
      ∀ l, HoldsAs address country l → l ≤ raiseLevel address level country := by
  unfold raiseLevel
  split
  · rename_i hrest
    refine ⟨le_max_left _ _, max_le h (by omega), ?_, ?_⟩
    · rcases max_choice level 1 with heq | heq <;> rw [heq]
      · exact Or.inl rfl
      · exact Or.inr (.restOfWorld hrest)
    · intro l hl
      cases hl with
      | restOfWorld => exact le_max_right _ _
      | country hcode | province hcode => exact absurd hrest hcode
  · rename_i hcode
    split
    · rename_i haddress
      cases hprovinces : country.provinces with
      | none =>
        refine ⟨le_max_left _ _, max_le h (by omega), ?_, ?_⟩
        · dsimp only
          rcases max_choice level 2 with heq | heq <;> rw [heq]
          · exact Or.inl rfl
          · exact Or.inr (.country hcode haddress hprovinces)
        · intro l hl
          cases hl with
          | restOfWorld hrest => exact absurd hrest hcode
          | country => exact le_max_right _ _
          | province _ _ hlisted => cases hprovinces.symm.trans hlisted
      | some provinces =>
        dsimp only
        split
        · rename_i hany
          obtain ⟨province, hprovince, hmem⟩ := (Option.any_eq_true _ _).mp hany
          have hmem := List.contains_iff_mem.mp hmem
          refine ⟨h, le_rfl, Or.inr (.province hcode haddress hprovinces hprovince hmem), ?_⟩
          intro l hl
          cases hl <;> omega
        · rename_i hany
          refine ⟨le_rfl, h, Or.inl rfl, ?_⟩
          intro l hl
          cases hl with
          | restOfWorld hrest => exact absurd hrest hcode
          | country _ _ hwhole => cases hprovinces.symm.trans hwhole
          | @province listed province _ _ hlisted hprovince hmem =>
            cases hprovinces.symm.trans hlisted
            rw [hprovince] at hany
            exact absurd (List.contains_iff_mem.mpr hmem) hany
    · rename_i haddress
      refine ⟨le_rfl, h, Or.inl rfl, ?_⟩
      intro l hl
      cases hl with
      | restOfWorld hrest => exact absurd hrest hcode
      | country _ hheld | province _ hheld => exact absurd hheld haddress

theorem foldl_raiseLevel_spec (address : QuoteAddress) (countries : List ZoneCountry)
    (level : ℕ) (h : level ≤ 3) : level ≤ countries.foldl (raiseLevel address) level ∧
      (countries.foldl (raiseLevel address) level = level ∨ ∃ country ∈ countries,
        HoldsAs address country (countries.foldl (raiseLevel address) level)) ∧
      ∀ country ∈ countries, ∀ l, HoldsAs address country l →
        l ≤ countries.foldl (raiseLevel address) level := by
  induction countries generalizing level with
  | nil =>
    refine ⟨le_rfl, Or.inl rfl, ?_⟩
    intro country hmem
    cases hmem
  | cons first countries ih =>
    obtain ⟨hle, hthree, hfirst, hbound⟩ := raiseLevel_spec address level first h
    obtain ⟨hle', hrest, hbound'⟩ := ih (raiseLevel address level first) hthree
    rw [List.foldl_cons]
    refine ⟨hle.trans hle', ?_, ?_⟩
    · rcases hrest with hsame | ⟨country, hmem, hholds⟩
      · rw [hsame]
        rcases hfirst with hlevel | hholds
        · exact Or.inl hlevel
        · exact Or.inr ⟨first, List.mem_cons_self, hholds⟩
      · exact Or.inr ⟨country, List.mem_cons_of_mem first hmem, hholds⟩
    · intro country hmem l hl
      rcases List.mem_cons.mp hmem with rfl | hmem
      · exact (hbound l hl).trans hle'
      · exact hbound' country hmem l hl

theorem holdsAt_matchLevel (h : 0 < matchLevel zone address) :
    HoldsAt zone address (matchLevel zone address) := by
  rcases (foldl_raiseLevel_spec address zone.countries 0 (Nat.zero_le 3)).2.1 with hzero | hholds
  · rw [matchLevel, hzero] at h
    cases h
  · exact hholds

theorem le_matchLevel (h : HoldsAt zone address level) : level ≤ matchLevel zone address := by
  obtain ⟨country, hmem, hholds⟩ := h
  exact (foldl_raiseLevel_spec address zone.countries 0 (Nat.zero_le 3)).2.2 country hmem level
    hholds

theorem HoldsAt.pos (h : HoldsAt zone address level) : 0 < level := by
  obtain ⟨country, _, hholds⟩ := h
  cases hholds <;> omega

/-- The entry gives an address this level by itself. -/
def Covers (address : QuoteAddress) (country : ZoneCountry) : ℕ → Prop
  | 1 => country.code = restOfWorld
  | 2 => country.code = address.country ∧ country.provinces = none
  | 3 => country.code = address.country ∧ ∃ provinces province,
      country.provinces = some provinces ∧ address.province = some province ∧ province ∈ provinces
  | _ => False

theorem HoldsAs.covers (h : HoldsAs address country level) : Covers address country level := by
  cases h with
  | restOfWorld hcode => exact hcode
  | country _ haddress hwhole => exact ⟨haddress, hwhole⟩
  | province _ haddress hlisted hprovince hmem =>
    exact ⟨haddress, _, _, hlisted, hprovince, hmem⟩

theorem matchLevel_covers (h : 0 < matchLevel zone address) :
    ∃ country ∈ zone.countries, Covers address country (matchLevel zone address) := by
  obtain ⟨country, hmem, hholds⟩ := holdsAt_matchLevel h
  exact ⟨country, hmem, hholds.covers⟩

theorem Covers.clash (h : Covers address mine level) (h' : Covers address theirs level)
    (hrest : mine.code = restOfWorld → mine.provinces = none) : Clash mine theirs := by
  match level, h, h' with
  | 1, h, h' => exact ⟨Eq.trans h (Eq.symm h'), Or.inl (hrest h)⟩
  | 2, ⟨hcode, hnone⟩, ⟨hcode', _⟩ => exact ⟨hcode.trans hcode'.symm, Or.inl hnone⟩
  | 3, ⟨hcode, ps, p, hps, hp, hmem⟩, ⟨hcode', ps', p', hps', hp', hmem'⟩ =>
    cases hp.symm.trans hp'
    exact ⟨hcode.trans hcode'.symm, Or.inr (Or.inr ⟨ps, ps', p, hps, hps', hmem, hmem'⟩)⟩

theorem foldl_better (address : QuoteAddress) (zones : List ShippingZone)
    (best : Option ShippingZone × ℕ) :
    (zones.foldl (better address) best = best ∧
        ∀ zone ∈ zones, matchLevel zone address ≤ best.2) ∨
      ∃ zone ∈ zones, zones.foldl (better address) best = (some zone, matchLevel zone address) ∧
        best.2 < matchLevel zone address ∧
        ∀ other ∈ zones, matchLevel other address ≤ matchLevel zone address := by
  induction zones generalizing best with
  | nil => exact Or.inl ⟨rfl, fun _ h => (by cases h)⟩
  | cons first zones ih =>
    rw [List.foldl_cons]
    by_cases hfirst : best.2 < matchLevel first address
    · rw [better, if_pos hfirst]
      right
      rcases ih (some first, matchLevel first address) with
        ⟨hsame, hle⟩ | ⟨zone, hz, hsame, hlt, hle⟩
      · exact ⟨first, List.mem_cons_self, hsame, hfirst, List.forall_mem_cons.mpr ⟨le_rfl, hle⟩⟩
      · exact ⟨zone, List.mem_cons_of_mem _ hz, hsame, hfirst.trans hlt,
          List.forall_mem_cons.mpr ⟨hlt.le, hle⟩⟩
    · rw [better, if_neg hfirst]
      rcases ih best with ⟨hsame, hle⟩ | ⟨zone, hz, hsame, hlt, hle⟩
      · exact Or.inl ⟨hsame, List.forall_mem_cons.mpr ⟨not_lt.mp hfirst, hle⟩⟩
      · refine Or.inr ⟨zone, List.mem_cons_of_mem _ hz, hsame, hlt, ?_⟩
        exact List.forall_mem_cons.mpr ⟨(not_lt.mp hfirst).trans hlt.le, hle⟩

theorem bestZone_none (h : bestZone address zones = none) :
    ∀ zone ∈ zones, matchLevel zone address = 0 := by
  rcases foldl_better address zones (none, 0) with ⟨-, hle⟩ | ⟨zone, -, hsome, -⟩
  · exact fun zone hz => Nat.le_zero.mp (hle zone hz)
  · rw [bestZone, hsome] at h
    cases h

theorem bestZone_some (h : bestZone address zones = some zone) :
    zone ∈ zones ∧ 0 < matchLevel zone address ∧
      ∀ other ∈ zones, matchLevel other address ≤ matchLevel zone address := by
  rcases foldl_better address zones (none, 0) with ⟨hnone, -⟩ | ⟨best, hbest, hsome, hlt, hle⟩
  · rw [bestZone, hnone] at h
    cases h
  · rw [bestZone, hsome] at h
    cases h
    exact ⟨hbest, hlt, hle⟩

end ShippingZones

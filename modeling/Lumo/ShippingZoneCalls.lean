import Lumo.Interleavings
import Lumo.ShippingQuotes

/-! # Zones that are changed at the same time

`CreateZone`, `UpdateZone`, `DeleteZone` and the changes of rates, turn by turn: a transaction reads
in turns of their own and writes when it commits. Of what other transactions wrote it sees what they
have committed. -/
namespace ShippingZones

open SharedKernel Interleavings LabelledRuns

/-! `PrismaShippingZoneRepository`. -/

abbrev Zones := List ShippingZone

def list (zones : Zones) : Zones := zones.insertionSort fun a b => a.position ≤ b.position

def findById (zoneId : String) (zones : Zones) : Option ShippingZone :=
  zones.find? fun zone => zone.id.value == zoneId

/-- The row of the zone is replaced, whatever it has become since it was read, or created. -/
def save (zone : ShippingZone) (zones : Zones) : Zones :=
  if zones.any fun row => row.id == zone.id then
    zones.map fun row => if row.id = zone.id then zone else row
  else zones ++ [zone]

def delete (zoneId : String) (zones : Zones) : Zones :=
  zones.filter fun zone => zone.id.value != zoneId

inductive Request where
  | createZone (name : String) (countries : List ZoneCountry) (rates : List RateInput)
  | updateZone (zoneId name : String) (countries : List ZoneCountry)
  | deleteZone (zoneId : String)
  | addRate (zoneId : String) (input : RateInput)
  | updateRate (zoneId rateId : String) (input : RateInput)
  | deleteRate (zoneId rateId : String)

inductive Answer where
  | id (id : String)
  | zone (zone : ShippingZone)
  | rate (rate : ShippingRate)
  | err (e : DomainError)
  | threw

/-- Where a call stands: before a read, or before it commits. `ownId` is the zone that a check
leaves out. -/
inductive Point where
  | starting (request : Request)
  | checking (zone : ShippingZone) (ownId : Option String) (answer : Answer)
  | saving (zone : ShippingZone) (answer : Answer)
  | deleting (zoneId : String)
  | answered (answer : Answer)

/-- The ids that are generated, or that the transaction fails. -/
inductive Choice where
  | proceeds (ids : ℕ → UniqueEntityId)
  | fails

def addRates (ids : ℕ → UniqueEntityId) :
    ℕ → List RateInput → ShippingZone → Except DomainError ShippingZone
  | _, [], zone => .ok zone
  | n, rate :: rates, zone => do
    let zone ← zone.addRate (ids n) rate
    addRates ids (n + 1) rates zone

/-- A domain error becomes the answer. -/
def attempt (result : Except DomainError ShippingZone) (next : ShippingZone → Point) : Point :=
  match result with
  | .error e => .answered (.err e)
  | .ok zone => next zone

def withZone (zoneId : String) (zones : Zones) (next : ShippingZone → Point) : Point :=
  match findById zoneId zones with
  | none => .answered (.err (.notFound "Shipping zone not found"))
  | some zone => next zone

def createZone (ids : ℕ → UniqueEntityId) (zones : Zones) (name : String)
    (countries : List ZoneCountry) (rates : List RateInput) : Point :=
  attempt (do
    let zone ← ShippingZone.create (ids 0) ⟨name, countries, none⟩ (list zones).length
    addRates ids 1 rates zone) fun zone => .checking zone none (.id zone.id.value)

def updateZone (zones : Zones) (zoneId name : String) (countries : List ZoneCountry) : Point :=
  withZone zoneId zones fun zone => attempt (do
    let zone ← zone.rename name
    zone.setCountries countries) fun zone => .checking zone (some zoneId) (.zone zone)

def changeRates (zones : Zones) (zoneId : String)
    (change : ShippingZone → Except DomainError ShippingZone) (answer : ShippingZone → Answer) :
    Point :=
  withZone zoneId zones fun zone => attempt (change zone) fun zone => .saving zone (answer zone)

def rateView (rateId : String) (zone : ShippingZone) : Answer :=
  match zone.rates.find? fun rate => rate.id.value == rateId with
  | none => .err (.notFound "Shipping rate not found")
  | some rate => .rate rate

def start (ids : ℕ → UniqueEntityId) (zones : Zones) : Request → Point
  | .createZone name countries rates => createZone ids zones name countries rates
  | .updateZone zoneId name countries => updateZone zones zoneId name countries
  | .deleteZone zoneId => withZone zoneId zones fun _ => .deleting zoneId
  | .addRate zoneId input =>
    changeRates zones zoneId (fun zone => zone.addRate (ids 0) input) fun _ => .id (ids 0).value
  | .updateRate zoneId rateId input =>
    changeRates zones zoneId (fun zone => zone.updateRate rateId input) (rateView rateId)
  | .deleteRate zoneId rateId =>
    changeRates zones zoneId (fun zone => zone.removeRate rateId) fun _ => .id rateId

def checkCountries (regions : Regions) (countries : List ZoneCountry) (ownId : Option String)
    (zones : Zones) : Option DomainError :=
  let issues := match regionIssues regions countries with
    | [] => overlapIssues countries ((list zones).filter fun zone => some zone.id.value != ownId)
    | issues => issues
  if issues.isEmpty then none else some (fail issues)

def check (regions : Regions) (zone : ShippingZone) (ownId : Option String) (answer : Answer)
    (zones : Zones) : Point :=
  match checkCountries regions zone.countries ownId zones with
  | some e => .answered (.err e)
  | none => .saving zone answer

def turn (regions : Regions) : Program Zones Point Choice
  | .starting request, .proceeds ids, zones => some (start ids zones request, zones)
  | .checking zone ownId answer, .proceeds _, zones =>
    some (check regions zone ownId answer zones, zones)
  | .saving zone answer, .proceeds _, zones => some (.answered answer, save zone zones)
  | .deleting zoneId, .proceeds _, zones => some (.answered (.id zoneId), delete zoneId zones)
  | .saving _ _, .fails, zones => some (.answered .threw, zones)
  | .deleting _, .fails, zones => some (.answered .threw, zones)
  | _, _, _ => none

structure Stored (zones : Zones) : Prop where
  ids : (zones.map (·.id)).Nodup
  clean : ∀ zone ∈ zones, Clean zone.countries

/-- No two zones hold one country, one of them whole, or one province, and at most one is the rest
of the world. So an address has at most one zone at each level. -/
structure NoOverlap (zones : Zones) : Prop where
  whole : ∀ zone ∈ zones, ∀ other ∈ zones, ∀ c ∈ zone.countries, ∀ c' ∈ other.countries,
    c.code = c'.code → c.provinces = none → zone.id = other.id
  province : ∀ zone ∈ zones, ∀ other ∈ zones, ∀ c ∈ zone.countries, ∀ c' ∈ other.countries,
    c.code = c'.code → ∀ provinces others province, c.provinces = some provinces →
      c'.provinces = some others → province ∈ provinces → province ∈ others → zone.id = other.id
  rest : ∀ zone ∈ zones, ∀ other ∈ zones, ∀ c ∈ zone.countries, ∀ c' ∈ other.countries,
    c.code = restOfWorld → c'.code = restOfWorld → zone.id = other.id
  matched : ∀ address, ∀ zone ∈ zones, ∀ other ∈ zones, 0 < matchLevel zone address →
    matchLevel zone address = matchLevel other address → zone.id = other.id

def Apart (zones : Zones) : Prop :=
  ∀ zone ∈ zones, ∀ other ∈ zones, zone.id ≠ other.id → ∀ c ∈ zone.countries,
    ∀ c' ∈ other.countries, ¬ Clash c c'

variable {zones : Zones} {zone : ShippingZone}

theorem NoOverlap.apart (h : NoOverlap zones) : Apart zones := by
  rintro zone hzone other hother hne c hc c' hc' ⟨hcode, hwhole | hwhole | ⟨ps, ps', p, hps⟩⟩
  · exact hne (h.whole zone hzone other hother c hc c' hc' hcode hwhole)
  · exact hne (h.whole other hother zone hzone c' hc' c hc hcode.symm hwhole).symm
  · exact hne (h.province zone hzone other hother c hc c' hc' hcode ps ps' p hps.1 hps.2.1
      hps.2.2.1 hps.2.2.2)

theorem Apart.noOverlap (h : Apart zones) (hs : Stored zones) : NoOverlap zones := by
  have hsame : ∀ zone ∈ zones, ∀ other ∈ zones, ∀ c ∈ zone.countries, ∀ c' ∈ other.countries,
      Clash c c' → zone.id = other.id := by
    intro zone hzone other hother c hc c' hc' hclash
    by_contra hne
    exact h zone hzone other hother hne c hc c' hc' hclash
  constructor
  · intro zone hzone other hother c hc c' hc' hcode hwhole
    exact hsame zone hzone other hother c hc c' hc' ⟨hcode, Or.inl hwhole⟩
  · intro zone hzone other hother c hc c' hc' hcode ps ps' p hps hps' hp hp'
    exact hsame zone hzone other hother c hc c' hc'
      ⟨hcode, Or.inr (Or.inr ⟨ps, ps', p, hps, hps', hp, hp'⟩)⟩
  · intro zone hzone other hother c hc c' hc' hcode hcode'
    have hwhole := (hs.clean zone hzone).rest c hc hcode
    exact hsame zone hzone other hother c hc c' hc' ⟨hcode.trans hcode'.symm, Or.inl hwhole⟩
  · intro address zone hzone other hother hpos hlevel
    obtain ⟨c, hc, hcovers⟩ := matchLevel_covers hpos
    obtain ⟨c', hc', hcovers'⟩ := matchLevel_covers (hlevel ▸ hpos)
    exact hsame zone hzone other hother c hc c' hc'
      (hcovers.clash (hlevel ▸ hcovers') ((hs.clean zone hzone).rest c hc))

variable {row : ShippingZone} {next : ShippingZone → Point}

theorem mem_save : row ∈ save zone zones ↔ row = zone ∨ (row ∈ zones ∧ row.id ≠ zone.id) := by
  unfold save
  split
  · rename_i hany
    obtain ⟨old, hold, heq⟩ := List.any_eq_true.mp hany
    rw [List.mem_map]
    constructor
    · rintro ⟨r, hr, rfl⟩
      by_cases hid : r.id = zone.id
      · exact Or.inl (if_pos hid)
      · rw [if_neg hid]
        exact Or.inr ⟨hr, hid⟩
    · rintro (rfl | ⟨hr, hid⟩)
      · exact ⟨old, hold, if_pos (eq_of_beq heq)⟩
      · exact ⟨row, hr, if_neg hid⟩
  · rename_i hany
    have hnone : ∀ r ∈ zones, r.id ≠ zone.id := by
      intro r hr heq
      exact hany (List.any_eq_true.mpr ⟨r, hr, by simp [heq]⟩)
    rw [List.mem_append, List.mem_singleton]
    constructor
    · rintro (hr | rfl)
      · exact Or.inr ⟨hr, hnone row hr⟩
      · exact Or.inl rfl
    · rintro (rfl | ⟨hr, -⟩)
      · exact Or.inr rfl
      · exact Or.inl hr

theorem Stored.save {zones : Zones} (h : Stored zones) {zone : ShippingZone}
    (hzone : Clean zone.countries) : Stored (save zone zones) := by
  refine ⟨?_, fun row hrow => ?_⟩
  · unfold ShippingZones.save
    split
    · have hsame : (zones.map fun row => if row.id = zone.id then zone else row).map (·.id) =
          zones.map (·.id) := by
        rw [List.map_map]
        refine List.map_congr_left fun row _ => ?_
        by_cases hid : row.id = zone.id
        · simp [hid]
        · simp [hid]
      rw [hsame]
      exact h.ids
    · rename_i hany
      rw [List.map_append, List.map_singleton, List.nodup_append]
      refine ⟨h.ids, List.nodup_singleton _, fun id hid id' hid' heq => hany ?_⟩
      obtain ⟨row, hrow, hrowid⟩ := List.mem_map.mp hid
      rw [List.mem_singleton.mp hid'] at heq
      exact List.any_eq_true.mpr ⟨row, hrow, by simp [hrowid, heq]⟩
  · rcases mem_save.mp hrow with rfl | ⟨hold, -⟩
    · exact hzone
    · exact h.clean row hold

theorem Stored.delete {zones : Zones} (h : Stored zones) (zoneId : String) :
    Stored (delete zoneId zones) :=
  ⟨h.ids.sublist (List.filter_sublist.map _),
    fun zone hzone => h.clean zone (List.mem_of_mem_filter hzone)⟩

/-- The zones that a saved zone may clash with. -/
def others (zone : ShippingZone) (zones : Zones) : Zones :=
  zones.filter fun row => row.id != zone.id

theorem mem_others : row ∈ others zone zones ↔ row ∈ zones ∧ row.id ≠ zone.id := by
  rw [others, List.mem_filter, bne_iff_ne]

theorem apart_save (hs : Stored zones) (h : Apart zones) (zone : ShippingZone) :
    overlapIssues zone.countries (others zone zones) = [] ↔ Apart (save zone zones) := by
  have hclean : ∀ other ∈ others zone zones, Clean other.countries :=
    fun other hother => hs.clean other (mem_others.mp hother).1
  rw [overlapIssues_nil hclean]
  constructor
  · intro hfree a ha b hb hne
    rcases mem_save.mp ha with rfl | ⟨hold, hid⟩
    · rcases mem_save.mp hb with rfl | ⟨hold, hid⟩
      · exact absurd rfl hne
      · exact hfree b (mem_others.mpr ⟨hold, hid⟩)
    · rcases mem_save.mp hb with rfl | ⟨hold', -⟩
      · intro c hc c' hc' hclash
        exact hfree a (mem_others.mpr ⟨hold, hid⟩) c' hc' c hc hclash.symm
      · exact h a hold b hold' hne
  · intro hnew other hother
    obtain ⟨hmem, hid⟩ := mem_others.mp hother
    exact hnew zone (mem_save.mpr (Or.inl rfl)) other (mem_save.mpr (Or.inr ⟨hmem, hid⟩)) hid.symm

/-- What a point relies on: its zone is clean, and a check leaves out no other zone. -/
def Relies : Point → Prop
  | .checking zone ownId _ => Clean zone.countries ∧ (ownId = none ∨ ownId = some zone.id.value)
  | .saving zone _ => Clean zone.countries
  | _ => True

def Rewrites (zones : Zones) : Point → Prop
  | .saving zone _ => ∃ row ∈ zones, row.id = zone.id ∧ row.countries = zone.countries
  | _ => True

theorem withZone_spec {P : Point → Prop} (hanswered : ∀ answer, P (.answered answer))
    {zoneId : String} (h : ∀ zone ∈ zones, zone.id.value = zoneId → P (next zone)) :
    P (withZone zoneId zones next) := by
  unfold withZone
  cases hfind : findById zoneId zones with
  | none => exact hanswered _
  | some zone =>
    exact h zone (List.mem_of_find?_eq_some hfind) (by simpa using List.find?_some hfind)

theorem attempt_spec {P : Point → Prop} (hanswered : ∀ answer, P (.answered answer))
    {result : Except DomainError ShippingZone} (h : ∀ zone, result = .ok zone → P (next zone)) :
    P (attempt result next) := by
  cases result with
  | error e => exact hanswered _
  | ok zone => exact h zone rfl

theorem addRates_ok {ids : ℕ → UniqueEntityId} {n : ℕ} {rates : List RateInput} {new : ShippingZone}
    (h : addRates ids n rates zone = .ok new) :
    new.id = zone.id ∧ new.countries = zone.countries := by
  induction rates generalizing n zone with
  | nil =>
    cases h
    exact ⟨rfl, rfl⟩
  | cons rate rates ih =>
    obtain ⟨added, hadded, h⟩ := bind_eq_ok.mp h
    obtain ⟨hid, hcountries⟩ := addRate_ok hadded
    obtain ⟨hid', hcountries'⟩ := ih h
    exact ⟨hid'.trans hid, hcountries'.trans hcountries⟩

/-- What `start` leads to: a point that has what it relies on, and rewrites no countries. -/
def Started (zones : Zones) (k : Point) : Prop := Relies k ∧ Rewrites zones k

theorem started_answered (zones : Zones) (answer : Answer) : Started zones (.answered answer) :=
  ⟨trivial, trivial⟩

theorem createZone_started (ids : ℕ → UniqueEntityId) (zones : Zones) (name : String)
    (countries : List ZoneCountry) (rates : List RateInput) :
    Started zones (createZone ids zones name countries rates) := by
  refine attempt_spec (started_answered zones) fun zone hzone => ?_
  obtain ⟨created, hcreated, hrates⟩ := bind_eq_ok.mp hzone
  obtain ⟨-, -, hclean⟩ := create_ok hcreated
  have hcountries := (addRates_ok hrates).2
  exact ⟨⟨hcountries.symm ▸ hclean, Or.inl rfl⟩, trivial⟩

theorem updateZone_started (zones : Zones) (zoneId name : String) (countries : List ZoneCountry) :
    Started zones (updateZone zones zoneId name countries) := by
  refine withZone_spec (started_answered zones) fun zone _ hid => ?_
  refine attempt_spec (started_answered zones) fun new hnew => ?_
  obtain ⟨renamed, hrenamed, hset⟩ := bind_eq_ok.mp hnew
  obtain ⟨hnewid, hcountries, hclean⟩ := setCountries_ok hset
  have hown : zoneId = new.id.value := by
    rw [hnewid, (rename_ok hrenamed).1, hid]
  exact ⟨⟨hcountries.symm ▸ hclean, Or.inr (congrArg some hown)⟩, trivial⟩

theorem changeRates_started (hs : Stored zones) (zoneId : String)
    (change : ShippingZone → Except DomainError ShippingZone) (answer : ShippingZone → Answer)
    (hchange : ∀ zone new, change zone = .ok new →
      new.id = zone.id ∧ new.countries = zone.countries) :
    Started zones (changeRates zones zoneId change answer) := by
  refine withZone_spec (started_answered zones) fun zone hzone _ => ?_
  refine attempt_spec (started_answered zones) fun new hnew => ?_
  obtain ⟨hid, hcountries⟩ := hchange zone new hnew
  have hclean : Clean new.countries := hcountries.symm ▸ hs.clean zone hzone
  exact ⟨hclean, zone, hzone, hid.symm, hcountries.symm⟩

theorem start_started (hs : Stored zones) (ids : ℕ → UniqueEntityId) (request : Request) :
    Started zones (start ids zones request) := by
  cases request with
  | createZone name countries rates => exact createZone_started ids zones name countries rates
  | updateZone zoneId name countries => exact updateZone_started zones zoneId name countries
  | deleteZone zoneId =>
    exact withZone_spec (started_answered zones) fun _ _ _ => ⟨trivial, trivial⟩
  | addRate zoneId input => exact changeRates_started hs zoneId _ _ fun _ _ => addRate_ok
  | updateRate zoneId rateId input =>
    exact changeRates_started hs zoneId _ _ fun _ _ => updateRate_ok
  | deleteRate zoneId rateId => exact changeRates_started hs zoneId _ _ fun _ _ => removeRate_ok

theorem id_ext {a b : UniqueEntityId} (h : a.value = b.value) : a = b := by
  cases a
  cases b
  cases h
  rfl

theorem checkCountries_none {regions : Regions} {ownId : Option String} (hs : Stored zones)
    (hown : ownId = none ∨ ownId = some zone.id.value)
    (h : checkCountries regions zone.countries ownId zones = none) :
    overlapIssues zone.countries (others zone zones) = [] := by
  have hissues : overlapIssues zone.countries
      ((list zones).filter fun row => some row.id.value != ownId) = [] := by
    unfold checkCountries at h
    cases hregion : regionIssues regions zone.countries with
    | nil =>
      rw [hregion] at h
      by_contra hne
      simp [hne] at h
    | cons issue issues =>
      rw [hregion] at h
      simp at h
  have hmem : ∀ row, row ∈ list zones ↔ row ∈ zones := fun row => by
    rw [list, List.mem_insertionSort]
  rw [overlapIssues_nil fun other hother => hs.clean other (mem_others.mp hother).1]
  rw [overlapIssues_nil fun other hother =>
    hs.clean other ((hmem other).mp (List.mem_of_mem_filter hother))] at hissues
  intro other hother
  obtain ⟨hin, hid⟩ := mem_others.mp hother
  refine hissues other (List.mem_filter.mpr ⟨(hmem other).mpr hin, bne_iff_ne.mpr ?_⟩)
  rcases hown with rfl | rfl
  · exact Option.some_ne_none _
  · intro heq
    exact hid (id_ext (Option.some.inj heq))

end ShippingZones

/-! ## Shipping zones never overlap

They do not as long as every zone that is saved is still free of the others then. A call that no
other interrupts always finds it so. -/
namespace ShippingZones

open SharedKernel Interleavings LabelledRuns

section Runs

variable {ι : Type} [DecidableEq ι] {regions : Regions}

abbrev Calls (ι : Type) := State Zones Point ι

/-- No zone that is stored by now holds a country of the zone that is saved. -/
def Undisputed (s : Calls ι) (l : Label Choice ι) : Prop :=
  ∀ c ids zone answer, l = .turn c (.proceeds ids) →
    s.processes c = .live (.saving zone answer) →
    overlapIssues zone.countries (others zone s.shared) = []

def Sound (s : Calls ι) : Prop := Holds Stored (fun _ => Relies) s ∧ Apart s.shared

variable {zones : Zones}

variable {choice : Choice} {k k' : Point} {zones' : Zones} {s : Calls ι} {answer : Answer}
  {zone : ShippingZone}

theorem turn_spec (hs : Stored zones) (hk : Relies k)
    (h : turn regions k choice zones = some (k', zones')) :
    Stored zones' ∧ Relies k' ∧ (Apart zones → Apart zones' ∨ ∃ ids zone answer,
      choice = .proceeds ids ∧ k = .saving zone answer ∧ zones' = save zone zones) := by
  cases k with
  | starting request =>
    cases choice with
    | proceeds ids =>
      cases h
      exact ⟨hs, (start_started hs ids request).1, Or.inl⟩
    | fails => cases h
  | checking zone ownId answer =>
    cases choice with
    | proceeds ids =>
      cases h
      refine ⟨hs, ?_, Or.inl⟩
      unfold check
      split
      · trivial
      · exact hk.1
    | fails => cases h
  | saving zone answer =>
    cases choice with
    | proceeds ids =>
      cases h
      exact ⟨hs.save hk, trivial, fun _ => Or.inr ⟨ids, zone, answer, rfl, rfl, rfl⟩⟩
    | fails =>
      cases h
      exact ⟨hs, trivial, Or.inl⟩
  | deleting zoneId =>
    cases choice with
    | proceeds ids =>
      cases h
      refine ⟨hs.delete zoneId, trivial, fun hapart => Or.inl ?_⟩
      intro a ha b hb
      exact hapart a (List.mem_of_mem_filter ha) b (List.mem_of_mem_filter hb)
    | fails =>
      cases h
      exact ⟨hs, trivial, Or.inl⟩
  | answered answer => cases choice <;> cases h

theorem holds_step (s : Calls ι) (l : Label Choice ι) (u : Calls ι)
    (h : Holds Stored (fun _ => Relies) s) (hst : Step (turn regions) s l u) :
    Holds Stored (fun _ => Relies) u :=
  h.step (fun _ _ _ _ _ hs hk hturn =>
    ⟨(turn_spec hs hk hturn).1, (turn_spec hs hk hturn).2.1, fun _ => id⟩) hst

theorem sound_step (s : Calls ι) (l : Label Choice ι) (u : Calls ι) (h : Sound s)
    (hst : Step (turn regions) s l u) (hg : Undisputed s l) : Sound u := by
  refine ⟨holds_step s l u h.1 hst, ?_⟩
  cases step_move hst with
  | @turn c k choice k' zones hc hk =>
    have hrelies := h.1.points c
    rw [hc] at hrelies
    rcases (turn_spec h.1.shared hrelies hk).2.2 h.2 with
      hapart | ⟨ids, zone, answer, rfl, rfl, rfl⟩
    · exact hapart
    · exact (apart_save h.1.shared h.2 zone).mp (hg c ids zone answer rfl hc)
  | crash => exact h.2

theorem sound_broken (s : Calls ι) (l : Label Choice ι) (u : Calls ι) (h : Sound s)
    (hst : Step (turn regions) s l u) (hn : ¬ Undisputed s l) : ¬ NoOverlap u.shared := by
  intro hoverlap
  apply hn
  rintro c ids zone answer rfl hc
  cases step_move hst with
  | @turn _ k _ k' zones hc' hk =>
    cases hc.symm.trans hc'
    cases hk
    exact (apart_save h.1.shared h.2 zone).mpr hoverlap.apart

def Point.idle : Point → Bool
  | starting _ | answered _ => true
  | _ => false

/-- A call takes its turn while no other has begun and not ended. -/
def InTurn (s : Calls ι) (l : Label Choice ι) : Prop :=
  ∀ c choice, l = .turn c choice → ∀ d k, d ≠ c → s.processes d = .live k → k.idle = true

structure Current (s : Calls ι) : Prop where
  sound : Sound s
  free : ∀ c zone answer, s.processes c = .live (.saving zone answer) →
    overlapIssues zone.countries (others zone s.shared) = []

omit [DecidableEq ι] in
theorem Current.undisputed (h : Current s) (l : Label Choice ι) : Undisputed s l :=
  fun c _ zone answer _ hc => h.free c zone answer hc

theorem rewrites_free (hs : Stored zones) (h : Apart zones)
    (hr : Rewrites zones (.saving zone answer)) :
    overlapIssues zone.countries (others zone zones) = [] := by
  obtain ⟨row, hrow, hid, hcountries⟩ := hr
  rw [overlapIssues_nil fun other hother => hs.clean other (mem_others.mp hother).1]
  intro other hother
  obtain ⟨hin, hne⟩ := mem_others.mp hother
  rw [← hcountries]
  exact h row hrow other hin fun heq => hne (heq.symm.trans hid)

theorem turn_free (hs : Stored zones) (ha : Apart zones) (hk : Relies k)
    (h : turn regions k choice zones = some (k', zones')) (hk' : k' = .saving zone answer) :
    overlapIssues zone.countries (others zone zones') = [] := by
  cases k with
  | starting request =>
    cases choice with
    | proceeds ids =>
      cases h
      have hstarted := (start_started hs ids request).2
      rw [hk'] at hstarted
      exact rewrites_free hs ha hstarted
    | fails => cases h
  | checking checked ownId response =>
    cases choice with
    | proceeds ids =>
      cases h
      unfold check at hk'
      split at hk'
      · cases hk'
      · rename_i hnone
        cases hk'
        exact checkCountries_none hs hk.2 hnone
    | fails => cases h
  | saving saved response | deleting zoneId => cases choice <;> cases h <;> cases hk'
  | answered response => cases choice <;> cases h

theorem current_step (s : Calls ι) (l : Label Choice ι) (u : Calls ι) (h : Current s)
    (hst : Step (turn regions) s l u) (hg : InTurn s l) : Current u := by
  refine ⟨sound_step s l u h.sound hst (h.undisputed l), ?_⟩
  cases step_move hst with
  | @turn c k choice k' zones hc hk =>
    have hrelies := h.sound.1.points c
    rw [hc] at hrelies
    intro d zone answer hd
    rcases live_of_turn hd with ⟨-, hanswered⟩ | ⟨hdc, hlive⟩
    · exact turn_free h.sound.1.shared h.sound.2 hrelies hk hanswered.symm
    · cases hg c choice rfl d _ hdc hlive
  | @crash c k hc =>
    intro d zone answer hd
    exact h.free d zone answer (live_of_crash hd)

/-- Zones that do not overlap, with every call still to begin. -/
structure Start (s : Calls ι) : Prop where
  stored : Stored s.shared
  noOverlap : NoOverlap s.shared
  entries : ∀ c, ∃ request, s.processes c = .live (.starting request)

omit [DecidableEq ι] in
theorem Start.current (h : Start s) : Current s := by
  refine ⟨⟨⟨h.stored, fun c => ?_⟩, h.noOverlap.apart⟩, fun c zone answer hc => ?_⟩
  · obtain ⟨request, hc⟩ := h.entries c
    rw [hc]
    trivial
  · obtain ⟨request, hc'⟩ := h.entries c
    cases hc.symm.trans hc'

theorem zones_apart_iff {s : Calls ι} (hs : Start s) {tr : List (Label Choice ι × Calls ι)}
    (hr : Run (Step (turn regions)) s tr) :
    (Always (fun u => NoOverlap u.shared) s tr ↔ EveryStep Undisputed s tr) ∧
      (EveryStep InTurn s tr → Always (fun u => NoOverlap u.shared) s tr) := by
  refine ⟨always_iff_everyStep sound_step (fun u h => h.2.noOverlap h.1.shared) sound_broken
    hs.current.sound hr, fun hg => ?_⟩
  have hcurrent := always_of_everyStep current_step hs.current hr hg
  exact hcurrent.mono fun u h => h.sound.2.noOverlap h.sound.1.shared

end Runs

/-! Two calls that create a zone of one country. -/

def egypt : ZoneCountry := ⟨"EG", none⟩

def onlyEgypt : Regions := ⟨["EG"], fun _ => []⟩

def twoCreates : Calls Bool where
  shared := []
  processes := fun _ => .live (.starting (.createZone "Egypt" [egypt] []))

theorem twoCreates_start : Start twoCreates := by
  refine ⟨⟨List.nodup_nil, fun _ h => (by cases h)⟩, ?_, fun _ => ⟨_, rfl⟩⟩
  exact Apart.noOverlap (fun _ h => (by cases h)) ⟨List.nodup_nil, fun _ h => (by cases h)⟩

def zoneId (c : Bool) : UniqueEntityId :=
  if c then ⟨"zone-2", by decide⟩ else ⟨"zone-1", by decide⟩

def turns (callers : List Bool) : List (Label Choice Bool × Calls Bool) :=
  LabelledRuns.attempt (next (turn onlyEgypt)) twoCreates
    (callers.map fun c => .turn c (.proceeds fun _ => zoneId c))

def racing : List Bool := [false, true, false, true, false, true]

theorem racing_overlap : Start twoCreates ∧ Run (Step (turn onlyEgypt)) twoCreates (turns racing) ∧
    ¬ Always (fun u => NoOverlap u.shared) twoCreates (turns racing) := by
  refine ⟨twoCreates_start, run_attempt _ _ _, fun h => ?_⟩
  have hlast : (lastState twoCreates (turns racing)).shared =
      [⟨zoneId false, "Egypt", "general", [egypt], [], 0⟩,
        ⟨zoneId true, "Egypt", "general", [egypt], [], 0⟩] := by
    decide +kernel
  have hoverlap := h.last
  rw [hlast] at hoverlap
  have hid := hoverlap.whole _ List.mem_cons_self _ (List.mem_cons_of_mem _ List.mem_cons_self)
    egypt List.mem_cons_self egypt List.mem_cons_self rfl rfl
  revert hid
  decide

/-- The second finds the country taken. -/
def oneByOne : List Bool := [false, false, false, true, true, true]

/-- Decides `InTurn` for two calls. -/
def alone (s : Calls Bool) : Label Choice Bool → Bool
  | .turn c _ =>
    match s.processes (!c) with
    | .live k => k.idle
    | .crashed _ => true
  | .crash _ => true

theorem inTurn_of_alone {s : Calls Bool} {l : Label Choice Bool} (h : alone s l = true) :
    InTurn s l := by
  rintro c choice rfl d k hd hc
  have hother : d = !c := by
    cases c <;> cases d
    · exact absurd rfl hd
    · rfl
    · rfl
    · exact absurd rfl hd
  rw [alone, ← hother, hc] at h
  exact h

theorem oneByOne_apart : Always (fun u => NoOverlap u.shared) twoCreates (turns oneByOne) := by
  have halone : EveryStep (fun s l => alone s l = true) twoCreates (turns oneByOne) := by
    decide +kernel
  exact (zones_apart_iff twoCreates_start (run_attempt _ _ _)).2
    (everyStep_mono (fun _ _ => inTurn_of_alone) halone)

end ShippingZones

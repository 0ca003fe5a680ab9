import Lumo.Decimals
import Lumo.MarkedTransactions
import Lumo.SharedKernel

/-! # `RecordUsage`: the usage counter of one tenant and resource

A record is counted in the transaction that writes its marker. An amount is a number of JavaScript
and stands for its decimal text. Events are not modelled. -/
namespace LicensingUsage

open SharedKernel Decimals MarkedTransactions Interleavings LabelledRuns

structure UsageCounter where
  id : String
  tenantRef : String
  resource : String
  amount : ℚ
  unit : String
  lastRecordedAt : Option ℤ
  version : ℕ

/-- `Decimal.plus`, under the default precision of twenty significant digits. -/
def plus (x y : ℚ) : ℚ := toSignificant 20 (x + y)

namespace UsageCounter

def create (id tenantRef resource : String) : UsageCounter :=
  ⟨id, tenantRef, resource, 0, "", none, 0⟩

def recordUsage (amount : ℚ) (unit : String) (occurredAt : ℤ) (counter : UsageCounter) :
    Except DomainError UsageCounter :=
  if counter.unit ≠ "" ∧ counter.unit ≠ unit then
    .error (.businessRule ("Usage counter \"" ++ counter.resource ++ "\" is kept in \"" ++
      counter.unit ++ "\"; refusing a record in \"" ++ unit ++ "\""))
  else
    .ok { counter with
      amount := plus counter.amount amount, unit := unit, lastRecordedAt := some occurredAt }

/-- The number that `toFixed(4)` writes. -/
def amountDecimalString (counter : UsageCounter) : ℚ := toPlaces 4 counter.amount

end UsageCounter

structure UsageCounterRow where
  id : String
  tenantId : String
  tenantRef : String
  resource : String
  amount : Column 19 4
  unit : String
  lastRecordedAt : Option ℤ
  version : ℕ

structure Scope where
  tenantId : String
  tenantRef : String
  resource : String

/-- The rest of the input of `RecordUsage`. -/
structure UsageRecord where
  recordId : String
  amount : ℚ
  unit : String
  occurredAt : ℤ

def writeAmount (counter : UsageCounter) : Except String (Column 19 4) :=
  match Column.write counter.amountDecimalString with
  | none => .error "numeric field overflow"
  | some amount => .ok amount

namespace UsageCounterMapper

def toDomain (row : UsageCounterRow) : UsageCounter :=
  ⟨row.id, row.tenantRef, row.resource, row.amount.value, row.unit, row.lastRecordedAt,
    row.version⟩

def toRow (counter : UsageCounter) (tenantId : String) : Except String UsageCounterRow := do
  let amount ← writeAmount counter
  return ⟨counter.id, tenantId, counter.tenantRef, counter.resource, amount, counter.unit,
    counter.lastRecordedAt, 1⟩

end UsageCounterMapper

def lostSave (counter : UsageCounter) : String :=
  if counter.version = 0 then "Unique constraint failed"
  else "UsageCounter " ++ counter.id ++ " was modified concurrently"

/-- `PrismaUsageCounterRepository.save`, over the row that is stored. -/
def save (tenantId : String) (counter : UsageCounter) (stored : Option UsageCounterRow) :
    Except String (Option UsageCounterRow) := do
  let row ← UsageCounterMapper.toRow counter tenantId
  if counter.version = 0 then
    match stored with
    | none => return some row
    | some _ => throw (lostSave counter)
  else
    match stored with
    | none => throw (lostSave counter)
    | some old =>
      if old.id = counter.id ∧ old.tenantId = tenantId ∧ old.version = counter.version then
        return some { old with
          amount := row.amount
          unit := row.unit
          lastRecordedAt := row.lastRecordedAt
          version := old.version + 1 }
      else throw (lostSave counter)

def counterOf (scope : Scope) (generated : String) : Option UsageCounterRow → UsageCounter
  | none => UsageCounter.create generated scope.tenantRef scope.resource
  | some row => UsageCounterMapper.toDomain row

/-- `RecordUsage.execute`. -/
def recordUsage (scope : Scope) :
    Handler (Option UsageCounterRow) UsageRecord UsageCounter String DomainError String String where
  key record := record.recordId
  apply record generated found :=
    (counterOf scope generated found).recordUsage record.amount record.unit record.occurredAt
  write counter stored := save scope.tenantId counter stored
  marked record := "Usage record \"" ++ record.recordId ++ "\" was already processed"
  lost := lostSave

def amountOf : Option UsageCounterRow → ℚ
  | none => 0
  | some row => row.amount.value

/-- The stored counter, after a record has been counted. -/
structure Counted (record : UsageRecord) (stored : Option UsageCounterRow)
    (row : UsageCounterRow) : Prop where
  written : Column.write (plus (amountOf stored) record.amount) = some row.amount
  unit : row.unit = record.unit
  kept : ∀ old, stored = some old → old.unit = "" ∨ old.unit = record.unit

variable {counter : UsageCounter} {stored : Option UsageCounterRow}

theorem recordUsage_ok {amount : ℚ} {unit : String} {occurredAt : ℤ} {counter' : UsageCounter}
    (h : counter.recordUsage amount unit occurredAt = .ok counter') :
    (counter.unit = "" ∨ counter.unit = unit) ∧
      counter' = { counter with
        amount := plus counter.amount amount
        unit := unit
        lastRecordedAt := some occurredAt } := by
  rw [UsageCounter.recordUsage] at h
  split at h
  · cases h
  · rename_i hunit
    cases h
    refine ⟨?_, rfl⟩
    rw [not_and_or, not_not, not_not] at hunit
    exact hunit

theorem writeAmount_ok {amount : Column 19 4} (h : writeAmount counter = .ok amount) :
    Column.write counter.amount = some amount := by
  unfold writeAmount at h
  rw [UsageCounter.amountDecimalString, Column.write_toPlaces] at h
  split at h
  · cases h
  · rename_i column hcolumn
    cases h
    exact hcolumn

variable {new : Option UsageCounterRow} {record : UsageRecord}

theorem save_ok {tenantId : String} (h : save tenantId counter stored = .ok new) :
    ∃ row, new = some row ∧
      Column.write counter.amount = some row.amount ∧ row.unit = counter.unit := by
  obtain ⟨row, hrow, h⟩ := bind_eq_ok.mp h
  obtain ⟨amount, hamount, hset⟩ := bind_eq_ok.mp hrow
  cases hset
  have hwritten := writeAmount_ok hamount
  split at h
  · split at h
    · cases h
      exact ⟨_, rfl, hwritten, rfl⟩
    · cases h
  · split at h
    · cases h
    · split at h
      · cases h
        exact ⟨_, rfl, hwritten, rfl⟩
      · cases h

theorem effect_counted {scope : Scope} (h : Effect (recordUsage scope) record stored new) :
    ∃ row, new = some row ∧ Counted record stored row := by
  obtain ⟨generated, counter, happly, hwrite⟩ := h
  obtain ⟨hunit, rfl⟩ := recordUsage_ok happly
  obtain ⟨row, hrow, hwritten, hset⟩ := save_ok hwrite
  refine ⟨row, hrow, ?_, hset, ?_⟩
  · cases stored <;> exact hwritten
  · rintro old rfl
    exact hunit

abbrev Usage := Store (Option UsageCounterRow) UsageRecord String

/-- The stored amount is the sum of the records that were counted, each of which was counted once
and has the counter's unit. The markers are those of the counted records. -/
structure ExactTotals (scope : Scope) (a : Usage) : Prop where
  exact : amountOf a.value = (a.applied.map (·.amount)).sum
  once : Recorded (recordUsage scope) a
  unit : ∀ row, a.value = some row → ∀ record ∈ a.applied, record.unit = row.unit

/-- The amount can be written with the decimals of the column, and a counter that is kept without a
unit goes on without one. -/
def Countable (record : UsageRecord) (stored : Option UsageCounterRow) : Prop :=
  HasPlaces 4 record.amount ∧ ∀ row, stored = some row → row.unit = "" → record.unit = ""

/-- A counter is created for the first record. -/
def Begun (a : Usage) : Prop := a.value = none ↔ a.applied = []

theorem hasPlaces_amountOf (stored : Option UsageCounterRow) : HasPlaces 4 (amountOf stored) := by
  cases stored with
  | none => exact ⟨0, by norm_num [amountOf]⟩
  | some row => exact row.amount.hasPlaces

theorem counted_exact {row : UsageCounterRow} (h : Counted record stored row) :
    row.amount.value = amountOf stored + record.amount ↔ HasPlaces 4 record.amount := by
  constructor
  · intro heq
    have hplaces := row.amount.hasPlaces
    rw [heq] at hplaces
    exact (hasPlaces_amountOf stored).add_iff.mp hplaces
  · intro hplaces
    have hsum := (hasPlaces_amountOf stored).add hplaces
    exact Column.write_toSignificant hsum (by norm_num) (by norm_num) (by norm_num) h.written

section Law

variable {scope : Scope} {a : Usage} {record : UsageRecord} {value : Option UsageCounterRow}

theorem sum_commit : ((a.commit (recordUsage scope) record value).applied.map (·.amount)).sum =
    (a.applied.map (·.amount)).sum + record.amount := by
  rw [Store.commit, List.map_append, List.sum_append, List.map_singleton, List.sum_singleton]

theorem begun_commit (heffect : Effect (recordUsage scope) record a.value value) :
    Begun (a.commit (recordUsage scope) record value) := by
  obtain ⟨row, rfl, -⟩ := effect_counted heffect
  simp [Begun, Store.commit]

theorem exact_commit (hbegun : Begun a) (h : ExactTotals scope a)
    (hmarked : record.recordId ∉ a.marks)
    (heffect : Effect (recordUsage scope) record a.value value) (hgood : Countable record a.value) :
    ExactTotals scope (a.commit (recordUsage scope) record value) := by
  obtain ⟨row, rfl, hcounted⟩ := effect_counted heffect
  refine ⟨?_, h.once.commit hmarked, ?_⟩
  · rw [sum_commit, ← h.exact]
    exact (counted_exact hcounted).mpr hgood.1
  · rintro row' ⟨⟩ other hother
    rcases List.mem_append.mp hother with hother | hother
    · cases hvalue : a.value with
      | none =>
        rw [hbegun.mp hvalue] at hother
        exact absurd hother List.not_mem_nil
      | some old =>
        rw [h.unit old hvalue other hother, hcounted.unit]
        rcases hcounted.kept old hvalue with hempty | hsame
        · rw [hempty, hgood.2 old hvalue hempty]
        · exact hsame
    · rw [List.mem_singleton.mp hother, hcounted.unit]

theorem inexact_commit (hbegun : Begun a) (h : ExactTotals scope a)
    (heffect : Effect (recordUsage scope) record a.value value)
    (hbad : ¬ Countable record a.value) :
    ¬ ExactTotals scope (a.commit (recordUsage scope) record value) := by
  obtain ⟨row, rfl, hcounted⟩ := effect_counted heffect
  intro hcommit
  refine hbad ⟨?_, fun old hvalue hempty => ?_⟩
  · have hsum := hcommit.exact
    rw [sum_commit, ← h.exact] at hsum
    exact (counted_exact hcounted).mp hsum
  · have hfirst : a.applied ≠ [] := by
      intro hnil
      rw [hbegun.mpr hnil] at hvalue
      cases hvalue
    obtain ⟨other, hother⟩ := List.exists_mem_of_ne_nil _ hfirst
    have hkept := hcommit.unit row rfl other (List.mem_append_left _ hother)
    rw [h.unit old hvalue other hother, hempty, hcounted.unit] at hkept
    exact hkept.symm

end Law

section Runs

variable {scope : Scope} {ι : Type}

abbrev Calls (ι : Type) :=
  Deliveries (Option UsageCounterRow) UsageRecord UsageCounter String DomainError String ι

/-- Nothing is stored, and every delivery is still to come. -/
structure Opening (s : Calls ι) : Prop where
  shared : s.shared = ⟨none, 0, [], []⟩
  received : ∀ c, ∃ record, s.processes c = .live (.received record)

variable {s : Calls ι}

theorem Opening.sound (h : Opening s) : Sound (recordUsage scope) s := by
  refine ⟨?_, fun c => ?_⟩
  · rw [h.shared]
    exact ⟨rfl, List.nodup_nil⟩
  · obtain ⟨record, hc⟩ := h.received c
    rw [hc]
    trivial

theorem Opening.exact (h : Opening s) : ExactTotals scope s.shared := by
  have hsound : Sound (recordUsage scope) s := h.sound
  refine ⟨?_, hsound.shared, ?_⟩
  · rw [h.shared]
    rfl
  · rw [h.shared]
    rintro row ⟨⟩

variable [DecidableEq ι]

variable {tr : List (Label (Choice String String) ι × Calls ι)}

/-- The totals are exact all along a run, and only what was counted has left anything, exactly when
every record that was counted could be. -/
theorem exact_totals_iff {s : Calls ι} (hs : Opening s)
    (hr : Run (Step (turn (recordUsage scope))) s tr) :
    Always (fun s => ExactTotals scope s.shared) s tr ∧
        EveryStep (fun s l => ∀ u, Step (turn (recordUsage scope)) s l u →
          Whole (recordUsage scope) s l u) s tr ↔
      EveryStep (Allowed (recordUsage scope) Countable) s tr := by
  have hwhole : EveryStep (fun s l => ∀ u, Step (turn (recordUsage scope)) s l u →
      Whole (recordUsage scope) s l u) s tr :=
    everyStep_of_invariant sound_step (fun s l h u hst => whole_step h hst) hs.sound hr
  have hbegun : Begun s.shared := by
    rw [hs.shared]
    simp [Begun]
  rw [and_iff_left hwhole]
  exact always_iff (I := Begun) (Q := ExactTotals scope)
    (fun a record value _ heffect => begun_commit heffect)
    (fun a record value hi _ hq hmarked heffect hgood =>
      exact_commit hi hq hmarked heffect hgood)
    (fun a record value hi _ hq _ heffect hbad => inexact_commit hi hq heffect hbad)
    hs.sound hbegun hs.exact hr

theorem countable_records (hs : Opening s)
    (hrecords : ∀ c record, s.processes c = .live (.received record) →
      HasPlaces 4 record.amount ∧ record.unit ≠ "")
    (hr : Run (Step (turn (recordUsage scope))) s tr) :
    EveryStep (Allowed (recordUsage scope) Countable) s tr := by
  refine allowed_of_deliveries
    (fun record => HasPlaces 4 record.amount ∧ record.unit ≠ "")
    (I := fun value => ∀ row, value = some row → row.unit ≠ "") ?_ ?_ hs.sound ?_ ?_ hr
  · rintro record value value' hfine - heffect row rfl
    obtain ⟨_, ⟨⟩, hcounted⟩ := effect_counted heffect
    rw [hcounted.unit]
    exact hfine.2
  · intro record value hfine hvalue
    exact ⟨hfine.1, fun row hrow hempty => absurd hempty (hvalue row hrow)⟩
  · rw [hs.shared]
    rintro row ⟨⟩
  · intro c
    obtain ⟨record, hc⟩ := hs.received c
    have hfine := hrecords c record hc
    rw [hc]
    exact hfine

end Runs

def storage : Scope := ⟨"tenant-1", "merchant-1", "storage"⟩

def opening (record : Bool → UsageRecord) : Calls Bool :=
  ⟨⟨none, 0, [], []⟩, fun c => .live (.received (record c))⟩

theorem opening_opening (record : Bool → UsageRecord) : Opening (opening record) :=
  ⟨rfl, fun c => ⟨record c, rfl⟩⟩

def attempted (record : Bool → UsageRecord) (labels : List (Label (Choice String String) Bool)) :
    List (Label (Choice String String) Bool × Calls Bool) :=
  attempt (next (turn (recordUsage storage))) (opening record) labels

theorem attempted_run (record : Bool → UsageRecord)
    (labels : List (Label (Choice String String) Bool)) :
    Run (Step (turn (recordUsage storage))) (opening record) (attempted record labels) :=
  run_attempt _ _ _

def go (c : Bool) : Label (Choice String String) Bool := .turn c (.proceeds "counter-1")

/-- One record is delivered twice at once, and the delivery that loses is repeated. -/
def quarter (_ : Bool) : UsageRecord := ⟨"record-1", 1 / 4, "gb", 0⟩

def quarterTwice : List (Label (Choice String String) Bool × Calls Bool) :=
  attempted quarter [go false, go true, go false, go true, go false, go true, go false, go true,
    go false, go true, go true, go true, go true]

theorem exact_totals_quarter :
    Always (fun s => ExactTotals storage s.shared) (opening quarter) quarterTwice ∧
      EveryStep (fun s l => ∀ u, Step (turn (recordUsage storage)) s l u →
        Whole (recordUsage storage) s l u) (opening quarter) quarterTwice := by
  have hs := opening_opening quarter
  have hr : Run (Step (turn (recordUsage storage))) (opening quarter) quarterTwice :=
    attempted_run quarter _
  refine (exact_totals_iff hs hr).mpr (countable_records hs ?_ hr)
  rintro c record hc
  cases hc
  exact ⟨⟨2500, by norm_num [quarter]⟩, by simp [quarter]⟩

def halfUnit (_ : Bool) : UsageRecord := ⟨"record-1", 1 / 20000, "gb", 0⟩

def halfUnitOnce : List (Label (Choice String String) Bool × Calls Bool) :=
  attempted halfUnit [go false, go false, go false, go false, go false]

def unitLater (c : Bool) : UsageRecord :=
  if c then ⟨"record-2", 1, "gb", 0⟩ else ⟨"record-1", 5, "", 0⟩

def unitLaterRun : List (Label (Choice String String) Bool × Calls Bool) :=
  attempted unitLater [go false, go false, go false, go false, go false, go true, go true,
    go true, go true, go true]

/-- Half of the least amount is stored as the whole of it; and a counter that a record without a
unit has created takes the unit of the next record. -/
theorem usage_inexact :
    (Opening (opening halfUnit) ∧
      Run (Step (turn (recordUsage storage))) (opening halfUnit) halfUnitOnce ∧
      ¬ Always (fun s => ExactTotals storage s.shared) (opening halfUnit) halfUnitOnce) ∧
    Opening (opening unitLater) ∧
      Run (Step (turn (recordUsage storage))) (opening unitLater) unitLaterRun ∧
      ¬ Always (fun s => ExactTotals storage s.shared) (opening unitLater) unitLaterRun := by
  refine ⟨⟨opening_opening halfUnit, attempted_run halfUnit _, fun h => ?_⟩,
    opening_opening unitLater, attempted_run unitLater _, fun h => ?_⟩
  · have hexact := h.last.exact
    revert hexact
    decide +kernel
  · have hunit := h.last.unit
    revert hunit
    decide +kernel

end LicensingUsage

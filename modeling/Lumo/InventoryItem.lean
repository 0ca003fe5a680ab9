import Lumo.Builtins
import Lumo.LabelledRuns
import Lumo.Methods
import Mathlib.Algebra.BigOperators.Group.List.Basic
import Mathlib.Algebra.Order.Group.Unbundled.Basic
import Mathlib.Data.List.Perm.Basic
import Mathlib.Tactic.Linarith

/-! # The inventory item aggregate

The stock of a product at a warehouse: its levels, its reservations, and the methods that move
them. Of the `inventory.adjusted` event a method returns the reason and what it moved. -/
namespace Inventory

open SharedKernel Builtins

structure WarehouseId where
  value : String
  deriving DecidableEq

def WarehouseId.create (value : String) : Except DomainError WarehouseId :=
  (Guard.againstEmpty value "warehouseId").map fun v => ⟨trim v.1⟩

theorem WarehouseId.create_ok {value : String} {warehouse : WarehouseId}
    (h : WarehouseId.create value = .ok warehouse) : warehouse.value = trim value := by
  obtain ⟨v, hv, rfl⟩ := map_eq_ok.mp h
  exact congrArg trim (Guard.againstEmpty_ok hv)

structure Quantity where
  value : ℕ
  positive : 0 < value
  deriving DecidableEq

def Quantity.create (value : ℚ) : Except DomainError Quantity :=
  if h : isInteger value = true ∧ 1 ≤ value then
    .ok ⟨value.num.toNat, by
      have hpos := Rat.num_pos.mpr (zero_lt_one.trans_le h.2)
      omega⟩
  else .error (.validation "Invalid quantity" [⟨"quantity", "must be a positive integer"⟩])

theorem Quantity.create_ok {value : ℚ} {quantity : Quantity}
    (h : Quantity.create value = .ok quantity) : (quantity.value : ℚ) = value := by
  rw [Quantity.create] at h
  split at h
  · rename_i hv
    cases h
    have hden : value.den = 1 := by simpa [isInteger] using hv.1
    have hnum : 0 ≤ value.num := Rat.num_nonneg.mpr (zero_le_one.trans hv.2)
    have hcast : ((value.num.toNat : ℤ) : ℚ) = value.num := by rw [Int.toNat_of_nonneg hnum]
    calc (value.num.toNat : ℚ) = ((value.num.toNat : ℤ) : ℚ) := (Int.cast_natCast _).symm
      _ = value.num := hcast
      _ = value := Rat.coe_int_num_of_den_eq_one hden
  · cases h

/-- On-hand and reserved quantities; only `create` checks them. -/
structure StockLevel where
  onHand : ℚ
  reserved : ℚ
  deriving DecidableEq

namespace StockLevel

def create (onHand reserved : ℚ) : Except DomainError StockLevel :=
  let issues : List FieldIssue :=
    (if isInteger onHand && 0 ≤ onHand then [] else
      [⟨"onHand", "must be a non-negative integer"⟩]) ++
    (if isInteger reserved && 0 ≤ reserved then [] else
      [⟨"reserved", "must be a non-negative integer"⟩])
  let issues := if issues.isEmpty && onHand < reserved then
      issues ++ [⟨"reserved", "cannot exceed on-hand"⟩]
    else issues
  if issues.isEmpty then .ok ⟨onHand, reserved⟩
  else .error (.validation "Invalid stock level" issues)

def zero : StockLevel := ⟨0, 0⟩

def available (level : StockLevel) : ℚ := level.onHand - level.reserved

def receive (level : StockLevel) (quantity : ℚ) : StockLevel :=
  { level with onHand := level.onHand + quantity }

def reserve (level : StockLevel) (quantity : ℚ) : Except DomainError StockLevel :=
  if level.available < quantity then .error (.businessRule "Insufficient available stock")
  else .ok { level with reserved := level.reserved + quantity }

def release (level : StockLevel) (quantity : ℚ) : StockLevel :=
  { level with reserved := max 0 (level.reserved - quantity) }

def adjustTo (level : StockLevel) (onHand : ℚ) : Except DomainError StockLevel :=
  if onHand < level.reserved then .error (.businessRule "Cannot adjust on-hand below reserved")
  else .ok { level with onHand := onHand }

/-- On-hand and reserved both drop. -/
def commit (level : StockLevel) (quantity : ℚ) : Except DomainError StockLevel :=
  if level.reserved < quantity then .error (.businessRule "Cannot commit more than reserved")
  else .ok ⟨level.onHand - quantity, level.reserved - quantity⟩

def remove (level : StockLevel) (quantity : ℚ) : Except DomainError StockLevel :=
  if level.available < quantity then .error (.businessRule "Insufficient available stock")
  else .ok { level with onHand := level.onHand - quantity }

end StockLevel

structure Reservation where
  id : UniqueEntityId
  quantity : Quantity
  reference : String
  deriving DecidableEq

structure InventoryItem where
  id : UniqueEntityId
  product : ProductRef
  warehouseId : WarehouseId
  variantRef : Option String
  stockLevel : StockLevel
  reservations : List Reservation
  deriving DecidableEq

inductive Movement where
  | received (quantity : Quantity)
  | adjusted (onHand : ℚ)
  | reserved (reservation : Reservation)
  | released (reservation : Reservation)
  | committed (reservation : Reservation)
  | transferredOut (quantity : Quantity)
  | transferredIn (quantity : Quantity)

abbrev Method (α : Type) := EStateM DomainError InventoryItem α

namespace InventoryItem

def create (id : UniqueEntityId) (product : ProductRef) (warehouseId : WarehouseId)
    (variantRef : Option String) : InventoryItem where
  id := id
  product := product
  warehouseId := warehouseId
  variantRef := variantRef
  stockLevel := .zero
  reservations := []

def receive (quantity : Quantity) : Method Movement := do
  modify fun item => { item with stockLevel := item.stockLevel.receive quantity.value }
  return .received quantity

def adjust (onHand : ℚ) : Method Movement := do
  let level ← MonadExcept.ofExcept ((← get).stockLevel.adjustTo onHand)
  modify fun item => { item with stockLevel := level }
  return .adjusted onHand

def reserve (reservationId : UniqueEntityId) (quantity : Quantity) (reference : String) :
    Method Movement := do
  let level ← MonadExcept.ofExcept ((← get).stockLevel.reserve quantity.value)
  modify fun item => { item with stockLevel := level }
  let reservation : Reservation := ⟨reservationId, quantity, reference⟩
  modify fun item => { item with reservations := item.reservations ++ [reservation] }
  return .reserved reservation

def takeReservation (reservationId : String) : Method Reservation := do
  match (← get).reservations.find? fun r => r.id.value == reservationId with
  | none => throw (.businessRule "Reservation not found")
  | some reservation =>
    modify fun item => { item with
      reservations := item.reservations.eraseP fun r => r.id.value == reservationId }
    return reservation

def releaseReservation (reservationId : String) : Method Movement := do
  let reservation ← takeReservation reservationId
  modify fun item => { item with
    stockLevel := item.stockLevel.release reservation.quantity.value }
  return .released reservation

def commitReservation (reservationId : String) : Method Movement := do
  let reservation ← takeReservation reservationId
  let level ← MonadExcept.ofExcept ((← get).stockLevel.commit reservation.quantity.value)
  modify fun item => { item with stockLevel := level }
  return .committed reservation

def transferOut (quantity : Quantity) : Method Movement := do
  let level ← MonadExcept.ofExcept ((← get).stockLevel.remove quantity.value)
  modify fun item => { item with stockLevel := level }
  return .transferredOut quantity

def transferIn (quantity : Quantity) : Method Movement := do
  modify fun item => { item with stockLevel := item.stockLevel.receive quantity.value }
  return .transferredIn quantity

end InventoryItem

end Inventory

/-! ## What the stock of an item is made of

Each method moves the levels and the reservations together: whatever it moves, the item stays
accounted for by the movements recorded so far. -/
namespace Inventory

open SharedKernel Builtins Methods LabelledRuns

/-- What a method that does not throw has moved. -/
inductive Moved (item : InventoryItem) : Movement → InventoryItem → Prop where
  | received (quantity : Quantity) : Moved item (.received quantity)
      { item with stockLevel := item.stockLevel.receive quantity.value }
  | adjusted (onHand : ℚ) (whole : IsAmount onHand) (enough : item.stockLevel.reserved ≤ onHand) :
      Moved item (.adjusted onHand)
        { item with stockLevel := ⟨onHand, item.stockLevel.reserved⟩ }
  | reserved (reservation : Reservation)
      (enough : reservation.quantity.value ≤ item.stockLevel.available) :
      Moved item (.reserved reservation)
        { item with
          stockLevel := ⟨item.stockLevel.onHand,
            item.stockLevel.reserved + reservation.quantity.value⟩
          reservations := item.reservations ++ [reservation] }
  | released (reservation : Reservation) (before after : List Reservation)
      (split : item.reservations = before ++ reservation :: after) :
      Moved item (.released reservation)
        { item with
          stockLevel := item.stockLevel.release reservation.quantity.value
          reservations := before ++ after }
  | committed (reservation : Reservation) (before after : List Reservation)
      (split : item.reservations = before ++ reservation :: after) :
      Moved item (.committed reservation)
        { item with
          stockLevel := ⟨item.stockLevel.onHand - reservation.quantity.value,
            item.stockLevel.reserved - reservation.quantity.value⟩
          reservations := before ++ after }
  | transferredOut (quantity : Quantity) (enough : quantity.value ≤ item.stockLevel.available) :
      Moved item (.transferredOut quantity)
        { item with
          stockLevel := ⟨item.stockLevel.onHand - quantity.value, item.stockLevel.reserved⟩ }
  | transferredIn (quantity : Quantity) : Moved item (.transferredIn quantity)
      { item with stockLevel := item.stockLevel.receive quantity.value }

theorem Moved.same {item item' : InventoryItem} {m : Movement} (h : Moved item m item') :
    item'.id = item.id ∧ item'.product = item.product ∧ item'.warehouseId = item.warehouseId ∧
      item'.variantRef = item.variantRef := by
  cases h <;> exact ⟨rfl, rfl, rfl, rfl⟩

section Methods

variable {item item' : InventoryItem} {m : Movement}

variable {quantity : Quantity}

theorem receive_moved (h : InventoryItem.receive quantity item = .ok m item') :
    Moved item m item' := by
  simp only [InventoryItem.receive, run_bind, run_modify, run_pure] at h
  cases h
  exact .received quantity

theorem transferIn_moved (h : InventoryItem.transferIn quantity item = .ok m item') :
    Moved item m item' := by
  simp only [InventoryItem.transferIn, run_bind, run_modify, run_pure] at h
  cases h
  exact .transferredIn quantity

theorem adjust_moved {onHand : ℚ} (whole : IsAmount onHand)
    (h : InventoryItem.adjust onHand item = .ok m item') : Moved item m item' := by
  by_cases hlt : onHand < item.stockLevel.reserved
  · simp [InventoryItem.adjust, StockLevel.adjustTo, hlt] at h
  · simp only [InventoryItem.adjust, StockLevel.adjustTo, hlt, run_bind, run_get, run_ofExcept,
      run_modify, run_pure, if_false] at h
    cases h
    exact .adjusted onHand whole (not_lt.mp hlt)

theorem reserve_moved {id : UniqueEntityId} {reference : String}
    (h : InventoryItem.reserve id quantity reference item = .ok m item') :
    m = .reserved ⟨id, quantity, reference⟩ ∧ Moved item m item' := by
  by_cases hlt : item.stockLevel.available < quantity.value
  · simp [InventoryItem.reserve, StockLevel.reserve, hlt] at h
  · simp only [InventoryItem.reserve, StockLevel.reserve, hlt, run_bind, run_get, run_ofExcept,
      run_modify, run_pure, if_false] at h
    cases h
    exact ⟨rfl, .reserved ⟨id, quantity, reference⟩ (not_lt.mp hlt)⟩

theorem transferOut_moved (h : InventoryItem.transferOut quantity item = .ok m item') :
    Moved item m item' := by
  by_cases hlt : item.stockLevel.available < quantity.value
  · simp [InventoryItem.transferOut, StockLevel.remove, hlt] at h
  · simp only [InventoryItem.transferOut, StockLevel.remove, hlt, run_bind, run_get, run_ofExcept,
      run_modify, run_pure, if_false] at h
    cases h
    exact .transferredOut quantity (not_lt.mp hlt)

theorem takeReservation_result (item : InventoryItem) (id : String) :
    InventoryItem.takeReservation id item =
        .error (.businessRule "Reservation not found") item ∨
      ∃ reservation before after, item.reservations = before ++ reservation :: after ∧
        reservation.id.value = id ∧ InventoryItem.takeReservation id item =
          .ok reservation { item with reservations := before ++ after } := by
  cases hfind : item.reservations.find? fun r => r.id.value == id with
  | none =>
    left
    simp [InventoryItem.takeReservation, hfind]
  | some reservation =>
    right
    obtain ⟨hid, before, after, hsplit, hbefore⟩ := List.find?_eq_some_iff_append.mp hfind
    refine ⟨reservation, before, after, hsplit, by simpa using hid, ?_⟩
    have herase : item.reservations.eraseP (fun r => r.id.value == id) = before ++ after := by
      rw [hsplit, List.eraseP_append_right _ (fun b hb => by simpa using hbefore b hb),
        List.eraseP_cons_of_pos (p := fun r : Reservation => r.id.value == id) hid]
    simp [InventoryItem.takeReservation, hfind, herase]

theorem release_moved {id : String}
    (h : InventoryItem.releaseReservation id item = .ok m item') : Moved item m item' := by
  rcases takeReservation_result item id with hno | ⟨reservation, before, after, hsplit, _, hok⟩
  · simp [InventoryItem.releaseReservation, hno] at h
  · simp only [InventoryItem.releaseReservation, hok, run_bind, run_modify, run_pure] at h
    cases h
    exact .released reservation before after hsplit

theorem commit_moved {id : String}
    (h : InventoryItem.commitReservation id item = .ok m item') : Moved item m item' := by
  rcases takeReservation_result item id with hno | ⟨reservation, before, after, hsplit, _, hok⟩
  · simp [InventoryItem.commitReservation, hno] at h
  · by_cases hlt : item.stockLevel.reserved < reservation.quantity.value
    · simp [InventoryItem.commitReservation, hok, StockLevel.commit, hlt] at h
    · simp only [InventoryItem.commitReservation, hok, StockLevel.commit, hlt, run_bind, run_get,
        run_ofExcept, run_modify, run_pure, if_false] at h
      cases h
      exact .committed reservation before after hsplit

end Methods

/-- What the reservations hold in all. -/
def held (reservations : List Reservation) : ℕ := (reservations.map (·.quantity.value)).sum

theorem held_append (l l' : List Reservation) : held (l ++ l') = held l + held l' := by
  rw [held, List.map_append, List.sum_append, held, held]

theorem held_split (before after : List Reservation) (r : Reservation) :
    held (before ++ r :: after) = held (before ++ after) + r.quantity.value := by
  simp only [held, List.map_append, List.map_cons, List.sum_append, List.sum_cons]
  omega

def Movement.made? : Movement → Option Reservation
  | .reserved r => some r
  | _ => none

def Movement.released? : Movement → Option Reservation
  | .released r => some r
  | _ => none

def Movement.committed? : Movement → Option Reservation
  | .committed r => some r
  | _ => none

/-- The levels are whole numbers, reserved is what the live reservations hold, and on-hand covers
it; and every reservation that was ever made is live, or was released once, or committed once. -/
structure Accounted (item : InventoryItem) (movements : List Movement) : Prop where
  whole : IsAmount item.stockLevel.onHand
  reserved : item.stockLevel.reserved = held item.reservations
  covered : item.stockLevel.reserved ≤ item.stockLevel.onHand
  ledger : (movements.filterMap Movement.made?).Perm (item.reservations ++
    (movements.filterMap Movement.released? ++ movements.filterMap Movement.committed?))

theorem create_accounted (id : UniqueEntityId) (product : ProductRef) (warehouseId : WarehouseId)
    (variantRef : Option String) :
    Accounted (InventoryItem.create id product warehouseId variantRef) [] := by
  refine ⟨.zero, ?_, ?_, ?_⟩
  · simp [InventoryItem.create, StockLevel.zero, held]
  · simp [InventoryItem.create, StockLevel.zero]
  · simp [InventoryItem.create]

section Ledgers

variable {f : Movement → Option Reservation} {ms : List Movement} {m : Movement}

theorem filterMap_none (h : f m = none) : (ms ++ [m]).filterMap f = ms.filterMap f := by
  rw [List.filterMap_append, List.filterMap_cons_none h, List.filterMap_nil, List.append_nil]

theorem filterMap_some {r : Reservation} (h : f m = some r) :
    (ms ++ [m]).filterMap f = ms.filterMap f ++ [r] := by
  rw [List.filterMap_append, List.filterMap_cons_some h, List.filterMap_nil]

end Ledgers

theorem leave_perm {α : Type} {all before after gone : List α} {r : α}
    (h : all.Perm (before ++ r :: after ++ gone)) : all.Perm (before ++ after ++ (gone ++ [r])) := by
  refine h.trans ?_
  rw [List.append_assoc, List.cons_append, List.append_assoc, ← List.append_assoc after gone [r]]
  apply List.Perm.append_left
  exact (List.perm_append_singleton r (after ++ gone)).symm

/-- Whatever a method moves, the item stays accounted for. -/
theorem Accounted.move {item item' : InventoryItem} {ms : List Movement} {m : Movement}
    (h : Accounted item ms) (hm : Moved item m item') : Accounted item' (ms ++ [m]) := by
  obtain ⟨hwhole, hres, hcov, hledger⟩ := h
  cases hm with
  | received quantity | transferredIn quantity =>
    refine ⟨hwhole.add (.natCast _), hres, ?_, ?_⟩
    · have hq : (0 : ℚ) ≤ quantity.value := Nat.cast_nonneg _
      simp only [StockLevel.receive]
      linarith
    · rw [filterMap_none rfl, filterMap_none rfl, filterMap_none rfl]
      exact hledger
  | adjusted onHand whole enough =>
    refine ⟨whole, hres, enough, ?_⟩
    rw [filterMap_none rfl, filterMap_none rfl, filterMap_none rfl]
    exact hledger
  | reserved reservation enough =>
    refine ⟨hwhole, ?_, ?_, ?_⟩
    · rw [held_append, Nat.cast_add, ← hres]
      simp [held]
    · simp only [StockLevel.available] at enough
      simp only
      linarith
    · rw [filterMap_some rfl, filterMap_none rfl, filterMap_none rfl, List.append_assoc]
      apply (hledger.append_right [reservation]).trans
      rw [List.append_assoc]
      exact List.perm_append_comm.append_left _
  | released reservation before after split =>
    rw [split] at hres hledger
    rw [held_split, Nat.cast_add] at hres
    have hrest : item.stockLevel.reserved - reservation.quantity.value =
        held (before ++ after) := by
      rw [hres]
      ring
    have hheld : (0 : ℚ) ≤ held (before ++ after) := Nat.cast_nonneg _
    refine ⟨hwhole, ?_, ?_, ?_⟩
    · simp only [StockLevel.release]
      rw [hrest, max_eq_right hheld]
    · simp only [StockLevel.release]
      rw [hrest, max_eq_right hheld, ← hrest]
      have hq : (0 : ℚ) ≤ reservation.quantity.value := Nat.cast_nonneg _
      linarith
    · rw [filterMap_none rfl, filterMap_some rfl, filterMap_none rfl]
      apply (leave_perm hledger).trans
      apply List.Perm.append_left
      rw [List.append_assoc, List.append_assoc]
      exact List.perm_append_comm.append_left _
  | committed reservation before after split =>
    rw [split] at hres hledger
    rw [held_split, Nat.cast_add] at hres
    obtain ⟨n, hn⟩ := hwhole
    refine ⟨?_, ?_, ?_, ?_⟩
    · have hle : reservation.quantity.value ≤ n := by
        have hheld : (0 : ℚ) ≤ held (before ++ after) := Nat.cast_nonneg _
        have hcast : (reservation.quantity.value : ℚ) ≤ n := by linarith
        exact_mod_cast hcast
      refine ⟨n - reservation.quantity.value, ?_⟩
      simp only [hn]
      rw [Nat.cast_sub hle]
    · simp only
      rw [hres]
      ring
    · simp only
      linarith
    · rw [filterMap_none rfl, filterMap_none rfl, filterMap_some rfl, ← List.append_assoc (ms.filterMap _)]
      exact leave_perm hledger
  | transferredOut quantity enough =>
    simp only [StockLevel.available] at enough
    obtain ⟨n, hn⟩ := hwhole
    refine ⟨?_, hres, ?_, ?_⟩
    · have hle : quantity.value ≤ n := by
        have hheld : (0 : ℚ) ≤ held item.reservations := Nat.cast_nonneg _
        have hcast : (quantity.value : ℚ) ≤ n := by linarith
        exact_mod_cast hcast
      refine ⟨n - quantity.value, ?_⟩
      simp only [hn]
      rw [Nat.cast_sub hle]
    · simp only
      linarith
    · rw [filterMap_none rfl, filterMap_none rfl, filterMap_none rfl]
      exact hledger

end Inventory

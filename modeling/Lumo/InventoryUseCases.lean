import Lumo.InventoryItem
import Lumo.VersionedTable

/-! # The use cases that move stock

The rows are those of one tenant. Each use case is a transaction on the table it reads; a save
that throws, because the row has moved on or a unique index refuses it, rolls it back. -/
namespace Inventory

open SharedKernel Builtins VersionedTable

abbrev Stock := Table InventoryItem

/-- An `inventory.adjusted` event in the outbox. -/
structure Adjusted where
  itemId : String
  movement : Movement

/-- One row per product, variant and warehouse, and one reservation per row and reference. -/
def inventoryItems : Schema InventoryItem String where
  key item := item.id.value
  clash a b := a.product.value == b.product.value && a.variantRef == b.variantRef &&
    a.warehouseId.value == b.warehouseId.value
  storable item := decide (item.reservations.map (·.reference)).Nodup

def resolveStockRow (rows : Stock) (variantId : Option String) : Option (Row InventoryItem) :=
  match variantId with
  | some variantId =>
    match rows.find? fun row => row.value.variantRef == some variantId with
    | some exact => some exact
    | none =>
      match rows with
      | [only] => if only.value.variantRef = none then some only else none
      | _ => none
  | none =>
    match rows with
    | [only] => some only
    | _ => none

def findByProductAndWarehouse (stock : Stock) (productId warehouseId : String)
    (variantId : Option String) : Option (Row InventoryItem) :=
  resolveStockRow (stock.filter fun row =>
    row.value.product.value == productId && row.value.warehouseId.value == warehouseId) variantId

inductive Output where
  | available (available : ℚ)
  | reserved (reservationId : String) (available : ℚ)
  | committed (onHand available : ℚ)
  | transferred (sourceAvailable destinationAvailable : ℚ)
  deriving DecidableEq

inductive Answer where
  | ok (output : Output)
  | err (error : DomainError)
  | threw (error : DomainError)
  | lostSave
  deriving DecidableEq

structure ReceiveStockInput where
  productId : String
  warehouseId : String
  variantId : Option String
  quantity : ℚ
  deriving DecidableEq

structure AdjustInventoryInput where
  productId : String
  warehouseId : String
  variantId : Option String
  onHand : ℚ
  deriving DecidableEq

structure ReserveStockInput where
  productId : String
  warehouseId : String
  variantId : Option String
  quantity : ℚ
  reference : String
  deriving DecidableEq

/-- The input of `ReleaseReservation` and of `CommitReservation`. -/
structure ReservationInput where
  productId : String
  warehouseId : String
  variantId : Option String
  reservationId : String
  deriving DecidableEq

structure TransferStockInput where
  productId : String
  variantId : Option String
  sourceWarehouseId : String
  destinationWarehouseId : String
  quantity : ℚ
  deriving DecidableEq

/-- Where a call stands. -/
inductive Point where
  | receiving (input : ReceiveStockInput)
  | adjusting (input : AdjustInventoryInput)
  | reserving (input : ReserveStockInput)
  | releasing (input : ReservationInput)
  | committing (input : ReservationInput)
  | transferring (input : TransferStockInput)
  | finished (answer : Answer)
  deriving DecidableEq

abbrev Ending := Outcome InventoryItem Adjusted Point

def fails (e : DomainError) : Ending := .answer (.finished (.err e))

def checked {α : Type} (input : Except DomainError α) (goOn : α → Ending) : Ending :=
  match input with
  | .error e => fails e
  | .ok a => goOn a

def saveOf (item : InventoryItem) (version : ℕ) (movement : Movement) :
    Save InventoryItem Adjusted :=
  ⟨⟨item, version⟩, ⟨item.id.value, movement⟩⟩

def moveStock (row : Row InventoryItem) (method : Method Movement)
    (output : InventoryItem → Output) : Ending :=
  match method row.value with
  | .error e _ => fails e
  | .ok movement item =>
    .save [saveOf item row.version movement] (.finished (.ok (output item)))

def moveFound (stock : Stock) (product : ProductRef) (warehouse : WarehouseId)
    (variantId : Option String) (method : Method Movement) (output : InventoryItem → Output) :
    Ending :=
  match findByProductAndWarehouse stock product.value warehouse.value variantId with
  | none => fails (.notFound "Inventory item not found")
  | some row => moveStock row method output

def findOrCreate (ids : ℕ → String) (draw : ℕ) (stock : Stock) (product : ProductRef)
    (warehouse : WarehouseId) (variantId : Option String) :
    Except DomainError (Row InventoryItem) :=
  match findByProductAndWarehouse stock product.value warehouse.value variantId with
  | some row => .ok row
  | none => (UniqueEntityId.from (ids draw)).map fun id =>
      ⟨InventoryItem.create id product warehouse variantId, 0⟩

section UseCases

variable (ids : ℕ → String)

def receiveStock (input : ReceiveStockInput) (draw : ℕ) (stock : Stock) : Ending :=
  checked (do
    let product ← ProductRef.create input.productId
    let warehouse ← WarehouseId.create input.warehouseId
    return (product, warehouse, ← Quantity.create input.quantity)) fun (product, warehouse, quantity) =>
  match findOrCreate ids draw stock product warehouse input.variantId with
  | .error e => .answer (.finished (.threw e))
  | .ok row =>
    moveStock row (InventoryItem.receive quantity) fun item => .available item.stockLevel.available

def adjustInventory (input : AdjustInventoryInput) (stock : Stock) : Ending :=
  checked (do
    let product ← ProductRef.create input.productId
    let warehouse ← WarehouseId.create input.warehouseId
    if !isInteger input.onHand || input.onHand < 0 then
      throw (.validation "Invalid on-hand quantity"
        [⟨"onHand", "must be a non-negative integer"⟩])
    return (product, warehouse)) fun (product, warehouse) =>
  moveFound stock product warehouse input.variantId (InventoryItem.adjust input.onHand)
    fun item => .available item.stockLevel.available

def reserveStock (input : ReserveStockInput) (draw : ℕ) (stock : Stock) : Ending :=
  checked (do
    let product ← ProductRef.create input.productId
    let warehouse ← WarehouseId.create input.warehouseId
    let quantity ← Quantity.create input.quantity
    let _ ← Guard.againstEmpty input.reference "reference"
    return (product, warehouse, quantity)) fun (product, warehouse, quantity) =>
  match findByProductAndWarehouse stock product.value warehouse.value input.variantId with
  | none => fails (.notFound "Inventory item not found")
  | some row =>
    match UniqueEntityId.from (ids draw) with
    | .error e => .answer (.finished (.threw e))
    | .ok reservationId =>
      moveStock row (InventoryItem.reserve reservationId quantity input.reference)
        fun item => .reserved reservationId.value item.stockLevel.available

def releaseReservation (input : ReservationInput) (stock : Stock) : Ending :=
  checked (do
    let product ← ProductRef.create input.productId
    return (product, ← WarehouseId.create input.warehouseId)) fun (product, warehouse) =>
  moveFound stock product warehouse input.variantId
    (InventoryItem.releaseReservation input.reservationId)
    fun item => .available item.stockLevel.available

def commitReservation (input : ReservationInput) (stock : Stock) : Ending :=
  checked (do
    let product ← ProductRef.create input.productId
    return (product, ← WarehouseId.create input.warehouseId)) fun (product, warehouse) =>
  moveFound stock product warehouse input.variantId
    (InventoryItem.commitReservation input.reservationId)
    fun item => .committed item.stockLevel.onHand item.stockLevel.available

def moveBoth (source destination : Row InventoryItem) (quantity : Quantity) : Ending :=
  match InventoryItem.transferOut quantity source.value with
  | .error e _ => fails e
  | .ok out sourceItem =>
    match InventoryItem.transferIn quantity destination.value with
    | .error e _ => fails e
    | .ok into destinationItem =>
      .save [saveOf sourceItem source.version out,
          saveOf destinationItem destination.version into]
        (.finished (.ok (.transferred sourceItem.stockLevel.available
          destinationItem.stockLevel.available)))

def transferStock (input : TransferStockInput) (draw : ℕ) (stock : Stock) : Ending :=
  checked (do
    let product ← ProductRef.create input.productId
    let source ← WarehouseId.create input.sourceWarehouseId
    let destination ← WarehouseId.create input.destinationWarehouseId
    if source.value = destination.value then
      throw (.validation "Cannot transfer stock to the same warehouse"
        [⟨"destinationWarehouseId", "must differ from sourceWarehouseId"⟩])
    return (product, source, destination, ← Quantity.create input.quantity))
    fun (product, source, destination, quantity) =>
  match findByProductAndWarehouse stock product.value source.value input.variantId with
  | none => fails (.notFound "Source inventory item not found")
  | some sourceRow =>
    match findOrCreate ids draw stock product destination input.variantId with
    | .error e => .answer (.finished (.threw e))
    | .ok destinationRow => moveBoth sourceRow destinationRow quantity

/-- The use cases as calls on the shared table. -/
def protocol : Protocol InventoryItem Adjusted Point where
  body
    | .receiving input => some (receiveStock ids input)
    | .adjusting input => some fun _ => adjustInventory input
    | .reserving input => some (reserveStock ids input)
    | .releasing input => some fun _ => releaseReservation input
    | .committing input => some fun _ => commitReservation input
    | .transferring input => some (transferStock ids input)
    | .finished _ => none
  conflict _ := .finished .lostSave

end UseCases

end Inventory

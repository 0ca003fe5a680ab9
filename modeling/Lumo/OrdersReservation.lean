import Lumo.InventoryRuns

/-! # Reserving stock for an order

The adapter between Orders and Inventory. It reads the shop line by line, and each reservation it
makes is a transaction of its own: what an earlier line has reserved stays reserved when a later
line throws. -/
namespace OrdersInventory

open SharedKernel Builtins Inventory VersionedTable

inductive InventoryPolicy where
  | deny
  | continue
  deriving DecidableEq

structure Variant where
  id : String
  tracksInventory : Bool
  inventoryPolicy : InventoryPolicy
  deriving DecidableEq

structure Product where
  variants : List Variant

/-- The named variant, or the only one; never a guess. -/
def variantOf (product : Product) (variantRef : Option String) : Option Variant :=
  match variantRef with
  | some variantRef => product.variants.find? fun variant => variant.id == variantRef
  | none =>
    match product.variants with
    | [only] => some only
    | _ => none

structure LocationLevel where
  locationId : String
  available : ℚ

structure PickedLocation where
  locationId : String
  available : ℚ
  covers : Bool

def pickLocation (levels : List LocationLevel) (quantity : ℚ) : Option PickedLocation :=
  let best := levels.foldl (fun best level =>
    match best with
    | none => some level
    | some b => if b.available < level.available then some level else some b) none
  best.map fun best => ⟨best.locationId, best.available, quantity ≤ best.available⟩

structure Warehouse where
  id : UniqueEntityId
  active : Bool
  trimmed : trim id.value = id.value

structure OrderLine where
  productId : String
  variantRef : Option String
  quantity : ℕ
  named : isBlank productId = false
  positive : 0 < quantity

/-- What the other contexts answer; a failed answer is its status. -/
structure Shop where
  getOrder : String → Except ℕ (List OrderLine)
  getProduct : String → Except ℕ Product
  warehouses : List Warehouse

/-- The stock with the numbers drawn so far. -/
structure Stockroom where
  store : Store InventoryItem Adjusted
  draws : ℕ

/-- Why `requestReservation` throws. -/
inductive ReservationError where
  | orderNotLoaded (orderId : String) (status : ℕ)
  | productNotLoaded (productId orderId : String) (status : ℕ)
  | noMatchingVariant (productId orderId : String)
  | noActiveLocation (productId orderId : String) (requested : ℕ) (best : Option ℚ)
  | reservationFailed (productId orderId : String) (answer : Point)
  deriving DecidableEq

section Adapter

variable (shop : Shop) (orderId : String)

def Shop.locations : List String :=
  ((shop.warehouses.take 100).filter (·.active)).map (·.id.value)

/-- `findByReservationReference` finds a reservation of the order on the row. -/
def holds (row : Row InventoryItem) : Bool :=
  row.value.reservations.any fun reservation => reservation.reference == orderId

section Line

variable (stock : Stock) (productId variantId : String)

def rowAt (locationId : String) : Option (Row InventoryItem) :=
  findByProductAndWarehouse stock productId locationId (some variantId)

def reservedRow : Option (Row InventoryItem) :=
  shop.locations.findSome? fun locationId =>
    (rowAt stock productId variantId locationId).filter (holds orderId)

def levels : List LocationLevel :=
  shop.locations.map fun locationId =>
    ⟨locationId, match rowAt stock productId variantId locationId with
      | some row => row.value.stockLevel.available
      | none => 0⟩

end Line

inductive Plan where
  | refuse (error : ReservationError)
  | skip
  | reserve (input : ReserveStockInput)
  deriving DecidableEq

/-- A tracked line: reserved already, or out of the location that is picked. -/
def planTracked (stock : Stock) (line : OrderLine) (variant : Variant) : Plan :=
  match reservedRow shop orderId stock line.productId variant.id with
  | some _ => .skip
  | none =>
    match pickLocation (levels shop stock line.productId variant.id) line.quantity with
    | none => .refuse (.noActiveLocation line.productId orderId line.quantity none)
    | some chosen =>
      let continueSelling := variant.inventoryPolicy = .continue
      if ¬ continueSelling ∧ chosen.covers = false then
        .refuse (.noActiveLocation line.productId orderId line.quantity (some chosen.available))
      else
        let quantity : ℚ :=
          if continueSelling then min line.quantity chosen.available else line.quantity
        if quantity = 0 then .skip
        else .reserve ⟨line.productId, chosen.locationId, some variant.id, quantity, orderId⟩

def lineVariant (line : OrderLine) : Except ReservationError Variant :=
  match shop.getProduct line.productId with
  | .error status => .error (.productNotLoaded line.productId orderId status)
  | .ok product =>
    match variantOf product line.variantRef with
    | none => .error (.noMatchingVariant line.productId orderId)
    | some variant => .ok variant

def planLine (stock : Stock) (line : OrderLine) : Plan :=
  match lineVariant shop orderId line with
  | .error e => .refuse e
  | .ok variant =>
    if !variant.tracksInventory then .skip else planTracked shop orderId stock line variant

variable (ids : ℕ → String)

def reserveLine (line : OrderLine) : EStateM ReservationError Stockroom Unit := do
  let room ← get
  match planLine shop orderId room.store.table line with
  | .refuse e => throw e
  | .skip => return
  | .reserve input =>
    let (store, answer) := transact inventoryItems (protocol ids) room.draws room.store
      (.reserving input)
    set (⟨store, room.draws + 1⟩ : Stockroom)
    match answer with
    | .finished (.ok _) => return
    | answer => throw (.reservationFailed line.productId orderId answer)

def requestReservation : EStateM ReservationError Stockroom String := do
  match shop.getOrder orderId with
  | .error status => throw (.orderNotLoaded orderId status)
  | .ok lines =>
    lines.forM (reserveLine shop orderId ids)
    return orderId

end Adapter

end OrdersInventory

/-! ## What a line reserves

A line that is planned to be reserved is reserved: the row it is served by exists, has enough
available, and takes the reservation. -/
namespace OrdersInventory

open SharedKernel Builtins Inventory Methods VersionedTable

section Reads

variable {shop : Shop} {orderId : String} {stock : Stock} {line : OrderLine} {variant : Variant}

theorem foldl_mem {α : Type} {step : Option α → α → Option α}
    (hstep : ∀ best a, step best a = some a ∨ step best a = best) {l : List α} {first : Option α}
    {best : α} (h : l.foldl step first = some best) : first = some best ∨ best ∈ l := by
  induction l generalizing first with
  | nil => exact .inl h
  | cons a rest ih =>
    rcases ih h with hfirst | hrest
    · rcases hstep first a with htaken | hkept
      · rw [htaken] at hfirst
        exact .inr (Option.some.inj hfirst ▸ List.mem_cons_self)
      · exact .inl (hkept ▸ hfirst)
    · exact .inr (List.mem_cons_of_mem _ hrest)

theorem pickLocation_some {levels : List LocationLevel} {quantity : ℚ} {chosen : PickedLocation}
    (h : pickLocation levels quantity = some chosen) :
    ⟨chosen.locationId, chosen.available⟩ ∈ levels ∧
      chosen.covers = decide (quantity ≤ chosen.available) := by
  rw [pickLocation, Option.map_eq_some_iff] at h
  obtain ⟨best, hfold, rfl⟩ := h
  refine (foldl_mem (fun best level => ?_) hfold).elim (fun hnone => by cases hnone)
    fun hmem => ⟨hmem, rfl⟩
  cases best with
  | none => exact .inl rfl
  | some b =>
    dsimp only
    split
    · exact .inl rfl
    · exact .inr rfl

variable {productId variantId locationId : String} {row : Row InventoryItem}

theorem mem_levels {available : ℚ}
    (h : ⟨locationId, available⟩ ∈ levels shop stock productId variantId) :
    locationId ∈ shop.locations ∧
      (rowAt stock productId variantId locationId = none ∧ available = 0 ∨
        ∃ row, rowAt stock productId variantId locationId = some row ∧
          available = row.value.stockLevel.available) := by
  obtain ⟨location, hmem, hlevel⟩ := List.mem_map.mp h
  cases hlevel
  refine ⟨hmem, ?_⟩
  cases hrow : rowAt stock productId variantId locationId with
  | none => exact .inl ⟨rfl, by simp⟩
  | some row => exact .inr ⟨row, rfl, by simp⟩

theorem reservedRow_none (h : reservedRow shop orderId stock productId variantId = none)
    (hmem : locationId ∈ shop.locations)
    (hrow : rowAt stock productId variantId locationId = some row) : holds orderId row = false := by
  have hno := List.findSome?_eq_none_iff.mp h locationId hmem
  rw [hrow] at hno
  simpa using hno

theorem reservedRow_some (h : reservedRow shop orderId stock productId variantId = some row) :
    holds orderId row = true ∧
      ∃ locationId ∈ shop.locations, rowAt stock productId variantId locationId = some row := by
  obtain ⟨locationId, hmem, hfilter⟩ := List.exists_of_findSome?_eq_some h
  rw [Option.filter_eq_some_iff] at hfilter
  exact ⟨hfilter.2, locationId, hmem, hfilter.1⟩

/-- The row that a tracked line is served by: the one that already holds a reservation of the
order, or the one at the location that is picked. -/
def servingRow (shop : Shop) (orderId : String) (stock : Stock) (line : OrderLine)
    (variant : Variant) : Option (Row InventoryItem) :=
  match reservedRow shop orderId stock line.productId variant.id with
  | some row => some row
  | none =>
    (pickLocation (levels shop stock line.productId variant.id) line.quantity).bind fun chosen =>
      rowAt stock line.productId variant.id chosen.locationId

/-- What a line is planned to reserve, and where. -/
theorem planTracked_reserve {input : ReserveStockInput}
    (h : planTracked shop orderId stock line variant = .reserve input) :
    ∃ chosen : PickedLocation, ⟨chosen.locationId, chosen.available⟩ ∈
        levels shop stock line.productId variant.id ∧
      reservedRow shop orderId stock line.productId variant.id = none ∧
      servingRow shop orderId stock line variant =
        rowAt stock line.productId variant.id chosen.locationId ∧
      input = ⟨line.productId, chosen.locationId, some variant.id, input.quantity, orderId⟩ ∧
      input.quantity ≠ 0 ∧
      (variant.inventoryPolicy = .deny → input.quantity = line.quantity ∧
        line.quantity ≤ chosen.available) ∧
      (variant.inventoryPolicy = .continue →
        input.quantity = min (line.quantity : ℚ) chosen.available) := by
  rw [planTracked] at h
  split at h
  · cases h
  · rename_i hreserved
    split at h
    · cases h
    · rename_i chosen hpick
      obtain ⟨hmem, hcovers⟩ := pickLocation_some hpick
      have hserving : servingRow shop orderId stock line variant =
          rowAt stock line.productId variant.id chosen.locationId := by
        simp [servingRow, hreserved, hpick]
      cases hpolicy : variant.inventoryPolicy with
      | deny =>
        simp only [hpolicy, reduceCtorEq, not_false_eq_true, true_and, if_false] at h
        split at h
        · cases h
        · rename_i hshort
          split at h
          · cases h
          · rename_i hquantity
            cases h
            rw [hcovers, Bool.not_eq_false, decide_eq_true_eq] at hshort
            exact ⟨chosen, hmem, hreserved, hserving, rfl, hquantity, fun _ => ⟨rfl, hshort⟩,
              fun h => by cases h⟩
      | «continue» =>
        simp only [hpolicy, not_true_eq_false, false_and, if_false, if_true] at h
        split at h
        · cases h
        · rename_i hquantity
          cases h
          exact ⟨chosen, hmem, hreserved, hserving, rfl, hquantity, (fun h => by cases h),
            fun _ => rfl⟩

end Reads

/-- What every reachable stock has. -/
structure Kept (store : Store InventoryItem Adjusted) : Prop where
  wellKept : WellKept inventoryItems store.table
  stock : StockKept store

theorem Kept.transact {store : Store InventoryItem Adjusted} (h : Kept store) (ids : ℕ → String)
    (draw : ℕ) (k : Point) :
    Kept (VersionedTable.transact inventoryItems (protocol ids) draw store k).1 := by
  obtain ⟨hw, hs⟩ := transact_invariant (P := protocol ids) (protocol_justified ids) movesRow_kept
    h.wellKept h.stock
  exact ⟨hw, hs⟩

theorem available_isAmount {item : InventoryItem} {ms : List Movement} (h : Accounted item ms) :
    IsAmount item.stockLevel.available := by
  obtain ⟨n, hn⟩ := h.whole
  have hr := h.reserved
  have hle := h.covered
  rw [hn, hr] at hle
  have hle : held item.reservations ≤ n := by exact_mod_cast hle
  refine ⟨n - held item.reservations, ?_⟩
  rw [StockLevel.available, hn, hr, Nat.cast_sub hle]

section Reserve

variable {store : Store InventoryItem Adjusted} {row : Row InventoryItem} {orderId : String}

theorem storable_reserve {item : InventoryItem} {reservation : Reservation} {level : StockLevel}
    (hold : inventoryItems.storable item = true)
    (hnew : ∀ r ∈ item.reservations, r.reference ≠ reservation.reference) :
    inventoryItems.storable { item with
      stockLevel := level, reservations := item.reservations ++ [reservation] } = true := by
  simp only [inventoryItems, decide_eq_true_eq, List.map_append, List.map_cons, List.map_nil]
    at hold ⊢
  rw [List.nodup_append]
  refine ⟨hold, List.nodup_singleton _, ?_⟩
  intro a ha b hb hab
  obtain ⟨r, hr, rfl⟩ := List.mem_map.mp ha
  exact hnew r hr (hab.trans (List.mem_singleton.mp hb))

variable {draw quantity : ℕ} {ids : ℕ → String}

theorem reserveStock_moveStock {stock : Stock} {input : ReserveStockInput}
    (hpositive : 0 < quantity) (hproduct : isBlank input.productId = false)
    (hwarehouse : isBlank input.warehouseId = false)
    (htrim : trim input.warehouseId = input.warehouseId) (hquantity : input.quantity = quantity)
    (hreference : isBlank input.reference = false) (hid : isBlank (ids draw) = false)
    (hrow : findByProductAndWarehouse stock input.productId input.warehouseId input.variantId =
      some row) :
    reserveStock ids input draw stock =
      moveStock row (InventoryItem.reserve ⟨ids draw, hid⟩ ⟨quantity, hpositive⟩ input.reference)
        fun item => .reserved (ids draw) item.stockLevel.available := by
  have hcreate : Quantity.create input.quantity = .ok ⟨quantity, hpositive⟩ := by
    have hone : (1 : ℚ) ≤ quantity := by exact_mod_cast hpositive
    rw [hquantity, Quantity.create, dif_pos ⟨by simp [isInteger], hone⟩]
    simp
  simp [reserveStock, checked, ProductRef.create, WarehouseId.create, Guard.againstEmpty, hproduct,
    hwarehouse, hreference, hcreate, htrim, hrow, UniqueEntityId.from, hid, Except.map]

/-- The row takes the reservation, and the other rows stay as they were. -/
theorem transact_reserve (input : ReserveStockInput) (hkept : Kept store)
    (hids : isBlank (ids draw) = false) (hpositive : 0 < quantity)
    (hproduct : isBlank input.productId = false) (hwarehouse : isBlank input.warehouseId = false)
    (htrim : trim input.warehouseId = input.warehouseId) (hquantity : input.quantity = quantity)
    (hreference : isBlank input.reference = false)
    (hrow : findByProductAndWarehouse store.table input.productId input.warehouseId
      input.variantId = some row) (hfree : input.quantity ≤ row.value.stockLevel.available)
    (hnew : holds input.reference row = false) :
    ∃ store' level output others, transact inventoryItems (protocol ids) draw store
        (.reserving input) = (store', .finished (.ok output)) ∧
      store.table.Perm (row :: others) ∧
      store'.table.Perm (⟨{ row.value with
        stockLevel := level
        reservations := row.value.reservations ++
          [⟨⟨ids draw, hids⟩, ⟨quantity, hpositive⟩, input.reference⟩] }, row.version + 1⟩ ::
            others) ∧
      store'.table = store.table.map (replaceRow inventoryItems ⟨{ row.value with
        stockLevel := level
        reservations := row.value.reservations ++
          [⟨⟨ids draw, hids⟩, ⟨quantity, hpositive⟩, input.reference⟩] }, row.version + 1⟩) := by
  have hmem : row ∈ store.table := (find_found hrow).1
  have hnot : ¬ row.value.stockLevel.available < (quantity : ℚ) := by
    rw [← hquantity]
    exact not_lt.mpr hfree
  have hrefs : ∀ r ∈ row.value.reservations, r.reference ≠ input.reference := by
    intro r hr he
    rw [holds, List.any_eq_false] at hnew
    exact hnew r hr (by simpa using he)
  let reservation : Reservation := ⟨⟨ids draw, hids⟩, ⟨quantity, hpositive⟩, input.reference⟩
  let level : StockLevel :=
    { row.value.stockLevel with reserved := row.value.stockLevel.reserved + quantity }
  let item : InventoryItem :=
    { row.value with stockLevel := level, reservations := row.value.reservations ++ [reservation] }
  have hmove : reserveStock ids input draw store.table =
      .save [saveOf item row.version (.reserved reservation)]
        (.finished (.ok (.reserved (ids draw) level.available))) := by
    rw [reserveStock_moveStock hpositive hproduct hwarehouse htrim hquantity hreference hids hrow]
    simp [moveStock, InventoryItem.reserve, StockLevel.reserve, hnot, item, level, reservation]
  obtain ⟨store', hs, htable⟩ := save_current (s := saveOf item row.version (.reserved reservation))
    hkept.wellKept hmem rfl rfl (storable_reserve (hkept.wellKept.storable row hmem) hrefs)
  have hcommit : commit inventoryItems store
      [saveOf item row.version (.reserved reservation)] = some store' :=
    commit_cons.mpr ⟨store', hs, commit_nil _ _⟩
  obtain ⟨others, hbefore, hafter⟩ := (save_saved hkept.wellKept hs).replaces hkept.wellKept
    (.refl _ _) hmem rfl rfl
  refine ⟨store', level, .reserved (ids draw) level.available, others, ?_, hbefore, hafter, htable⟩
  simp only [transact, protocol, hmove, hcommit]

end Reserve

/-- What is reserved under the order at a row. -/
def reservedAt (orderId : String) (stock : Stock) (rowId : String) : ℕ :=
  ((stock.filter fun row => row.value.id.value == rowId).map fun row =>
    held (row.value.reservations.filter fun r => r.reference == orderId)).sum

section Turns

variable {orderId rowId : String} {stock stock' : Stock} {row : Row InventoryItem}

theorem reservedAt_perm (h : stock.Perm stock') :
    reservedAt orderId stock rowId = reservedAt orderId stock' rowId :=
  ((h.filter _).map _).sum_eq

theorem reservedAt_cons :
    reservedAt orderId (row :: stock) rowId = (if row.value.id.value = rowId then
      held (row.value.reservations.filter fun r => r.reference == orderId) else 0) +
        reservedAt orderId stock rowId := by
  by_cases h : row.value.id.value = rowId
  · simp [reservedAt, h]
  · simp [reservedAt, h]

theorem reservedAt_holds (hrow : row ∈ stock) (h : holds orderId row = true) :
    reservedAt orderId stock row.value.id.value ≠ 0 := by
  obtain ⟨before, after, hsplit⟩ := List.append_of_mem hrow
  rw [hsplit, reservedAt_perm List.perm_middle, reservedAt_cons, if_pos rfl]
  obtain ⟨r, hr, href⟩ := List.any_eq_true.mp h
  have hmem : r ∈ row.value.reservations.filter fun r => r.reference == orderId :=
    List.mem_filter.mpr ⟨hr, href⟩
  obtain ⟨before', after', hsplit'⟩ := List.append_of_mem hmem
  rw [hsplit', held_split]
  have hpositive := r.quantity.positive
  omega

theorem holds_of_reservedAt (hkeys : WellKept inventoryItems stock) (hrow : row ∈ stock)
    (h : reservedAt orderId stock row.value.id.value ≠ 0) : holds orderId row = true := by
  by_contra hno
  rw [holds, List.any_eq_true] at hno
  apply h
  apply List.sum_eq_zero
  intro n hn
  obtain ⟨row', hrow', rfl⟩ := List.mem_map.mp hn
  obtain ⟨hmem, hid⟩ := List.mem_filter.mp hrow'
  rw [beq_iff_eq] at hid
  have hsame : row' = row := List.inj_on_of_nodup_map hkeys.keys hmem hrow hid
  rw [hsame]
  have hnone : (row.value.reservations.filter fun r => r.reference == orderId) = [] := by
    rw [List.filter_eq_nil_iff]
    intro r hr he
    exact hno ⟨r, hr, he⟩
  rw [hnone]
  rfl

end Turns

section Turn

variable (shop : Shop) (orderId : String) (ids : ℕ → String)

def trackedVariant (line : OrderLine) : Option Variant :=
  match lineVariant shop orderId line with
  | .ok variant => if variant.tracksInventory then some variant else none
  | .error _ => none

/-- Everything a turn of the loop can be. -/
inductive Turn (line : OrderLine) (room : Stockroom) :
    Plan → EStateM.Result ReservationError Stockroom Unit → Prop where
  | refused (e : ReservationError) : Turn line room (.refuse e) (.error e room)
  | skipped : Turn line room .skip (.ok () room)
  | reserved {input : ReserveStockInput} {variant : Variant} {row : Row InventoryItem}
      {quantity : ℕ} {room' : Stockroom} (tracked : trackedVariant shop orderId line = some variant)
      (serving : servingRow shop orderId room.store.table line variant = some row)
      (amount : input.quantity = quantity) (positive : 0 < quantity)
      (whole : quantity = min (line.quantity : ℚ) row.value.stockLevel.available)
      (fresh : reservedAt orderId room.store.table row.value.id.value = 0)
      (gain : ∀ rowId, reservedAt orderId room'.store.table rowId =
        reservedAt orderId room.store.table rowId + if row.value.id.value = rowId then quantity else 0)
      (kept : Kept room'.store) : Turn line room (.reserve input) (.ok () room')

variable {shop orderId ids} {line : OrderLine} {room : Stockroom}

variable {input : ReserveStockInput} {stock : Stock} {variant : Variant} {row : Row InventoryItem}

theorem planLine_reserve (h : planLine shop orderId stock line = .reserve input) :
    ∃ variant, trackedVariant shop orderId line = some variant ∧
      planTracked shop orderId stock line variant = .reserve input := by
  rw [planLine] at h
  split at h
  · cases h
  · rename_i variant hvariant
    split at h
    · cases h
    · rename_i htracks
      refine ⟨variant, ?_, h⟩
      rw [Bool.not_eq_true, Bool.not_eq_false'] at htracks
      simp [trackedVariant, hvariant, htracks]

theorem planLine_tracked (stock : Stock) (h : trackedVariant shop orderId line = some variant) :
    planLine shop orderId stock line = planTracked shop orderId stock line variant := by
  rw [trackedVariant] at h
  split at h
  · rename_i found hvariant
    split at h
    · rename_i htracks
      cases h
      simp [planLine, hvariant, htracks]
    · cases h
  · cases h

theorem servingRow_mem (h : servingRow shop orderId stock line variant = some row) :
    row ∈ stock := by
  rw [servingRow] at h
  split at h
  · rename_i reserved hreserved
    cases h
    obtain ⟨_, _, _, hrow⟩ := reservedRow_some hreserved
    exact (find_found hrow).1
  · obtain ⟨chosen, _, hrow⟩ := Option.bind_eq_some_iff.mp h
    exact (find_found hrow).1

theorem locations_trimmed {locationId : String} (h : locationId ∈ shop.locations) :
    isBlank locationId = false ∧ trim locationId = locationId := by
  obtain ⟨warehouse, _, rfl⟩ := List.mem_map.mp h
  exact ⟨warehouse.id.notEmpty, warehouse.trimmed⟩

/-- A tracked line that is passed over found its row reserved, or found nothing there. -/
theorem planTracked_skip (h : planTracked shop orderId stock line variant = .skip)
    (hserving : servingRow shop orderId stock line variant = some row) :
    holds orderId row = true ∨ row.value.stockLevel.available < line.quantity := by
  rw [planTracked] at h
  rw [servingRow] at hserving
  split at h
  · rename_i reserved hreserved
    rw [hreserved] at hserving
    cases hserving
    exact .inl (reservedRow_some hreserved).1
  · rename_i hreserved
    right
    simp only [hreserved] at hserving
    split at h
    · cases h
    · rename_i chosen hpick
      simp only [hpick, Option.bind_some] at hserving
      obtain ⟨_, hnorow | ⟨row', hrow', havailable⟩⟩ := mem_levels (pickLocation_some hpick).1
      · rw [hnorow.1] at hserving
        cases hserving
      · rw [hrow'] at hserving
        cases hserving
        have hpositive : (0 : ℚ) < line.quantity := by exact_mod_cast line.positive
        cases hpolicy : variant.inventoryPolicy with
        | deny =>
          simp only [hpolicy, reduceCtorEq, not_false_eq_true, true_and, if_false] at h
          split at h
          · cases h
          · rw [if_neg hpositive.ne'] at h
            cases h
        | «continue» =>
          simp only [hpolicy, not_true_eq_false, false_and, if_false, if_true] at h
          split at h
          · rename_i hzero
            rw [← havailable]
            by_contra hle
            rw [min_eq_left (not_lt.mp hle)] at hzero
            exact hpositive.ne' hzero
          · cases h

/-- The row that a planned reservation is for, and how much it takes. -/
theorem planTracked_row {store : Store InventoryItem Adjusted} (hkept : Kept store)
    (h : planTracked shop orderId store.table line variant = .reserve input) :
    ∃ (locationId : String) (row : Row InventoryItem) (quantity : ℕ), locationId ∈ shop.locations ∧
      input = ⟨line.productId, locationId, some variant.id, quantity, orderId⟩ ∧
      findByProductAndWarehouse store.table line.productId locationId (some variant.id) =
        some row ∧
      servingRow shop orderId store.table line variant = some row ∧
      holds orderId row = false ∧ 0 < quantity ∧
      (quantity : ℚ) = min (line.quantity : ℚ) row.value.stockLevel.available := by
  obtain ⟨chosen, hlevel, hreserved, hserving, hinput, hquantity, hdeny, hcontinue⟩ :=
    planTracked_reserve h
  obtain ⟨hlocation, hnorow | ⟨row, hrow, havailable⟩⟩ := mem_levels hlevel
  · -- with no row nothing is available there
    exfalso
    rw [hnorow.2] at hdeny hcontinue
    cases hpolicy : variant.inventoryPolicy with
    | deny =>
      have hle := (hdeny hpolicy).2
      have hpositive : (0 : ℚ) < line.quantity := by exact_mod_cast line.positive
      linarith
    | «continue» =>
      apply hquantity
      rw [hcontinue hpolicy, min_eq_right]
      exact Nat.cast_nonneg _
  · have hmem : row ∈ store.table := (find_found hrow).1
    obtain ⟨available, hwhole⟩ := available_isAmount (hkept.stock.accounted row hmem)
    have hmin : input.quantity = min (line.quantity : ℚ) row.value.stockLevel.available := by
      rw [havailable] at hdeny hcontinue
      cases hpolicy : variant.inventoryPolicy with
      | deny => rw [min_eq_left (hdeny hpolicy).2, (hdeny hpolicy).1]
      | «continue» => exact hcontinue hpolicy
    have hcast : input.quantity = (min line.quantity available : ℕ) := by
      rw [hmin, hwhole, Nat.cast_min]
    rw [hcast] at hinput
    refine ⟨chosen.locationId, row, min line.quantity available, hlocation, hinput, hrow, ?_,
      reservedRow_none hreserved hlocation hrow, ?_, ?_⟩
    · rw [hserving]
      exact hrow
    · apply Nat.pos_of_ne_zero
      intro hzero
      apply hquantity
      rw [hcast, hzero, Nat.cast_zero]
    · rw [hwhole, Nat.cast_min]

variable (shop line) in
theorem reserveLine_turn (hids : ∀ draw, isBlank (ids draw) = false)
    (horder : isBlank orderId = false) (hkept : Kept room.store) :
    Turn shop orderId line room (planLine shop orderId room.store.table line)
      (reserveLine shop orderId ids line room) := by
  simp only [reserveLine, run_bind, run_get]
  cases hplan : planLine shop orderId room.store.table line with
  | refuse e =>
    simp only [run_throw]
    exact .refused e
  | skip =>
    simp only [run_pure]
    exact .skipped
  | reserve input =>
    obtain ⟨variant, htracked, hplan⟩ := planLine_reserve hplan
    obtain ⟨locationId, row, quantity, hlocation, rfl, hrow, hserving, hnew, hpositive, hwhole⟩ :=
      planTracked_row hkept hplan
    obtain ⟨hnamed, htrim⟩ := locations_trimmed hlocation
    have hfree : (quantity : ℚ) ≤ row.value.stockLevel.available := by
      rw [hwhole]
      exact min_le_right _ _
    let input : ReserveStockInput :=
      ⟨line.productId, locationId, some variant.id, quantity, orderId⟩
    obtain ⟨store', level, output, others, htransact, hbefore, hafter, _⟩ :=
      transact_reserve input hkept (hids room.draws) hpositive line.named hnamed htrim rfl horder
        hrow hfree hnew
    have hkept' := hkept.transact ids room.draws (.reserving input)
    rw [htransact] at hkept'
    simp only [input] at htransact
    simp only [htransact]
    have hfresh : reservedAt orderId room.store.table row.value.id.value = 0 := by
      by_contra hsome
      rw [holds_of_reservedAt hkept.wellKept (find_found hrow).1 hsome] at hnew
      cases hnew
    refine .reserved htracked hserving rfl hpositive hwhole hfresh ?_ hkept'
    intro rowId
    rw [reservedAt_perm hafter, reservedAt_perm hbefore, reservedAt_cons, reservedAt_cons]
    by_cases hid : row.value.id.value = rowId
    · simp only [hid, if_true, List.filter_append, held_append]
      simp [held, input]
      omega
    · simp [hid]

end Turn

end OrdersInventory

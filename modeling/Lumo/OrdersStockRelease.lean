import Mathlib.Data.List.Find
import Lumo.OrdersReservationRuns

/-! # Giving the stock of an order back

The adapter that Orders and Checkout release stock with. It finds the reservations of the order on
every row of the products of the order, and releases each in a transaction of its own. It never
throws: what goes wrong on the way is passed over. -/
namespace OrdersInventory

open SharedKernel Builtins Inventory Methods VersionedTable

/-- What goes wrong in a call: the rows of a product that cannot be read, which ends the loop, and
the reservations whose release is lost. -/
structure Mishaps where
  unread : String → Bool
  lost : String → Bool

structure Releasing where
  found : Except ℕ (List OrderLine)
  mishaps : Mishaps

def productIds (lines : List OrderLine) : List String :=
  distinctValues (lines.map (·.productId))

section Release

variable (ids : ℕ → String) (mishaps : Mishaps) (orderId productId : String)

def release (stockItem : Row InventoryItem) (room : Stockroom) (reservation : Reservation) :
    Stockroom :=
  if mishaps.lost reservation.id.value then room
  else { room with
    store := (transact inventoryItems (protocol ids) room.draws room.store (.releasing
      ⟨productId, stockItem.value.warehouseId.value, stockItem.value.variantRef,
        reservation.id.value⟩)).1 }

def releaseRow (room : Stockroom) (stockItem : Row InventoryItem) : Stockroom :=
  (stockItem.value.reservations.filter fun reservation => reservation.reference == orderId).foldl
    (release ids mishaps productId stockItem) room

def findByProduct (stock : Stock) : Stock :=
  stock.filter fun row => row.value.product.value == productId

def releaseProduct (room : Stockroom) : Stockroom :=
  (findByProduct productId room.store.table).foldl (releaseRow ids mishaps orderId productId) room

def releaseProducts : List String → Stockroom → Stockroom
  | [], room => room
  | productId :: rest, room =>
    if mishaps.unread productId then room
    else releaseProducts rest (releaseProduct ids mishaps orderId productId room)

end Release

def releaseOrderStock (ids : ℕ → String) (releasing : Releasing) (orderId : String)
    (room : Stockroom) : Stockroom :=
  match releasing.found with
  | .error _ => room
  | .ok lines => releaseProducts ids releasing.mishaps orderId (productIds lines) room

section Lookup

variable {stock : Stock} {f : Row InventoryItem → Row InventoryItem} {row new : Row InventoryItem}
  {productId warehouseId : String} {variantId : Option String}

def SameShelf (a b : InventoryItem) : Prop :=
  a.product = b.product ∧ a.warehouseId = b.warehouseId ∧ a.variantRef = b.variantRef

def onlyRow (rows : Stock) : Option (Row InventoryItem) :=
  match rows with
  | [only] => some only
  | _ => none

theorem onlyRow_map : onlyRow (stock.map f) = (onlyRow stock).map f := by
  cases stock with
  | nil => rfl
  | cons first rest => cases rest <;> rfl

theorem onlyRow_mem (h : onlyRow stock = some row) : row ∈ stock := by
  cases stock with
  | nil => cases h
  | cons first rest =>
    cases rest with
    | nil =>
      cases h
      exact List.mem_cons_self
    | cons => cases h

theorem resolveStockRow_eq : resolveStockRow stock variantId =
    match variantId with
    | none => onlyRow stock
    | some v => (stock.find? fun row => row.value.variantRef == some v).or
        ((onlyRow stock).filter fun only => only.value.variantRef == none) := by
  cases variantId with
  | none => rfl
  | some v =>
    simp only [resolveStockRow]
    cases stock.find? fun row => row.value.variantRef == some v with
    | some exact => rfl
    | none =>
      cases stock with
      | nil => rfl
      | cons first rest =>
        cases rest with
        | nil =>
          by_cases hv : first.value.variantRef = none <;> simp [onlyRow, Option.filter, hv]
        | cons => rfl

theorem resolveStockRow_map (hf : ∀ row ∈ stock, (f row).value.variantRef = row.value.variantRef) :
    resolveStockRow (stock.map f) variantId = (resolveStockRow stock variantId).map f := by
  rw [resolveStockRow_eq, resolveStockRow_eq, onlyRow_map]
  cases variantId with
  | none => rfl
  | some v =>
    have hfind : (stock.map f).find? (fun row => row.value.variantRef == some v) =
        (stock.find? fun row => row.value.variantRef == some v).map f := by
      rw [List.find?_map]
      congr 1
      apply List.find?_congr
      intro row hrow
      simp [hf row hrow]
    have honly : ((onlyRow stock).map f).filter (fun only => only.value.variantRef == none) =
        ((onlyRow stock).filter fun only => only.value.variantRef == none).map f := by
      cases hrow : onlyRow stock with
      | none => rfl
      | some only =>
        have hv := hf only (onlyRow_mem hrow)
        by_cases hnone : only.value.variantRef = none <;> simp [Option.filter, hv, hnone]
    simp only [hfind, honly]
    cases stock.find? fun row => row.value.variantRef == some v <;> rfl

theorem findByProductAndWarehouse_map (hf : ∀ row ∈ stock, SameShelf (f row).value row.value) :
    findByProductAndWarehouse (stock.map f) productId warehouseId variantId =
      (findByProductAndWarehouse stock productId warehouseId variantId).map f := by
  have hrows : (stock.map f).filter (fun row => row.value.product.value == productId &&
        row.value.warehouseId.value == warehouseId) =
      (stock.filter fun row => row.value.product.value == productId &&
        row.value.warehouseId.value == warehouseId).map f := by
    rw [List.filter_map]
    congr 1
    apply List.filter_congr
    intro row hrow
    obtain ⟨hproduct, hwarehouse, _⟩ := hf row hrow
    simp [hproduct, hwarehouse]
  rw [findByProductAndWarehouse, hrows]
  apply resolveStockRow_map
  intro row hrow
  exact (hf row (List.mem_filter.mp hrow).1).2.2

theorem find_again {variantId : String}
    (h : findByProductAndWarehouse stock productId warehouseId (some variantId) = some row) :
    findByProductAndWarehouse stock productId warehouseId row.value.variantRef = some row := by
  rw [findByProductAndWarehouse, resolveStockRow_eq] at h ⊢
  generalize (stock.filter fun row => row.value.product.value == productId &&
    row.value.warehouseId.value == warehouseId) = rows at h ⊢
  simp only at h
  cases hfind : rows.find? fun row => row.value.variantRef == some variantId with
  | some exact =>
    rw [hfind, Option.some_or] at h
    cases h
    have hv : row.value.variantRef = some variantId := by simpa using List.find?_some hfind
    rw [hv]
    simp only [hfind, Option.some_or]
  | none =>
    rw [hfind, Option.none_or, Option.filter_eq_some_iff] at h
    obtain ⟨honly, hv⟩ := h
    rw [beq_iff_eq] at hv
    rw [hv]
    exact honly

end Lookup

section Retrievable

variable (orderId : String) (products : List String)

/-- A row on which a release finds the reservation of the order that it asks for. -/
structure Retrievable (stock : Stock) (row : Row InventoryItem) : Prop where
  product : row.value.product.value ∈ products
  named : isBlank row.value.warehouseId.value = false
  trimmed : trim row.value.warehouseId.value = row.value.warehouseId.value
  found : findByProductAndWarehouse stock row.value.product.value row.value.warehouseId.value
    row.value.variantRef = some row
  single : ∀ r ∈ row.value.reservations, r.reference = orderId →
    ∀ r' ∈ row.value.reservations, r'.id.value = r.id.value → r' = r

def AllRetrievable (stock : Stock) : Prop :=
  ∀ row ∈ stock, holds orderId row = true → Retrievable orderId products stock row

variable {orderId products} {stock : Stock} {row new : Row InventoryItem}

theorem holds_iff : holds orderId row = true ↔
    ∃ r ∈ row.value.reservations, r.reference = orderId := by
  simp [holds]

theorem allRetrievable_of_none (h : ∀ row ∈ stock, holds orderId row = false) :
    AllRetrievable orderId products stock := by
  intro row hrow hholds
  rw [h row hrow] at hholds
  cases hholds

/-- A row that takes the place of another on its shelf is as retrievable as that one. -/
theorem AllRetrievable.replace (h : AllRetrievable orderId products stock)
    (hw : WellKept inventoryItems stock) (hrow : row ∈ stock) (hid : new.value.id = row.value.id)
    (hshelf : SameShelf new.value row.value)
    (hnew : holds orderId new = true → Retrievable orderId products stock row ∧
      ∀ r ∈ new.value.reservations, r.reference = orderId →
        ∀ r' ∈ new.value.reservations, r'.id.value = r.id.value → r' = r) :
    AllRetrievable orderId products (stock.map (replaceRow inventoryItems new)) := by
  have hkey : inventoryItems.key new.value = inventoryItems.key row.value :=
    congrArg UniqueEntityId.value hid
  have hshelves : ∀ r ∈ stock, SameShelf (replaceRow inventoryItems new r).value r.value := by
    intro r hr
    by_cases he : r = row
    · rw [he, replaceRow_self hkey]
      exact hshelf
    · rw [replaceRow_other hw hrow hr hkey he]
      exact ⟨rfl, rfl, rfl⟩
  intro row' hrow' hholds
  obtain ⟨r, hr, rfl⟩ := List.mem_map.mp hrow'
  by_cases he : r = row
  · rw [he, replaceRow_self hkey] at hholds ⊢
    obtain ⟨hold, hsingle⟩ := hnew hholds
    obtain ⟨hproduct, hwarehouse, hvariant⟩ := hshelf
    refine ⟨?_, ?_, ?_, ?_, hsingle⟩
    · rw [hproduct]
      exact hold.product
    · rw [hwarehouse]
      exact hold.named
    · rw [hwarehouse]
      exact hold.trimmed
    · rw [findByProductAndWarehouse_map hshelves, hproduct, hwarehouse, hvariant, hold.found,
        Option.map_some, replaceRow_self hkey]
  · rw [replaceRow_other hw hrow hr hkey he] at hholds ⊢
    have hold := h r hr hholds
    refine ⟨hold.product, hold.named, hold.trimmed, ?_, hold.single⟩
    rw [findByProductAndWarehouse_map hshelves, hold.found, Option.map_some,
      replaceRow_other hw hrow hr hkey he]

end Retrievable

section Reserved

variable {shop : Shop} {orderId : String} {ids : ℕ → String} {products : List String}
  {line : OrderLine} {lines : List OrderLine} {room : Stockroom}

/-- The numbers that are still to be drawn identify no reservation. -/
def Unused (ids : ℕ → String) (room : Stockroom) : Prop :=
  ∀ draw, room.draws ≤ draw → ∀ row ∈ room.store.table, ∀ r ∈ row.value.reservations,
    r.id.value ≠ ids draw

structure Returnable (ids : ℕ → String) (orderId : String) (products : List String)
    (room : Stockroom) : Prop where
  kept : Kept room.store
  unused : Unused ids room
  retrievable : AllRetrievable orderId products room.store.table

variable (shop) in
theorem Returnable.reserveLine (h : Returnable ids orderId products room)
    (hinjective : Function.Injective ids) (hids : ∀ draw, isBlank (ids draw) = false)
    (horder : isBlank orderId = false) (hline : line.productId ∈ products) :
    Returnable ids orderId products (after (reserveLine shop orderId ids line) room) := by
  have hkept := (turn_gain shop "" line hids horder h.kept).1
  simp only [after, OrdersInventory.reserveLine, run_bind, run_get] at hkept ⊢
  cases hplan : planLine shop orderId room.store.table line with
  | refuse e | skip => exact h
  | reserve input =>
    obtain ⟨variant, htracked, hplanned⟩ := planLine_reserve hplan
    obtain ⟨locationId, row, quantity, hlocation, rfl, hrow, _, hnew, hpositive, hwhole⟩ :=
      planTracked_row h.kept hplanned
    obtain ⟨hnamed, htrim⟩ := locations_trimmed hlocation
    have hfree : (quantity : ℚ) ≤ row.value.stockLevel.available := by
      rw [hwhole]
      exact min_le_right _ _
    obtain ⟨store', level, output, others, htransact, _, _, htable⟩ :=
      transact_reserve ⟨line.productId, locationId, some variant.id, quantity, orderId⟩ h.kept
        (hids room.draws) hpositive line.named hnamed htrim rfl horder hrow hfree hnew
    simp only [hplan] at hkept
    simp only [htransact] at hkept ⊢
    obtain ⟨hmem, hproduct, hwarehouse⟩ := find_found hrow
    have hother : ∀ r ∈ row.value.reservations, r.reference ≠ orderId := by
      intro r hr he
      rw [Bool.eq_false_iff] at hnew
      exact hnew (holds_iff.mpr ⟨r, hr, he⟩)
    let reservation : Reservation :=
      ⟨⟨ids room.draws, hids room.draws⟩, ⟨quantity, hpositive⟩, orderId⟩
    let new : Row InventoryItem := ⟨{ row.value with
      stockLevel := level
      reservations := row.value.reservations ++ [reservation] }, row.version + 1⟩
    have hkey : inventoryItems.key new.value = inventoryItems.key row.value := rfl
    replace htable : store'.table = room.store.table.map (replaceRow inventoryItems new) := htable
    change Returnable ids orderId products ⟨store', room.draws + 1⟩
    refine ⟨hkept, ?_, ?_⟩
    · intro draw hdraw row' hrow' r hr
      rw [htable] at hrow'
      obtain ⟨old, hold, rfl⟩ := List.mem_map.mp hrow'
      have hnext : room.draws + 1 ≤ draw := hdraw
      have hlater : room.draws ≤ draw := Nat.le_of_succ_le hnext
      by_cases he : old = row
      · rw [he, replaceRow_self hkey] at hr
        rcases List.mem_append.mp hr with hr | hr
        · exact h.unused draw hlater row hmem r hr
        · rw [List.mem_singleton.mp hr]
          intro hsame
          have hdraws : room.draws = draw := hinjective hsame
          omega
      · rw [replaceRow_other h.kept.wellKept hmem hold hkey he] at hr
        exact h.unused draw hlater old hold r hr
    · rw [htable]
      refine h.retrievable.replace h.kept.wellKept hmem rfl ⟨rfl, rfl, rfl⟩ fun _ => ⟨?_, ?_⟩
      · refine ⟨hproduct ▸ hline, hwarehouse ▸ hnamed, hwarehouse ▸ htrim, ?_, ?_⟩
        · rw [hproduct, hwarehouse]
          exact find_again hrow
        · intro r hr he
          exact absurd he (hother r hr)
      · -- only the new reservation is the order's, and no other has its number
        intro r hr he r' hr' hsame
        rcases List.mem_append.mp hr with hr | hr
        · exact absurd he (hother r hr)
        · rcases List.mem_append.mp hr' with hr' | hr'
          · rw [List.mem_singleton.mp hr] at hsame
            exact absurd hsame (h.unused room.draws le_rfl row hmem r' hr')
          · rw [List.mem_singleton.mp hr, List.mem_singleton.mp hr']

variable (shop) in
theorem Returnable.loop (h : Returnable ids orderId products room)
    (hinjective : Function.Injective ids) (hids : ∀ draw, isBlank (ids draw) = false)
    (horder : isBlank orderId = false) (hlines : ∀ line ∈ lines, line.productId ∈ products) :
    Returnable ids orderId products
      (after (lines.forM (OrdersInventory.reserveLine shop orderId ids)) room) := by
  induction lines generalizing room with
  | nil => exact h
  | cons line rest ih =>
    have hfirst := h.reserveLine shop hinjective hids horder
      (hlines line List.mem_cons_self)
    rw [after, loop_cons]
    cases hres : OrdersInventory.reserveLine shop orderId ids line room with
    | ok u room' =>
      rw [after_ok hres] at hfirst
      exact ih hfirst fun line hline => hlines line (List.mem_cons_of_mem _ hline)
    | error e room' =>
      rw [after_error hres] at hfirst
      exact hfirst

variable (shop) in
theorem Returnable.requestReservation (h : Returnable ids orderId products room)
    (hinjective : Function.Injective ids) (hids : ∀ draw, isBlank (ids draw) = false)
    (horder : isBlank orderId = false) (hlines : ∀ lines, shop.getOrder orderId = .ok lines →
      ∀ line ∈ lines, line.productId ∈ products) :
    Returnable ids orderId products
      (after (OrdersInventory.requestReservation shop orderId ids) room) := by
  simp only [after, OrdersInventory.requestReservation]
  cases hfound : shop.getOrder orderId with
  | error status => exact h
  | ok lines =>
    have hloop := h.loop shop hinjective hids horder (hlines lines hfound)
    simp only [run_bind, run_pure]
    cases hres : lines.forM (OrdersInventory.reserveLine shop orderId ids) room with
    | ok u room' =>
      rw [after_ok hres] at hloop
      exact hloop
    | error e room' =>
      rw [after_error hres] at hloop
      exact hloop

end Reserved

section Released

variable {ids : ℕ → String} {mishaps : Mishaps} {orderId productId : String}
  {products : List String} {store : Store InventoryItem Adjusted} {room : Stockroom}
  {row new : Row InventoryItem} {r : Reservation}

/-- The row after a release: the same but for the level and the reservations, of which none is
the order's. -/
structure Freed (orderId : String) (row new : Row InventoryItem) : Prop where
  id : new.value.id = row.value.id
  shelf : SameShelf new.value row.value
  fewer : ∀ r ∈ new.value.reservations, r ∈ row.value.reservations
  free : holds orderId new = false

theorem Freed.key (h : Freed orderId row new) :
    inventoryItems.key new.value = inventoryItems.key row.value :=
  congrArg UniqueEntityId.value h.id

theorem held_once (hw : WellKept inventoryItems room.store.table) (hrow : row ∈ room.store.table) :
    (row.value.reservations.filter (fun r => r.reference == orderId) = [] ∧
        holds orderId row = false) ∨
      ∃ r ∈ row.value.reservations, r.reference = orderId ∧
        row.value.reservations.filter (fun r => r.reference == orderId) = [r] := by
  have hnodup : (row.value.reservations.map (·.reference)).Nodup := by
    simpa [inventoryItems] using hw.storable row hrow
  have hsub : ((row.value.reservations.filter fun r => r.reference == orderId).map
      (·.reference)).Nodup := (List.filter_sublist.map _).nodup hnodup
  cases hfilter : row.value.reservations.filter fun r => r.reference == orderId with
  | nil =>
    refine .inl ⟨rfl, ?_⟩
    rw [Bool.eq_false_iff]
    intro hholds
    obtain ⟨r, hr, he⟩ := holds_iff.mp hholds
    exact List.filter_eq_nil_iff.mp hfilter r hr (beq_iff_eq.mpr he)
  | cons r rest =>
    have hall : ∀ x ∈ r :: rest, x ∈ row.value.reservations ∧ x.reference = orderId := by
      intro x hx
      rw [← hfilter, List.mem_filter, beq_iff_eq] at hx
      exact hx
    obtain ⟨hmem, he⟩ := hall r List.mem_cons_self
    refine .inr ⟨r, hmem, he, ?_⟩
    cases rest with
    | nil => rfl
    | cons r' rest =>
      have he' := (hall r' (List.mem_cons_of_mem _ List.mem_cons_self)).2
      rw [hfilter] at hsub
      simp [he, he'] at hsub

variable (ids) in
theorem transact_release (hkept : Kept store) (hrow : row ∈ store.table)
    (hre : Retrievable orderId products store.table row) (hr : r ∈ row.value.reservations)
    (horder : r.reference = orderId) (draw : ℕ) :
    ∃ new, Freed orderId row new ∧ (transact inventoryItems (protocol ids) draw store (.releasing
      ⟨row.value.product.value, row.value.warehouseId.value, row.value.variantRef,
        r.id.value⟩)).1.table = store.table.map (replaceRow inventoryItems new) := by
  have hnodup : (row.value.reservations.map (·.reference)).Nodup := by
    simpa [inventoryItems] using hkept.wellKept.storable row hrow
  rcases takeReservation_result row.value r.id.value with
    hno | ⟨taken, before, after, hsplit, hid, hok⟩
  · exfalso
    have hfind : (row.value.reservations.find? fun x => x.id.value == r.id.value).isSome := by
      rw [List.find?_isSome]
      exact ⟨r, hr, beq_self_eq_true _⟩
    obtain ⟨x, hx⟩ := Option.isSome_iff_exists.mp hfind
    simp [InventoryItem.takeReservation, hx] at hno
  · have htaken : taken = r := by
      apply hre.single r hr horder taken
      · rw [hsplit]
        exact List.mem_append_right _ List.mem_cons_self
      · exact hid
    subst htaken
    rw [hsplit, List.map_append, List.map_cons, List.nodup_middle, List.nodup_cons,
      ← List.map_append] at hnodup
    let item : InventoryItem := { row.value with
      stockLevel := row.value.stockLevel.release taken.quantity.value
      reservations := before ++ after }
    have hmove : releaseReservation ⟨row.value.product.value, row.value.warehouseId.value,
        row.value.variantRef, taken.id.value⟩ store.table =
          .save [saveOf item row.version (.released taken)]
            (.finished (.ok (.available item.stockLevel.available))) := by
      have hproduct := row.value.product.notEmpty
      simp [releaseReservation, checked, ProductRef.create, WarehouseId.create,
        Guard.againstEmpty, hproduct, hre.named, hre.trimmed, hre.found, moveFound, moveStock,
        InventoryItem.releaseReservation, hok, Except.map, item]
    obtain ⟨store', hs, htable⟩ := save_current (s := saveOf item row.version (.released taken))
      hkept.wellKept hrow rfl rfl (by simpa [inventoryItems, item, saveOf] using hnodup.2)
    have hcommit : commit inventoryItems store
        [saveOf item row.version (.released taken)] = some store' :=
      commit_cons.mpr ⟨store', hs, commit_nil _ _⟩
    refine ⟨⟨item, row.version + 1⟩, ⟨rfl, ⟨rfl, rfl, rfl⟩, ?_, ?_⟩, ?_⟩
    · intro x hx
      rw [hsplit]
      rcases List.mem_append.mp hx with hx | hx
      · exact List.mem_append_left _ hx
      · exact List.mem_append_right _ (List.mem_cons_of_mem _ hx)
    · rw [Bool.eq_false_iff]
      intro hholds
      obtain ⟨x, hx, he⟩ := holds_iff.mp hholds
      exact hnodup.1 (List.mem_map.mpr ⟨x, hx, he.trans horder.symm⟩)
    · simp only [transact, protocol, hmove, hcommit]
      exact htable

theorem Returnable.freed (h : Returnable ids orderId products room) (hrow : row ∈ room.store.table)
    (hnew : Freed orderId row new) (hkept : Kept store)
    (htable : store.table = room.store.table.map (replaceRow inventoryItems new)) :
    Returnable ids orderId products { room with store := store } := by
  refine ⟨hkept, ?_, ?_⟩
  · intro draw hdraw row' hrow' r hr
    rw [htable] at hrow'
    obtain ⟨old, hold, rfl⟩ := List.mem_map.mp hrow'
    by_cases he : old = row
    · rw [he, replaceRow_self hnew.key] at hr
      exact h.unused draw hdraw row hrow r (hnew.fewer r hr)
    · rw [replaceRow_other h.kept.wellKept hrow hold hnew.key he] at hr
      exact h.unused draw hdraw old hold r hr
  · rw [htable]
    refine h.retrievable.replace h.kept.wellKept hrow hnew.id hnew.shelf fun hholds => ?_
    rw [hnew.free] at hholds
    cases hholds

/-- Everything the releases on a row can come to: the row is as it was, and if it holds something
of the order the release was lost, or it is freed. -/
inductive RowReleased (orderId : String) (mishaps : Mishaps) (room : Stockroom)
    (row : Row InventoryItem) : Stockroom → Prop where
  | left (lost : holds orderId row = true → ∃ id, mishaps.lost id = true) :
    RowReleased orderId mishaps room row room
  | freed {new : Row InventoryItem} {store : Store InventoryItem Adjusted}
      (freed : Freed orderId row new) (kept : Kept store)
      (table : store.table = room.store.table.map (replaceRow inventoryItems new)) :
    RowReleased orderId mishaps room row { room with store := store }

variable (mishaps) in
theorem releaseRow_released (h : Returnable ids orderId products room)
    (hrow : row ∈ room.store.table) (hproduct : row.value.product.value = productId) :
    RowReleased orderId mishaps room row (releaseRow ids mishaps orderId productId room row) := by
  rcases held_once h.kept.wellKept hrow with ⟨hnone, hfree⟩ | ⟨r, hr, horder, hone⟩
  · rw [releaseRow, hnone]
    refine .left fun hholds => ?_
    rw [hfree] at hholds
    cases hholds
  · rw [releaseRow, hone, List.foldl_cons, List.foldl_nil, release]
    split
    · rename_i hlost
      exact .left fun _ => ⟨_, hlost⟩
    · obtain ⟨new, hnew, htable⟩ := transact_release ids h.kept hrow
        (h.retrievable row hrow (holds_iff.mpr ⟨r, hr, horder⟩)) hr horder room.draws
      rw [← hproduct]
      exact .freed hnew (h.kept.transact ids _ _) htable

structure Shrunk (ids : ℕ → String) (orderId : String) (products : List String)
    (room room' : Stockroom) : Prop where
  returnable : Returnable ids orderId products room'
  fewer : ∀ row ∈ room'.store.table, holds orderId row = true → row ∈ room.store.table

theorem Shrunk.refl (h : Returnable ids orderId products room) :
    Shrunk ids orderId products room room := ⟨h, fun _ hrow _ => hrow⟩

theorem Shrunk.trans {room' room'' : Stockroom} (h : Shrunk ids orderId products room room')
    (h' : Shrunk ids orderId products room' room'') : Shrunk ids orderId products room room'' :=
  ⟨h'.returnable, fun row hrow hholds => h.fewer row (h'.fewer row hrow hholds) hholds⟩

structure Smooth (mishaps : Mishaps) : Prop where
  unread : ∀ productId, mishaps.unread productId = false
  lost : ∀ id, mishaps.lost id = false

variable (mishaps) in
theorem rows_released {rows : Stock} (h : Returnable ids orderId products room)
    (hrows : ∀ row ∈ rows, row ∈ room.store.table ∧ row.value.product.value = productId)
    (hnodup : (rows.map fun row => row.value.id.value).Nodup) :
    Shrunk ids orderId products room
        (rows.foldl (releaseRow ids mishaps orderId productId) room) ∧
      (Smooth mishaps → ∀ row ∈
        (rows.foldl (releaseRow ids mishaps orderId productId) room).store.table,
          holds orderId row = true → row ∉ rows) := by
  induction rows generalizing room with
  | nil => exact ⟨.refl h, fun _ row _ _ => List.not_mem_nil⟩
  | cons row rest ih =>
    obtain ⟨hrow, hproduct⟩ := hrows row List.mem_cons_self
    rw [List.map_cons, List.nodup_cons] at hnodup
    obtain ⟨hother, hnodup⟩ := hnodup
    have hrest : ∀ row ∈ rest, row ∈ room.store.table ∧ row.value.product.value = productId :=
      fun row hrow => hrows row (List.mem_cons_of_mem _ hrow)
    have ht := releaseRow_released mishaps h hrow hproduct
    rw [List.foldl_cons]
    generalize releaseRow ids mishaps orderId productId room row = mid at ht ⊢
    cases ht with
    | left lost =>
      obtain ⟨hshrunk, hnone⟩ := ih h hrest hnodup
      refine ⟨hshrunk, fun hsmooth row' hrow' hholds hmem => ?_⟩
      rcases List.mem_cons.mp hmem with rfl | hmem
      · obtain ⟨id, hid⟩ := lost hholds
        rw [hsmooth.lost id] at hid
        cases hid
      · exact hnone hsmooth row' hrow' hholds hmem
    | @freed new store hnew hkept htable =>
      have hmid := h.freed hrow hnew hkept htable
      have hfirst : Shrunk ids orderId products room { room with store := store } := by
        refine ⟨hmid, fun row' hrow' hholds => ?_⟩
        rw [htable] at hrow'
        obtain ⟨old, hold, rfl⟩ := List.mem_map.mp hrow'
        by_cases he : old = row
        · rw [he, replaceRow_self hnew.key, hnew.free] at hholds
          cases hholds
        · rw [replaceRow_other h.kept.wellKept hrow hold hnew.key he]
          exact hold
      obtain ⟨hshrunk, hnone⟩ := ih hmid (fun x hx => ⟨by
        have hne : x ≠ row := by
          intro he
          exact hother (List.mem_map.mpr ⟨x, hx, by rw [he]⟩)
        change x ∈ store.table
        rw [htable]
        exact List.mem_map.mpr ⟨x, (hrest x hx).1,
          replaceRow_other h.kept.wellKept hrow (hrest x hx).1 hnew.key hne⟩, (hrest x hx).2⟩)
        hnodup
      refine ⟨hfirst.trans hshrunk, fun hsmooth row' hrow' hholds hmem => ?_⟩
      rcases List.mem_cons.mp hmem with rfl | hmem
      · -- the row itself was replaced by one that is free
        have hback := hshrunk.fewer row' hrow' hholds
        change row' ∈ store.table at hback
        rw [htable] at hback
        obtain ⟨old, hold, he⟩ := List.mem_map.mp hback
        by_cases hsame : old = row'
        · rw [hsame, replaceRow_self hnew.key] at he
          rw [← he, hnew.free] at hholds
          cases hholds
        · rw [replaceRow_other h.kept.wellKept hrow hold hnew.key hsame] at he
          exact hsame he
      · exact hnone hsmooth row' hrow' hholds hmem

variable (mishaps) in
theorem releaseProduct_released (productId : String) (h : Returnable ids orderId products room) :
    Shrunk ids orderId products room (releaseProduct ids mishaps orderId productId room) ∧
      (Smooth mishaps → ∀ row ∈
        (releaseProduct ids mishaps orderId productId room).store.table,
          holds orderId row = true → row.value.product.value ≠ productId) := by
  have hrows : ∀ row ∈ findByProduct productId room.store.table,
      row ∈ room.store.table ∧ row.value.product.value = productId := by
    intro row hrow
    rw [findByProduct, List.mem_filter, beq_iff_eq] at hrow
    exact hrow
  obtain ⟨hshrunk, hnone⟩ := rows_released mishaps h hrows
    ((List.filter_sublist.map _).nodup h.kept.wellKept.keys)
  refine ⟨hshrunk, fun hsmooth row hrow hholds he => hnone hsmooth row hrow hholds ?_⟩
  rw [findByProduct, List.mem_filter, beq_iff_eq]
  exact ⟨hshrunk.fewer row hrow hholds, he⟩

variable (mishaps) in
theorem releaseProducts_released (productIds : List String)
    (h : Returnable ids orderId products room) :
    Shrunk ids orderId products room (releaseProducts ids mishaps orderId productIds room) ∧
      (Smooth mishaps → ∀ row ∈
        (releaseProducts ids mishaps orderId productIds room).store.table,
          holds orderId row = true → row.value.product.value ∉ productIds) := by
  induction productIds generalizing room with
  | nil => exact ⟨.refl h, fun _ row _ _ => List.not_mem_nil⟩
  | cons productId rest ih =>
    rw [releaseProducts]
    split
    · rename_i hunread
      refine ⟨.refl h, fun hsmooth => ?_⟩
      rw [hsmooth.unread productId] at hunread
      cases hunread
    · obtain ⟨hfirst, hproduct⟩ := releaseProduct_released mishaps productId h
      obtain ⟨hshrunk, hnone⟩ := ih hfirst.returnable
      refine ⟨hfirst.trans hshrunk, fun hsmooth row hrow hholds hmem => ?_⟩
      rcases List.mem_cons.mp hmem with he | hmem
      · exact hproduct hsmooth row (hshrunk.fewer row hrow hholds) hholds he
      · exact hnone hsmooth row hrow hholds hmem

end Released

section Call

variable {ids : ℕ → String} {orderId : String} {products : List String} {lines : List OrderLine}
  {room : Stockroom} {releasing : Releasing}

variable (releasing) in
theorem releaseOrderStock_shrunk (h : Returnable ids orderId products room) :
    Shrunk ids orderId products room (releaseOrderStock ids releasing orderId room) := by
  rw [releaseOrderStock]
  split
  · exact .refl h
  · exact (releaseProducts_released _ _ h).1

theorem releaseOrderStock_frees (h : Returnable ids orderId (productIds lines) room)
    (hfound : releasing.found = .ok lines) (hsmooth : Smooth releasing.mishaps) :
    ∀ row ∈ (releaseOrderStock ids releasing orderId room).store.table,
      holds orderId row = false := by
  intro row hrow
  rw [releaseOrderStock, hfound] at hrow
  obtain ⟨hshrunk, hnone⟩ := releaseProducts_released releasing.mishaps
    (productIds lines) h
  rw [Bool.eq_false_iff]
  intro hholds
  apply hnone hsmooth row hrow hholds
  exact (hshrunk.returnable.retrievable row hrow hholds).product

theorem mem_productIds {line : OrderLine} (h : line ∈ lines) :
    line.productId ∈ productIds lines := by
  rw [productIds, distinctValues, List.mem_eraseDups]
  exact List.mem_map.mpr ⟨line, h, rfl⟩

end Call

end OrdersInventory

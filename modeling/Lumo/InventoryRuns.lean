import Lumo.InventoryUseCases

/-! # Stock over whole runs

Along any sequence of methods on one item, and along any interleaving of the use cases on the
table, every item stays accounted for by what was moved. -/
namespace Inventory

open SharedKernel Builtins Methods LabelledRuns VersionedTable

/-- The methods, with the arguments that the use cases let through. -/
inductive Operation where
  | receive (quantity : Quantity)
  | adjust (onHand : ℚ) (valid : isInteger onHand = true ∧ 0 ≤ onHand)
  | reserve (reservationId : UniqueEntityId) (quantity : Quantity) (reference : String)
  | release (reservationId : String)
  | commit (reservationId : String)
  | transferOut (quantity : Quantity)
  | transferIn (quantity : Quantity)

def Operation.method : Operation → Method Movement
  | receive quantity => InventoryItem.receive quantity
  | adjust onHand _ => InventoryItem.adjust onHand
  | reserve reservationId quantity reference =>
    InventoryItem.reserve reservationId quantity reference
  | release reservationId => InventoryItem.releaseReservation reservationId
  | commit reservationId => InventoryItem.commitReservation reservationId
  | transferOut quantity => InventoryItem.transferOut quantity
  | transferIn quantity => InventoryItem.transferIn quantity

/-- An item with the movements recorded on it. -/
structure Shelf where
  item : InventoryItem
  movements : List Movement

/-- A method that throws records nothing, and leaves the item as far as it has changed it. -/
def perform (s : Shelf) (op : Operation) : Shelf :=
  match op.method s.item with
  | .ok movement item => ⟨item, s.movements ++ [movement]⟩
  | .error _ item => ⟨item, s.movements⟩

def New (s : Shelf) : Prop :=
  (∃ id product warehouseId variantRef,
    s.item = InventoryItem.create id product warehouseId variantRef) ∧ s.movements = []

def Performs (s : Shelf) (op : Operation) (u : Shelf) : Prop := u = perform s op

variable {item item' : InventoryItem} {op : Operation} {e : Adjusted} {itemId : String}
  {log : List Adjusted}

theorem method_moved {m : Movement} (h : op.method item = .ok m item') : Moved item m item' := by
  cases op with
  | receive => exact receive_moved h
  | adjust onHand valid => exact adjust_moved (.of_isInteger valid.1 valid.2) h
  | reserve => exact (reserve_moved h).2
  | release => exact release_moved h
  | commit => exact commit_moved h
  | transferOut => exact transferOut_moved h
  | transferIn => exact transferIn_moved h

/-- A method that throws leaves the item alone: the commit of a reservation, which takes it off
the list first, finds enough reserved. -/
theorem method_refused {ms : List Movement} {e : DomainError} (ha : Accounted item ms)
    (h : op.method item = .error e item') : item' = item := by
  cases op with
  | receive => simp [Operation.method, InventoryItem.receive] at h
  | transferIn => simp [Operation.method, InventoryItem.transferIn] at h
  | adjust onHand valid =>
    simp only [Operation.method, InventoryItem.adjust, run_bind, run_get, run_ofExcept] at h
    cases hl : item.stockLevel.adjustTo onHand <;> simp [hl] at h
    exact h.2.symm
  | reserve id quantity reference =>
    simp only [Operation.method, InventoryItem.reserve, run_bind, run_get, run_ofExcept] at h
    cases hl : item.stockLevel.reserve quantity.value <;> simp [hl] at h
    exact h.2.symm
  | transferOut quantity =>
    simp only [Operation.method, InventoryItem.transferOut, run_bind, run_get, run_ofExcept] at h
    cases hl : item.stockLevel.remove quantity.value <;> simp [hl] at h
    exact h.2.symm
  | release id =>
    rcases takeReservation_result item id with hno | ⟨reservation, before, after, hsplit, _, hok⟩
    · simp [Operation.method, InventoryItem.releaseReservation, hno] at h
      exact h.2.symm
    · simp [Operation.method, InventoryItem.releaseReservation, hok] at h
  | commit id =>
    rcases takeReservation_result item id with hno | ⟨reservation, before, after, hsplit, _, hok⟩
    · simp [Operation.method, InventoryItem.commitReservation, hno] at h
      exact h.2.symm
    · have henough : ¬ item.stockLevel.reserved < reservation.quantity.value := by
        rw [ha.reserved, hsplit, held_split, not_lt]
        push_cast
        exact le_add_of_nonneg_left (Nat.cast_nonneg _)
      simp [Operation.method, InventoryItem.commitReservation, hok, StockLevel.commit,
        henough] at h

theorem perform_accounted {s : Shelf} (h : Accounted s.item s.movements) (op : Operation) :
    Accounted (perform s op).item (perform s op).movements := by
  cases hop : op.method s.item with
  | ok m item =>
    simp only [perform, hop]
    exact h.move (method_moved hop)
  | error e item =>
    simp only [perform, hop]
    rw [method_refused h hop]
    exact h

/-- The movements that the outbox records of an item. -/
def movementsOf (log : List Adjusted) (itemId : String) : List Movement :=
  (log.filter fun e => e.itemId == itemId).map (·.movement)

theorem movementsOf_same (h : e.itemId = itemId) :
    movementsOf (log ++ [e]) itemId = movementsOf log itemId ++ [e.movement] := by
  simp [movementsOf, h]

theorem movementsOf_other (h : e.itemId ≠ itemId) :
    movementsOf (log ++ [e]) itemId = movementsOf log itemId := by
  simp [movementsOf, h]

/-- Every stored item is accounted for, and the outbox speaks of stored items. -/
structure StockKept (store : Store InventoryItem Adjusted) : Prop where
  accounted : ∀ row ∈ store.table,
    Accounted row.value (movementsOf store.log row.value.id.value)
  known : ∀ e ∈ store.log, ∃ row ∈ store.table, row.value.id.value = e.itemId

theorem StockKept.nil : StockKept ⟨[], []⟩ := by
  constructor
  · intro row hrow
    cases hrow
  · intro e he
    cases he

def MovesRow (t : Stock) (s : Save InventoryItem Adjusted) : Prop :=
  ∃ row : Row InventoryItem, s.row.version = row.version ∧ s.note.itemId = row.value.id.value ∧
    Moved row.value s.note.movement s.row.value ∧
    (row ∈ t ∨ row.version = 0 ∧ Accounted row.value [])

theorem StockKept.placed {store store' : Store InventoryItem Adjusted} (h : StockKept store)
    (before : Stock) {others : Stock} {note : Adjusted} {new : Row InventoryItem}
    (htable : store.table.Perm (before ++ others)) (htable' : store'.table.Perm (new :: others))
    (hlog : store'.log = store.log ++ [note]) (hid : note.itemId = new.value.id.value)
    (hbefore : ∀ row ∈ before, row.value.id.value = note.itemId)
    (hothers : ∀ row ∈ others, row.value.id.value ≠ note.itemId)
    (hnew : Accounted new.value (movementsOf store'.log new.value.id.value)) :
    StockKept store' := by
  constructor
  · intro row hrow
    rcases List.mem_cons.mp (htable'.mem_iff.mp hrow) with rfl | hother
    · exact hnew
    · rw [hlog, movementsOf_other (hothers row hother).symm]
      exact h.accounted row (htable.mem_iff.mpr (List.mem_append_right _ hother))
  · intro e he
    have hfirst : ∃ row ∈ store'.table, row.value.id.value = note.itemId :=
      ⟨new, htable'.mem_iff.mpr List.mem_cons_self, hid.symm⟩
    rw [hlog] at he
    rcases List.mem_append.mp he with hold | hlast
    · obtain ⟨row, hrow, hrowId⟩ := h.known e hold
      rcases List.mem_append.mp (htable.mem_iff.mp hrow) with hgone | hother
      · rw [← hrowId, hbefore row hgone]
        exact hfirst
      · exact ⟨row, htable'.mem_iff.mpr (List.mem_cons_of_mem _ hother), hrowId⟩
    · rw [List.mem_singleton.mp hlast]
      exact hfirst

theorem movesRow_kept : Keeps inventoryItems StockKept MovesRow := by
  rintro t store s store' hkept hw hp ⟨row, hversion, hid, hmoved, hfrom⟩ hsaved
  have hsame : s.row.value.id = row.value.id := hmoved.same.1
  have hnote : s.note.itemId = s.row.value.id.value := by rw [hid, hsame]
  have hlog : store'.log = store.log ++ [s.note] := by cases hsaved <;> rfl
  -- the keys of the rows that stay are not the key of the row that is written
  have hothers : ∀ (version : ℕ) (others : Stock),
      store'.table.Perm (⟨s.row.value, version⟩ :: others) →
        ∀ other ∈ others, other.value.id.value ≠ s.note.itemId := by
    intro version others hafter other hother heq
    have hkeys := ((hafter.map fun r => r.value.id.value).nodup_iff).mp (hsaved.wellKept hw).keys
    rw [List.map_cons, List.nodup_cons] at hkeys
    exact hkeys.1 (List.mem_map.mpr ⟨other, hother, heq.trans hnote⟩)
  rcases hfrom with hmem | ⟨hzero, hfresh⟩
  · have hkey : inventoryItems.key row.value = inventoryItems.key s.row.value :=
      congrArg UniqueEntityId.value hsame.symm
    obtain ⟨others, hbefore, hafter⟩ := hsaved.replaces hw hp hmem hkey hversion.symm
    refine hkept.placed [row] hbefore hafter hlog hnote (fun r hr => ?_)
      (hothers _ others hafter) ?_
    · rw [List.mem_singleton.mp hr, hid]
    · have hrow := hkept.accounted row (hbefore.mem_iff.mpr List.mem_cons_self)
      rw [← hsame] at hrow
      rw [hlog, movementsOf_same hnote]
      exact hrow.move hmoved
  · have hafter := hsaved.inserts (hversion.trans hzero)
    have hnone : movementsOf store.log s.row.value.id.value = [] := by
      rw [movementsOf, List.map_eq_nil_iff, List.filter_eq_nil_iff]
      intro e he hem
      obtain ⟨r, hr, hre⟩ := hkept.known e he
      apply hothers _ _ hafter r hr
      rw [hre, hnote]
      simpa using hem
    refine hkept.placed [] (List.Perm.refl _) hafter hlog hnote (fun r hr => by cases hr)
      (hothers _ _ hafter) ?_
    rw [hlog, movementsOf_same hnote, hnone]
    exact hfresh.move hmoved

end Inventory

/-! ## Stock is never oversold, and a transfer conserves it

What each use case saves, and from it what holds over every interleaving of the use cases. -/
namespace Inventory

open SharedKernel Builtins Methods LabelledRuns VersionedTable

section Saves

variable {stock : Stock} {row : Row InventoryItem} {saves : List (Save InventoryItem Adjusted)}
  {k' : Point} {product : ProductRef} {warehouse : WarehouseId} {variantId : Option String}

theorem checked_save {α : Type} {input : Except DomainError α} {goOn : α → Ending}
    (h : checked input goOn = .save saves k') : ∃ a, input = .ok a ∧ goOn a = .save saves k' := by
  cases input with
  | error e => cases h
  | ok a => exact ⟨a, rfl, h⟩

theorem resolveStockRow_mem {rows : Stock} (h : resolveStockRow rows variantId = some row) :
    row ∈ rows := by
  have hone : ∀ only : Row InventoryItem, rows = [only] → some only = some row → row ∈ rows := by
    intro only hrows hrow
    rw [hrows, Option.some.inj hrow]
    exact List.mem_cons_self
  rw [resolveStockRow.eq_def] at h
  cases variantId with
  | none =>
    simp only at h
    split at h
    · exact hone _ rfl h
    · cases h
  | some v =>
    simp only at h
    split at h
    · rename_i exact hfind
      cases h
      exact List.mem_of_find?_eq_some hfind
    · split at h
      · split at h
        · exact hone _ rfl h
        · cases h
      · cases h

theorem find_found {productId warehouseId : String}
    (h : findByProductAndWarehouse stock productId warehouseId variantId = some row) :
    row ∈ stock ∧ row.value.product.value = productId ∧
      row.value.warehouseId.value = warehouseId := by
  have hmem := resolveStockRow_mem h
  rw [List.mem_filter, Bool.and_eq_true, beq_iff_eq, beq_iff_eq] at hmem
  exact hmem

def Source (stock : Stock) (row : Row InventoryItem) : Prop :=
  row ∈ stock ∨ row.version = 0 ∧ ∃ id product warehouse variantRef,
    row.value = InventoryItem.create id product warehouse variantRef

variable {draw : ℕ} {ids : ℕ → String} {method : Method Movement} {output : InventoryItem → Output}

theorem findOrCreate_ok (h : findOrCreate ids draw stock product warehouse variantId = .ok row) :
    Source stock row ∧ row.value.product.value = product.value ∧
      row.value.warehouseId.value = warehouse.value := by
  rw [findOrCreate] at h
  split at h
  · rename_i found hfind
    cases h
    obtain ⟨hmem, hproduct, hwarehouse⟩ := find_found hfind
    exact ⟨.inl hmem, hproduct, hwarehouse⟩
  · obtain ⟨id, _, hrow⟩ := map_eq_ok.mp h
    cases hrow
    exact ⟨.inr ⟨rfl, _, _, _, _, rfl⟩, rfl, rfl⟩

theorem Source.movesRow {item : InventoryItem} {m : Movement} (hs : Source stock row)
    (hm : Moved row.value m item) : MovesRow stock (saveOf item row.version m) := by
  refine ⟨row, rfl, ?_, hm, ?_⟩
  · exact congrArg UniqueEntityId.value hm.same.1
  · rcases hs with hmem | ⟨hzero, id, product, warehouse, variantRef, hnew⟩
    · exact .inl hmem
    · right
      refine ⟨hzero, ?_⟩
      rw [hnew]
      exact create_accounted id product warehouse variantRef

theorem moveStock_movesRow (hs : Source stock row)
    (hm : ∀ m item, method row.value = .ok m item → Moved row.value m item)
    (h : moveStock row method output = .save saves k') : ∀ s ∈ saves, MovesRow stock s := by
  rw [moveStock] at h
  split at h
  · cases h
  · rename_i m item hok
    cases h
    intro s hmem
    rw [List.mem_singleton.mp hmem]
    exact hs.movesRow (hm m item hok)

theorem moveFound_movesRow (hm : ∀ item m item', method item = .ok m item' → Moved item m item')
    (h : moveFound stock product warehouse variantId method output = .save saves k') :
    ∀ s ∈ saves, MovesRow stock s := by
  rw [moveFound] at h
  split at h
  · cases h
  · rename_i row hfind
    exact moveStock_movesRow (.inl (find_found hfind).1) (hm row.value) h

theorem moveBoth_save {source destination : Row InventoryItem} {quantity : Quantity}
    (h : moveBoth source destination quantity = .save saves k') :
    ∃ out into, Moved source.value (.transferredOut quantity) out ∧
      Moved destination.value (.transferredIn quantity) into ∧
      saves = [saveOf out source.version (.transferredOut quantity),
        saveOf into destination.version (.transferredIn quantity)] ∧
      k' = .finished (.ok (.transferred out.stockLevel.available into.stockLevel.available)) := by
  rw [moveBoth] at h
  split at h
  · cases h
  · rename_i m out hout
    split at h
    · cases h
    · rename_i m' into hinto
      cases h
      have hm := transferOut_moved hout
      have hm' := transferIn_moved hinto
      have hkind : m = .transferredOut quantity := by
        by_cases hlt : source.value.stockLevel.available < quantity.value
        · simp [InventoryItem.transferOut, StockLevel.remove, hlt] at hout
        · simp [InventoryItem.transferOut, StockLevel.remove, hlt] at hout
          exact hout.1.symm
      have hkind' : m' = .transferredIn quantity := by
        simp [InventoryItem.transferIn] at hinto
        exact hinto.1.symm
      subst hkind hkind'
      exact ⟨out, into, hm, hm', rfl, rfl⟩

/-- What a transfer that goes on to its saves has found. -/
theorem transferStock_save {input : TransferStockInput}
    (h : transferStock ids input draw stock = .save saves k') :
    ∃ quantity source destination, (quantity.value : ℚ) = input.quantity ∧ source ∈ stock ∧
      Source stock destination ∧
      source.value.product.value = input.productId ∧
      destination.value.product.value = input.productId ∧
      source.value.warehouseId.value = trim input.sourceWarehouseId ∧
      destination.value.warehouseId.value = trim input.destinationWarehouseId ∧
      trim input.sourceWarehouseId ≠ trim input.destinationWarehouseId ∧
      moveBoth source destination quantity = .save saves k' := by
  obtain ⟨⟨product, source, destination, quantity⟩, hinput, h⟩ := checked_save h
  obtain ⟨_, hproduct, hinput⟩ := bind_eq_ok.mp hinput
  obtain ⟨_, hsource, hinput⟩ := bind_eq_ok.mp hinput
  obtain ⟨_, hdestination, hinput⟩ := bind_eq_ok.mp hinput
  split at hinput
  · cases hinput
  rename_i hdiffer
  obtain ⟨_, hquantity, hinput⟩ := bind_eq_ok.mp hinput
  cases hinput
  rw [WarehouseId.create_ok hsource, WarehouseId.create_ok hdestination] at hdiffer
  simp only at h
  split at h
  · cases h
  · rename_i sourceRow hfound
    obtain ⟨hmem, hsproduct, hswarehouse⟩ := find_found hfound
    split at h
    · cases h
    · rename_i destinationRow hfound'
      obtain ⟨hs, hdproduct, hdwarehouse⟩ := findOrCreate_ok hfound'
      refine ⟨quantity, sourceRow, destinationRow, Quantity.create_ok hquantity, hmem, hs, ?_, ?_,
        ?_, ?_, hdiffer, h⟩
      · rw [hsproduct, ProductRef.create_ok hproduct]
      · rw [hdproduct, ProductRef.create_ok hproduct]
      · rw [hswarehouse, WarehouseId.create_ok hsource]
      · rw [hdwarehouse, WarehouseId.create_ok hdestination]

end Saves

/-- Whatever use case goes on to save, it moves rows that it read or items it has created. -/
theorem protocol_justified (ids : ℕ → String) :
    Justified inventoryItems (protocol ids) StockKept MovesRow := by
  intro k b d store saves k' hb hw hi h
  cases k with
  | finished => cases hb
  | receiving input =>
    cases hb
    obtain ⟨⟨product, warehouse, quantity⟩, _, h⟩ := checked_save h
    simp only at h
    split at h
    · cases h
    · rename_i row hrow
      exact moveStock_movesRow (findOrCreate_ok hrow).1 (fun _ _ => receive_moved) h
  | adjusting input =>
    cases hb
    obtain ⟨⟨product, warehouse⟩, hinput, h⟩ := checked_save h
    obtain ⟨_, _, hinput⟩ := bind_eq_ok.mp hinput
    obtain ⟨_, _, hinput⟩ := bind_eq_ok.mp hinput
    split at hinput
    · cases hinput
    rename_i hwhole
    simp only [Bool.or_eq_true, Bool.not_eq_true', decide_eq_true_eq, not_or, not_lt,
      Bool.not_eq_false] at hwhole
    exact moveFound_movesRow (fun _ _ _ => adjust_moved (.of_isInteger hwhole.1 hwhole.2)) h
  | reserving input =>
    cases hb
    obtain ⟨⟨product, warehouse, quantity⟩, _, h⟩ := checked_save h
    simp only at h
    split at h
    · cases h
    · rename_i row hfound
      split at h
      · cases h
      · exact moveStock_movesRow (.inl (find_found hfound).1)
          (fun _ _ hok => (reserve_moved hok).2) h
  | releasing input =>
    cases hb
    obtain ⟨⟨product, warehouse⟩, _, h⟩ := checked_save h
    exact moveFound_movesRow (fun _ _ _ => release_moved) h
  | committing input =>
    cases hb
    obtain ⟨⟨product, warehouse⟩, _, h⟩ := checked_save h
    exact moveFound_movesRow (fun _ _ _ => commit_moved) h
  | transferring input =>
    cases hb
    obtain ⟨quantity, source, destination, _, hsource, hdestination, _, _, _, _, _, h⟩ :=
      transferStock_save h
    obtain ⟨out, into, hout, hinto, rfl, _⟩ := moveBoth_save h
    intro s hs
    rcases List.mem_cons.mp hs with rfl | hs
    · exact Source.movesRow (.inl hsource) hout
    · rw [List.mem_singleton.mp hs]
      exact hdestination.movesRow hinto

/-- Nothing is stored, nothing has been recorded, and no call has begun. -/
def Opening {ι : Type} (s : State InventoryItem Adjusted Point ι) : Prop :=
  s.store = ⟨[], []⟩ ∧ Quiet s

theorem stock_accounted {ι : Type} [DecidableEq ι] (ids : ℕ → String) :
    (∀ s : Shelf, Reachable New Performs s → Accounted s.item s.movements) ∧
    ∀ s : State InventoryItem Adjusted Point ι,
      Reachable Opening (Step inventoryItems (protocol ids)) s →
      ∀ row ∈ s.store.table,
        Accounted row.value (movementsOf s.store.log row.value.id.value) := by
  constructor
  · intro s hs
    refine reachable_invariant (I := fun s : Shelf => Accounted s.item s.movements) ?_ ?_ hs
    · rintro s ⟨⟨id, product, warehouse, variantRef, hitem⟩, hmovements⟩
      rw [hitem, hmovements]
      exact create_accounted id product warehouse variantRef
    · rintro s op u h rfl
      exact perform_accounted h op
  · intro s hs
    have hstart (s : State InventoryItem Adjusted Point ι) (h : Opening s) :
        WellKept inventoryItems s.store.table ∧ StockKept s.store := by
      rw [h.1]
      exact ⟨.nil _, .nil⟩
    have hc := reachable_coherent (fun s h => h.2) hstart (protocol_justified ids) movesRow_kept hs
    exact hc.invariant.accounted

/-! Two calls that have read the same row: the second save is lost. -/

def sampleIds (draw : ℕ) : String := String.ofList (List.replicate (draw + 1) 'i')

theorem sampleIds_named (draw : ℕ) : isBlank (sampleIds draw) = false := by
  simp [sampleIds, isBlank, List.replicate_succ, isWhitespace]

theorem sampleIds_injective : Function.Injective sampleIds := by
  intro draw draw' h
  have hlists := congrArg String.toList h
  simp only [sampleIds, String.toList_ofList] at hlists
  have hlength := congrArg List.length hlists
  simpa using hlength

def receiveFive : ReceiveStockInput := ⟨"tea", "north", none, 5⟩

def reserveTwo (reference : String) : ReserveStockInput := ⟨"tea", "north", none, 2, reference⟩

def opening (points : List Point) : State InventoryItem Adjusted Point ℕ where
  store := ⟨[], []⟩
  draws := 0
  calls c := match points[c]? with
    | some point => .ready point
    | none => .crashed

theorem opening_quiet (points : List Point) : Opening (opening points) := by
  refine ⟨rfl, ?_⟩
  intro c k saves k' h
  simp only [opening] at h
  split at h <;> cases h

def newShelf : Shelf :=
  ⟨InventoryItem.create ⟨"item-1", by decide⟩ ⟨"tea", by decide⟩ ⟨"north"⟩ none, []⟩

def overdrawnShelf : Shelf :=
  perform (perform newShelf (.receive ⟨5, by decide⟩)) (.transferOut ⟨7, by decide⟩)

def raced : State InventoryItem Adjusted Point ℕ :=
  let s := opening
    [.receiving receiveFive, .reserving (reserveTwo "order-1"), .reserving (reserveTwo "order-2")]
  lastState s (attempt (next inventoryItems (protocol sampleIds)) s
    [.read 0, .write 0, .read 1, .read 2, .write 1, .write 2])

theorem stock_accounted_raced :
    Accounted overdrawnShelf.item overdrawnShelf.movements ∧
    ∀ row ∈ raced.store.table,
      Accounted row.value (movementsOf raced.store.log row.value.id.value) := by
  constructor
  · apply (stock_accounted (ι := ℕ) sampleIds).1
    exact .step (.step (.start ⟨⟨_, _, _, _, rfl⟩, rfl⟩) rfl) rfl
  · apply (stock_accounted sampleIds).2
    exact Run.reachable (.start (opening_quiet _)) (run_attempt _ _ _)

end Inventory

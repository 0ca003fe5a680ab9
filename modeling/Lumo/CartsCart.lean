import Lumo.Builtins
import Lumo.KeyedLines
import Lumo.Methods

/-! # The cart aggregate

The lines of a cart are objects of their own: what a cart holds are references to them, and
two carts may hold the same one. Line metadata, event ids and times are not modelled. -/
namespace Carts

open SharedKernel Builtins

structure Quantity where
  value : ℕ
  positive : 0 < value

namespace Quantity

instance : DecidableEq Quantity := fun a b =>
  decidable_of_iff (a.value = b.value) ⟨fun h => by cases a; cases b; cases h; rfl, fun h => h ▸ rfl⟩

def create (value : ℚ) : Except DomainError Quantity :=
  if h : isInteger value = true ∧ 1 ≤ value then
    .ok ⟨value.num.toNat, by
      have hpos := Rat.num_pos.mpr (zero_lt_one.trans_le h.2)
      exact Int.pos_iff_toNat_pos.mp hpos⟩
  else .error (.validation "Invalid quantity" [⟨"quantity", "must be a positive integer"⟩])

def add (quantity other : Quantity) : Quantity where
  value := quantity.value + other.value
  positive := Nat.add_pos_left quantity.positive _

end Quantity

structure CartLineMerchandise where
  variantRef : String
  sku : String
  title : String
  variantTitle : Option String
  deriving DecidableEq

structure CartItemSnapshots where
  inventoryAvailable : Option ℚ
  merchandise : Option CartLineMerchandise

structure CartItem where
  id : UniqueEntityId
  productRef : ProductRef
  quantity : Quantity
  unitPrice : Money
  inventoryAvailable : Option ℚ
  merchandise : Option CartLineMerchandise
  deriving DecidableEq

namespace CartItem

def create (id : UniqueEntityId) (productRef : ProductRef) (quantity : Quantity)
    (unitPrice : Money) (snapshots : CartItemSnapshots) : CartItem where
  id := id
  productRef := productRef
  quantity := quantity
  unitPrice := unitPrice
  inventoryAvailable := snapshots.inventoryAvailable
  merchandise := snapshots.merchandise

/-- `merchandise?.variantRef ?? productRef.value`. -/
def lineKeyOf (productRef : ProductRef) (merchandise : Option CartLineMerchandise) : String :=
  match merchandise with
  | some merchandise => merchandise.variantRef
  | none => productRef.value

def lineKey (item : CartItem) : String := lineKeyOf item.productRef item.merchandise

def lineTotal (item : CartItem) : Money := item.unitPrice.times item.quantity.value

def increaseBy (item : CartItem) (quantity : Quantity) : CartItem :=
  { item with quantity := item.quantity.add quantity }

def changeQuantityTo (item : CartItem) (quantity : Quantity) : CartItem :=
  { item with quantity := quantity }

def SameLine (item other : CartItem) : Prop := other = item.changeQuantityTo other.quantity

@[simp] theorem SameLine.refl (item : CartItem) : SameLine item item := rfl

@[simp] theorem sameLine_changeQuantityTo (item : CartItem) (quantity : Quantity) :
    SameLine item (item.changeQuantityTo quantity) := rfl

@[simp] theorem sameLine_increaseBy (item : CartItem) (quantity : Quantity) :
    SameLine item (item.increaseBy quantity) := rfl

variable {a b : CartItem}

theorem SameLine.trans {c : CartItem} (h : SameLine a b) (h' : SameLine b c) : SameLine a c := by
  rw [SameLine] at h h' ⊢
  rw [h', h]
  rfl

theorem SameLine.lineKey (h : SameLine a b) : b.lineKey = a.lineKey := by
  rw [h]
  rfl

theorem SameLine.unitPrice (h : SameLine a b) : b.unitPrice = a.unitPrice := by
  rw [h]
  rfl

end CartItem

inductive CartStatus where
  | active
  | checkedOut
  | abandoned
  | locked
  | saved
  | expired
  deriving DecidableEq

def CartStatus.text : CartStatus → String
  | active => "active"
  | checkedOut => "checked_out"
  | abandoned => "abandoned"
  | locked => "locked"
  | saved => "saved"
  | expired => "expired"

inductive CartEvent where
  | merged (sourceCartId customerRef : String) (lineCount : ℕ)
  | locked (customerRef : Option String)
  | saved (customerRef : Option String) (lineCount : ℕ)
  | expired (customerRef : Option String) (previousStatus : CartStatus)
  | checkedOut (customerRef currency : String) (totalAmountMinor lineCount : ℕ)
  | abandoned (customerRef : String) (lineCount : ℕ)

structure Memory where
  itemAt : ℕ → CartItem
  created : ℕ

structure Cart where
  id : UniqueEntityId
  customerRef : Option String
  sessionRef : String
  currency : String
  status : CartStatus
  items : List ℕ
  domainEvents : List CartEvent

structure Live where
  cart : Cart
  memory : Memory

abbrev Method (α : Type) := EStateM DomainError Live α

namespace Memory

def lineKey (memory : Memory) (item : ℕ) : String := (memory.itemAt item).lineKey

def quantity (memory : Memory) (item : ℕ) : ℕ := (memory.itemAt item).quantity.value

def change (memory : Memory) (item : ℕ) (f : CartItem → CartItem) : Memory :=
  { memory with itemAt := Function.update memory.itemAt item (f (memory.itemAt item)) }

/-- The reference to the new object is the number of those created before. -/
def new (memory : Memory) (item : CartItem) : Memory where
  itemAt := Function.update memory.itemAt memory.created item
  created := memory.created + 1

end Memory

namespace Cart

def create (id : UniqueEntityId) (customerRef : Option String) (sessionRef currency : String) :
    Except DomainError Cart := do
  if ¬ isValidCurrencyCode currency then
    throw (.businessRule ("Invalid cart currency \"" ++ currency ++ "\""))
  return {
    id := id
    customerRef := customerRef
    sessionRef := sessionRef
    currency := currency
    status := .active
    items := []
    domainEvents := [] }

def ensureActive : Method Unit := do
  let status := (← get).cart.status
  if status ≠ .active then
    throw (.businessRule ("Cart is " ++ status.text ++ " and can no longer be modified"))

def ensureCurrency (unitPrice : Money) : Method Unit := do
  if unitPrice.currency ≠ (← get).cart.currency then
    throw (.businessRule "Item currency does not match the cart currency")

/-- `items.find((i) => i.lineKey === lineKey)`. -/
def lineWith (live : Live) (lineKey : String) : Option ℕ :=
  live.cart.items.find? fun item => live.memory.lineKey item == lineKey

def findLine (live : Live) (lineKey : String) : Option ℕ :=
  match lineWith live lineKey with
  | some exact => some exact
  | none =>
    match live.cart.items.filter fun item =>
        (live.memory.itemAt item).productRef.value == lineKey with
    | [item] => some item
    | _ => none

def changeItem (item : ℕ) (f : CartItem → CartItem) : Method Unit :=
  modify fun live => { live with memory := live.memory.change item f }

def newItem (item : CartItem) : Method ℕ := do
  let reference := (← get).memory.created
  modify fun live => { live with memory := live.memory.new item }
  return reference

def setItems (f : List ℕ → List ℕ) : Method Unit :=
  modify fun live => { live with cart := { live.cart with items := f live.cart.items } }

def setStatus (status : CartStatus) : Method Unit :=
  modify fun live => { live with cart := { live.cart with status := status } }

def addDomainEvent (event : Cart → CartEvent) : Method Unit :=
  modify fun live => { live with
    cart := { live.cart with domainEvents := live.cart.domainEvents ++ [event live.cart] } }

def addItem (itemId : UniqueEntityId) (productRef : ProductRef) (quantity : Quantity)
    (unitPrice : Money) (snapshots : CartItemSnapshots) : Method Unit := do
  ensureActive
  ensureCurrency unitPrice
  match lineWith (← get) (CartItem.lineKeyOf productRef snapshots.merchandise) with
  | some existing => changeItem existing (·.increaseBy quantity)
  | none =>
    let item ← newItem (CartItem.create itemId productRef quantity unitPrice snapshots)
    setItems (· ++ [item])

def removeItem (lineKey : String) : Method Unit := do
  ensureActive
  match findLine (← get) lineKey with
  | none => throw (.businessRule "Item not found in cart")
  | some item => setItems (·.erase item)

def changeItemQuantity (lineKey : String) (quantity : Quantity) : Method Unit := do
  ensureActive
  match findLine (← get) lineKey with
  | none => throw (.businessRule "Item not found in cart")
  | some item => changeItem item (·.changeQuantityTo quantity)

/-- The line is replaced where it stands; the other lines are not looked at. -/
def replaceItemVariant (itemId : UniqueEntityId) (oldLineKey : String)
    (newProductRef : ProductRef) (quantity : Quantity) (unitPrice : Money)
    (snapshots : CartItemSnapshots) : Method Unit := do
  ensureActive
  ensureCurrency unitPrice
  match findLine (← get) oldLineKey with
  | none => throw (.businessRule "Item not found in cart")
  | some target =>
    let item ← newItem (CartItem.create itemId newProductRef quantity unitPrice snapshots)
    setItems fun items => items.set (items.idxOf target) item

def clear : Method Unit := do
  ensureActive
  setItems fun _ => []

def assignCustomer (customerRef : String) : Method Unit := do
  if (← get).cart.customerRef.isSome then
    throw (.businessRule "Cart already has a customer")
  modify fun live => { live with cart := { live.cart with customerRef := some customerRef } }

/-- One turn of the loop of `merge`: a line whose key is new is taken over as it is, the
object itself. -/
def mergeItem (item : ℕ) : Method Unit := do
  let live ← get
  match lineWith live (live.memory.lineKey item) with
  | some existing => changeItem existing (·.increaseBy (live.memory.itemAt item).quantity)
  | none => setItems (· ++ [item])

/-- The source is the cart as it stands; its lines are read when their turn comes. A cart
merged into itself finds every line, so that the list it goes through does not grow. -/
def merge (source : Cart) : Method Unit := do
  ensureActive
  if source.currency ≠ (← get).cart.currency then
    throw (.businessRule "Cannot merge carts with different currencies")
  source.items.forM mergeItem
  addDomainEvent fun cart =>
    .merged source.id.value (cart.customerRef.getD "") cart.items.length

def lock : Method Unit := do
  ensureActive
  setStatus .locked
  addDomainEvent fun cart => .locked cart.customerRef

def unlock : Method Unit := do
  if (← get).cart.status ≠ .locked then throw (.businessRule "Cart is not locked")
  setStatus .active

def saveForLater : Method Unit := do
  ensureActive
  setStatus .saved
  addDomainEvent fun cart => .saved cart.customerRef cart.items.length

def restore : Method Unit := do
  if (← get).cart.status ≠ .saved then throw (.businessRule "Cart is not saved")
  setStatus .active

def expire : Method Unit := do
  let status := (← get).cart.status
  if status = .checkedOut ∨ status = .abandoned ∨ status = .expired then
    throw (.businessRule ("Cart is " ++ status.text ++ " and cannot expire"))
  setStatus .expired
  addDomainEvent fun cart => .expired cart.customerRef status

def totalAmount (live : Live) : Except DomainError Money := do
  live.cart.items.foldlM (fun total item => total.plus (live.memory.itemAt item).lineTotal)
    (← Money.zero live.cart.currency)

def checkOut : Method Unit := do
  ensureActive
  if (← get).cart.items.length = 0 then throw (.businessRule "Cannot check out an empty cart")
  setStatus .checkedOut
  let total ← MonadExcept.ofExcept (totalAmount (← get))
  addDomainEvent fun cart =>
    .checkedOut (cart.customerRef.getD "") cart.currency total.amountMinor cart.items.length

def abandon : Method Unit := do
  ensureActive
  setStatus .abandoned
  addDomainEvent fun cart => .abandoned (cart.customerRef.getD "") cart.items.length

end Cart

end Carts

/-! ## What the methods of a cart do to its lines

Each method moves at most one line, or takes over the lines of another cart; the rest of the
memory stays as it is up to quantities. -/
namespace Carts

open SharedKernel Methods KeyedLines CartItem

variable {memory memory' : Memory} {cart : Cart} {live live' : Live} {item existing : ℕ}

namespace Memory

@[simp] theorem change_itemAt_self (item : ℕ) (f : CartItem → CartItem) :
    (memory.change item f).itemAt item = f (memory.itemAt item) :=
  Function.update_self _ _ _

variable {x : ℕ}

theorem change_itemAt_of_ne (h : x ≠ item) (f : CartItem → CartItem) :
    (memory.change item f).itemAt x = memory.itemAt x :=
  Function.update_of_ne h _ _

@[simp] theorem new_itemAt_self (line : CartItem) :
    (memory.new line).itemAt memory.created = line :=
  Function.update_self _ _ _

theorem new_itemAt_of_lt (h : x < memory.created) (line : CartItem) :
    (memory.new line).itemAt x = memory.itemAt x :=
  Function.update_of_ne (Nat.ne_of_lt h) _ _

structure Grown (memory memory' : Memory) : Prop where
  created : memory.created ≤ memory'.created
  sameLine : ∀ x < memory.created, SameLine (memory.itemAt x) (memory'.itemAt x)

theorem Grown.refl (memory : Memory) : Grown memory memory := ⟨le_rfl, fun _ _ => .refl _⟩

theorem Grown.trans {memory'' : Memory} (h : Grown memory memory') (h' : Grown memory' memory'') :
    Grown memory memory'' where
  created := h.created.trans h'.created
  sameLine x hx := (h.sameLine x hx).trans (h'.sameLine x (lt_of_lt_of_le hx h.created))

theorem Grown.lineKey (h : Grown memory memory') (hx : x < memory.created) :
    memory'.lineKey x = memory.lineKey x :=
  (h.sameLine x hx).lineKey

theorem grown_change (item : ℕ) {f : CartItem → CartItem} (hf : ∀ line, SameLine line (f line)) :
    Grown memory (memory.change item f) where
  created := le_rfl
  sameLine x _ := by
    by_cases hx : x = item
    · subst hx
      rw [change_itemAt_self]
      exact hf _
    · rw [change_itemAt_of_ne hx]
      exact .refl _

theorem grown_new (line : CartItem) : Grown memory (memory.new line) where
  created := Nat.le_succ _
  sameLine x hx := by
    rw [new_itemAt_of_lt hx]
    exact .refl _

theorem change_lineKey (item : ℕ) {f : CartItem → CartItem} (hf : ∀ line, SameLine line (f line)) :
    (memory.change item f).lineKey = memory.lineKey := by
  funext x
  rw [lineKey, lineKey]
  by_cases hx : x = item
  · subst hx
    rw [change_itemAt_self]
    exact (hf _).lineKey
  · rw [change_itemAt_of_ne hx]

end Memory

structure CartSound (memory : Memory) (cart : Cart) : Prop where
  distinct : Distinct memory.lineKey cart.items
  oneCurrency : ∀ x ∈ cart.items, (memory.itemAt x).unitPrice.currency = cart.currency
  positive : ∀ x ∈ cart.items, 0 < memory.quantity x

structure CartKept (memory : Memory) (cart : Cart) : Prop where
  distinct : Distinct memory.lineKey cart.items
  oneCurrency : ∀ x ∈ cart.items, (memory.itemAt x).unitPrice.currency = cart.currency
  created : ∀ x ∈ cart.items, x < memory.created

theorem CartKept.sound (h : CartKept memory cart) : CartSound memory cart where
  distinct := h.distinct
  oneCurrency := h.oneCurrency
  positive x _ := (memory.itemAt x).quantity.positive

theorem CartKept.grown (h : CartKept memory cart) (hg : memory.Grown memory') :
    CartKept memory' cart where
  distinct := h.distinct.congr fun x hx => hg.lineKey (h.created x hx)
  oneCurrency x hx := by
    rw [(hg.sameLine x (h.created x hx)).unitPrice]
    exact h.oneCurrency x hx
  created x hx := lt_of_lt_of_le (h.created x hx) hg.created

/-- The ways in which a method moves the lines of its cart. -/
inductive LinesMove (live : Live) : Live → Prop where
  | none (other : Cart) (hitems : other.items = live.cart.items)
      (hcurrency : other.currency = live.cart.currency) : LinesMove live ⟨other, live.memory⟩
  | changed (item f) (hf : ∀ line, SameLine line (f line)) :
      LinesMove live { live with memory := live.memory.change item f }
  | added (line) (hcurrency : line.unitPrice.currency = live.cart.currency)
      (hnew : ∀ x ∈ live.cart.items, live.memory.lineKey x ≠ line.lineKey) :
      LinesMove live ⟨{ live.cart with items := live.cart.items ++ [live.memory.created] },
        live.memory.new line⟩
  | dropped (items : List ℕ) (hitems : items.Sublist live.cart.items) :
      LinesMove live { live with cart := { live.cart with items := items } }

theorem LinesMove.refl (live : Live) : LinesMove live live := .none _ rfl rfl

theorem LinesMove.grown (h : LinesMove live live') : live.memory.Grown live'.memory := by
  cases h with
  | none => exact .refl _
  | changed item f hf => exact Memory.grown_change item hf
  | added line => exact Memory.grown_new line
  | dropped => exact .refl _

variable {line : CartItem} {target : ℕ}

theorem CartKept.added (h : CartKept memory cart)
    (hcurrency : line.unitPrice.currency = cart.currency)
    (hnew : ∀ x ∈ cart.items, memory.lineKey x ≠ line.lineKey) :
    CartKept (memory.new line) { cart with items := cart.items ++ [memory.created] } := by
  have hold := h.grown (Memory.grown_new line)
  have hkey : (memory.new line).lineKey memory.created = line.lineKey := by
    rw [Memory.lineKey, Memory.new_itemAt_self]
  constructor
  · rw [distinct_concat]
    refine ⟨hold.distinct, ?_⟩
    intro x hx
    rw [hkey, (Memory.grown_new line).lineKey (h.created x hx)]
    exact hnew x hx
  · intro x hx
    rcases List.mem_append.mp hx with hx | hx
    · exact hold.oneCurrency x hx
    · rw [List.mem_singleton.mp hx, Memory.new_itemAt_self]
      exact hcurrency
  · intro x hx
    rcases List.mem_append.mp hx with hx | hx
    · exact hold.created x hx
    · rw [List.mem_singleton.mp hx]
      exact Nat.lt_succ_self _

theorem LinesMove.kept (h : LinesMove live live') (hk : CartKept live.memory live.cart) :
    CartKept live'.memory live'.cart := by
  cases h with
  | none other hitems hcurrency =>
    constructor
    · rw [hitems]
      exact hk.distinct
    · rw [hitems, hcurrency]
      exact hk.oneCurrency
    · rw [hitems]
      exact hk.created
  | changed item f hf => exact hk.grown (Memory.grown_change item hf)
  | added line hcurrency hnew => exact hk.added hcurrency hnew
  | dropped items hitems =>
    constructor
    · exact hk.distinct.sublist hitems
    · intro x hx
      exact hk.oneCurrency x (hitems.subset hx)
    · intro x hx
      exact hk.created x (hitems.subset hx)

open Cart

theorem ensureActive_run (live : Live) :
    ensureActive live = if live.cart.status = .active then .ok ⟨⟩ live
      else .error (.businessRule
        ("Cart is " ++ live.cart.status.text ++ " and can no longer be modified")) live := by
  by_cases h : live.cart.status = .active
  · simp [ensureActive, h]
  · simp [ensureActive, h]

theorem ensureCurrency_run (unitPrice : Money) (live : Live) :
    ensureCurrency unitPrice live = if unitPrice.currency = live.cart.currency then .ok ⟨⟩ live
      else .error (.businessRule "Item currency does not match the cart currency") live := by
  by_cases h : unitPrice.currency = live.cart.currency
  · simp [ensureCurrency, h]
  · simp [ensureCurrency, h]

theorem linesMove_ensureActive {α : Type} {rest : Unit → Method α}
    (h : live.cart.status = .active → LinesMove live (after (rest ⟨⟩) live)) :
    LinesMove live (after (ensureActive >>= rest) live) := by
  rw [after_bind, ensureActive_run]
  by_cases hactive : live.cart.status = .active
  · simp only [hactive, if_true]
    exact h hactive
  · simp only [hactive, if_false]
    exact .refl _

theorem linesMove_ensureCurrency {α : Type} {unitPrice : Money} {rest : Unit → Method α}
    (h : unitPrice.currency = live.cart.currency → LinesMove live (after (rest ⟨⟩) live)) :
    LinesMove live (after (ensureCurrency unitPrice >>= rest) live) := by
  rw [after_bind, ensureCurrency_run]
  by_cases hcurrency : unitPrice.currency = live.cart.currency
  · simp only [hcurrency, if_true]
    exact h hcurrency
  · simp only [hcurrency, if_false]
    exact .refl _

theorem lineWith_some {lineKey : String} (h : lineWith live lineKey = some item) :
    item ∈ live.cart.items ∧ live.memory.lineKey item = lineKey := by
  refine ⟨List.mem_of_find?_eq_some h, ?_⟩
  simpa using List.find?_some h

theorem lineWith_none {lineKey : String} (h : lineWith live lineKey = none) :
    ∀ x ∈ live.cart.items, live.memory.lineKey x ≠ lineKey := by
  simpa [lineWith] using h

theorem findLine_mem {lineKey : String} (h : findLine live lineKey = some item) :
    item ∈ live.cart.items := by
  rw [findLine] at h
  split at h
  · rename_i exact hexact
    cases h
    exact (lineWith_some hexact).1
  · split at h
    · rename_i only honly
      cases h
      have hmem : item ∈ [item] := List.mem_singleton_self item
      rw [← honly] at hmem
      exact (List.mem_filter.mp hmem).1
    · cases h

variable (itemId : UniqueEntityId) (productRef : ProductRef) (quantity : Quantity)
  (unitPrice : Money) (snapshots : CartItemSnapshots) (lineKey : String)

theorem addItem_move :
    LinesMove live (after (addItem itemId productRef quantity unitPrice snapshots) live) := by
  apply linesMove_ensureActive
  intro _
  apply linesMove_ensureCurrency
  intro hcurrency
  rw [after_get]
  cases hfind : lineWith live (lineKeyOf productRef snapshots.merchandise) with
  | some existing => exact .changed existing _ fun line => sameLine_increaseBy line quantity
  | none => exact .added (.create itemId productRef quantity unitPrice snapshots) hcurrency
              (lineWith_none hfind)

theorem removeItem_move : LinesMove live (after (removeItem lineKey) live) := by
  apply linesMove_ensureActive
  intro _
  rw [after_get]
  cases hfind : findLine live lineKey with
  | none => exact .refl _
  | some item => exact .dropped _ List.erase_sublist

theorem changeItemQuantity_move :
    LinesMove live (after (changeItemQuantity lineKey quantity) live) := by
  apply linesMove_ensureActive
  intro _
  rw [after_get]
  cases hfind : findLine live lineKey with
  | none => exact .refl _
  | some item => exact .changed item _ fun line => sameLine_changeQuantityTo line quantity

theorem clear_move : LinesMove live (after clear live) := by
  apply linesMove_ensureActive
  intro _
  exact .dropped [] (List.nil_sublist _)

theorem assignCustomer_move (customerRef : String) :
    LinesMove live (after (assignCustomer customerRef) live) := by
  rw [assignCustomer, after_get]
  by_cases h : live.cart.customerRef.isSome
  · simp only [h, if_true]
    exact .refl _
  · simp only [h]
    exact .none _ rfl rfl

theorem unlock_move : LinesMove live (after unlock live) := by
  rw [unlock, after_get]
  by_cases h : live.cart.status = .locked
  · simp only [h, ne_eq, not_true_eq_false, if_false]
    exact .none _ rfl rfl
  · simp only [h, ne_eq, not_false_eq_true, if_true]
    exact .refl _

theorem restore_move : LinesMove live (after restore live) := by
  rw [restore, after_get]
  by_cases h : live.cart.status = .saved
  · simp only [h, ne_eq, not_true_eq_false, if_false]
    exact .none _ rfl rfl
  · simp only [h, ne_eq, not_false_eq_true, if_true]
    exact .refl _

theorem expire_move : LinesMove live (after expire live) := by
  rw [expire, after_get]
  dsimp only
  split
  · exact .refl _
  · exact .none _ rfl rfl

theorem checkOut_move : LinesMove live (after checkOut live) := by
  apply linesMove_ensureActive
  intro _
  rw [after_get]
  by_cases h : live.cart.items.length = 0
  · simp only [h, if_true]
    exact .refl _
  · simp only [h, if_false]
    have hset : setStatus .checkedOut live =
        .ok ⟨⟩ { live with cart := { live.cart with status := .checkedOut } } := rfl
    rw [after_bind, hset]
    simp only
    rw [after_get, after_bind, run_ofExcept]
    -- thrown out of or not, the status is changed by now
    cases totalAmount _ with
    | error e | ok total => exact .none _ rfl rfl

def Replaces (live : Live) (oldLineKey : String) (unitPrice : Money) (target : ℕ) : Prop :=
  live.cart.status = .active ∧ unitPrice.currency = live.cart.currency ∧
    findLine live oldLineKey = some target

def replacedLine (live : Live) (target : ℕ) (line : CartItem) : Live where
  cart := { live.cart with
    items := live.cart.items.set (live.cart.items.idxOf target) live.memory.created }
  memory := live.memory.new line

theorem replaceItemVariant_replaces (h : Replaces live lineKey unitPrice target) :
    after (replaceItemVariant itemId lineKey productRef quantity unitPrice snapshots) live =
      replacedLine live target (.create itemId productRef quantity unitPrice snapshots) := by
  obtain ⟨hactive, hcurrency, hfind⟩ := h
  rw [replaceItemVariant, after_bind, ensureActive_run, if_pos hactive]
  simp only
  rw [after_bind, ensureCurrency_run, if_pos hcurrency]
  simp only
  rw [after_get]
  simp only [hfind]
  rfl

theorem replaceItemVariant_refused (h : ∀ target, ¬ Replaces live lineKey unitPrice target) :
    after (replaceItemVariant itemId lineKey productRef quantity unitPrice snapshots) live =
      live := by
  rw [replaceItemVariant, after_bind, ensureActive_run]
  by_cases hactive : live.cart.status = .active
  · rw [if_pos hactive]
    simp only
    rw [after_bind, ensureCurrency_run]
    by_cases hcurrency : unitPrice.currency = live.cart.currency
    · rw [if_pos hcurrency]
      simp only
      rw [after_get]
      cases hfind : findLine live lineKey with
      | none => rfl
      | some target => exact absurd ⟨hactive, hcurrency, hfind⟩ (h target)
    · rw [if_neg hcurrency]
  · rw [if_neg hactive]

theorem replacedLine_distinct (hk : CartKept live.memory live.cart)
    (htarget : target ∈ live.cart.items) :
    Distinct (replacedLine live target line).memory.lineKey
        (replacedLine live target line).cart.items ↔
      ∀ x ∈ live.cart.items, x ≠ target → live.memory.lineKey x ≠ line.lineKey := by
  have hgrown : Memory.Grown live.memory (live.memory.new line) := Memory.grown_new line
  have hkey : (live.memory.new line).lineKey live.memory.created = line.lineKey := by
    rw [Memory.lineKey, Memory.new_itemAt_self]
  rw [replacedLine, (hk.grown hgrown).distinct.set_iff htarget, hkey]
  constructor
  · intro h x hx hne
    rw [← hgrown.lineKey (hk.created x hx)]
    exact h x hx hne
  · intro h x hx hne
    rw [hgrown.lineKey (hk.created x hx)]
    exact h x hx hne

theorem replacedLine_kept (hk : CartKept live.memory live.cart) (htarget : target ∈ live.cart.items)
    (hcurrency : line.unitPrice.currency = live.cart.currency)
    (hnew : ∀ x ∈ live.cart.items, x ≠ target → live.memory.lineKey x ≠ line.lineKey) :
    CartKept (replacedLine live target line).memory (replacedLine live target line).cart := by
  have hgrown : Memory.Grown live.memory (live.memory.new line) := Memory.grown_new line
  have hold := hk.grown hgrown
  constructor
  · exact (replacedLine_distinct hk htarget).mpr hnew
  · intro x hx
    rcases List.mem_or_eq_of_mem_set hx with hx | rfl
    · exact hold.oneCurrency x hx
    · rw [replacedLine, Memory.new_itemAt_self]
      exact hcurrency
  · intro x hx
    rcases List.mem_or_eq_of_mem_set hx with hx | rfl
    · exact hold.created x hx
    · exact Nat.lt_succ_self _

end Carts

import Lumo.CartsCart
import Lumo.LabelledRuns

/-! # Merging a cart

The lines of the source are gone through one by one. Each raises the line of the target that has
its key, or is taken over as the object it is; what this comes to depends on whether the two
carts held one object in common before. -/
namespace Carts

open SharedKernel Methods KeyedLines CartItem Cart

variable {live : Live} {item x : ℕ} {rest : List ℕ} {source : Cart}

def raised (live : Live) (existing : ℕ) (quantity : Quantity) : Live :=
  { live with memory := live.memory.change existing fun line => line.increaseBy quantity }

def taken (live : Live) (item : ℕ) : Live :=
  { live with cart := { live.cart with items := live.cart.items ++ [item] } }

@[simp] theorem raised_cart (existing : ℕ) (quantity : Quantity) :
    (raised live existing quantity).cart = live.cart := rfl

@[simp] theorem raised_memory (existing : ℕ) (quantity : Quantity) :
    (raised live existing quantity).memory =
      live.memory.change existing fun line => line.increaseBy quantity := rfl

@[simp] theorem taken_cart (item : ℕ) :
    (taken live item).cart = { live.cart with items := live.cart.items ++ [item] } := rfl

@[simp] theorem taken_memory (item : ℕ) : (taken live item).memory = live.memory := rfl

/-- One turn of the loop, as a function. -/
def merged (live : Live) (item : ℕ) : Live :=
  match lineWith live (live.memory.lineKey item) with
  | some existing => raised live existing (live.memory.itemAt item).quantity
  | none => taken live item

theorem mergeItem_run (item : ℕ) (live : Live) : mergeItem item live = .ok ⟨⟩ (merged live item) := by
  rw [mergeItem, merged, run_bind, run_get]
  simp only
  cases lineWith live (live.memory.lineKey item) with
  | none | some existing => rfl

theorem mergeItems_run (rest : List ℕ) (live : Live) :
    rest.forM mergeItem live = .ok ⟨⟩ (rest.foldl merged live) := by
  induction rest generalizing live with
  | nil => rfl
  | cons item rest ih =>
    rw [List.forM_eq_forM, List.forM_cons, run_bind, mergeItem_run]
    exact ih _

theorem merged_cases (live : Live) (item : ℕ) :
    (∃ existing ∈ live.cart.items, live.memory.lineKey existing = live.memory.lineKey item ∧
      merged live item = raised live existing (live.memory.itemAt item).quantity) ∨
    ((∀ y ∈ live.cart.items, live.memory.lineKey y ≠ live.memory.lineKey item) ∧
      merged live item = taken live item) := by
  cases hfind : lineWith live (live.memory.lineKey item) with
  | some existing =>
    obtain ⟨hmem, hkey⟩ := lineWith_some hfind
    exact .inl ⟨existing, hmem, hkey, by rw [merged, hfind]⟩
  | none => exact .inr ⟨lineWith_none hfind, by rw [merged, hfind]⟩

@[simp] theorem merged_lineKey (live : Live) (item : ℕ) :
    (merged live item).memory.lineKey = live.memory.lineKey := by
  rcases merged_cases live item with ⟨existing, -, -, h⟩ | ⟨-, h⟩
  · rw [h]
    exact Memory.change_lineKey _ fun line => sameLine_increaseBy line _
  · rw [h, taken_memory]

theorem merged_grown (live : Live) (item : ℕ) : live.memory.Grown (merged live item).memory := by
  rcases merged_cases live item with ⟨existing, -, -, h⟩ | ⟨-, h⟩
  · rw [h]
    exact Memory.grown_change _ fun line => sameLine_increaseBy line _
  · rw [h]
    exact .refl _

theorem merged_distinct (h : Distinct live.memory.lineKey live.cart.items) (item : ℕ) :
    Distinct (merged live item).memory.lineKey (merged live item).cart.items := by
  rw [merged_lineKey]
  rcases merged_cases live item with ⟨existing, -, -, heq⟩ | ⟨hnew, heq⟩
  · rw [heq]
    exact h
  · rw [heq]
    exact distinct_concat.mpr ⟨h, hnew⟩

theorem merged_items (live : Live) (item : ℕ) :
    (merged live item).cart.items = live.cart.items ∨
      (merged live item).cart.items = live.cart.items ++ [item] := by
  rcases merged_cases live item with ⟨existing, -, -, h⟩ | ⟨-, h⟩
  · exact .inl (by rw [h, raised_cart])
  · exact .inr (by rw [h, taken_cart])

theorem merged_cart (live : Live) (item : ℕ) :
    (merged live item).cart = { live.cart with items := (merged live item).cart.items } := by
  rcases merged_cases live item with ⟨existing, -, -, h⟩ | ⟨-, h⟩
  · rw [h, raised_cart]
  · rw [h, taken_cart]

theorem mem_merged (h : x ∈ live.cart.items) : x ∈ (merged live item).cart.items := by
  rcases merged_items live item with heq | heq
  · rwa [heq]
  · rw [heq]
    exact List.mem_append_left _ h

theorem quantity_le_merged (live : Live) (item x : ℕ) :
    live.memory.quantity x ≤ (merged live item).memory.quantity x := by
  rcases merged_cases live item with ⟨existing, -, -, h⟩ | ⟨-, h⟩
  · rw [h, raised_memory, Memory.quantity, Memory.quantity]
    by_cases hx : x = existing
    · subst hx
      rw [Memory.change_itemAt_self]
      exact Nat.le_add_right _ _
    · rw [Memory.change_itemAt_of_ne hx]
  · rw [h, taken_memory]

def quantityAt (memory : Memory) (cart : Cart) (lineKey : String) : ℕ :=
  totalAt memory.lineKey memory.quantity cart.items lineKey

theorem quantityAt_merged (h : Distinct live.memory.lineKey live.cart.items) (item : ℕ)
    (lineKey : String) :
    quantityAt (merged live item).memory (merged live item).cart lineKey =
      quantityAt live.memory live.cart lineKey +
        if live.memory.lineKey item = lineKey then live.memory.quantity item else 0 := by
  rw [quantityAt, quantityAt, merged_lineKey]
  rcases merged_cases live item with ⟨existing, hmem, hkey, heq⟩ | ⟨-, heq⟩
  · rw [heq, raised_memory, ← hkey]
    refine totalAt_raised h.nodup hmem ?_ ?_ lineKey
    · rw [Memory.quantity, Memory.change_itemAt_self]
      rfl
    · intro x hx
      rw [Memory.quantity, Memory.change_itemAt_of_ne hx]
      rfl
  · rw [heq]
    exact totalAt_concat _ _ _

theorem merged_itemAt (h : x ∉ live.cart.items ∨ live.memory.lineKey item ≠ live.memory.lineKey x) :
    (merged live item).memory.itemAt x = live.memory.itemAt x := by
  rcases merged_cases live item with ⟨existing, hmem, hkey, heq⟩ | ⟨-, heq⟩
  · rw [heq, raised_memory]
    refine Memory.change_itemAt_of_ne ?_ _
    rintro rfl
    rcases h with h | h
    · exact h hmem
    · exact h hkey.symm
  · rw [heq, taken_memory]

theorem mergeAll_grown (rest : List ℕ) (live : Live) :
    live.memory.Grown (rest.foldl merged live).memory := by
  induction rest generalizing live with
  | nil => exact .refl _
  | cons item rest ih => exact (merged_grown live item).trans (ih _)

theorem mergeAll_distinct (rest : List ℕ) (h : Distinct live.memory.lineKey live.cart.items) :
    Distinct (rest.foldl merged live).memory.lineKey (rest.foldl merged live).cart.items := by
  induction rest generalizing live with
  | nil => exact h
  | cons item rest ih => exact ih (merged_distinct h item)

theorem mergeAll_cart (rest : List ℕ) (live : Live) :
    (rest.foldl merged live).cart =
      { live.cart with items := (rest.foldl merged live).cart.items } := by
  induction rest generalizing live with
  | nil => rfl
  | cons item rest ih =>
    rw [List.foldl_cons, ih, merged_cart live item]

theorem mergeAll_items (rest : List ℕ) (live : Live) :
    ∃ taken, taken ⊆ rest ∧ (rest.foldl merged live).cart.items = live.cart.items ++ taken := by
  induction rest generalizing live with
  | nil => exact ⟨[], List.Subset.refl _, (List.append_nil _).symm⟩
  | cons item rest ih =>
    obtain ⟨taken, hsub, heq⟩ := ih (merged live item)
    rw [List.foldl_cons, heq]
    rcases merged_items live item with h | h
    · exact ⟨taken, List.subset_cons_of_subset _ hsub, by rw [h]⟩
    · refine ⟨item :: taken, List.cons_subset_cons _ hsub, ?_⟩
      rw [h, List.append_assoc, List.singleton_append]

theorem quantity_le_mergeAll (rest : List ℕ) (live : Live) (x : ℕ) :
    live.memory.quantity x ≤ (rest.foldl merged live).memory.quantity x := by
  induction rest generalizing live with
  | nil => exact le_rfl
  | cons item rest ih => exact (quantity_le_merged live item x).trans (ih _)

theorem mergeAll_itemAt (h : ∀ y ∈ rest, live.memory.lineKey y ≠ live.memory.lineKey x) :
    (rest.foldl merged live).memory.itemAt x = live.memory.itemAt x := by
  induction rest generalizing live with
  | nil => rfl
  | cons item rest ih =>
    have hitem := h item List.mem_cons_self
    rw [List.foldl_cons, ih, merged_itemAt (.inr hitem)]
    intro y hy
    rw [merged_lineKey]
    exact h y (List.mem_cons_of_mem _ hy)

theorem merged_apart (hrest : Distinct live.memory.lineKey (item :: rest))
    (hapart : ∀ y ∈ item :: rest, y ∉ live.cart.items) :
    ∀ y ∈ rest, y ∉ (merged live item).cart.items := by
  intro y hy hmem
  have hne : y ≠ item := fun h => (List.nodup_cons.mp hrest.nodup).1 (h ▸ hy)
  rcases merged_items live item with heq | heq
  · rw [heq] at hmem
    exact hapart y (List.mem_cons_of_mem _ hy) hmem
  · rw [heq] at hmem
    rcases List.mem_append.mp hmem with hmem | hmem
    · exact hapart y (List.mem_cons_of_mem _ hy) hmem
    · exact hne (List.mem_singleton.mp hmem)

variable (live) in
theorem mergeAll_unchanged (hrest : Distinct live.memory.lineKey rest)
    (hapart : ∀ y ∈ rest, y ∉ live.cart.items) :
    ∀ y ∈ rest, (rest.foldl merged live).memory.itemAt y = live.memory.itemAt y := by
  induction rest generalizing live with
  | nil => simp
  | cons item rest ih =>
    have hlater : Distinct (merged live item).memory.lineKey rest := by
      rw [merged_lineKey]
      exact (distinct_cons.mp hrest).2
    have hkeep (y : ℕ) (hy : y ∈ item :: rest) :
        (merged live item).memory.itemAt y = live.memory.itemAt y :=
      merged_itemAt (.inl (hapart y hy))
    intro y hy
    rw [List.foldl_cons]
    rcases List.mem_cons.mp hy with rfl | hy'
    · rw [mergeAll_itemAt, hkeep y List.mem_cons_self]
      rw [merged_lineKey]
      exact (distinct_cons.mp hrest).1
    · rw [ih _ hlater (merged_apart hrest hapart) y hy', hkeep y hy]

variable (live) in
theorem quantityAt_mergeAll (hlines : Distinct live.memory.lineKey live.cart.items)
    (hrest : Distinct live.memory.lineKey rest) (hapart : ∀ y ∈ rest, y ∉ live.cart.items)
    (lineKey : String) :
    quantityAt (rest.foldl merged live).memory (rest.foldl merged live).cart lineKey =
      quantityAt live.memory live.cart lineKey +
        totalAt live.memory.lineKey live.memory.quantity rest lineKey := by
  induction rest generalizing live with
  | nil => rfl
  | cons item rest ih =>
    have hlater : Distinct (merged live item).memory.lineKey rest := by
      rw [merged_lineKey]
      exact (distinct_cons.mp hrest).2
    have hamount : totalAt (merged live item).memory.lineKey (merged live item).memory.quantity
        rest lineKey = totalAt live.memory.lineKey live.memory.quantity rest lineKey := by
      rw [merged_lineKey]
      refine totalAt_congr (fun _ _ => rfl) ?_ lineKey
      intro y hy
      rw [Memory.quantity, merged_itemAt (.inl (hapart y (List.mem_cons_of_mem _ hy)))]
      rfl
    rw [List.foldl_cons, ih _ (merged_distinct hlines item) hlater (merged_apart hrest hapart),
      quantityAt_merged hlines, hamount, totalAt_cons]
    omega

variable (live) in
theorem quantity_lt_mergeAll (hlines : Distinct live.memory.lineKey live.cart.items)
    (hx : x ∈ rest) (hshared : x ∈ live.cart.items) :
    live.memory.quantity x < (rest.foldl merged live).memory.quantity x := by
  induction rest generalizing live with
  | nil => cases hx
  | cons item rest ih =>
    rw [List.foldl_cons]
    rcases List.mem_cons.mp hx with rfl | hx
    · refine lt_of_lt_of_le ?_ (quantity_le_mergeAll rest _ x)
      rcases merged_cases live x with ⟨existing, hmem, hkey, heq⟩ | ⟨hnew, -⟩
      · cases hlines.eq_of_key hmem hshared hkey
        rw [heq, raised_memory, Memory.quantity, Memory.quantity, Memory.change_itemAt_self]
        exact Nat.lt_add_of_pos_right (live.memory.itemAt x).quantity.positive
      · exact absurd rfl (hnew x hshared)
    · exact (quantity_le_merged live item x).trans_lt
        (ih _ (merged_distinct hlines item) hx (mem_merged hshared))

def Merges (live : Live) (source : Cart) : Prop :=
  live.cart.status = .active ∧ source.currency = live.cart.currency

instance : Decidable (Merges live source) := inferInstanceAs (Decidable (_ ∧ _))

def mergedCart (live : Live) (source : Cart) : Live :=
  let final := source.items.foldl merged live
  { final with cart := { final.cart with
    domainEvents := final.cart.domainEvents ++ [.merged source.id.value
      (final.cart.customerRef.getD "") final.cart.items.length] } }

theorem merge_merges (h : Merges live source) :
    merge source live = .ok ⟨⟩ (mergedCart live source) := by
  rw [merge, run_bind, ensureActive_run, if_pos h.1]
  simp only [run_bind, run_get, h.2, ne_eq, not_true_eq_false, if_false, mergeItems_run]
  rfl

theorem merge_refused (h : ¬ Merges live source) : ∃ e, merge source live = .error e live := by
  rw [merge, run_bind, ensureActive_run]
  by_cases hactive : live.cart.status = .active
  · have hcurrency : source.currency ≠ live.cart.currency := fun heq => h ⟨hactive, heq⟩
    simp only [hactive, if_true, run_bind, run_get, hcurrency, ne_eq, not_false_eq_true]
    exact ⟨_, rfl⟩
  · simp only [hactive, if_false]
    exact ⟨_, rfl⟩

@[simp] theorem mergedCart_memory (live : Live) (source : Cart) :
    (mergedCart live source).memory = (source.items.foldl merged live).memory := rfl

@[simp] theorem mergedCart_items (live : Live) (source : Cart) :
    (mergedCart live source).cart.items = (source.items.foldl merged live).cart.items := rfl

theorem mergedCart_currency (live : Live) (source : Cart) :
    (mergedCart live source).cart.currency = live.cart.currency := by
  change (source.items.foldl merged live).cart.currency = _
  rw [mergeAll_cart]

theorem mergedCart_status (live : Live) (source : Cart) :
    (mergedCart live source).cart.status = live.cart.status := by
  change (source.items.foldl merged live).cart.status = _
  rw [mergeAll_cart]

variable (live) in
theorem mergedCart_kept (hk : CartKept live.memory live.cart) (hs : CartKept live.memory source)
    (hcurrency : source.currency = live.cart.currency) :
    CartKept (mergedCart live source).memory (mergedCart live source).cart := by
  have hgrown := mergeAll_grown source.items live
  obtain ⟨taken, hsub, hitems⟩ := mergeAll_items source.items live
  have hold := hk.grown hgrown
  have hfrom := hs.grown hgrown
  constructor
  · exact mergeAll_distinct source.items hk.distinct
  · intro x hx
    rw [mergedCart_currency]
    rw [mergedCart_items, hitems] at hx
    rcases List.mem_append.mp hx with hx | hx
    · exact hold.oneCurrency x hx
    · exact (hfrom.oneCurrency x (hsub hx)).trans hcurrency
  · intro x hx
    rw [mergedCart_items, hitems] at hx
    rcases List.mem_append.mp hx with hx | hx
    · exact hold.created x hx
    · exact hfrom.created x (hsub hx)

end Carts

/-! ## Runs of carts

Any number of carts in one memory, and any order of calls on them. -/
namespace Carts

open SharedKernel Methods KeyedLines LabelledRuns Cart

variable {ι : Type}

structure World (ι : Type) where
  carts : ι → Cart
  memory : Memory

inductive Operation (ι : Type) where
  | addItem (itemId : UniqueEntityId) (productRef : ProductRef) (quantity : Quantity)
      (unitPrice : Money) (snapshots : CartItemSnapshots)
  | removeItem (lineKey : String)
  | changeItemQuantity (lineKey : String) (quantity : Quantity)
  | replaceItemVariant (itemId : UniqueEntityId) (oldLineKey : String)
      (newProductRef : ProductRef) (quantity : Quantity) (unitPrice : Money)
      (snapshots : CartItemSnapshots)
  | clear
  | assignCustomer (customerRef : String)
  | merge (source : ι)
  | lock
  | unlock
  | saveForLater
  | restore
  | expire
  | checkOut
  | abandon

abbrev Call (ι : Type) := ι × Operation ι

namespace World

variable (w : World ι)

def live (i : ι) : Live := ⟨w.carts i, w.memory⟩

def method : Operation ι → Method Unit
  | .addItem itemId productRef quantity unitPrice snapshots =>
    Cart.addItem itemId productRef quantity unitPrice snapshots
  | .removeItem lineKey => Cart.removeItem lineKey
  | .changeItemQuantity lineKey quantity => Cart.changeItemQuantity lineKey quantity
  | .replaceItemVariant itemId oldLineKey newProductRef quantity unitPrice snapshots =>
    Cart.replaceItemVariant itemId oldLineKey newProductRef quantity unitPrice snapshots
  | .clear => Cart.clear
  | .assignCustomer customerRef => Cart.assignCustomer customerRef
  | .merge source => Cart.merge (w.carts source)
  | .lock => Cart.lock
  | .unlock => Cart.unlock
  | .saveForLater => Cart.saveForLater
  | .restore => Cart.restore
  | .expire => Cart.expire
  | .checkOut => Cart.checkOut
  | .abandon => Cart.abandon

def linesOf (i : ι) : List CartItem := (w.carts i).items.map w.memory.itemAt

@[simp] theorem live_cart (i : ι) : (w.live i).cart = w.carts i := rfl

end World

namespace World

variable [DecidableEq ι] (w : World ι)

def put (i : ι) (live : Live) : World ι where
  carts := Function.update w.carts i live.cart
  memory := live.memory

/-- A call that throws leaves what it did before. -/
def next (call : Call ι) : World ι :=
  w.put call.1 (after (w.method call.2) (w.live call.1))

@[simp] theorem put_carts_self (i : ι) (live : Live) : (w.put i live).carts i = live.cart :=
  Function.update_self _ _ _

theorem put_carts_of_ne {i j : ι} (h : j ≠ i) (live : Live) : (w.put i live).carts j = w.carts j :=
  Function.update_of_ne h _ _

@[simp] theorem put_memory (i : ι) (live : Live) : (w.put i live).memory = live.memory := rfl

end World

/-- Every cart is as `Cart.create` returns it. -/
def Created (w : World ι) : Prop :=
  ∀ i, ∃ id customerRef sessionRef currency,
    Cart.create id customerRef sessionRef currency = .ok (w.carts i)

/-- In every cart the line keys are distinct, the currency is one, the quantities positive. -/
def Sound (w : World ι) : Prop := ∀ i, CartSound w.memory (w.carts i)

/-- A merge that returns leaves the sum of both carts' quantities under each line key, and the
source as it was. -/
def MergeSound [DecidableEq ι] (w : World ι) : Call ι → Prop
  | (target, .merge source) =>
    (∃ live, Cart.merge (w.carts source) (w.live target) = .ok ⟨⟩ live) →
      let u := w.next (target, .merge source)
      (∀ lineKey, quantityAt u.memory (u.carts target) lineKey =
        quantityAt w.memory (w.carts target) lineKey +
          quantityAt w.memory (w.carts source) lineKey) ∧
      u.linesOf source = w.linesOf source ∧
      (u.carts source).currency = (w.carts source).currency ∧
      (u.carts source).status = (w.carts source).status
  | _ => True

/-- A line that is put in the place of another has a key of its own, and a merge that passes its
checks is between carts that hold no object in common. -/
def Allowed (w : World ι) : Call ι → Prop
  | (i, .replaceItemVariant _ oldLineKey newProductRef _ unitPrice snapshots) =>
    ∀ target, Replaces (w.live i) oldLineKey unitPrice target →
      ∀ x ∈ (w.carts i).items, x ≠ target →
        w.memory.lineKey x ≠ CartItem.lineKeyOf newProductRef snapshots.merchandise
  | (target, .merge source) =>
    Merges (w.live target) (w.carts source) →
      ∀ x ∈ (w.carts source).items, x ∉ (w.carts target).items
  | _ => True

def WorldKept (w : World ι) : Prop := ∀ i, CartKept w.memory (w.carts i)

variable {w u : World ι} {i : ι} {live : Live}

theorem created_kept (h : Created w) : WorldKept w := by
  intro i
  obtain ⟨id, customerRef, sessionRef, currency, hi⟩ := h i
  have hitems : (w.carts i).items = [] := by
    rw [Cart.create] at hi
    split at hi
    · cases hi
    · injection hi with hi
      rw [← hi]
  constructor
  · rw [hitems]
    exact List.nodup_nil
  · simp [hitems]
  · simp [hitems]

section Calls

variable [DecidableEq ι]

theorem WorldKept.put (h : WorldKept w) (hgrown : w.memory.Grown live.memory)
    (hk : CartKept live.memory live.cart) : WorldKept (w.put i live) := by
  intro j
  by_cases hj : j = i
  · subst hj
    rw [World.put_carts_self]
    exact hk
  · rw [World.put_carts_of_ne w hj]
    exact (h j).grown hgrown

theorem WorldKept.moved (h : WorldKept w) (hmove : LinesMove (w.live i) live) :
    WorldKept (w.put i live) :=
  h.put hmove.grown (hmove.kept (h i))

theorem merge_kept (h : WorldKept w) (target source : ι) :
    WorldKept (w.next (target, .merge source)) := by
  rw [World.next, World.method]
  by_cases hm : Merges (w.live target) (w.carts source)
  · rw [after_ok (merge_merges hm)]
    exact h.put (mergeAll_grown _ (w.live target))
      (mergedCart_kept (w.live target) (h target) (h source) hm.2)
  · obtain ⟨e, he⟩ := merge_refused hm
    rw [after_error he]
    exact h.moved (.refl _)

theorem next_kept (h : WorldKept w) {call : Call ι} (hc : Allowed w call) :
    WorldKept (w.next call) := by
  obtain ⟨i, operation⟩ := call
  cases operation with
  | addItem itemId productRef quantity unitPrice snapshots =>
    exact h.moved (addItem_move itemId productRef quantity unitPrice snapshots)
  | removeItem lineKey => exact h.moved (removeItem_move lineKey)
  | changeItemQuantity lineKey quantity =>
    exact h.moved (changeItemQuantity_move quantity lineKey)
  | replaceItemVariant itemId oldLineKey newProductRef quantity unitPrice snapshots =>
    rw [World.next, World.method]
    by_cases hr : ∃ target, Replaces (w.live i) oldLineKey unitPrice target
    · obtain ⟨target, hr⟩ := hr
      rw [replaceItemVariant_replaces itemId newProductRef quantity unitPrice snapshots _ hr]
      exact h.put (Memory.grown_new _)
        (replacedLine_kept (h i) (findLine_mem hr.2.2) hr.2.1 (hc target hr))
    · rw [replaceItemVariant_refused itemId newProductRef quantity unitPrice snapshots _
        (not_exists.mp hr)]
      exact h.moved (.refl _)
  | clear => exact h.moved clear_move
  | assignCustomer customerRef => exact h.moved (assignCustomer_move customerRef)
  | merge source => exact merge_kept h i source
  | lock | saveForLater | abandon =>
    exact h.moved (linesMove_ensureActive fun _ => .none _ rfl rfl)
  | unlock => exact h.moved unlock_move
  | restore => exact h.moved restore_move
  | expire => exact h.moved expire_move
  | checkOut => exact h.moved checkOut_move

theorem replace_broken (h : WorldKept w) {itemId : UniqueEntityId} {oldLineKey : String}
    {newProductRef : ProductRef} {quantity : Quantity} {unitPrice : Money}
    {snapshots : CartItemSnapshots} (hc : ¬ Allowed w
      (i, .replaceItemVariant itemId oldLineKey newProductRef quantity unitPrice snapshots)) :
    ¬ Sound (w.next
      (i, .replaceItemVariant itemId oldLineKey newProductRef quantity unitPrice snapshots)) := by
  intro hsound
  apply hc
  intro target hr
  have hi := (hsound i).distinct
  rw [World.next, World.method,
    replaceItemVariant_replaces itemId newProductRef quantity unitPrice snapshots _ hr,
    World.put_carts_self, World.put_memory] at hi
  exact (replacedLine_distinct (h i) (findLine_mem hr.2.2)).mp hi

variable {target : ι}

theorem merge_next {source : ι} (hm : Merges (w.live target) (w.carts source)) :
    w.next (target, .merge source) = w.put target (mergedCart (w.live target) (w.carts source)) := by
  rw [World.next, World.method, after_ok (merge_merges hm)]

theorem merge_source_items {source : ι} (hm : Merges (w.live target) (w.carts source)) :
    ∃ more, ((w.next (target, .merge source)).carts source).items =
      (w.carts source).items ++ more := by
  rw [merge_next hm]
  by_cases hst : source = target
  · subst hst
    obtain ⟨more, -, hmore⟩ := mergeAll_items (w.carts source).items (w.live source)
    exact ⟨more, by rw [World.put_carts_self, mergedCart_items, hmore, World.live_cart]⟩
  · exact ⟨[], by rw [World.put_carts_of_ne w hst, List.append_nil]⟩

theorem merge_broken (h : WorldKept w) {source : ι} (hc : ¬ Allowed w (target, .merge source)) :
    ¬ MergeSound w (target, .merge source) := by
  intro hsound
  apply hc
  intro hm x hsource htarget
  have hlines := (hsound ⟨_, merge_merges hm⟩).2.1
  obtain ⟨more, hmore⟩ := merge_source_items hm
  rw [World.linesOf, World.linesOf, hmore, List.map_append] at hlines
  have hsame := (List.append_inj_left (hlines.trans (List.append_nil _).symm)
    (by rw [List.length_map, List.length_map]))
  have hx := List.map_inj_left.mp hsame x hsource
  have hlt := quantity_lt_mergeAll (w.live target) (h target).distinct hsource htarget
  rw [merge_next hm, World.put_memory, mergedCart_memory] at hx
  rw [Memory.quantity, Memory.quantity, hx] at hlt
  exact lt_irrefl _ hlt

theorem merge_sound (h : WorldKept w) {source : ι} (hc : Allowed w (target, .merge source)) :
    MergeSound w (target, .merge source) := by
  rintro ⟨live, hlive⟩
  have hm : Merges (w.live target) (w.carts source) := by
    by_contra hn
    obtain ⟨e, he⟩ := merge_refused hn
    rw [he] at hlive
    cases hlive
  have hapart := hc hm
  simp only [merge_next hm, World.put_carts_self, World.put_memory]
  refine ⟨?_, ?_, ?_, ?_⟩
  · intro lineKey
    exact quantityAt_mergeAll (w.live target) (h target).distinct (h source).distinct
      hapart lineKey
  · rw [World.linesOf, World.linesOf]
    by_cases hst : source = target
    · subst hst
      have hempty : (w.carts source).items = [] :=
        List.eq_nil_iff_forall_not_mem.mpr fun x hx => hapart x hx hx
      rw [World.put_carts_self, mergedCart_items, hempty, List.foldl_nil, World.live_cart, hempty]
      rfl
    · rw [World.put_carts_of_ne w hst, World.put_memory, mergedCart_memory]
      exact List.map_congr_left
        (mergeAll_unchanged (w.live target) (h source).distinct hapart)
  · by_cases hst : source = target
    · subst hst
      rw [World.put_carts_self, mergedCart_currency, World.live_cart]
    · rw [World.put_carts_of_ne w hst]
  · by_cases hst : source = target
    · subst hst
      rw [World.put_carts_self, mergedCart_status, World.live_cart]
    · rw [World.put_carts_of_ne w hst]

/-- Carts that start empty stay in order, and their merges add up and leave the source alone,
if and only if every replaced line keeps a key of its own and every merge is between carts that
hold no object in common. -/
theorem runs_sound_iff (hw : Created w) (calls : List (Call ι)) :
    Always Sound w (follow World.next w calls) ∧
        EveryStep MergeSound w (follow World.next w calls) ↔
      EveryStep Allowed w (follow World.next w calls) := by
  have hrun : Run (fun w call u => World.next w call = u) w (follow World.next w calls) :=
    run_follow (fun _ _ => rfl) w calls
  refine always_and_everyStep_iff ?_ (fun _ h i => (h i).sound) ?_ ?_ (created_kept hw) hrun
  · rintro w call u h rfl hc
    exact next_kept h hc
  · rintro w ⟨i, operation⟩ h hc
    cases operation with
    | merge source => exact merge_sound h hc
    | _ => trivial
  · rintro w ⟨i, operation⟩ u h rfl hc hmerge
    cases operation with
    | replaceItemVariant => exact replace_broken h hc
    | merge source => exact absurd hmerge (merge_broken h hc)
    | _ => exact absurd trivial hc

end Calls

section Samples

def sampleProduct : ProductRef := ⟨"shirt", by decide⟩

def samplePrice : Money := ⟨1900, "EUR", by decide⟩

def variantOf (variantRef : String) : CartItemSnapshots :=
  ⟨none, some ⟨variantRef, "", "", none⟩⟩

/-- Two guest carts in which nothing has been put. -/
def emptyCarts : World Bool where
  carts _ := ⟨⟨"cart", by decide⟩, none, "session", "EUR", .active, [], []⟩
  memory := ⟨fun _ => .create ⟨"line", by decide⟩ sampleProduct ⟨11, by decide⟩ samplePrice
    (variantOf ""), 0⟩

theorem emptyCarts_created : Created emptyCarts := fun i =>
  ⟨⟨"cart", by decide⟩, none, "session", "EUR", by cases i <;> rfl⟩

def add (cart : Bool) (variantRef : String) : Call Bool :=
  (cart, .addItem ⟨"line", by decide⟩ sampleProduct ⟨11, by decide⟩ samplePrice
    (variantOf variantRef))

/-- The guest's line is merged into the customer's cart, where it is changed. -/
theorem runs_sound_iff_merged :
    Always Sound emptyCarts (follow World.next emptyCarts
        [add true "red", add false "red", (true, .merge false),
          (true, .changeItemQuantity "red" ⟨11, by decide⟩)]) ∧
      EveryStep MergeSound emptyCarts (follow World.next emptyCarts
        [add true "red", add false "red", (true, .merge false),
          (true, .changeItemQuantity "red" ⟨11, by decide⟩)]) := by
  apply (runs_sound_iff emptyCarts_created _).mpr
  refine ⟨trivial, trivial, ?_, trivial, trivial⟩
  exact fun _ => by decide +kernel

/-- A blue line replaced by a red one beside a red one, and a cart merged a second time. -/
theorem sound_fails :
    Created emptyCarts ∧
    ¬ Always Sound emptyCarts (follow World.next emptyCarts
      [add true "red", add true "blue",
        (true, .replaceItemVariant ⟨"line", by decide⟩ "blue" sampleProduct ⟨11, by decide⟩
          samplePrice (variantOf "red"))]) ∧
    ¬ EveryStep MergeSound emptyCarts (follow World.next emptyCarts
      [add false "red", (true, .merge false), (true, .merge false)]) := by
  refine ⟨emptyCarts_created, ?_, ?_⟩
  · intro h
    exact absurd (h.last true).distinct (by decide +kernel)
  · rintro ⟨-, -, h, -⟩
    have hlines := (h ⟨_, rfl⟩).2.1
    exact absurd hlines (by decide +kernel)

end Samples

end Carts

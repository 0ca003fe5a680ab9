import Lumo.OrdersReservation
import Mathlib.Algebra.Order.BigOperators.Group.List

/-! # What a call reserves in all

A call visits the lines of the order one by one, until one throws. What it reserves at a row is
what the lines that resolve to the row have taken, and of these only the first can take. -/
namespace OrdersInventory

open SharedKernel Builtins Inventory Methods VersionedTable

structure Visit where
  line : OrderLine
  room : Stockroom

section Visits

variable (shop : Shop) (orderId : String) (ids : ℕ → String)

def visits : List OrderLine → Stockroom → List Visit
  | [], _ => []
  | line :: rest, room =>
    ⟨line, room⟩ ::
      match reserveLine shop orderId ids line room with
      | .ok _ room' => visits rest room'
      | .error _ _ => []

def Visit.row? (v : Visit) : Option (Row InventoryItem) :=
  (trackedVariant shop orderId v.line).bind fun variant =>
    servingRow shop orderId v.room.store.table v.line variant

def Visit.resolvesTo (v : Visit) (rowId : String) : Bool :=
  (v.row? shop orderId).any fun row => row.value.id.value == rowId

/-- What is available at the row that the line resolves to. -/
def Visit.available (v : Visit) : ℚ :=
  match v.row? shop orderId with
  | some row => row.value.stockLevel.available
  | none => 0

def Visit.taken (v : Visit) : ℚ :=
  match planLine shop orderId v.room.store.table v.line with
  | .reserve input => input.quantity
  | _ => 0

def visitsAt (vs : List Visit) (rowId : String) : List Visit :=
  vs.filter fun v => v.resolvesTo shop orderId rowId

def takenAt (vs : List Visit) (rowId : String) : ℚ :=
  ((visitsAt shop orderId vs rowId).map fun v => v.taken shop orderId).sum

def demandAt (vs : List Visit) (rowId : String) : ℕ :=
  ((visitsAt shop orderId vs rowId).map fun v => v.line.quantity).sum

variable {shop orderId ids} {rowId : String} {v : Visit} {vs : List Visit} {line : OrderLine}
  {room : Stockroom}

theorem visitsAt_cons_of_pos (h : v.resolvesTo shop orderId rowId = true) :
    visitsAt shop orderId (v :: vs) rowId = v :: visitsAt shop orderId vs rowId :=
  List.filter_cons_of_pos h

theorem visitsAt_cons_of_neg (h : v.resolvesTo shop orderId rowId ≠ true) :
    visitsAt shop orderId (v :: vs) rowId = visitsAt shop orderId vs rowId :=
  List.filter_cons_of_neg h

theorem takenAt_cons :
    takenAt shop orderId (v :: vs) rowId =
      (if v.resolvesTo shop orderId rowId then v.taken shop orderId else 0) +
        takenAt shop orderId vs rowId := by
  by_cases h : v.resolvesTo shop orderId rowId = true
  · rw [takenAt, visitsAt_cons_of_pos h, if_pos h, List.map_cons, List.sum_cons, takenAt]
  · rw [takenAt, visitsAt_cons_of_neg h, if_neg h, zero_add, takenAt]

theorem demandAt_cons :
    demandAt shop orderId (v :: vs) rowId =
      (if v.resolvesTo shop orderId rowId then v.line.quantity else 0) +
        demandAt shop orderId vs rowId := by
  by_cases h : v.resolvesTo shop orderId rowId = true
  · rw [demandAt, visitsAt_cons_of_pos h, if_pos h, List.map_cons, List.sum_cons, demandAt]
  · rw [demandAt, visitsAt_cons_of_neg h, if_neg h, zero_add, demandAt]

theorem demandAt_eq_zero :
    demandAt shop orderId vs rowId = 0 ↔ visitsAt shop orderId vs rowId = [] := by
  constructor
  · intro h
    cases hvs : visitsAt shop orderId vs rowId with
    | nil => rfl
    | cons v rest =>
      rw [demandAt, hvs, List.map_cons, List.sum_cons] at h
      have hpositive := v.line.positive
      omega
  · intro h
    rw [demandAt, h]
    rfl

end Visits

section Loop

variable {shop : Shop} {orderId : String} {ids : ℕ → String} {rowId : String} {v : Visit}
  {line : OrderLine} {lines : List OrderLine} {room room' : Stockroom}

theorem taken_of_reserve {variant : Variant} {row : Row InventoryItem} {input : ReserveStockInput}
    (htracked : trackedVariant shop orderId v.line = some variant)
    (hserving : servingRow shop orderId v.room.store.table v.line variant = some row)
    (hplan : planLine shop orderId v.room.store.table v.line = .reserve input) :
    v.taken shop orderId = input.quantity ∧ v.row? shop orderId = some row := by
  constructor
  · rw [Visit.taken, hplan]
  · rw [Visit.row?, htracked, Option.bind_some, hserving]

theorem resolvesTo_iff {row : Row InventoryItem} (h : v.row? shop orderId = some row) :
    v.resolvesTo shop orderId rowId = true ↔ row.value.id.value = rowId := by
  simp [Visit.resolvesTo, h]

theorem visits_cons :
    visits shop orderId ids (line :: lines) room = ⟨line, room⟩ ::
      match reserveLine shop orderId ids line room with
      | .ok _ room' => visits shop orderId ids lines room'
      | .error _ _ => [] := rfl

theorem loop_cons :
    (line :: lines).forM (reserveLine shop orderId ids) room =
      match reserveLine shop orderId ids line room with
      | .ok _ room' => lines.forM (reserveLine shop orderId ids) room'
      | .error e room' => .error e room' := by
  simp only [List.forM_eq_forM, List.forM_cons, run_bind]
  cases reserveLine shop orderId ids line room <;> rfl

variable (rowId) in
theorem takenAt_le_demandAt {vs : List Visit}
    (h : ∀ v ∈ vs, 0 ≤ v.taken shop orderId ∧ v.taken shop orderId ≤ v.line.quantity) :
    0 ≤ takenAt shop orderId vs rowId ∧
      takenAt shop orderId vs rowId ≤ demandAt shop orderId vs rowId := by
  induction vs with
  | nil => exact ⟨le_refl _, by simp [takenAt, visitsAt, demandAt]⟩
  | cons v rest ih =>
    obtain ⟨hpos, hle⟩ := h v List.mem_cons_self
    obtain ⟨hpos', hle'⟩ := ih fun v hv => h v (List.mem_cons_of_mem _ hv)
    rw [takenAt_cons, demandAt_cons]
    by_cases hat : v.resolvesTo shop orderId rowId = true
    · simp only [hat, if_true]
      push_cast
      exact ⟨by linarith, by linarith⟩
    · simp only [hat, Bool.false_eq_true, if_false]
      push_cast
      exact ⟨by linarith, by linarith⟩

variable (hids : ∀ draw, isBlank (ids draw) = false) (horder : isBlank orderId = false)

include hids horder

variable (shop rowId line) in
theorem turn_gain (hkept : Kept room.store) :
    Kept (after (reserveLine shop orderId ids line) room).store ∧
      (reservedAt orderId (after (reserveLine shop orderId ids line) room).store.table rowId : ℚ) =
        reservedAt orderId room.store.table rowId +
          if (Visit.mk line room).resolvesTo shop orderId rowId then
            (Visit.mk line room).taken shop orderId else 0 := by
  have ht := reserveLine_turn shop line hids horder hkept
  generalize hplan : planLine shop orderId room.store.table line = plan at ht
  generalize hres : reserveLine shop orderId ids line room = res at ht
  cases ht with
  | refused e | skipped =>
    simp [after, hres, Visit.taken, hplan, hkept]
  | reserved tracked serving amount positive whole fresh gain kept =>
    obtain ⟨htaken, hrow⟩ := taken_of_reserve (v := ⟨line, room⟩) tracked serving hplan
    simp only [after, hres]
    refine ⟨kept, ?_⟩
    rw [gain rowId, Nat.cast_add, htaken, amount]
    simp only [resolvesTo_iff hrow]
    congr 1
    exact Nat.cast_ite _ _ _

variable (rowId) in
theorem turn_taken (hkept : Kept room.store) :
    (0 ≤ (Visit.mk line room).taken shop orderId ∧
        (Visit.mk line room).taken shop orderId ≤ line.quantity) ∧
      (reservedAt orderId room.store.table rowId ≠ 0 →
        (Visit.mk line room).resolvesTo shop orderId rowId = true →
        (Visit.mk line room).taken shop orderId = 0) := by
  have ht := reserveLine_turn shop line hids horder hkept
  generalize hplan : planLine shop orderId room.store.table line = plan at ht
  generalize hres : reserveLine shop orderId ids line room = res at ht
  cases ht with
  | refused e | skipped => simp [Visit.taken, hplan]
  | reserved tracked serving amount positive whole fresh gain kept =>
    obtain ⟨htaken, hrow⟩ := taken_of_reserve (v := ⟨line, room⟩) tracked serving hplan
    rw [htaken, amount]
    refine ⟨⟨Nat.cast_nonneg _, ?_⟩, fun hsome hat => ?_⟩
    · rw [whole]
      exact min_le_left _ _
    · rw [resolvesTo_iff hrow] at hat
      rw [hat] at fresh
      exact absurd fresh hsome

variable (shop rowId lines) in
theorem reservedAt_after (hkept : Kept room.store) :
    Kept (after (lines.forM (reserveLine shop orderId ids)) room).store ∧
      (reservedAt orderId
          (after (lines.forM (reserveLine shop orderId ids)) room).store.table rowId : ℚ) =
        reservedAt orderId room.store.table rowId +
          takenAt shop orderId (visits shop orderId ids lines room) rowId := by
  induction lines generalizing room with
  | nil =>
    refine ⟨hkept, ?_⟩
    exact (add_zero _).symm
  | cons line rest ih =>
    obtain ⟨hkept', hgain⟩ := turn_gain shop rowId line hids horder hkept
    rw [visits_cons, takenAt_cons, ← add_assoc, ← hgain]
    cases hres : reserveLine shop orderId ids line room with
    | ok u room' =>
      rw [after_ok hres] at hkept' ⊢
      have hafter : after ((line :: rest).forM (reserveLine shop orderId ids)) room =
          after (rest.forM (reserveLine shop orderId ids)) room' := by
        simp [after, loop_cons, hres]
      rw [hafter]
      exact ih hkept'
    | error e room' =>
      rw [after_error hres] at hkept' ⊢
      have hafter : after ((line :: rest).forM (reserveLine shop orderId ids)) room = room' := by
        simp [after, loop_cons, hres]
      rw [hafter]
      refine ⟨hkept', ?_⟩
      exact (add_zero _).symm

theorem visits_kept (hkept : Kept room.store)
    (hv : v ∈ visits shop orderId ids lines room) : Kept v.room.store := by
  induction lines generalizing room with
  | nil => cases hv
  | cons line rest ih =>
    rw [visits_cons] at hv
    rcases List.mem_cons.mp hv with rfl | hv
    · exact hkept
    · have hkept' := (turn_gain shop "" line hids horder hkept).1
      cases hres : reserveLine shop orderId ids line room with
      | ok u room' =>
        rw [after_ok hres] at hkept'
        simp only [hres] at hv
        exact ih hkept' hv
      | error e room' =>
        simp only [hres] at hv
        cases hv

theorem visits_taken (hkept : Kept room.store) (hv : v ∈ visits shop orderId ids lines room) :
    0 ≤ v.taken shop orderId ∧ v.taken shop orderId ≤ v.line.quantity :=
  (turn_taken "" hids horder (visits_kept hids horder hkept hv)).1

theorem takenAt_eq_zero (hkept : Kept room.store)
    (hsome : reservedAt orderId room.store.table rowId ≠ 0) :
    takenAt shop orderId (visits shop orderId ids lines room) rowId = 0 := by
  induction lines generalizing room with
  | nil => rfl
  | cons line rest ih =>
    obtain ⟨hkept', hgain⟩ := turn_gain shop rowId line hids horder hkept
    have hfirst : (if (Visit.mk line room).resolvesTo shop orderId rowId then
        (Visit.mk line room).taken shop orderId else 0) = 0 := by
      by_cases hat : (Visit.mk line room).resolvesTo shop orderId rowId = true
      · rw [if_pos hat]
        exact (turn_taken rowId hids horder hkept).2 hsome hat
      · exact if_neg hat
    rw [hfirst, add_zero, Nat.cast_inj] at hgain
    rw [visits_cons, takenAt_cons, hfirst, zero_add]
    cases hres : reserveLine shop orderId ids line room with
    | ok u room' =>
      rw [after_ok hres] at hkept' hgain
      apply ih hkept'
      rw [hgain]
      exact hsome
    | error e room' => rfl

/-- A turn that goes on, at a row with nothing reserved yet: it takes the smaller of what the
line asks for and what is there. -/
theorem taken_of_fresh (hkept : Kept room.store)
    (hnone : reservedAt orderId room.store.table rowId = 0)
    (hres : reserveLine shop orderId ids line room = .ok ⟨⟩ room')
    (hat : (Visit.mk line room).resolvesTo shop orderId rowId = true) :
    ((Visit.mk line room).taken shop orderId = 0 ∧
        (Visit.mk line room).available shop orderId < line.quantity) ∨
      (0 < (Visit.mk line room).taken shop orderId ∧
        (Visit.mk line room).taken shop orderId =
          min (line.quantity : ℚ) ((Visit.mk line room).available shop orderId)) := by
  have ht := reserveLine_turn shop line hids horder hkept
  rw [hres] at ht
  generalize hplan : planLine shop orderId room.store.table line = plan at ht
  cases ht with
  | skipped =>
    left
    refine ⟨by simp [Visit.taken, hplan], ?_⟩
    obtain ⟨row, hrow, hid⟩ := (Option.any_eq_true _ _).mp hat
    obtain ⟨variant, htracked, hserving⟩ := Option.bind_eq_some_iff.mp hrow
    have hskip := planLine_tracked room.store.table htracked
    rw [hplan] at hskip
    rcases planTracked_skip hskip.symm hserving with hholds | hshort
    · rw [beq_iff_eq] at hid
      have hsome := reservedAt_holds (servingRow_mem hserving) hholds
      rw [hid] at hsome
      exact absurd hnone hsome
    · rw [Visit.available, hrow]
      exact hshort
  | reserved tracked serving amount positive whole fresh gain kept =>
    right
    obtain ⟨htaken, hrow⟩ := taken_of_reserve (v := ⟨line, room⟩) tracked serving hplan
    rw [htaken, amount, Visit.available, hrow]
    exact ⟨by exact_mod_cast positive, whole⟩

/-- At a row with nothing reserved yet the lines get what they ask for exactly when there is
only one of them, and the row covers it. -/
theorem supplied_iff (hkept : Kept room.store)
    (hnone : reservedAt orderId room.store.table rowId = 0)
    (hok : lines.forM (reserveLine shop orderId ids) room = .ok ⟨⟩ room') :
    takenAt shop orderId (visits shop orderId ids lines room) rowId =
        demandAt shop orderId (visits shop orderId ids lines room) rowId ↔
      (visitsAt shop orderId (visits shop orderId ids lines room) rowId).length ≤ 1 ∧
        ∀ v ∈ visitsAt shop orderId (visits shop orderId ids lines room) rowId,
          (v.line.quantity : ℚ) ≤ v.available shop orderId := by
  induction lines generalizing room with
  | nil => simp [visits, takenAt, demandAt, visitsAt]
  | cons line rest ih =>
    obtain ⟨hkept', hgain⟩ := turn_gain shop rowId line hids horder hkept
    rw [loop_cons] at hok
    cases hres : reserveLine shop orderId ids line room with
    | error e mid => simp [hres] at hok
    | ok u mid =>
      simp only [hres] at hok
      rw [after_ok hres] at hkept' hgain
      have hrest := takenAt_le_demandAt rowId
        fun v (hv : v ∈ visits shop orderId ids rest mid) => visits_taken hids horder hkept' hv
      rw [visits_cons]
      simp only [hres]
      by_cases hat : (Visit.mk line room).resolvesTo shop orderId rowId = true
      · rw [takenAt_cons, demandAt_cons, visitsAt_cons_of_pos hat, if_pos hat, if_pos hat]
        rw [if_pos hat] at hgain
        have hpositive : (0 : ℚ) < line.quantity := by exact_mod_cast line.positive
        rcases taken_of_fresh hids horder hkept hnone hres hat with ⟨hzero, hshort⟩ | ⟨hpos, hmin⟩
        · -- nothing was there for the line
          constructor
          · intro h
            rw [hzero] at h
            push_cast at h
            exfalso
            linarith [hrest.2]
          · rintro ⟨_, h⟩
            exact absurd (h _ List.mem_cons_self) (not_le.mpr hshort)
        · -- whatever comes later at the row takes nothing
          have hsome : reservedAt orderId mid.store.table rowId ≠ 0 := by
            intro hzero
            rw [hzero, hnone] at hgain
            push_cast at hgain
            linarith
          rw [takenAt_eq_zero hids horder hkept' hsome, add_zero]
          push_cast
          rw [hmin]
          have hdemand : (0 : ℚ) ≤ demandAt shop orderId (visits shop orderId ids rest mid) rowId :=
            Nat.cast_nonneg _
          constructor
          · intro h
            have hle := min_le_left (line.quantity : ℚ)
              ((Visit.mk line room).available shop orderId)
            have hzero : demandAt shop orderId (visits shop orderId ids rest mid) rowId = 0 := by
              have hcast : (demandAt shop orderId (visits shop orderId ids rest mid) rowId : ℚ) =
                  0 := by linarith
              exact_mod_cast hcast
            rw [hzero, Nat.cast_zero, add_zero, min_eq_left_iff] at h
            rw [demandAt_eq_zero.mp hzero]
            refine ⟨le_refl 1, ?_⟩
            intro v hv
            rw [List.mem_singleton.mp hv]
            exact h
          · rintro ⟨hone, hcovers⟩
            rw [min_eq_left (hcovers _ List.mem_cons_self)]
            have hnil : visitsAt shop orderId (visits shop orderId ids rest mid) rowId = [] := by
              rw [List.length_cons] at hone
              exact List.eq_nil_of_length_eq_zero (by omega)
            rw [demandAt_eq_zero.mpr hnil, Nat.cast_zero, add_zero]
      · rw [takenAt_cons, demandAt_cons, visitsAt_cons_of_neg hat, if_neg hat, if_neg hat, zero_add,
          zero_add]
        rw [if_neg hat, add_zero, Nat.cast_inj] at hgain
        exact ih hkept' (hgain.trans hnone) hok

end Loop

end OrdersInventory

/-! ## When the reservation of an order covers the order -/
namespace OrdersInventory

open SharedKernel Builtins Inventory Methods VersionedTable

section LeftToReserve

variable (shop : Shop) (orderId : String)

/-- A tracked line with no reservation of the order at its active locations, and with stock to
take at the one that is picked: all of the quantity, or any of it where selling continues. -/
def LeftToReserve (stock : Stock) (line : OrderLine) : Prop :=
  ∃ variant chosen, trackedVariant shop orderId line = some variant ∧
    reservedRow shop orderId stock line.productId variant.id = none ∧
    pickLocation (levels shop stock line.productId variant.id) line.quantity = some chosen ∧
    match variant.inventoryPolicy with
    | .deny => chosen.covers = true
    | .continue => chosen.available ≠ 0

variable {shop orderId} {stock : Stock} {line : OrderLine}

theorem leftToReserve_iff :
    LeftToReserve shop orderId stock line ↔
      ∃ input, planLine shop orderId stock line = .reserve input := by
  have hpositive : (0 : ℚ) < line.quantity := by exact_mod_cast line.positive
  constructor
  · rintro ⟨variant, chosen, htracked, hreserved, hpick, hleft⟩
    rw [planLine_tracked _ htracked, planTracked]
    simp only [hreserved, hpick]
    cases hpolicy : variant.inventoryPolicy with
    | deny =>
      rw [hpolicy] at hleft
      simp [hleft, hpositive.ne']
    | «continue» =>
      rw [hpolicy] at hleft
      have hquantity : min (line.quantity : ℚ) chosen.available ≠ 0 := by
        rcases min_choice (line.quantity : ℚ) chosen.available with hmin | hmin
        · rw [hmin]
          exact hpositive.ne'
        · rw [hmin]
          exact hleft
      simp [hquantity]
  · rintro ⟨input, hplan⟩
    obtain ⟨variant, htracked, hplan⟩ := planLine_reserve hplan
    rw [planTracked] at hplan
    split at hplan
    · cases hplan
    · rename_i hreserved
      split at hplan
      · cases hplan
      · rename_i chosen hpick
        refine ⟨variant, chosen, htracked, hreserved, hpick, ?_⟩
        cases hpolicy : variant.inventoryPolicy with
        | deny =>
          simp only [hpolicy, reduceCtorEq, not_false_eq_true, true_and, if_false] at hplan
          split at hplan
          · cases hplan
          · rename_i hcovers
            simpa using hcovers
        | «continue» =>
          simp only [hpolicy, not_true_eq_false, false_and, if_false, if_true] at hplan
          split at hplan
          · cases hplan
          · rename_i hquantity
            intro hzero
            apply hquantity
            rw [hzero]
            exact min_eq_right hpositive.le

end LeftToReserve

section Changes

variable {shop : Shop} {orderId : String} {ids : ℕ → String} {lines : List OrderLine}
  {room : Stockroom} (hids : ∀ draw, isBlank (ids draw) = false)
  (horder : isBlank orderId = false)

include hids horder

theorem loop_idle (hkept : Kept room.store) (h : ∀ v ∈ visits shop orderId ids lines room,
      ¬ LeftToReserve shop orderId v.room.store.table v.line) :
    after (lines.forM (reserveLine shop orderId ids)) room = room := by
  induction lines with
  | nil => rfl
  | cons line rest ih =>
    rw [visits_cons] at h
    have ht := reserveLine_turn shop line hids horder hkept
    have hfirst := h _ List.mem_cons_self
    generalize hplan : planLine shop orderId room.store.table line = plan at ht
    generalize hres : reserveLine shop orderId ids line room = res at ht
    cases ht with
    | refused e => simp [after, loop_cons, hres]
    | skipped =>
      simp only [hres] at h
      have hrest := ih fun v hv => h v (List.mem_cons_of_mem _ hv)
      rw [after] at hrest ⊢
      rw [loop_cons, hres]
      exact hrest
    | reserved => exact absurd (leftToReserve_iff.mpr ⟨_, hplan⟩) hfirst

theorem left_taken {v : Visit} (hkept : Kept v.room.store)
    (h : LeftToReserve shop orderId v.room.store.table v.line) :
    ∃ rowId, v.resolvesTo shop orderId rowId = true ∧ 0 < v.taken shop orderId := by
  obtain ⟨input, hplan⟩ := leftToReserve_iff.mp h
  have ht := reserveLine_turn shop v.line hids horder hkept
  rw [hplan] at ht
  generalize hres : reserveLine shop orderId ids v.line v.room = res at ht
  cases ht with
  | reserved tracked serving amount positive whole fresh gain kept =>
    obtain ⟨htaken, hrow⟩ := taken_of_reserve tracked serving hplan
    refine ⟨_, (resolvesTo_iff hrow).mpr rfl, ?_⟩
    rw [htaken, amount]
    exact_mod_cast positive

variable (shop lines) in
theorem reserved_same_iff (hkept : Kept room.store) :
    (∀ rowId, reservedAt orderId
        (after (lines.forM (reserveLine shop orderId ids)) room).store.table rowId =
          reservedAt orderId room.store.table rowId) ↔
      ∀ v ∈ visits shop orderId ids lines room,
        ¬ LeftToReserve shop orderId v.room.store.table v.line := by
  constructor
  · intro h v hv hleft
    obtain ⟨rowId, hat, hpositive⟩ := left_taken hids horder (visits_kept hids horder hkept hv) hleft
    have hsum := (reservedAt_after shop rowId lines hids horder hkept).2
    rw [h rowId, left_eq_add] at hsum
    have hmem : v.taken shop orderId ∈
        (visitsAt shop orderId (visits shop orderId ids lines room) rowId).map
          fun v => v.taken shop orderId :=
      List.mem_map.mpr ⟨v, List.mem_filter.mpr ⟨hv, hat⟩, rfl⟩
    have hle := List.single_le_sum (l := (visitsAt shop orderId
      (visits shop orderId ids lines room) rowId).map fun v => v.taken shop orderId) (by
        intro x hx
        obtain ⟨w, hw, rfl⟩ := List.mem_map.mp hx
        exact (visits_taken hids horder hkept (List.mem_filter.mp hw).1).1) _ hmem
    rw [takenAt] at hsum
    rw [hsum] at hle
    exact absurd hle (not_le.mpr hpositive)
  · intro h rowId
    rw [loop_idle hids horder hkept h]

end Changes

/-- The lines of the order, none if it cannot be loaded. -/
def Shop.lines (shop : Shop) (orderId : String) : List OrderLine :=
  match shop.getOrder orderId with
  | .ok lines => lines
  | .error _ => []

section Call

variable (shop later : Shop) (orderId : String) (ids : ℕ → String) (room laterRoom : Stockroom)

def callVisits : List Visit := visits shop orderId ids (shop.lines orderId) room

/-- The stock as the call leaves it, thrown out of or not. -/
def roomAfter : Stockroom := after (requestReservation shop orderId ids) room

def succeeds : Bool :=
  match requestReservation shop orderId ids room with
  | .ok _ _ => true
  | .error _ _ => false

/-- A row of a tracked variant of the order that is not sold when out of stock. -/
def DenyRow (rowId : String) : Prop :=
  ∃ v ∈ callVisits shop orderId ids room, ∃ variant,
    trackedVariant shop orderId v.line = some variant ∧ variant.inventoryPolicy = .deny ∧
    ∃ locationId ∈ shop.locations, ∃ row,
      rowAt v.room.store.table v.line.productId variant.id locationId = some row ∧
      row.value.id.value = rowId

/-- A success covers the order and is not made twice, and a failure reserves nothing. -/
structure ReservationSound : Prop where
  covered : succeeds shop orderId ids room = true → ∀ rowId, DenyRow shop orderId ids room rowId →
    reservedAt orderId (roomAfter shop orderId ids room).store.table rowId =
      demandAt shop orderId (callVisits shop orderId ids room) rowId
  repeatable : succeeds shop orderId ids room = true →
    (∀ rowId, reservedAt orderId (roomAfter shop orderId ids room).store.table rowId ≤
      reservedAt orderId laterRoom.store.table rowId) →
    (roomAfter later orderId ids laterRoom).store = laterRoom.store
  undone : succeeds shop orderId ids room = false → ∀ rowId,
    reservedAt orderId (roomAfter shop orderId ids room).store.table rowId =
      reservedAt orderId room.store.table rowId

/-- One line asks for the row and the row covers it, or what it held before is what they ask. -/
def AskedOnce (rowId : String) : Prop :=
  if reservedAt orderId room.store.table rowId = 0 then
    (visitsAt shop orderId (callVisits shop orderId ids room) rowId).length ≤ 1 ∧
      ∀ v ∈ visitsAt shop orderId (callVisits shop orderId ids room) rowId,
        (v.line.quantity : ℚ) ≤ v.available shop orderId
  else
    reservedAt orderId room.store.table rowId =
      demandAt shop orderId (callVisits shop orderId ids room) rowId

/-- When the call is sound: on a success each row is asked for once and a later call finds no
line left to reserve, and a failure comes before any line is left to reserve. -/
structure EachRowOnce : Prop where
  askedOnce : succeeds shop orderId ids room = true → ∀ rowId, DenyRow shop orderId ids room rowId →
    AskedOnce shop orderId ids room rowId
  settled : succeeds shop orderId ids room = true →
    (∀ rowId, reservedAt orderId (roomAfter shop orderId ids room).store.table rowId ≤
      reservedAt orderId laterRoom.store.table rowId) →
    ∀ v ∈ callVisits later orderId ids laterRoom,
      ¬ LeftToReserve later orderId v.room.store.table v.line
  failsFirst : succeeds shop orderId ids room = false → ∀ v ∈ callVisits shop orderId ids room,
    ¬ LeftToReserve shop orderId v.room.store.table v.line

variable {shop later orderId ids room laterRoom}

theorem roomAfter_loop : roomAfter shop orderId ids room =
    after ((shop.lines orderId).forM (reserveLine shop orderId ids)) room := by
  simp only [roomAfter, after, requestReservation, Shop.lines]
  cases shop.getOrder orderId with
  | error status => rfl
  | ok lines =>
    simp only [run_bind, run_pure]
    cases lines.forM (reserveLine shop orderId ids) room <;> rfl

theorem succeeds_loop (h : succeeds shop orderId ids room = true) :
    ∃ room', (shop.lines orderId).forM (reserveLine shop orderId ids) room = .ok ⟨⟩ room' := by
  simp only [succeeds, requestReservation, Shop.lines] at h ⊢
  cases hlines : shop.getOrder orderId with
  | error status => simp [hlines] at h
  | ok lines =>
    simp only [hlines, run_bind, run_pure] at h
    cases hloop : lines.forM (reserveLine shop orderId ids) room with
    | error e mid => simp [hloop] at h
    | ok u mid => exact ⟨mid, rfl⟩

theorem covered_iff (hids : ∀ draw, isBlank (ids draw) = false) (horder : isBlank orderId = false)
    (hkept : Kept room.store) (h : succeeds shop orderId ids room = true) (rowId : String) :
    reservedAt orderId (roomAfter shop orderId ids room).store.table rowId =
        demandAt shop orderId (callVisits shop orderId ids room) rowId ↔
      AskedOnce shop orderId ids room rowId := by
  have hsum := (reservedAt_after shop rowId (shop.lines orderId) hids horder hkept).2
  rw [← roomAfter_loop] at hsum
  rw [AskedOnce]
  by_cases hnone : reservedAt orderId room.store.table rowId = 0
  · obtain ⟨room', hloop⟩ := succeeds_loop h
    rw [if_pos hnone, callVisits, ← supplied_iff hids horder hkept hnone hloop]
    rw [hnone, Nat.cast_zero, zero_add] at hsum
    rw [← hsum, Nat.cast_inj]
  · rw [takenAt_eq_zero hids horder hkept hnone, add_zero, Nat.cast_inj] at hsum
    rw [if_neg hnone, hsum]

theorem requestReservation_sound_iff (hids : ∀ draw, isBlank (ids draw) = false)
    (horder : isBlank orderId = false) (hkept : Kept room.store) (hlater : Kept laterRoom.store) :
    ReservationSound shop later orderId ids room laterRoom ↔
      EachRowOnce shop later orderId ids room laterRoom := by
  have hsame (shop : Shop) {room : Stockroom} (hkept : Kept room.store) :=
    reserved_same_iff shop (shop.lines orderId) hids horder hkept
  constructor
  · rintro ⟨hcovered, hrepeatable, hundone⟩
    refine ⟨?_, ?_, ?_⟩
    · intro hok rowId hdeny
      exact (covered_iff hids horder hkept hok rowId).mp (hcovered hok rowId hdeny)
    · intro hok hheld
      apply (hsame later hlater).mp
      intro rowId
      rw [← roomAfter_loop, hrepeatable hok hheld]
    · intro hfail
      apply (hsame shop hkept).mp
      intro rowId
      rw [← roomAfter_loop]
      exact hundone hfail rowId
  · rintro ⟨hasked, hsettled, hfirst⟩
    refine ⟨?_, ?_, ?_⟩
    · intro hok rowId hdeny
      exact (covered_iff hids horder hkept hok rowId).mpr (hasked hok rowId hdeny)
    · intro hok hheld
      rw [roomAfter_loop, loop_idle hids horder hlater (hsettled hok hheld)]
    · intro hfail rowId
      rw [roomAfter_loop]
      exact (hsame shop hkept).mpr (hfirst hfail) rowId

end Call

/-! Two lines of one variant: the second is passed over, as if it were reserved. -/

def sampleShop (lines : List OrderLine) : Shop where
  getOrder _ := .ok lines
  getProduct _ := .ok ⟨[⟨"leaf", true, .deny⟩]⟩
  warehouses := [⟨⟨"north", by decide⟩, true, by decide⟩]

theorem tea_named : isBlank "tea" = false := by decide

def teaLine (quantity : ℕ) (positive : 0 < quantity) : OrderLine :=
  ⟨"tea", some "leaf", quantity, tea_named, positive⟩

/-- A shop that has received five. -/
def stockedRoom : Stockroom :=
  ⟨(transact inventoryItems (protocol sampleIds) 0 ⟨[], []⟩
    (.receiving ⟨"tea", "north", some "leaf", 5⟩)).1, 1⟩

theorem stockedRoom_kept : Kept stockedRoom.store :=
  Kept.transact ⟨.nil _, .nil⟩ _ _ _

theorem requestReservation_sound_fails :
    ¬ ∀ (shop later : Shop) (orderId : String) (ids : ℕ → String) (room laterRoom : Stockroom),
      (∀ draw, isBlank (ids draw) = false) → isBlank orderId = false → Kept room.store →
        Kept laterRoom.store → ReservationSound shop later orderId ids room laterRoom := by
  intro h
  let shop := sampleShop [teaLine 2 (by decide), teaLine 3 (by decide)]
  have hsound := h shop shop "order-1" sampleIds stockedRoom stockedRoom sampleIds_named (by decide)
    stockedRoom_kept stockedRoom_kept
  have hdeny : DenyRow shop "order-1" sampleIds stockedRoom (sampleIds 0) := by
    refine ⟨⟨teaLine 2 (by decide), stockedRoom⟩, List.mem_cons_self, ⟨"leaf", true, .deny⟩,
      by decide +kernel, rfl, "north", by decide, ?_⟩
    exact Option.map_eq_some_iff.mp (by decide +kernel)
  exact absurd (hsound.covered (by decide +kernel) _ hdeny) (by decide +kernel)

/-- One line, and the same call again in the stock that the first one left. -/
theorem requestReservation_sound_oneLine :
    let shop := sampleShop [teaLine 2 (by decide)]
    ReservationSound shop shop "order-1" sampleIds stockedRoom
      (roomAfter shop "order-1" sampleIds stockedRoom) := by
  intro shop
  have hafter : Kept (roomAfter shop "order-1" sampleIds stockedRoom).store := by
    rw [roomAfter_loop]
    exact (reservedAt_after _ "" _ sampleIds_named (by decide) stockedRoom_kept).1
  refine (requestReservation_sound_iff sampleIds_named (by decide) stockedRoom_kept hafter).mpr ?_
  refine ⟨?_, ?_, ?_⟩
  · intro _ rowId _
    have hnone : reservedAt "order-1" stockedRoom.store.table rowId = 0 := by
      have hrows : ∀ row ∈ stockedRoom.store.table, row.value.reservations = [] := by
        decide +kernel
      apply List.sum_eq_zero
      intro n hn
      obtain ⟨row, hrow, rfl⟩ := List.mem_map.mp hn
      rw [hrows row (List.mem_filter.mp hrow).1]
      rfl
    have hcovers : ∀ v ∈ callVisits shop "order-1" sampleIds stockedRoom,
        (v.line.quantity : ℚ) ≤ v.available shop "order-1" := by
      decide +kernel
    rw [AskedOnce, if_pos hnone]
    refine ⟨(List.length_filter_le _ _).trans (by decide +kernel), ?_⟩
    intro v hv
    exact hcovers v (List.mem_filter.mp hv).1
  · intro _ _ v hv hleft
    have hskip : ∀ v ∈ callVisits shop "order-1" sampleIds
        (roomAfter shop "order-1" sampleIds stockedRoom),
        planLine shop "order-1" v.room.store.table v.line = .skip := by
      decide +kernel
    obtain ⟨input, hplan⟩ := leftToReserve_iff.mp hleft
    rw [hskip v hv] at hplan
    cases hplan
  · intro hfail
    exact absurd hfail (by decide +kernel)

end OrdersInventory

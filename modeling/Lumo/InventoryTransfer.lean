import Lumo.InventoryRuns

/-! # A transfer conserves stock

Two rows are saved in one transaction, over whatever other calls have saved since they were
read. -/
namespace Inventory

open SharedKernel Builtins Methods LabelledRuns VersionedTable

/-- What is on hand at all warehouses together. -/
def onHandTotal (stock : Stock) : ℚ := (stock.map fun row => row.value.stockLevel.onHand).sum

variable {ι : Type} {stock : Stock} {input : TransferStockInput} {ids : ℕ → String}

/-- The destination among the stored rows, unless the transfer has to open it. -/
def stored (destination : Row InventoryItem) : Stock :=
  if destination.version = 0 then [] else [destination]

/-- The quantity leaves what is free at the source and arrives at the destination, and every
other row stays as it was. -/
structure Transferred (input : TransferStockInput) (t u : Stock)
    (source destination : Row InventoryItem) (others : Stock) : Prop where
  before : t.Perm (source :: (stored destination ++ others))
  after : u.Perm (⟨{ source.value with stockLevel :=
        ⟨source.value.stockLevel.onHand - input.quantity, source.value.stockLevel.reserved⟩ },
      source.version + 1⟩ ::
    ⟨{ destination.value with stockLevel :=
        ⟨destination.value.stockLevel.onHand + input.quantity,
          destination.value.stockLevel.reserved⟩ }, destination.version + 1⟩ :: others)
  opened : destination.version = 0 → destination.value.stockLevel = .zero ∧
    destination.value.reservations = []
  products : source.value.product.value = input.productId ∧
    destination.value.product.value = input.productId
  warehouses : source.value.warehouseId.value = trim input.sourceWarehouseId ∧
    destination.value.warehouseId.value = trim input.destinationWarehouseId
  positive : 0 < input.quantity
  free : input.quantity ≤ source.value.stockLevel.available

theorem Transferred.conserves {t u others : Stock} {source destination : Row InventoryItem}
    (h : Transferred input t u source destination others) : onHandTotal u = onHandTotal t := by
  rw [onHandTotal, onHandTotal, (h.after.map _).sum_eq, (h.before.map _).sum_eq]
  simp only [List.map_cons, List.map_append, List.sum_cons, List.sum_append]
  by_cases hnew : destination.version = 0
  · rw [stored, if_pos hnew, (h.opened hnew).1]
    simp only [StockLevel.zero, List.map_nil, List.sum_nil]
    ring
  · rw [stored, if_neg hnew]
    simp only [List.map_cons, List.map_nil, List.sum_cons, List.sum_nil]
    ring

section Commits

variable {store store' : Store InventoryItem Adjusted} {t : Stock}
  {source destination : Row InventoryItem} {s s' : Save InventoryItem Adjusted}

/-- Two saves in one transaction, of a row that was read and of another one or a new one. -/
theorem commit_both (hw₀ : WellKept inventoryItems t)
    (hw : WellKept inventoryItems store.table) (hp : Precedes inventoryItems t store.table)
    (hsource : source ∈ t) (hdestination : Source t destination)
    (hdiffer : source.value.warehouseId ≠ destination.value.warehouseId)
    (hid : s.row.value.id = source.value.id) (hversion : s.row.version = source.version)
    (hid' : s'.row.value.id = destination.value.id)
    (hversion' : s'.row.version = destination.version)
    (h : commit inventoryItems store [s, s'] = some store') :
    ∃ others, store.table.Perm (source :: (stored destination ++ others)) ∧
      store'.table.Perm (⟨s.row.value, source.version + 1⟩ ::
        ⟨s'.row.value, destination.version + 1⟩ :: others) := by
  obtain ⟨mid, hs, h⟩ := commit_cons.mp h
  obtain ⟨last, hs', h⟩ := commit_cons.mp h
  cases h
  have hsaved := save_saved hw hs
  have hwm := hsaved.wellKept hw
  have hsaved' := save_saved hwm hs'
  obtain ⟨others, hbefore, hmid⟩ :=
    hsaved.replaces hw hp hsource (congrArg UniqueEntityId.value hid.symm) hversion.symm
  rw [hversion] at hmid
  by_cases hnew : destination.version = 0
  · refine ⟨others, ?_, ?_⟩
    · rw [stored, if_pos hnew]
      exact hbefore
    · rw [hnew]
      refine (hsaved'.inserts (hversion'.trans hnew)).trans ?_
      exact (hmid.cons _).trans (List.Perm.swap _ _ _)
  · have hmem : destination ∈ t := hdestination.resolve_right fun hfresh => hnew hfresh.1
    have hkeys : destination.value.id.value ≠ source.value.id.value := by
      intro he
      apply hdiffer
      rw [List.inj_on_of_nodup_map hw₀.keys hmem hsource he]
    obtain ⟨others', hbefore', hafter⟩ := hsaved'.replaces hwm (hp.trans hsaved.precedes) hmem
      (congrArg UniqueEntityId.value hid'.symm) hversion'.symm
    rw [hversion'] at hafter
    -- the destination is among the rows that the first save left alone
    have hrest : destination ∈ others := by
      have hin : destination ∈ mid.table := hbefore'.mem_iff.mpr List.mem_cons_self
      rcases List.mem_cons.mp (hmid.mem_iff.mp hin) with heq | hin
      · refine absurd ?_ hkeys
        rw [heq]
        exact congrArg UniqueEntityId.value hid
      · exact hin
    obtain ⟨before, after, rfl⟩ := List.append_of_mem hrest
    refine ⟨before ++ after, ?_, ?_⟩
    · rw [stored, if_neg hnew]
      exact hbefore.trans (List.perm_middle.cons _)
    · have hothers : others'.Perm (⟨s.row.value, source.version + 1⟩ :: (before ++ after)) := by
        apply List.Perm.cons_inv (a := destination)
        refine hbefore'.symm.trans (hmid.trans ?_)
        exact (List.perm_middle.cons _).trans (List.Perm.swap _ _ _)
      exact (hafter.trans (hothers.cons _)).trans (List.Perm.swap _ _ _)

end Commits

theorem transferStock_answer {draw : ℕ} {k' : Point}
    (h : transferStock ids input draw stock = .answer k') (output : Output) :
    k' ≠ .finished (.ok output) := by
  rintro rfl
  rw [transferStock, checked.eq_def] at h
  split at h
  · cases h
  · simp only at h
    split at h
    · cases h
    · split at h
      · cases h
      · rw [moveBoth] at h
        split at h
        · cases h
        · split at h
          · cases h
          · cases h

/-- The stock at the start is any well-kept table, and no call has begun. -/
def Stocked {ι : Type} (s : State InventoryItem Adjusted Point ι) : Prop :=
  WellKept inventoryItems s.store.table ∧ Quiet s

theorem reachable_wellKept [DecidableEq ι] {s : State InventoryItem Adjusted Point ι}
    (h : Reachable Stocked (Step inventoryItems (protocol ids)) s) :
    Coherent inventoryItems (protocol ids) (fun _ => True) s := by
  refine reachable_coherent (J := fun _ _ => True) (fun s h => h.2) (fun s h => ⟨h.1, trivial⟩)
    ?_ ?_ h
  · intro k b d store saves k' _ _ _ _ s _
    trivial
  · intro t store s store' _ _ _ _ _
    trivial

/-- Whatever step a transfer takes, from any stock and among any other calls: it succeeds and
has moved the quantity, or it leaves every row as it was. -/
theorem transferStock_conserves [DecidableEq ι] (ids : ℕ → String)
    {s u : State InventoryItem Adjusted Point ι} {l : Label ι}
    (h : Reachable Stocked (Step inventoryItems (protocol ids)) s)
    (hc : (s.calls l.call).point? = some (.transferring input))
    (hst : Step inventoryItems (protocol ids) s l u) :
    (∃ source destination others,
      Transferred input s.store.table u.store.table source destination others ∧
      onHandTotal u.store.table = onHandTotal s.store.table ∧
      u.calls l.call = .ready (.finished (.ok (.transferred
        (source.value.stockLevel.available - input.quantity)
        (destination.value.stockLevel.available + input.quantity))))) ∨
    u.store = s.store ∧ ∀ output, u.calls l.call ≠ .ready (.finished (.ok output)) := by
  cases step_move hst with
  | @answer c k b k' hready hb ho =>
    right
    refine ⟨rfl, ?_⟩
    intro output
    rw [Label.call, hready] at hc
    cases hc
    cases hb
    simp only [State.setCall, Label.call, Function.update_self]
    intro he
    cases he
    exact transferStock_answer ho output rfl
  | begin hready hb ho =>
    right
    refine ⟨rfl, ?_⟩
    intro output
    simp [State.setCall, Label.call]
  | @commit c k saves k' store hsaving hcommit =>
    left
    rw [Label.call, hsaving] at hc
    cases hc
    have hco := reachable_wellKept h
    obtain ⟨b, d, store₀, hb, ho, hw₀, _, hp⟩ := hco.pending _ _ _ _ hsaving
    cases hb
    obtain ⟨quantity, source, destination, hquantity, hsource, hdestination, hproduct, hproduct',
      hwarehouse, hwarehouse', hdiffer, hboth⟩ := transferStock_save ho
    obtain ⟨out, into, hout, hinto, rfl, rfl⟩ := moveBoth_save hboth
    obtain ⟨others, hbefore, hafter⟩ := commit_both hw₀ hco.wellKept hp hsource hdestination
      (by
        intro he
        apply hdiffer
        rw [← hwarehouse, ← hwarehouse', he])
      hout.same.1 rfl hinto.same.1 rfl hcommit
    cases hout with
    | transferredOut _ enough =>
      cases hinto with
      | transferredIn =>
        have hmoved : Transferred input s.store.table store.table source destination others := by
          refine ⟨hbefore, ?_, ?_, ⟨hproduct, hproduct'⟩, ⟨hwarehouse, hwarehouse'⟩, ?_, ?_⟩
          · rw [← hquantity]
            exact hafter
          · intro hnew
            rcases hdestination with hmem | ⟨_, _, _, _, _, hcreated⟩
            · exact absurd hnew (hw₀.saved _ hmem)
            · rw [hcreated]
              exact ⟨rfl, rfl⟩
          · rw [← hquantity]
            exact_mod_cast quantity.positive
          · rw [← hquantity]
            exact enough
        refine ⟨source, destination, others, hmoved, hmoved.conserves, ?_⟩
        simp only [State.setCall, Label.call, Function.update_self, ← hquantity,
          StockLevel.available, StockLevel.receive]
        rw [sub_right_comm, add_sub_right_comm]
  | lose hsaving hnone =>
    right
    refine ⟨rfl, ?_⟩
    intro output
    simp [State.setCall, Label.call, protocol]
  | crash =>
    right
    refine ⟨rfl, ?_⟩
    intro output
    simp [State.setCall, Label.call]

/-! A transfer of what an order has left free. -/

def transferThree : State InventoryItem Adjusted Point ℕ :=
  let s := opening [.receiving receiveFive, .reserving (reserveTwo "order-1"),
    .transferring ⟨"tea", none, "north", "south", 3⟩]
  lastState s (attempt (next inventoryItems (protocol sampleIds)) s
    [.read 0, .write 0, .read 1, .write 1, .read 2])

def transferSaved : State InventoryItem Adjusted Point ℕ :=
  (next inventoryItems (protocol sampleIds) transferThree (.write 2)).getD transferThree

theorem transferStock_conserves_free :
    (∃ source destination others,
      Transferred ⟨"tea", none, "north", "south", 3⟩ transferThree.store.table
        transferSaved.store.table source destination others ∧
      onHandTotal transferSaved.store.table = onHandTotal transferThree.store.table ∧
      transferSaved.calls 2 = .ready (.finished (.ok (.transferred
        (source.value.stockLevel.available - 3) (destination.value.stockLevel.available + 3))))) ∨
    transferSaved.store = transferThree.store ∧
      ∀ output, transferSaved.calls 2 ≠ .ready (.finished (.ok output)) := by
  refine transferStock_conserves sampleIds (l := .write 2) ?_ ?_ ?_
  · exact Run.reachable (.start ⟨.nil _, (opening_quiet _).2⟩) (run_attempt _ _ _)
  · decide +kernel
  · have hsome : (next inventoryItems (protocol sampleIds) transferThree (.write 2)).isSome := by
      decide +kernel
    obtain ⟨u, hu⟩ := Option.isSome_iff_exists.mp hsome
    rw [Step, transferSaved, hu]
    rfl

end Inventory

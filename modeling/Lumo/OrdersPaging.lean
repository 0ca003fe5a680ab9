import Lumo.Builtins
import Lumo.CursorPages
import Mathlib.Order.Lattice

/-! # The pages of the orders

The orders of a tenant, the latest first. The search is part of the query; the status is compared
after the rows are read, in batches. -/
namespace Orders

open Builtins CursorPages SharedKernel

variable {κ : Type} [LinearOrder κ]

/-- An order as the list shows it. Identifiers have the order of their column. -/
structure ListedOrder (κ : Type) where
  id : κ
  orderNumber : String
  customerRef : String
  status : String

structure OrderListQuery (κ : Type) where
  first : Option ℤ
  after : Option κ
  status : Option String
  search : Option String

structure OrdersTable (κ : Type) where
  rows : List (ListedOrder κ)
  distinct : (rows.map ListedOrder.id).Nodup

def STATUS_FILTER_SCAN_CAP : ℕ := 500

section Listing

variable (contains : String → String → Bool) (table : OrdersTable κ)

/-- The comparison that ignores case is the database's. -/
def searchFilter (search : Option String) (order : ListedOrder κ) : Bool :=
  match search with
  | none => true
  | some search =>
    isBlank search || contains order.orderNumber (trim search) ||
      contains order.customerRef (trim search)

def selects (after : Option κ) (search : Option String) (order : ListedOrder κ) : Bool :=
  after.all (fun after => order.id < after) && searchFilter contains search order

/-- The rows of the query, without its limit. -/
def listing (search : Option String) (after : Option κ) : List (ListedOrder κ) :=
  (table.rows.filter (selects contains after search)).insertionSort fun a b => b.id ≤ a.id

def fetchOrders (after : Option κ) (take : ℕ) (search : Option String) : List (ListedOrder κ) :=
  (listing contains table search after).take take

structure Scan (κ : Type) where
  found : List (ListedOrder κ)
  cursor : Option κ
  scanned : ℕ
  exhausted : Bool

def addMatches (limit : ℕ) (status : String) (found batch : List (ListedOrder κ)) :
    List (ListedOrder κ) :=
  batch.foldl (fun found order =>
    if order.status = status ∧ found.length ≤ limit then found ++ [order] else found) found

def scanBatches (limit : ℕ) (status : String) (search : Option String) : ℕ → Scan κ → Scan κ
  | 0, scan => scan
  | fuel + 1, scan =>
    if scan.found.length ≤ limit ∧ scan.scanned < STATUS_FILTER_SCAN_CAP then
      let batchSize := max (limit * 4) 50
      let batch := fetchOrders contains table scan.cursor batchSize search
      if batch = [] then { scan with exhausted := true }
      else
        let scan : Scan κ :=
          { found := addMatches limit status scan.found batch
            cursor := batch.getLast?.map ListedOrder.id
            scanned := scan.scanned + batch.length
            exhausted := batch.length < batchSize }
        if scan.exhausted then scan else scanBatches limit status search fuel scan
    else scan

/-- Every batch but an empty one counts, and so the loop ends before the fuel does. -/
def fetchStatusFilteredPage (after : Option κ) (limit : ℕ) (status : String)
    (search : Option String) : Page (ListedOrder κ) κ :=
  let scan := scanBatches contains table limit status search (STATUS_FILTER_SCAN_CAP + 1)
    ⟨[], after, 0, false⟩
  if limit < scan.found.length then
    let items := scan.found.take limit
    ⟨items, true, items.getLast?.map ListedOrder.id⟩
  else
    ⟨scan.found, !scan.exhausted,
      if scan.exhausted then scan.found.getLast?.map ListedOrder.id else scan.cursor⟩

def list (query : OrderListQuery κ) : Page (ListedOrder κ) κ :=
  let limit := normalizePageSize query.first
  match query.status with
  | some status => fetchStatusFilteredPage contains table query.after limit status query.search
  | none =>
    buildPaginatedPage (fetchOrders contains table query.after (limit + 1) query.search) limit
      ListedOrder.id

end Listing

section Rows

variable {contains : String → String → Bool} {table : OrdersTable κ} {search : Option String}
  {after : Option κ} {order last : ListedOrder κ} {seen rest : List (ListedOrder κ)}

theorem mem_listing : order ∈ listing contains table search after ↔
    order ∈ table.rows ∧ selects contains after search order = true := by
  rw [listing, (List.perm_insertionSort _ _).mem_iff, List.mem_filter]

/-- The latest first, and none twice. -/
theorem listing_descending : (listing contains table search after).Pairwise fun a b => b.id < a.id := by
  have hsorted : (listing contains table search after).Pairwise fun a b => b.id ≤ a.id :=
    List.pairwise_insertionSort _ _
  have hperm : (listing contains table search after).Perm _ := List.perm_insertionSort _ _
  have hdistinct : (listing contains table search after).Pairwise fun a b => a.id ≠ b.id := by
    refine List.pairwise_map.mp ((hperm.map ListedOrder.id).nodup_iff.mpr ?_)
    exact table.distinct.sublist (List.filter_sublist.map _)
  exact (hsorted.and hdistinct).imp fun h => lt_of_le_of_ne h.1 h.2.symm

theorem selects_some {cursor : κ} (h : ∀ a, after = some a → cursor < a) :
    selects contains (some cursor) search order = true ↔
      selects contains after search order = true ∧ order.id < cursor := by
  cases after with
  | none => simp [selects, and_comm]
  | some a =>
    have hlt := h a rfl
    simp only [selects, Option.all_some, Bool.and_eq_true, decide_eq_true_eq]
    constructor
    · rintro ⟨hid, hsearch⟩
      exact ⟨⟨hid.trans hlt, hsearch⟩, hid⟩
    · rintro ⟨⟨-, hsearch⟩, hid⟩
      exact ⟨hid, hsearch⟩

omit [LinearOrder κ] in
theorem eq_of_descending [Preorder κ] {l l' : List (ListedOrder κ)}
    (h : l.Pairwise fun a b => b.id < a.id) (h' : l'.Pairwise fun a b => b.id < a.id)
    (hmem : ∀ o, o ∈ l ↔ o ∈ l') : l = l' := by
  have hnodup {l : List (ListedOrder κ)} (h : l.Pairwise fun a b => b.id < a.id) : l.Nodup :=
    h.imp fun hlt heq => (heq ▸ hlt).false
  exact ((List.perm_ext_iff_of_nodup (hnodup h) (hnodup h')).mpr hmem).eq_of_pairwise
    (fun _ _ _ _ hab hba => (lt_asymm hab hba).elim) h h'

/-- A listing goes on from any of its orders. -/
theorem listing_after (h : listing contains table search after = seen ++ last :: rest) :
    listing contains table search (some last.id) = rest := by
  have hdesc : (listing contains table search after).Pairwise fun a b => b.id < a.id :=
    listing_descending
  rw [h, List.pairwise_append, List.pairwise_cons] at hdesc
  obtain ⟨hseen, ⟨hlast, hrest⟩, hbefore⟩ := hdesc
  have hselected := (mem_listing.mp (h ▸ List.mem_append_right seen List.mem_cons_self)).2
  have hcursor : ∀ a, after = some a → last.id < a := by
    rintro a rfl
    simp only [selects, Option.all_some, Bool.and_eq_true, decide_eq_true_eq] at hselected
    exact hselected.1
  refine eq_of_descending listing_descending hrest fun o => ?_
  rw [mem_listing, selects_some hcursor, ← and_assoc, ← mem_listing, h, List.mem_append,
    List.mem_cons]
  constructor
  · rintro ⟨ho | rfl | ho, hlt⟩
    · exact absurd (hbefore o ho last List.mem_cons_self) hlt.asymm
    · exact absurd hlt (lt_irrefl _)
    · exact ho
  · intro ho
    exact ⟨.inr (.inr ho), hlast o ho⟩

end Rows

section Pages

variable {contains : String → String → Bool} {table : OrdersTable κ} {search : Option String}
  {after : Option κ} {limit fuel : ℕ} {status : String} {seen rest : List (ListedOrder κ)}

theorem listing_getLast (hne : seen ≠ [])
    (h : listing contains table search after = seen ++ rest) :
    listing contains table search (seen.getLast?.map ListedOrder.id) = rest := by
  obtain ⟨before, last, rfl⟩ := List.eq_nil_or_concat seen |>.resolve_left hne
  rw [List.concat_eq_append, List.append_assoc] at h
  simpa using listing_after h

/-- A query takes the first of the rows, and all of them when it gets fewer than it asks for. -/
theorem fetchOrders_split (contains : String → String → Bool) (table : OrdersTable κ)
    (search : Option String) (after : Option κ) (take : ℕ) : ∃ rest,
      listing contains table search after = fetchOrders contains table after take search ++ rest ∧
        ((fetchOrders contains table after take search).length < take → rest = []) := by
  refine ⟨_, (List.take_append_drop take _).symm, fun h => List.drop_of_length_le ?_⟩
  rw [fetchOrders, List.length_take] at h
  omega

/-- What the scan knows of the rows that it has passed. -/
structure Scanned (contains : String → String → Bool) (table : OrdersTable κ)
    (search : Option String) (after : Option κ) (limit : ℕ) (status : String)
    (seen : List (ListedOrder κ)) (scan : Scan κ) : Prop where
  rows : listing contains table search after =
    seen ++ listing contains table search scan.cursor
  found : scan.found = (seen.filter fun o => o.status = status).take (limit + 1)
  scanned : scan.scanned = seen.length
  exhausted : scan.exhausted = true → listing contains table search scan.cursor = []

omit [LinearOrder κ] in
theorem addMatches_eq (l batch : List (ListedOrder κ)) :
    addMatches limit status (l.take (limit + 1)) batch =
      (l ++ batch.filter fun o => o.status = status).take (limit + 1) := by
  induction batch generalizing l with
  | nil => rw [addMatches, List.foldl_nil, List.filter_nil, List.append_nil]
  | cons o batch ih =>
    rw [addMatches, List.foldl_cons]
    by_cases hstatus : o.status = status
    · have hpush : (if o.status = status ∧ (l.take (limit + 1)).length ≤ limit then
          l.take (limit + 1) ++ [o] else l.take (limit + 1)) = (l ++ [o]).take (limit + 1) := by
        by_cases hfull : l.length ≤ limit
        · rw [List.take_of_length_le (by omega), if_pos ⟨hstatus, hfull⟩,
            List.take_of_length_le (by simp; omega)]
        · rw [if_neg (by simp; omega), List.take_append_of_le_length (by omega)]
      rw [hpush, ← addMatches, ih, List.filter_cons_of_pos (by simpa using hstatus),
        List.append_assoc, List.singleton_append]
    · rw [if_neg fun h => hstatus h.1, ← addMatches, ih,
        List.filter_cons_of_neg (by simpa using hstatus)]

theorem scanBatches_scanned {scan : Scan κ}
    (h : Scanned contains table search after limit status seen scan)
    (hfuel : STATUS_FILTER_SCAN_CAP < scan.scanned + fuel) :
    ∃ seen', Scanned contains table search after limit status seen'
        (scanBatches contains table limit status search fuel scan) ∧
      ((scanBatches contains table limit status search fuel scan).exhausted = true ∨
        limit < (scanBatches contains table limit status search fuel scan).found.length ∨
          STATUS_FILTER_SCAN_CAP ≤
            (scanBatches contains table limit status search fuel scan).scanned) := by
  induction fuel generalizing scan seen with
  | zero => exact ⟨seen, h, .inr (.inr (by simpa [scanBatches] using hfuel.le))⟩
  | succ fuel ih =>
    rw [scanBatches]
    by_cases hopen : scan.found.length ≤ limit ∧ scan.scanned < STATUS_FILTER_SCAN_CAP
    · obtain ⟨rest, hrest, hshort⟩ := fetchOrders_split contains table search scan.cursor
        (max (limit * 4) 50)
      simp only [hopen, and_self, if_true]
      generalize fetchOrders contains table scan.cursor (max (limit * 4) 50) search = batch at *
      by_cases hempty : batch = []
      · rw [if_pos hempty]
        refine ⟨seen, ⟨h.rows, h.found, h.scanned, fun _ => ?_⟩, .inl rfl⟩
        rw [hrest, hempty, hshort (by simp [hempty])]
        rfl
      · rw [if_neg hempty]
        have hcursor := listing_getLast hempty hrest
        have hnext : Scanned contains table search after limit status (seen ++ batch)
            ⟨addMatches limit status scan.found batch, batch.getLast?.map ListedOrder.id,
              scan.scanned + batch.length, batch.length < max (limit * 4) 50⟩ := by
          refine ⟨?_, ?_, ?_, ?_⟩
          · rw [h.rows, hrest, hcursor, List.append_assoc]
          · rw [h.found, addMatches_eq, List.filter_append]
          · rw [h.scanned, List.length_append]
          · intro hexhausted
            rw [hcursor]
            exact hshort (of_decide_eq_true hexhausted)
        split
        · rename_i hexhausted
          exact ⟨_, hnext, .inl hexhausted⟩
        · refine ih hnext ?_
          have := List.length_pos_of_ne_nil hempty
          simp only
          omega
    · rw [if_neg hopen]
      refine ⟨seen, h, .inr ?_⟩
      by_cases hfull : scan.found.length ≤ limit
      · exact .inr (not_lt.mp fun hlt => hopen ⟨hfull, hlt⟩)
      · exact .inl (not_le.mp hfull)

omit [LinearOrder κ] in
/-- The last of the first matches stands somewhere in the list. -/
theorem exists_last_match {p : ListedOrder κ → Bool} (hpos : 0 < limit)
    (h : limit < (seen.filter p).length) : ∃ before last later, seen = before ++ last :: later ∧
      (seen.filter p).take limit = (before ++ [last]).filter p ∧
        ((seen.filter p).take limit).getLast? = some last := by
  have hlength : ((seen.filter p).take limit).length = limit := by
    rw [List.length_take]
    omega
  obtain ⟨first, last, hitems⟩ := List.eq_nil_or_concat ((seen.filter p).take limit)
    |>.resolve_left (by rintro hnil; rw [hnil] at hlength; simp at hlength; omega)
  rw [List.concat_eq_append] at hitems
  have hsplit : seen.filter p = first ++ (last :: (seen.filter p).drop limit) := by
    conv_lhs => rw [← List.take_append_drop limit (seen.filter p), hitems]
    simp
  obtain ⟨before, others, rfl, hbefore, hothers⟩ := List.filter_eq_append_iff.mp hsplit
  obtain ⟨skipped, later, rfl, hskipped, hlast, -⟩ := List.filter_eq_cons_iff.mp hothers
  refine ⟨before ++ skipped, last, later, by simp, ?_, by rw [hitems]; simp⟩
  have hnone : skipped.filter p = [] := by
    rw [List.filter_eq_nil_iff]
    exact hskipped
  rw [hitems, List.filter_append, List.filter_append, hbefore, hnone]
  simp [hlast]

theorem statusFiltered_progresses (hpos : 0 < limit) :
    Progresses (fun after => fetchStatusFilteredPage contains table after limit status search)
      (listing contains table search) (Option.guard fun o => o.status = status) := by
  intro after
  have hstart : Scanned contains table search after limit status [] ⟨[], after, 0, false⟩ :=
    ⟨rfl, rfl, rfl, fun h => by cases h⟩
  obtain ⟨seen, h, hend⟩ := scanBatches_scanned hstart
    (show STATUS_FILTER_SCAN_CAP < 0 + (STATUS_FILTER_SCAN_CAP + 1) by omega)
  have hfilter (l : List (ListedOrder κ)) :
      l.filterMap (Option.guard fun o => o.status = status) = l.filter fun o => o.status = status :=
    congrFun List.filterMap_eq_filter l
  simp only [fetchStatusFilteredPage, hfilter]
  generalize scanBatches contains table limit status search (STATUS_FILTER_SCAN_CAP + 1)
    ⟨[], after, 0, false⟩ = scan at *
  by_cases hfull : limit < scan.found.length
  · rw [if_pos hfull]
    have hmany : limit < (seen.filter fun o => o.status = status).length := by
      rw [h.found, List.length_take] at hfull
      omega
    obtain ⟨before, last, later, hseen, hitems, hlast⟩ := exists_last_match hpos hmany
    have hfound : scan.found.take limit = (seen.filter fun o => o.status = status).take limit := by
      rw [h.found, List.take_take, min_eq_left (by omega)]
    have hrows := h.rows
    rw [hseen, List.append_assoc, List.cons_append] at hrows
    refine .inr ⟨rfl, before ++ [last], by simp, ?_, ?_⟩
    · rw [hfound, hlast, Option.map_some, listing_after hrows, hrows]
      simp
    · rw [hfound, hitems]
  · rw [if_neg hfull]
    have hfound : scan.found = seen.filter fun o => o.status = status := by
      rw [h.found, List.length_take] at hfull
      rw [h.found, List.take_of_length_le (by omega)]
    cases hexhausted : scan.exhausted with
    | true =>
      refine .inl ⟨rfl, ?_⟩
      rw [h.rows, h.exhausted hexhausted, List.append_nil, hfound]
    | false =>
      refine .inr ⟨rfl, seen, ?_, h.rows, hfound⟩
      rintro rfl
      have hscanned := h.scanned
      rw [List.length_nil] at hscanned
      simp [hexhausted, hfull, hscanned, STATUS_FILTER_SCAN_CAP] at hend

theorem unfiltered_progresses (hpos : 0 < limit) :
    Progresses (fun after => buildPaginatedPage
      (fetchOrders contains table after (limit + 1) search) limit ListedOrder.id)
      (listing contains table search) some := by
  intro after
  have hsplit := (List.take_append_drop limit (listing contains table search after)).symm
  simp only [buildPaginatedPage, fetchOrders, List.filterMap_some, List.length_take, List.take_take,
    min_eq_left (Nat.le_succ limit)]
  by_cases hmore : limit < (listing contains table search after).length
  · have hover : limit < min (limit + 1) (listing contains table search after).length := by omega
    have hne : (listing contains table search after).take limit ≠ [] := by
      intro hnil
      have hlength := congrArg List.length hnil
      rw [List.length_take, List.length_nil] at hlength
      omega
    simp only [hover, decide_true, if_true]
    exact .inr ⟨trivial, _, hne, by rw [listing_getLast hne hsplit]; exact hsplit, rfl⟩
  · have hover : ¬ limit < min (limit + 1) (listing contains table search after).length := by omega
    simp only [hover, decide_false, Bool.false_eq_true, if_false]
    exact .inl ⟨trivial, List.take_of_length_le (by omega)⟩

def statusMatches (status : Option String) (order : ListedOrder κ) : Bool :=
  status.all fun status => order.status = status

theorem list_progresses (query : OrderListQuery κ) :
    Progresses (fun after => list contains table { query with after })
      (listing contains table query.search) (Option.guard (statusMatches query.status ·)) := by
  have hpos := normalizePageSize_pos query.first
  cases hstatus : query.status with
  | some status =>
    simp only [list]
    exact statusFiltered_progresses hpos
  | none =>
    simp only [list]
    exact unfiltered_progresses hpos

/-- The pages of a query visit its orders, the latest first, each once, and end. -/
theorem list_visits (contains : String → String → Bool) (table : OrdersTable κ)
    (query : OrderListQuery κ) : ∃ fuel orders,
    follow (fun after => list contains table { query with after }) fuel query.after = some orders ∧
      (orders.Pairwise fun a b => b.id < a.id) ∧
        ∀ order, order ∈ orders ↔ order ∈ table.rows ∧
          selects contains query.after query.search order = true ∧
            statusMatches query.status order = true := by
  refine ⟨_, _, follow_complete (list_progresses query) (Nat.lt_succ_self _), ?_, ?_⟩
  · rw [List.filterMap_eq_filter]
    exact listing_descending.filter _
  · intro order
    rw [List.filterMap_eq_filter, List.mem_filter, mem_listing, and_assoc]

end Pages

end Orders

import Lumo.FallibleFolds
import Lumo.KeyedLines
import Lumo.OrdersSalesPeriods
import Lumo.OrdersStorage

/-! # The sales summary

The read model over the orders of one shop: each order of the range in the shop's currency is
counted on its day, and the days that were not measured are filled in. -/
namespace OrdersSales

open SharedKernel Builtins Orders OrdersStorage FallibleFolds KeyedLines

structure SalesSummaryInput where
  fromDay : String
  toDay : String
  timezone : String
  currency : String
  includeOpenOrderIds : Option Bool

structure DailySales where
  date : String
  salesMinor : ℤ
  orders : ℕ

structure TopProduct where
  productRef : String
  variantRef : Option String
  name : String
  variantTitle : Option String
  quantity : ℕ
  salesMinor : ℤ

structure SalesSummary where
  totalSalesMinor : ℤ
  ordersCount : ℕ
  averageOrderValueMinor : ℤ
  daily : List DailySales
  topProducts : List TopProduct
  otherCurrencyOrders : ℕ
  openOrderIds : List String

def TOP_PRODUCTS_LIMIT : ℕ := 5

def averageOrderValueMinor (totalSalesMinor : ℤ) (ordersCount : ℕ) : ℤ :=
  if ordersCount = 0 then 0 else (totalSalesMinor * 2 + ordersCount) / (ordersCount * 2)

/-- `a || b`, as the comparisons of the source are chained. -/
def orElse (a b : ℚ) : ℚ := if a ≠ 0 then a else b

def rankTopProducts (text : TextOps) (rows : List TopProduct) : List TopProduct :=
  (sortBy (fun a b =>
    orElse ((b.quantity : ℚ) - a.quantity)
      (orElse ((b.salesMinor : ℚ) - a.salesMinor)
        (orElse (text.localeCompare a.name b.name)
          (orElse (text.localeCompare a.productRef b.productRef)
            (text.localeCompare (a.variantRef.getD "") (b.variantRef.getD "")))))) rows).take
    TOP_PRODUCTS_LIMIT

structure SalesSummaryParts where
  fromDay : String
  toDay : String
  measuredDays : List DailySales
  topProducts : List TopProduct
  otherCurrencyOrders : ℕ
  openOrderIds : List String

def assembleSalesSummary (text : TextOps) (parts : SalesSummaryParts) : SalesSummary :=
  let byDate := OrderedMap.ofEntries (parts.measuredDays.map fun day => (day.date, day))
  let daily := (enumerateDays parts.fromDay parts.toDay).map fun date => {
    date := date
    salesMinor := ((byDate.find? date).map DailySales.salesMinor).getD 0
    orders := ((byDate.find? date).map DailySales.orders).getD 0 : DailySales }
  let totalSalesMinor := daily.foldl (fun sum day => sum + day.salesMinor) 0
  let ordersCount := daily.foldl (fun sum day => sum + day.orders) 0
  {
    totalSalesMinor := totalSalesMinor
    ordersCount := ordersCount
    averageOrderValueMinor := averageOrderValueMinor totalSalesMinor ordersCount
    daily := daily
    topProducts := rankTopProducts text parts.topProducts
    otherCurrencyOrders := parts.otherCurrencyOrders
    openOrderIds := parts.openOrderIds }

def isCancelled (order : OrderAggregate) : Bool :=
  order.history.any fun entry => entry.type == .cancelled

def isRefunded (order : OrderAggregate) : Bool :=
  order.history.any fun entry => [OrderEventType.refunded, .refundRequested].contains entry.type

def isOpenOrder (order : OrderAggregate) : Bool :=
  !order.history.any fun entry => entry.type == .cancelled || entry.type == .closed

def placedAt (order : OrderAggregate) : Except DomainError ℤ :=
  match order.history.head? with
  | none => .error (.businessRule "Order has no history")
  | some first => .ok first.occurredAt

structure DayTotals where
  salesMinor : ℤ
  orders : ℕ

structure PlacedOrder where
  order : OrderAggregate
  day : String

def salesOf (order : OrderAggregate) : Except DomainError ℤ :=
  if isRefunded order then .ok 0 else order.order.totalAmount.map fun total => total.amountMinor

def addToDay (days : OrderedMap String DayTotals) (placed : PlacedOrder) :
    Except DomainError (OrderedMap String DayTotals) := do
  let salesMinor ← salesOf placed.order
  let day := (days.find? placed.day).getD ⟨0, 0⟩
  return days.set placed.day ⟨day.salesMinor + salesMinor, day.orders + 1⟩

def productKey (line : OrderLine) : String :=
  line.snapshot.productId ++ "\u0000" ++
    ((line.snapshot.variant.map ProductSnapshotVariant.variantRef).getD "")

def addProduct (products : OrderedMap String TopProduct) (line : OrderLine) :
    OrderedMap String TopProduct :=
  let existing := products.find? (productKey line)
  products.set (productKey line) {
    productRef := line.snapshot.productId
    variantRef := line.snapshot.variant.map ProductSnapshotVariant.variantRef
    name := line.snapshot.name
    variantTitle := line.snapshot.variant.bind ProductSnapshotVariant.variantTitle
    quantity := (existing.map TopProduct.quantity).getD 0 + line.quantity
    salesMinor := (existing.map TopProduct.salesMinor).getD 0 +
      (Order.lineTotal line.item).amountMinor }

/-- The day of an instant in a zone is asked of the language. -/
def summarize (text : TextOps) (localDay : ℤ → String → String) (orders : List OrderAggregate)
    (input : SalesSummaryInput) : Except DomainError SalesSummary := do
  let placed ← orders.mapM fun order => do
    return (⟨order, localDay (← placedAt order) input.timezone⟩ : PlacedOrder)
  let inRange := placed.filter fun placed =>
    !decide (placed.day < input.fromDay) && decide (placed.day < input.toDay) &&
      !isCancelled placed.order
  let counted := inRange.filter fun placed => placed.order.currency == input.currency
  let days ← counted.foldlM addToDay .empty
  let measuredDays := days.entries.map fun (date, day) =>
    (⟨date, day.salesMinor, day.orders⟩ : DailySales)
  let sold := (counted.filter fun placed => !isRefunded placed.order).flatMap fun placed =>
    placed.order.items
  let products := sold.foldl addProduct .empty
  return assembleSalesSummary text {
    fromDay := input.fromDay
    toDay := input.toDay
    measuredDays := measuredDays
    topProducts := products.values
    otherCurrencyOrders := inRange.length - counted.length
    openOrderIds := if input.includeOpenOrderIds = some true
      then (orders.filter isOpenOrder).map fun order => order.id.value
      else [] }

section Assembled

variable {text : TextOps} {parts : SalesSummaryParts}

theorem assembled_sums (text : TextOps) (parts : SalesSummaryParts) :
    (assembleSalesSummary text parts).totalSalesMinor =
        ((assembleSalesSummary text parts).daily.map DailySales.salesMinor).sum ∧
      (assembleSalesSummary text parts).ordersCount =
        ((assembleSalesSummary text parts).daily.map DailySales.orders).sum := by
  rw [List.sum_eq_foldl, List.sum_eq_foldl, List.foldl_map, List.foldl_map]
  exact ⟨rfl, rfl⟩

theorem assembled_days (text : TextOps) (parts : SalesSummaryParts) :
    (assembleSalesSummary text parts).daily.map DailySales.date =
      enumerateDays parts.fromDay parts.toDay := by
  rw [assembleSalesSummary, List.map_map]
  exact List.map_id' _

end Assembled

def salesMinorOf (placed : PlacedOrder) : ℤ :=
  match salesOf placed.order with
  | .ok salesMinor => salesMinor
  | .error _ => 0

def gathered (counted : List PlacedOrder) : OrderedMap String DayTotals :=
  counted.foldl (fun days placed => days.set placed.day
    ⟨((days.find? placed.day).getD ⟨0, 0⟩).salesMinor + salesMinorOf placed,
      ((days.find? placed.day).getD ⟨0, 0⟩).orders + 1⟩) .empty

theorem addToDay_ok {days days' : OrderedMap String DayTotals} {placed : PlacedOrder}
    (h : addToDay days placed = .ok days') :
    days' = days.set placed.day
      ⟨((days.find? placed.day).getD ⟨0, 0⟩).salesMinor + salesMinorOf placed,
        ((days.find? placed.day).getD ⟨0, 0⟩).orders + 1⟩ := by
  rw [addToDay] at h
  rw [salesMinorOf]
  cases hsales : salesOf placed.order with
  | error e =>
    rw [hsales] at h
    cases h
  | ok salesMinor =>
    rw [hsales] at h
    cases h
    rfl

theorem gathered_sales (counted : List PlacedOrder) (date : String) :
    (((gathered counted).find? date).getD ⟨0, 0⟩).salesMinor =
      totalAt PlacedOrder.day salesMinorOf counted date := by
  have hfold := totalAt_foldl PlacedOrder.day salesMinorOf (⟨0, 0⟩ : DayTotals)
    (fun day placed => ⟨day.salesMinor + salesMinorOf placed, day.orders + 1⟩)
    DayTotals.salesMinor (fun _ _ => rfl) counted .empty date
  exact hfold.trans (Int.zero_add _)

theorem gathered_orders (counted : List PlacedOrder) (date : String) :
    (((gathered counted).find? date).getD ⟨0, 0⟩).orders =
      totalAt PlacedOrder.day (fun _ => 1) counted date := by
  have hfold := totalAt_foldl PlacedOrder.day (fun _ => 1) (⟨0, 0⟩ : DayTotals)
    (fun day placed => ⟨day.salesMinor + salesMinorOf placed, day.orders + 1⟩)
    DayTotals.orders (fun _ _ => rfl) counted .empty date
  exact hfold.trans (Nat.zero_add _)

def measuredDays (days : OrderedMap String DayTotals) : List DailySales :=
  days.entries.map fun (date, day) => ⟨date, day.salesMinor, day.orders⟩

theorem find_measuredDays (days : OrderedMap String DayTotals) (date : String) :
    (OrderedMap.ofEntries ((measuredDays days).map fun day => (day.date, day))).find? date =
      (days.find? date).map fun day => ⟨date, day.salesMinor, day.orders⟩ := by
  have hentries : (measuredDays days).map (fun day => (day.date, day)) =
      (days.mapValues fun date day =>
        (⟨date, day.salesMinor, day.orders⟩ : DailySales)).entries := by
    rw [measuredDays, List.map_map]
    rfl
  have hdistinct := (days.mapValues fun date day =>
    (⟨date, day.salesMinor, day.orders⟩ : DailySales)).distinct
  rw [hentries, OrderedMap.find?, OrderedMap.entries_ofEntries hdistinct]
  ext day
  rw [← OrderedMap.find?, OrderedMap.find?_eq_some, OrderedMap.mem_mapValues]
  simp only [Option.map_eq_some_iff, OrderedMap.find?_eq_some]

section Summarized

variable {text : TextOps} {localDay : ℤ → String → String} {orders : List OrderAggregate}
  {input : SalesSummaryInput} {summary : SalesSummary}

def placedOrder (localDay : ℤ → String → String) (timezone : String) (order : OrderAggregate) :
    PlacedOrder where
  order := order
  day := match placedAt order with
    | .ok occurredAt => localDay occurredAt timezone
    | .error _ => ""

/-- The orders of the range, never cancelled, in the currency of the shop. -/
def countedOrders (localDay : ℤ → String → String) (orders : List OrderAggregate)
    (input : SalesSummaryInput) : List PlacedOrder :=
  ((orders.map (placedOrder localDay input.timezone)).filter fun placed =>
    !decide (placed.day < input.fromDay) && decide (placed.day < input.toDay) &&
      !isCancelled placed.order).filter fun placed => placed.order.currency == input.currency

theorem placedOrder_ok {order : OrderAggregate} {placed : PlacedOrder}
    (h : (do return (⟨order, localDay (← placedAt order) input.timezone⟩ : PlacedOrder)) =
      (.ok placed : Except DomainError PlacedOrder)) :
    placed = placedOrder localDay input.timezone order := by
  rw [placedOrder]
  cases hplaced : placedAt order with
  | error e =>
    rw [hplaced] at h
    cases h
  | ok occurredAt =>
    rw [hplaced] at h
    cases h
    rfl

/-- A summary is assembled from the counted orders, gathered by their days. -/
theorem summarize_parts (h : summarize text localDay orders input = .ok summary) :
    ∃ parts, summary = assembleSalesSummary text parts ∧ parts.fromDay = input.fromDay ∧
      parts.toDay = input.toDay ∧
      parts.measuredDays = measuredDays (gathered (countedOrders localDay orders input)) ∧
      ∀ order ∈ orders, ∃ occurredAt, placedAt order = .ok occurredAt := by
  rw [summarize] at h
  cases hplaced : orders.mapM (m := Except DomainError) fun order => do
      return (⟨order, localDay (← placedAt order) input.timezone⟩ : PlacedOrder) with
  | error e =>
    rw [hplaced] at h
    cases h
  | ok placed =>
    have hmap := eq_map_of_mapM (fun _ _ => placedOrder_ok) hplaced
    have hall (order : OrderAggregate) (horder : order ∈ orders) :
        ∃ occurredAt, placedAt order = .ok occurredAt := by
      obtain ⟨_, hok⟩ := ok_of_mapM hplaced horder
      cases hat : placedAt order with
      | error e =>
        rw [hat] at hok
        cases hok
      | ok occurredAt => exact ⟨occurredAt, rfl⟩
    rw [hplaced, ok_bind, hmap] at h
    cases hdays : (countedOrders localDay orders input).foldlM addToDay .empty with
    | error e =>
      rw [countedOrders] at hdays
      dsimp only at h
      rw [hdays] at h
      cases h
    | ok days =>
      have hfold := eq_foldl_of_foldlM (fun _ _ _ => addToDay_ok) hdays
      rw [countedOrders] at hdays
      dsimp only at h
      rw [hdays, ok_bind, hfold] at h
      cases h
      exact ⟨_, rfl, rfl, rfl, rfl, hall⟩

/-- The days that the zone shows are days of the calendar, in the pattern of the ranges. -/
def ShowsDays (localDay : ℤ → String → String) (orders : List OrderAggregate) (timezone : String) :
    Prop :=
  ∀ order ∈ orders, ∀ occurredAt, placedAt order = .ok occurredAt →
    (parseUtcDay (localDay occurredAt timezone)).isSome = true

theorem counted_day (hvalid : validateSalesRange input.fromDay input.toDay = none)
    (hshows : ShowsDays localDay orders input.timezone)
    (hplaced : ∀ order ∈ orders, ∃ occurredAt, placedAt order = .ok occurredAt)
    {placed : PlacedOrder} (h : placed ∈ countedOrders localDay orders input) :
    placed.day ∈ enumerateDays input.fromDay input.toDay := by
  obtain ⟨hrange, -⟩ := List.mem_filter.mp h
  obtain ⟨hmem, hrange⟩ := List.mem_filter.mp hrange
  obtain ⟨order, horder, rfl⟩ := List.mem_map.mp hmem
  obtain ⟨occurredAt, hoccurred⟩ := hplaced order horder
  have hday : (placedOrder localDay input.timezone order).day =
      localDay occurredAt input.timezone := by
    rw [placedOrder, hoccurred]
  obtain ⟨time, hparsed⟩ := Option.isSome_iff_exists.mp (hshows order horder occurredAt hoccurred)
  obtain ⟨n, hfour, htext, -⟩ := parseUtcDay_eq_some hparsed
  obtain ⟨first, count, hspans, -⟩ := (validateSalesRange_eq_none ⟨_, _⟩).mp hvalid
  rw [hday, htext] at hrange ⊢
  rw [hspans.mem_enumerateDays hfour]
  simp only [Bool.and_eq_true, Bool.not_eq_true', decide_eq_false_iff_not,
    decide_eq_true_eq] at hrange
  exact hrange.1

theorem totalAt_one {α : Type} (key : α → String) (l : List α) (date : String) :
    totalAt key (fun _ => 1) l date = (l.filter fun a => key a = date).length := by
  rw [totalAt, List.map_const', List.sum_replicate, nsmul_one, Nat.cast_id]

/-- What a summary shows of its orders. -/
structure Exact (summary : SalesSummary) (counted : List PlacedOrder) : Prop where
  total_daily : summary.totalSalesMinor = (summary.daily.map DailySales.salesMinor).sum
  count_daily : summary.ordersCount = (summary.daily.map DailySales.orders).sum
  total_counted : summary.totalSalesMinor = (counted.map salesMinorOf).sum
  count_counted : summary.ordersCount = counted.length
  one_day : ∀ placed ∈ counted,
    (summary.daily.filter fun day => day.date = placed.day).length = 1
  rows : ∀ day ∈ summary.daily,
    day.orders = (counted.filter fun placed => placed.day = day.date).length ∧
      day.salesMinor = ((counted.filter fun placed => placed.day = day.date).map
        salesMinorOf).sum

theorem summarize_exact (h : summarize text localDay orders input = .ok summary)
    (hvalid : validateSalesRange input.fromDay input.toDay = none)
    (hshows : ShowsDays localDay orders input.timezone) :
    summary.daily.map DailySales.date = enumerateDays input.fromDay input.toDay ∧
      Exact summary (countedOrders localDay orders input) := by
  obtain ⟨parts, rfl, hfrom, hto, hmeasured, hplaced⟩ := summarize_parts h
  have hsums := assembled_sums text parts
  have hdays := assembled_days text parts
  rw [hfrom, hto] at hdays
  generalize hcounted : countedOrders localDay orders input = counted at hmeasured ⊢
  have hmem : ∀ placed ∈ counted, placed.day ∈ enumerateDays input.fromDay input.toDay := by
    rw [← hcounted]
    exact fun placed => counted_day hvalid hshows hplaced
  have hnodup : (enumerateDays input.fromDay input.toDay).Nodup := by
    obtain ⟨first, count, hspans, -⟩ := (validateSalesRange_eq_none ⟨_, _⟩).mp hvalid
    refine hspans.enumerateDays_pairwise.imp ?_
    intro date other hlt heq
    rw [heq] at hlt
    exact String.lt_irrefl _ hlt
  have hrows : (assembleSalesSummary text parts).daily =
      (enumerateDays input.fromDay input.toDay).map fun date =>
        (⟨date, totalAt PlacedOrder.day salesMinorOf counted date,
          totalAt PlacedOrder.day (fun _ => 1) counted date⟩ : DailySales) := by
    rw [assembleSalesSummary, hfrom, hto, hmeasured]
    refine List.map_congr_left fun date _ => ?_
    rw [find_measuredDays, ← gathered_sales, ← gathered_orders]
    cases (gathered counted).find? date <;> rfl
  refine ⟨hdays, ⟨hsums.1, hsums.2, ?_, ?_, ?_, ?_⟩⟩
  · rw [hsums.1, hrows, List.map_map]
    exact sum_totalAt salesMinorOf hnodup hmem
  · rw [hsums.2, hrows, List.map_map]
    refine (sum_totalAt (fun _ => 1) hnodup hmem).trans ?_
    simp
  · intro placed hplaced
    have hcount := List.count_eq_one_of_mem hnodup (hmem placed hplaced)
    rw [← hdays, List.count_eq_countP, List.countP_map, List.countP_eq_length_filter] at hcount
    refine Eq.trans ?_ hcount
    congr 1
  · intro day hday
    rw [hrows] at hday
    obtain ⟨date, -, rfl⟩ := List.mem_map.mp hday
    exact ⟨totalAt_one PlacedOrder.day counted date, rfl⟩

end Summarized

/-- A valid range lists each of its days once, in order, and the range before it, as long as it
has days of four digits in their years, is as long and ends the day before. So does that of a preset
with the length that the preset promises, but that of the month to date, which is as many days of
the last month from its first, or all of it where it is shorter. A summary sums its daily rows, and
counts each order of the range on one day. -/
theorem sales_periods (text : TextOps) (localDay : ℤ → String → String) :
    (∀ range : SalesRange, validateSalesRange range.fromDay range.toDay = none →
      ∃ first count, range.Spans first count ∧ count ≤ 366 ∧
        enumerateDays range.fromDay range.toDay = daysFrom first count ∧
        (enumerateDays range.fromDay range.toDay).Pairwise (· < ·) ∧
        (∀ n, FourDigit n → (dayText n ∈ enumerateDays range.fromDay range.toDay ↔
          first ≤ n ∧ n < first + count)) ∧
        (FourDigit (first - count) →
          (previousSalesRange range.fromDay range.toDay).Spans (first - count) count ∧
          (previousSalesRange range.fromDay range.toDay).toDay = range.fromDay)) ∧
    (∀ (preset : SalesRangePreset) (today : ℤ), preset ≠ .month → FourDigit today →
      FourDigit (preset.stop today) →
      FourDigit (preset.stop today - preset.length today - preset.length today) →
      (resolveSalesRange preset (dayText today)).Spans (preset.stop today - preset.length today)
        (preset.length today) ∧
      ∃ previous, previousPresetRange preset (dayText today) = some previous ∧
        previous.Spans (preset.stop today - preset.length today - preset.length today)
          (preset.length today) ∧
        previous.toDay = (resolveSalesRange preset (dayText today)).fromDay) ∧
    (∀ today : ℤ, FourDigit today → FourDigit (today + 1) → 100 ≤ (Calendars.ofDay today).year →
      (resolveSalesRange .month (dayText today)).Spans
        (lastMonthFirst today + lastMonthLength today) (Calendars.ofDay today).day ∧
      ∃ previous, previousPresetRange .month (dayText today) = some previous ∧
        previous.Spans (lastMonthFirst today)
          (min (Calendars.ofDay today).day (lastMonthLength today))) ∧
    ∀ (orders : List OrderAggregate) (input : SalesSummaryInput) (summary : SalesSummary),
      summarize text localDay orders input = .ok summary →
      validateSalesRange input.fromDay input.toDay = none →
      ShowsDays localDay orders input.timezone →
      summary.daily.map DailySales.date = enumerateDays input.fromDay input.toDay ∧
        Exact summary (countedOrders localDay orders input) := by
  refine ⟨?_, ?_, ?_, fun orders input summary => summarize_exact⟩
  · intro range h
    obtain ⟨first, count, hspans, hcount⟩ := (validateSalesRange_eq_none range).mp h
    refine ⟨first, count, hspans, hcount, hspans.enumerateDays, hspans.enumerateDays_pairwise,
      ?_, ?_⟩
    · intro n hn
      rw [hspans.mem_enumerateDays hn, hspans.fromDay, hspans.toDay,
        dayText_lt_iff hn hspans.first_fourDigit, dayText_lt_iff hn hspans.last_fourDigit, not_lt]
    · intro hbefore
      have hprevious := hspans.previous hbefore
      refine ⟨hprevious, ?_⟩
      rw [hprevious.toDay, hspans.fromDay, Int.sub_add_cancel]
  · intro preset today hpreset htoday hstop hfirst
    have hrange := resolveSalesRange_spans htoday hstop
      (hfirst.between hstop (by omega) (by omega))
    obtain ⟨previous, hprevious, hspans⟩ := previousPresetRange_spans hpreset htoday hstop hfirst
    refine ⟨hrange, previous, hprevious, hspans, ?_⟩
    rw [hspans.toDay, hrange.fromDay, Int.sub_add_cancel]
  · intro today htoday hstop hyear
    refine ⟨?_, previousMonth_spans htoday hyear⟩
    rw [lastMonth_adjacent]
    exact resolveSalesRange_spans htoday hstop (monthStart_text htoday).1

/-- An order of 15.00, placed a second after the epoch. -/
def nileOrder : OrderAggregate where
  id := ⟨"order-nile", by decide⟩
  version := 1
  orderNumber := ⟨"N-1", by decide⟩
  customerRef := "customer"
  currency := "EGP"
  items := []
  shippingAddress := ⟨"2 Nile Street", "Cairo", "11511", "EG", ⟨none, none, none, none⟩, by decide⟩
  history := [⟨⟨"event-nile", by decide⟩, .placed, 1000⟩]
  billingAddress := none
  totals := some ⟨1500, 0, 0, 0, 1500, "EGP", none, none, none, none, none⟩
  checkoutRef := none
  paymentRef := none
  fulfillmentRef := none

theorem sales_periods_samples :
    (enumerateDays "2024-02-28" "2024-03-02").Pairwise (· < ·) ∧
      (∃ previous, previousPresetRange .month (dayText 19813) = some previous ∧
        previous.Spans (lastMonthFirst 19813) 29) ∧
      ∃ summary, summarize ⟨toUpperCase, id, fun _ _ => 0⟩ (fun t _ => isoSlice t) [nileOrder]
          ⟨"1970-01-01", "1970-01-08", "UTC", "EGP", none⟩ = .ok summary ∧
        summary.ordersCount = 1 ∧ summary.totalSalesMinor = 1500 := by
  obtain ⟨hranges, -, hmonth, hsummary⟩ :=
    sales_periods ⟨toUpperCase, id, fun _ _ => 0⟩ fun t _ => isoSlice t
  have hleap : validateSalesRange "2024-02-28" "2024-03-02" = none := by decide +kernel
  obtain ⟨-, -, -, -, -, hordered, -⟩ := hranges ⟨"2024-02-28", "2024-03-02"⟩ hleap
  have hfour : FourDigit 19813 := ⟨by decide, by decide⟩
  have hnext : FourDigit (19813 + 1) := ⟨by decide, by decide⟩
  obtain ⟨-, hprevious⟩ := hmonth 19813 hfour hnext (by decide +kernel)
  have hlength : min (Calendars.ofDay 19813).day (lastMonthLength 19813) = 29 := by decide +kernel
  rw [hlength] at hprevious
  have hweek : validateSalesRange "1970-01-01" "1970-01-08" = none := by decide +kernel
  have hshows : ShowsDays (fun t _ => isoSlice t) [nileOrder] "UTC" := by
    intro order horder occurredAt hplaced
    rw [List.mem_singleton.mp horder] at hplaced
    cases hplaced
    decide +kernel
  obtain ⟨-, hexact⟩ := hsummary [nileOrder] ⟨"1970-01-01", "1970-01-08", "UTC", "EGP", none⟩ _ rfl
    hweek hshows
  refine ⟨hordered, hprevious, _, rfl, hexact.count_counted.trans ?_, hexact.total_counted.trans ?_⟩
  · decide +kernel
  · decide +kernel

/-- The month to date is compared with days that do not adjoin it, and a range at the start of the
calendar with a day that has no text of the pattern. -/
theorem periods_not_adjacent :
    previousPresetRange .month "2026-10-13" = some ⟨"2026-09-01", "2026-09-14"⟩ ∧
      (resolveSalesRange .month "2026-10-13").fromDay = "2026-10-01" ∧
      validateSalesRange "0000-01-01" "0000-01-02" = none ∧
      (previousSalesRange "0000-01-01" "0000-01-02").fromDay = "-000001-12" := by
  decide +kernel

end OrdersSales

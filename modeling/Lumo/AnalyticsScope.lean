import Lumo.AnalyticsResults

/-! # The scope of a result

What the values of a query are computed from: the meaning of the metrics, group by group, and the
rows that the filters leave. -/
namespace Analytics

open Builtins DepthFirst SharedKernel

section Totals

variable {numberText : ℚ → String} {registry : SemanticRegistry} {store : AnalyticsReadStore}
  {query : SemanticQuery} {plan : QueryPlan} {keys : List String} {rows : List SemanticResultRow}
  {id : String} {ids : List String} {metric : MetricDefinition}

def SemanticResultRow.value (row : SemanticResultRow) (id : String) : ℚ :=
  (row.metrics.find? id).getD 0

theorem mem_plan (hplan : registry.plan query = .ok plan) : metric ∈ plan.baseMetrics ↔
    ∃ id, (∃ root ∈ query.metricIds, Relation.ReflTransGen (Needs registry.dependencies) root id) ∧
      registry.metrics.find? id = some (.definition metric) := by
  obtain ⟨metrics, hresolved, rfl⟩ := map_eq_ok.mp hplan
  obtain ⟨order, -, hreached, rfl⟩ := resolveOrder_ok hresolved
  simp only [mem_baseMetrics, hreached]

theorem Returned.map_value (h : Returned numberText registry store query plan keys rows)
    (hid : id ∈ query.metricIds) (hmetric : registry.metrics.find? id = some (.definition metric)) :
    rows.map (·.value id) =
      keys.map fun key => groupValue numberText registry store query key metric := by
  have hvalues := h.values
  clear h
  induction hvalues with
  | nil => rfl
  | cons hfirst _ ih =>
    obtain ⟨value, hfound, hmeaning⟩ := hfirst id hid
    rw [List.map_cons, List.map_cons, ih, SemanticResultRow.value, hfound, Option.getD_some,
      hmeaning.unique (.definition hmetric)]

theorem Returned.sum_value (h : Returned numberText registry store query plan keys rows)
    (hplan : registry.plan query = .ok plan) (hdims : query.dimensionIds ≠ [])
    (hid : id ∈ query.metricIds) (hmetric : registry.metrics.find? id = some (.definition metric))
    (hadds : metric.aggregation = .sum ∨ metric.aggregation = .count) :
    (rows.map (·.value id)).sum = aggregate
      (readRows registry store query metric.binding.readModelId) metric.binding.physicalField
        metric.aggregation := by
  obtain ⟨f, hf⟩ := aggregate_additive hadds metric.binding.physicalField
  have htouches : Touches registry plan query metric.binding.readModelId := by
    exact .inr ⟨metric, (mem_plan hplan).mpr ⟨id, ⟨id, hid, .refl⟩, hmetric⟩, rfl⟩
  rw [h.map_value hid hmetric, hf]
  simp only [groupValue, groupRows, if_pos hdims, hf]
  exact sum_groups f h.distinct fun row hrow => (h.groups hdims _).mpr ⟨_, htouches, row, hrow, rfl⟩

/-- The values of some metrics in a group. -/
def Values (numberText : ℚ → String) (registry : SemanticRegistry) (store : AnalyticsReadStore)
    (query : SemanticQuery) (ids : List String) (key : String) : List ℚ → Prop :=
  List.Forall₂ (fun id => Meaning registry (groupValue numberText registry store query key) (.ref id))
    ids

theorem Returned.forall₂_values (h : Returned numberText registry store query plan keys rows)
    (hids : ∀ id ∈ ids, id ∈ query.metricIds) :
    List.Forall₂ (Values numberText registry store query ids) keys
      (rows.map fun row => ids.map row.value) := by
  refine List.forall₂_map_right_iff.mpr (h.values.imp fun key row hrow => ?_)
  refine List.forall₂_map_right_iff.mpr (List.forall₂_same.mpr fun id hid => ?_)
  obtain ⟨value, hfound, hmeaning⟩ := hrow id (hids id hid)
  rwa [SemanticResultRow.value, hfound]

theorem Returned.perm_keys {plan' : QueryPlan} {keys' : List String} {rows' : List SemanticResultRow}
    (h : Returned numberText registry store query plan keys rows)
    (h' : Returned numberText registry store { query with metricIds := ids } plan' keys' rows')
    (hplan : registry.plan query = .ok plan)
    (hplan' : registry.plan { query with metricIds := ids } = .ok plan')
    (hids : ∀ id, id ∈ ids ↔ id ∈ query.metricIds) : keys.Perm keys' := by
  by_cases hdims : query.dimensionIds = []
  · rw [h.single hdims, h'.single hdims]
  have htouches (readModelId : String) : Touches registry plan query readModelId ↔
      Touches registry plan' { query with metricIds := ids } readModelId := by
    simp only [Touches, mem_plan hplan, mem_plan hplan', hids]
  refine (List.perm_ext_iff_of_nodup h.distinct h'.distinct).mpr fun key => ?_
  rw [h.groups hdims, h'.groups hdims]
  simp only [htouches]
  rfl

end Totals

/-- Planning fails exactly when a reference that can be reached is missing or lies on a cycle. What
is returned for a metric is its meaning over the rows of the group, in whatever order and how often
the metrics are asked for, and sums and counts of the groups add up to the total. -/
theorem execute_meaning (numberText : ℚ → String) (registry : SemanticRegistry)
    (store : AnalyticsReadStore) (query : SemanticQuery) :
    ((∃ e, registry.plan query = .error e) ↔
      ∃ id ∈ query.metricIds, Stuck registry.dependencies id) ∧
    (∀ rows, execute numberText registry store query = .ok rows → ∃ plan keys,
      registry.plan query = .ok plan ∧
        Returned numberText registry store query plan keys rows) ∧
    (∀ key expression x y,
      Meaning registry (groupValue numberText registry store query key) expression x →
        Meaning registry (groupValue numberText registry store query key) expression y → x = y) ∧
    (∀ metricIds rows rows', (∀ id, id ∈ metricIds ↔ id ∈ query.metricIds) →
      execute numberText registry store query = .ok rows →
        execute numberText registry store { query with metricIds } = .ok rows' →
          (rows.map fun row => metricIds.map row.value).Perm
            (rows'.map fun row => metricIds.map row.value)) ∧
    ∀ rows totals, query.dimensionIds ≠ [] → execute numberText registry store query = .ok rows →
      execute numberText registry store { query with dimensionIds := [] } = .ok totals →
        ∃ total, totals = [total] ∧ ∀ id ∈ query.metricIds, ∀ metric,
          registry.metrics.find? id = some (.definition metric) →
            metric.aggregation = .sum ∨ metric.aggregation = .count →
              (rows.map (·.value id)).sum = total.value id := by
  refine ⟨?_, fun rows h => ?_, fun _ _ _ _ hx hy => hx.unique hy,
    fun metricIds rows rows' hids h h' => ?_, fun rows totals hdims h htotals => ?_⟩
  · rw [← resolveOrder_error_iff, SemanticRegistry.plan]
    cases registry.resolveOrder query.metricIds <;> simp [Except.map]
  · obtain ⟨plan, keys, hplan, hreturned, -⟩ := execute_returned h
    exact ⟨plan, keys, hplan, hreturned⟩
  · obtain ⟨plan, keys, hplan, hreturned, -⟩ := execute_returned h
    obtain ⟨plan', keys', hplan', hreturned', -⟩ := execute_returned h'
    have hunique : Relator.RightUnique (Values numberText registry store query metricIds) :=
      fun _ _ _ hx hy => List.right_unique_forall₂' (fun _ _ _ hx hy => hx.unique hy) hx hy
    exact List.rel_perm_imp hunique (hreturned.forall₂_values fun id hid => (hids id).mp hid)
      (hreturned'.forall₂_values fun _ hid => hid) (hreturned.perm_keys hreturned' hplan hplan' hids)
  · obtain ⟨plan, keys, hplan, hreturned, -⟩ := execute_returned h
    obtain ⟨plan', keys', -, htotal, -⟩ := execute_returned htotals
    obtain rfl := htotal.single rfl
    obtain ⟨total, rfl⟩ : ∃ total, totals = [total] := by
      cases htotal.values with
      | cons _ hrest =>
        cases hrest
        exact ⟨_, rfl⟩
    refine ⟨total, rfl, fun id hid metric hmetric hadds => ?_⟩
    have hvalue := htotal.map_value hid hmetric
    rw [hreturned.sum_value hplan hdims hid hmetric hadds]
    simpa [groupValue, groupRows, readRows] using hvalue.symm

/-! A shop that sold on two days, and has one article in stock. -/

def salesRegistry : SemanticRegistry where
  metrics := ⟨[("revenue", .definition ⟨"revenue", .sum, ⟨"sales", "amount"⟩⟩),
    ("orders", .definition ⟨"orders", .count, ⟨"sales", "amount"⟩⟩),
    ("average", .calculated ⟨"average", .operation .divide (.ref "revenue") (.ref "orders")⟩),
    ("articles", .definition ⟨"articles", .count, ⟨"stock", "sku"⟩⟩)], by decide⟩
  dimensions := ⟨[("day", ⟨"sales", "day"⟩)], by decide⟩
  readModels := ⟨[("sales", "day"), ("stock", "sku")], by decide⟩
  keyed := by simp [OrderedMap.Keyed, Metric.id]

def sale (day : String) (amount : ℚ) : Row := fun field =>
  if field = "day" then .text day else if field = "amount" then .number amount else .undefined

def article : Row := fun field => if field = "sku" then .text "tea" else .undefined

def shopTables : String → List Row
  | "sales" => [sale "mon" 3, sale "tue" 4]
  | "stock" => [article]
  | _ => []

def cellText : Cell → String := toGroupKey fun _ => "number"

def shopStore : AnalyticsReadStore where
  matching readModelId _ := shopTables readModelId

def salesByDay : SemanticQuery := ⟨["average", "revenue"], ["day"], .empty⟩

def dayRows : List SemanticResultRow :=
  [⟨⟨[("day", "mon")], by decide⟩, ⟨[("average", 3), ("revenue", 3)], by decide⟩⟩,
    ⟨⟨[("day", "tue")], by decide⟩, ⟨[("average", 4), ("revenue", 4)], by decide⟩⟩]

def totalRow : SemanticResultRow := ⟨.empty, ⟨[("average", 7 / 2), ("revenue", 7)], by decide⟩⟩

theorem execute_meaning_sales :
    (∃ plan keys, salesRegistry.plan salesByDay = .ok plan ∧
      Returned (fun _ => "number") salesRegistry shopStore salesByDay plan keys dayRows) ∧
    ∃ total, [totalRow] = [total] ∧ (dayRows.map (·.value "revenue")).sum = total.value "revenue" := by
  have hmeaning := execute_meaning (fun _ => "number") salesRegistry shopStore salesByDay
  have hday : execute (fun _ => "number") salesRegistry shopStore salesByDay = .ok dayRows := by
    decide +kernel
  have htotal : execute (fun _ => "number") salesRegistry shopStore
      { salesByDay with dimensionIds := [] } = .ok [totalRow] := by
    decide +kernel
  obtain ⟨total, hsame, hsums⟩ := hmeaning.2.2.2.2 dayRows [totalRow] (by decide) hday htotal
  exact ⟨hmeaning.2.1 dayRows hday, total, hsame,
    hsums "revenue" (by decide) ⟨"revenue", .sum, ⟨"sales", "amount"⟩⟩ rfl (.inl rfl)⟩

section Filters

variable (text : Cell → String) (tables : String → List Row) (registry : SemanticRegistry)
  (query : SemanticQuery) (readModelId : String)

/-- The tables of a tenant: a row matches when its fields have the texts that are asked for. -/
def tableStore : AnalyticsReadStore where
  matching readModelId filters := (tables readModelId).filter fun row =>
    filters.entries.all fun filter => text (row filter.1) = filter.2

/-- Of the filters that are bound to one field, the last one. -/
def lastFilter (filters : List (String × String)) (field : String) : Option (String × String) :=
  (filters.filter fun filter =>
    registry.dimensions.find? filter.1 = some ⟨readModelId, field⟩).getLast?

variable {text tables registry query readModelId}

theorem find?_filtersFor (filters : List (String × String)) (field : String) :
    (filtersFor registry readModelId filters .empty).find? field =
      (lastFilter registry readModelId filters field).map Prod.snd := by
  induction filters using List.reverseRecOn with
  | nil => rfl
  | append_singleton filters filter ih =>
    have hstep : filtersFor registry readModelId (filters ++ [filter]) .empty =
        filtersFor registry readModelId [filter] (filtersFor registry readModelId filters .empty) := by
      rw [filtersFor, List.foldl_append]
      rfl
    rw [hstep, lastFilter, List.filter_append]
    rw [lastFilter] at ih
    rw [filtersFor, List.foldl_cons, List.foldl_nil]
    cases hdimension : registry.dimensions.find? filter.1 with
    | none => simpa [hdimension] using ih
    | some binding =>
      by_cases hmodel : binding.readModelId = readModelId
      · subst hmodel
        simp only [if_true, OrderedMap.find?_set]
        by_cases hfield : field = binding.physicalField
        · subst hfield
          simp [hdimension]
        · have hother : binding ≠ ⟨binding.readModelId, field⟩ := by
            intro hsame
            exact hfield (congrArg SemanticBinding.physicalField hsame).symm
          simpa [hdimension, hother, hfield] using ih
      · have hother : binding ≠ ⟨readModelId, field⟩ := by
          rintro rfl
          exact hmodel rfl
        simpa [hdimension, hother, hmodel] using ih

theorem mem_readRows {row : Row} : row ∈ readRows registry (tableStore text tables) query readModelId ↔
    row ∈ tables readModelId ∧ ∀ field filter,
      lastFilter registry readModelId query.filters.entries field = some filter →
        text (row field) = filter.2 := by
  have hfound (field : String) : (filtersFor registry readModelId query.filters.entries .empty).find?
      field = (lastFilter registry readModelId query.filters.entries field).map Prod.snd :=
    find?_filtersFor _ field
  rw [readRows, tableStore, List.mem_filter, List.all_eq_true]
  refine and_congr_right fun _ => ⟨fun h field filter hlast => ?_, fun h entry hentry => ?_⟩
  · have hentry := hfound field
    rw [hlast, Option.map_some, OrderedMap.find?_eq_some] at hentry
    exact of_decide_eq_true (h _ hentry)
  · have hvalue := hfound entry.1
    rw [OrderedMap.find?_eq_some.mpr hentry] at hvalue
    obtain ⟨filter, hlast, hvalue⟩ := Option.map_eq_some_iff.mp hvalue.symm
    rw [h entry.1 filter hlast, hvalue]
    exact decide_eq_true rfl

end Filters

/-- A filter reaches the rows of the read model that its dimension is bound to, and a query with one
that is bound to no other part of it is refused. With dimensions there is one row for each key that
the rows of a read model of the query are joined on. -/
theorem execute_scope {numberText : ℚ → String} {text : Cell → String} {tables : String → List Row}
    {registry : SemanticRegistry} {query : SemanticQuery} {rows : List SemanticResultRow}
    (h : execute numberText registry (tableStore text tables) query = .ok rows) :
    ∃ plan keys, registry.plan query = .ok plan ∧
      Returned numberText registry (tableStore text tables) query plan keys rows ∧
        (∀ filter ∈ query.filters.entries, ∃ binding,
          registry.dimensions.find? filter.1 = some binding ∧
            Touches registry plan query binding.readModelId) ∧
          ∀ readModelId row, row ∈ readRows registry (tableStore text tables) query readModelId ↔
            row ∈ tables readModelId ∧ ∀ field filter,
              lastFilter registry readModelId query.filters.entries field = some filter →
                text (row field) = filter.2 := by
  obtain ⟨plan, keys, hplan, hreturned, hfiltered⟩ := execute_returned h
  exact ⟨plan, keys, hplan, hreturned, hfiltered, fun _ _ => mem_readRows⟩

def onMonday : SemanticQuery := ⟨["orders", "articles"], [], ⟨[("day", "mon")], by decide⟩⟩

def mondayRow : SemanticResultRow := ⟨.empty, ⟨[("orders", 1), ("articles", 1)], by decide⟩⟩

theorem execute_monday : execute (fun _ => "number") salesRegistry (tableStore cellText shopTables)
    onMonday = .ok [mondayRow] := by
  decide +kernel

theorem execute_scope_monday : ∃ plan keys, salesRegistry.plan onMonday = .ok plan ∧
    Returned (fun _ => "number") salesRegistry (tableStore cellText shopTables) onMonday plan keys
      [mondayRow] := by
  obtain ⟨plan, keys, hplan, hreturned, -⟩ := execute_scope execute_monday
  exact ⟨plan, keys, hplan, hreturned⟩

/-- A row that every filter is about, and that has what they ask for. -/
def satisfies (registry : SemanticRegistry) (text : Cell → String) (query : SemanticQuery)
    (readModelId : String) (row : Row) : Bool :=
  query.filters.entries.all fun filter =>
    match registry.dimensions.find? filter.1 with
    | some binding => binding.readModelId = readModelId ∧ text (row binding.physicalField) = filter.2
    | none => false

/-- The articles are counted without regard to the day. -/
theorem execute_unfiltered : ¬ ∀ (text : Cell → String) (tables : String → List Row)
    (registry : SemanticRegistry) (query : SemanticQuery) (row : SemanticResultRow),
      execute (fun _ => "number") registry (tableStore text tables) query = .ok [row] →
        query.dimensionIds = [] → ∀ id ∈ query.metricIds, ∀ metric,
          registry.metrics.find? id = some (.definition metric) → row.value id =
            aggregate ((tables metric.binding.readModelId).filter
              (satisfies registry text query metric.binding.readModelId))
                metric.binding.physicalField metric.aggregation := by
  intro h
  have hvalue := h cellText shopTables salesRegistry onMonday mondayRow execute_monday rfl "articles"
    (by decide) ⟨"articles", .count, ⟨"stock", "sku"⟩⟩ rfl
  revert hvalue
  decide +kernel

end Analytics

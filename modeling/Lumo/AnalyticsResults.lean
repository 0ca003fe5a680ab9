import Lumo.AnalyticsGroups

/-! # The results of a query

Each value that is returned is the meaning of its metric over the rows of its group. -/
namespace Analytics

open Builtins DepthFirst SharedKernel

section Rows

variable (numberText : ℚ → String) (registry : SemanticRegistry) (store : AnalyticsReadStore)
  (query : SemanticQuery)

/-- The rows of a read model that a query reads. -/
def readRows (readModelId : String) : List Row :=
  store.matching readModelId (filtersFor registry readModelId query.filters.entries .empty)

/-- The key that the rows of a read model are joined on. -/
def joinKey (readModelId : String) : Row → String :=
  groupKey numberText ((registry.readModels.find? readModelId).getD "")

def groupRows (key readModelId : String) : List Row :=
  if query.dimensionIds ≠ [] then
    (readRows registry store query readModelId).filter (joinKey numberText registry readModelId · = key)
  else readRows registry store query readModelId

/-- What a base metric comes to over the rows of a group. -/
def groupValue (key : String) (metric : MetricDefinition) : ℚ :=
  aggregate (groupRows numberText registry store query key metric.binding.readModelId)
    metric.binding.physicalField metric.aggregation

/-- One row for each group, with the meaning of every metric that was asked for. -/
structure Returned (plan : QueryPlan) (keys : List String) (rows : List SemanticResultRow) :
    Prop where
  distinct : keys.Nodup
  single : query.dimensionIds = [] → keys = [GLOBAL_GROUP]
  groups : query.dimensionIds ≠ [] → ∀ key, key ∈ keys ↔
    ∃ readModelId, Touches registry plan query readModelId ∧
      ∃ row ∈ readRows registry store query readModelId,
        joinKey numberText registry readModelId row = key
  values : List.Forall₂ (fun key row => ∀ id ∈ query.metricIds, ∃ value,
    row.metrics.find? id = some value ∧
      Meaning registry (groupValue numberText registry store query key) (.ref id) value) keys rows

end Rows

section Values

variable {numberText : ℚ → String} {registry : SemanticRegistry} {store : AnalyticsReadStore}
  {query : SemanticQuery} {plan : QueryPlan} {queries : List ReadModelQuery} {key : String}

variable {bucket : String × List Row} {q : ReadModelQuery} {metric : MetricDefinition}

section Compiled

variable (hc : Compiled registry plan query queries)

include hc

theorem bucket_rows (hq : q ∈ queries)
    (hb : bucket ∈ (bucketsOf numberText query.dimensionIds q (store.fetch q)).entries) :
    bucket.2 = (groupRows numberText registry store query bucket.1 q.readModelId).map
      fun row => project row q.fields := by
  have hfetch : store.fetch q = (readRows registry store query q.readModelId).map
      fun row => project row q.fields := by
    rw [AnalyticsReadStore.fetch, hc.filters q hq, readRows]
  rw [groupRows]
  by_cases hdims : query.dimensionIds ≠ []
  · rw [bucketsOf, if_pos hdims] at hb
    rw [if_pos hdims, (mem_groupRowsByField.mp hb).1, hfetch, List.filter_map]
    congr 2
    funext row
    simp only [Function.comp_apply, groupKey_project (hc.key_mem q hq), joinKey, hc.key q hq,
      Option.getD_some]
  · rw [bucketsOf, if_neg hdims] at hb
    rw [if_neg hdims, ← hfetch]
    obtain rfl : bucket = (GLOBAL_GROUP, store.fetch q) := by
      simpa [OrderedMap.set, OrderedMap.setEntries] using hb
    rfl

theorem exists_bucket (hq : q ∈ queries)
    (hglobal : query.dimensionIds = [] → key = GLOBAL_GROUP)
    (hrows : groupRows numberText registry store query key q.readModelId ≠ []) :
    ∃ rows, (key, rows) ∈ (bucketsOf numberText query.dimensionIds q (store.fetch q)).entries := by
  rw [bucketsOf]
  by_cases hdims : query.dimensionIds ≠ []
  · rw [if_pos hdims]
    refine ⟨(store.fetch q).filter (groupKey numberText q.dimensionKey · = key),
      mem_groupRowsByField.mpr ⟨rfl, ?_⟩⟩
    rw [groupRows, if_pos hdims] at hrows
    obtain ⟨row, hrow⟩ := List.exists_mem_of_ne_nil _ hrows
    obtain ⟨hread, hkey⟩ := List.mem_filter.mp hrow
    refine List.ne_nil_of_mem (List.mem_filter.mpr ⟨List.mem_map.mpr ⟨row, ?_, rfl⟩, ?_⟩)
    · rw [hc.filters q hq]
      exact hread
    · rw [groupKey_project (hc.key_mem q hq)]
      simpa only [joinKey, hc.key q hq, Option.getD_some] using hkey
  · rw [if_neg hdims, hglobal (not_not.mp hdims)]
    exact ⟨store.fetch q, by simp [OrderedMap.set, OrderedMap.setEntries]⟩

theorem mem_writes (hq : q ∈ queries)
    (hb : bucket ∈ (bucketsOf numberText query.dimensionIds q (store.fetch q)).entries) :
    (q.measures, bucket) ∈ writesOf numberText queries (fetchAll store queries) query.dimensionIds := by
  refine List.mem_flatMap.mpr ⟨q, hq, List.mem_map.mpr ⟨bucket, ?_, rfl⟩⟩
  rwa [find?_fetchAll store hc.distinct hq, Option.getD_some]

/-- What is meant by the value of a metric in a group. -/
def target (numberText : ℚ → String) (registry : SemanticRegistry) (store : AnalyticsReadStore)
    (query : SemanticQuery) (key id : String) : ℚ :=
  match registry.metrics.find? id with
  | some (.definition metric) => groupValue numberText registry store query key metric
  | _ => 0

variable (hknown : ∀ metric ∈ plan.baseMetrics,
  registry.metrics.find? metric.id = some (.definition metric))

include hknown

theorem grouped_wrote :
    Wrote (target numberText registry store query)
      (writesOf numberText queries (fetchAll store queries) query.dimensionIds)
      (groupBaseMetricValues numberText queries (fetchAll store queries) query.dimensionIds) := by
  rw [groupBaseMetricValues_eq]
  refine wrote_foldl fun write hwrite m hm => ?_
  obtain ⟨q, hq, hwrite⟩ := List.mem_flatMap.mp hwrite
  obtain ⟨bucket, hbucket, rfl⟩ := List.mem_map.mp hwrite
  rw [find?_fetchAll store hc.distinct hq, Option.getD_some] at hbucket
  have hfield := hc.field_mem q hq m hm
  rw [hc.measures q hq] at hm
  obtain ⟨metric, hmetric, rfl⟩ := List.mem_map.mp hm
  obtain ⟨hmem, hsame⟩ := List.mem_filter.mp hmetric
  rw [bucket_rows hc hq hbucket]
  simp only [target, MetricDefinition.compiled, hknown metric hmem] at hfield ⊢
  rw [aggregate_project hfield, groupValue, of_decide_eq_true hsame]

theorem value_of_group (hglobal : query.dimensionIds = [] → key = GLOBAL_GROUP)
    (hmetric : metric ∈ plan.baseMetrics) :
    (lookup (groupBaseMetricValues numberText queries (fetchAll store queries) query.dimensionIds)
      key metric.id).getD 0 = groupValue numberText registry store query key metric := by
  have hwrote : Wrote (target numberText registry store query) _ _ := grouped_wrote hc hknown
  cases hvalue : lookup (groupBaseMetricValues numberText queries (fetchAll store queries)
      query.dimensionIds) key metric.id with
  | some value =>
    have hsound := hwrote.sound key metric.id value hvalue
    rwa [target, hknown metric hmetric] at hsound
  | none =>
    obtain ⟨q, hq, hsame⟩ := (hc.reads _).mpr (.inr ⟨metric, hmetric, rfl⟩)
    have hempty : groupRows numberText registry store query key metric.binding.readModelId = [] := by
      by_contra hrows
      obtain ⟨rows, hbucket⟩ := exists_bucket hc hq hglobal (hsame ▸ hrows)
      have hmeasure : metric.compiled ∈ q.measures := by
        rw [hc.measures q hq]
        exact List.mem_map_of_mem (List.mem_filter.mpr ⟨hmetric, by simpa using hsame.symm⟩)
      have hwritten := hwrote.written _ (mem_writes hc hq hbucket) _ hmeasure
      simp only [MetricDefinition.compiled, hvalue] at hwritten
      cases hwritten
    rw [groupValue, hempty, aggregate_nil]
    rfl

theorem mem_grouped (hdims : query.dimensionIds ≠ []) :
    key ∈ (groupBaseMetricValues numberText queries (fetchAll store queries)
      query.dimensionIds).keys ↔ ∃ readModelId, Touches registry plan query readModelId ∧
        ∃ row ∈ readRows registry store query readModelId,
          joinKey numberText registry readModelId row = key := by
  have hwrote : Wrote (target numberText registry store query) _ _ := grouped_wrote hc hknown
  rw [← not_not (a := key ∈ _), ← OrderedMap.find?_eq_none, ← ne_eq, Option.ne_none_iff_isSome,
    hwrote.groups]
  constructor
  · rintro ⟨write, hwrite, rfl⟩
    obtain ⟨q, hq, hwrite⟩ := List.mem_flatMap.mp hwrite
    obtain ⟨bucket, hbucket, rfl⟩ := List.mem_map.mp hwrite
    rw [find?_fetchAll store hc.distinct hq, Option.getD_some] at hbucket
    have hrows := bucket_rows hc hq hbucket
    rw [bucketsOf, if_pos hdims] at hbucket
    obtain ⟨row, hrow⟩ := List.exists_mem_of_ne_nil _ (mem_groupRowsByField.mp hbucket).2
    rw [hrows, groupRows, if_pos hdims] at hrow
    obtain ⟨read, hread, -⟩ := List.mem_map.mp hrow
    obtain ⟨hmem, hkey⟩ := List.mem_filter.mp hread
    exact ⟨q.readModelId, (hc.reads _).mp ⟨q, hq, rfl⟩, read, hmem, of_decide_eq_true hkey⟩
  · rintro ⟨readModelId, htouches, row, hrow, rfl⟩
    obtain ⟨q, hq, rfl⟩ := (hc.reads _).mpr htouches
    have hrows : groupRows numberText registry store query
        (joinKey numberText registry q.readModelId row) q.readModelId ≠ [] := by
      rw [groupRows, if_pos hdims]
      exact List.ne_nil_of_mem (List.mem_filter.mpr ⟨hrow, by simp⟩)
    obtain ⟨rows, hbucket⟩ := exists_bucket hc hq (fun hnone => absurd hnone hdims) hrows
    exact ⟨_, mem_writes hc hq hbucket, rfl⟩

end Compiled

theorem find?_resultMetrics {metricIds : List String} {id : String} (value : String → ℚ)
    (h : id ∈ metricIds) : (metricIds.foldl (fun metrics metricId =>
      OrderedMap.set metrics metricId (value metricId)) .empty).find? id = some (value id) := by
  induction metricIds using List.reverseRecOn with
  | nil => cases h
  | append_singleton metricIds last ih =>
    rw [List.foldl_append, List.foldl_cons, List.foldl_nil, OrderedMap.find?_set]
    by_cases hlast : id = last
    · rw [if_pos hlast, hlast]
    · rw [if_neg hlast]
      exact ih ((List.mem_append.mp h).resolve_right (by simpa using hlast))

theorem mem_baseMetrics {order : List String} :
    metric ∈ (⟨order.filterMap registry.metrics.find?⟩ : QueryPlan).baseMetrics ↔
      ∃ id ∈ order, registry.metrics.find? id = some (.definition metric) := by
  simp only [QueryPlan.baseMetrics, List.mem_filterMap]
  constructor
  · rintro ⟨found, ⟨id, hid, hfound⟩, hdefinition⟩
    cases found with
    | definition found =>
      obtain rfl := Option.some.inj hdefinition
      exact ⟨id, hid, hfound⟩
    | calculated found => cases hdefinition
  · rintro ⟨id, hid, hfound⟩
    exact ⟨_, ⟨id, hid, hfound⟩, rfl⟩

theorem execute_returned {rows : List SemanticResultRow}
    (h : execute numberText registry store query = .ok rows) :
    ∃ plan keys, registry.plan query = .ok plan ∧
      Returned numberText registry store query plan keys rows ∧
        ∀ filter ∈ query.filters.entries, ∃ binding,
          registry.dimensions.find? filter.1 = some binding ∧
            Touches registry plan query binding.readModelId := by
  obtain ⟨plan, hplan, h⟩ := bind_eq_ok.mp h
  obtain ⟨queries, hqueries, h⟩ := bind_eq_ok.mp h
  obtain ⟨dimensionValues, -, h⟩ := bind_eq_ok.mp h
  obtain ⟨metrics, hresolved, rfl⟩ := map_eq_ok.mp hplan
  obtain ⟨order, hsorted, hreached, rfl⟩ := resolveOrder_ok hresolved
  have hc := compile_ok hqueries
  have hknown : ∀ metric ∈ (⟨order.filterMap registry.metrics.find?⟩ : QueryPlan).baseMetrics,
      registry.metrics.find? metric.id = some (.definition metric) := by
    intro metric hmetric
    obtain ⟨id, -, hfound⟩ := mem_baseMetrics.mp hmetric
    rwa [show metric.id = id from metric_id hfound]
  have hwrote : Wrote (target numberText registry store query) _ _ := grouped_wrote hc hknown
  have hrows := (Except.ok.inj h).symm
  clear h
  generalize hgrouped : groupBaseMetricValues numberText queries (fetchAll store queries)
    query.dimensionIds = grouped at hrows hwrote
  have hmeaning (key : String) (hglobal : query.dimensionIds = [] → key = GLOBAL_GROUP) :
      ∀ id ∈ query.metricIds, ∃ value,
        (resultRow ⟨order.filterMap registry.metrics.find?⟩ query.metricIds grouped dimensionValues
          key).metrics.find? id = some value ∧
        Meaning registry (groupValue numberText registry store query key) (.ref id) value := by
    intro id hid
    refine ⟨_, find?_resultMetrics _ hid, ?_⟩
    refine valuesAfter_meaning hsorted (fun id hid metric hmetric => ?_) id
      ((hreached id).mpr ⟨id, hid, .refl⟩)
    have hvalue : (lookup grouped key metric.id).getD 0 =
        groupValue numberText registry store query key metric := by
      rw [← hgrouped]
      exact value_of_group hc hknown hglobal (mem_baseMetrics.mpr ⟨id, hid, hmetric⟩)
    rwa [show metric.id = id from metric_id hmetric] at hvalue
  subst hrows
  refine ⟨_, _, hplan, ⟨?_, fun hdims => if_neg (not_not.mpr hdims), fun hdims key => ?_,
    List.forall₂_map_right_iff.mpr (List.forall₂_same.mpr fun key hkey => hmeaning key ?_)⟩,
    hc.filtered⟩
  · split
    · exact grouped.distinct
    · exact List.nodup_singleton _
  · rw [if_pos hdims, ← hgrouped]
    exact mem_grouped hc hknown hdims
  · intro hdims
    rw [if_neg (not_not.mpr hdims)] at hkey
    exact List.mem_singleton.mp hkey

end Values

section Sums

variable {rows : List Row} {keys : List String} {key : Row → String}

theorem sum_groups (f : Row → ℚ) (hkeys : keys.Nodup) (hcover : ∀ row ∈ rows, key row ∈ keys) :
    (keys.map fun k => ((rows.filter (key · = k)).map f).sum).sum = (rows.map f).sum := by
  induction rows with
  | nil => simp
  | cons row rows ih =>
    have hstep (k : String) : (((row :: rows).filter (key · = k)).map f).sum =
        (if k = key row then f row else 0) + ((rows.filter (key · = k)).map f).sum := by
      by_cases hk : key row = k
      · rw [List.filter_cons_of_pos (by simpa using hk), if_pos hk.symm, List.map_cons, List.sum_cons]
      · rw [List.filter_cons_of_neg (by simpa using hk), if_neg (Ne.symm hk), zero_add]
    simp only [hstep]
    rw [List.sum_map_add, ih fun other hother => hcover other (List.mem_cons_of_mem _ hother),
      List.sum_map_ite_eq, List.count_eq_one_of_mem hkeys (hcover row List.mem_cons_self)]
    simp

/-- A sum, or a count, is one over the rows. -/
theorem aggregate_additive {aggregation : Aggregation} (h : aggregation = .sum ∨ aggregation = .count)
    (field : String) : ∃ f : Row → ℚ, ∀ rows, aggregate rows field aggregation = (rows.map f).sum := by
  rcases h with rfl | rfl
  · refine ⟨fun row => (toNumber (row field)).getD 0, fun rows => ?_⟩
    rw [aggregate, numbers]
    induction rows with
    | nil => rfl
    | cons row rows ih =>
      cases hrow : toNumber (row field) with
      | none => simpa [List.filterMap_cons, hrow] using ih
      | some value => simpa [List.filterMap_cons, hrow] using ih
  · exact ⟨fun _ => 1, fun rows => by simp [aggregate]⟩

end Sums

end Analytics

import Lumo.AnalyticsEngine
import Lumo.FallibleFolds

/-! # What a query returns

The values of a query against the recursive meaning of its metrics over the rows of each group. -/
namespace Analytics

open Builtins DepthFirst SharedKernel FallibleFolds

/-- The value of an expression, where every base metric has one. -/
inductive Meaning (registry : SemanticRegistry) (base : MetricDefinition → ℚ) :
    MetricExpression → ℚ → Prop where
  | literal (value : ℚ) : Meaning registry base (.literal value) value
  | definition {id metric} (h : registry.metrics.find? id = some (.definition metric)) :
    Meaning registry base (.ref id) (base metric)
  | calculated {id metric value} (h : registry.metrics.find? id = some (.calculated metric))
    (hvalue : Meaning registry base metric.expression value) : Meaning registry base (.ref id) value
  | operation {left right x y} (kind : Operation) (hleft : Meaning registry base left x)
    (hright : Meaning registry base right y) :
    Meaning registry base (.operation kind left right) (kind.apply x y)

variable {registry : SemanticRegistry} {base : MetricDefinition → ℚ} {ids order : List String}

variable {expression : MetricExpression} {id : String} {values : MetricValues} {metric : Metric}

theorem Meaning.unique {x y : ℚ} (hx : Meaning registry base expression x)
    (hy : Meaning registry base expression y) : x = y := by
  induction hx generalizing y with
  | literal value =>
    cases hy
    rfl
  | definition h =>
    cases hy with
    | definition h' =>
      cases h.symm.trans h'
      rfl
    | calculated h' _ => cases h.symm.trans h'
  | calculated h _ ih =>
    cases hy with
    | definition h' => cases h.symm.trans h'
    | calculated h' hvalue =>
      cases h.symm.trans h'
      exact ih hvalue
  | operation kind _ _ ihleft ihright =>
    cases hy with
    | operation _ hleft hright => rw [ihleft hleft, ihright hright]

theorem known_of_dependencies (h : registry.dependencies id ≠ none) :
    id ∈ registry.metrics.keys := by
  by_contra hmissing
  exact h (by rw [SemanticRegistry.dependencies, OrderedMap.find?_eq_none.mpr hmissing]; rfl)

theorem visits_metrics (registry : SemanticRegistry) (ids : List String) :
    Visits registry.dependencies [] ids (ids.foldlM
      (visit registry.dependencies (registry.metrics.entries.length + 1) []) []) := by
  have hknown : ∀ n, registry.dependencies n ≠ none → n ∈ registry.metrics.keys :=
    fun _ => known_of_dependencies
  have hvisits : Visits registry.dependencies [] ids _ := visits_roots hknown
  rwa [OrderedMap.keys, List.length_map] at hvisits

theorem resolveOrder_ok {metrics : List Metric} (h : registry.resolveOrder ids = .ok metrics) :
    ∃ order, Sorted registry.dependencies order ∧
      (∀ id, id ∈ order ↔ ∃ root ∈ ids, Relation.ReflTransGen (Needs registry.dependencies) root id) ∧
        metrics = order.filterMap registry.metrics.find? := by
  have hvisits := visits_metrics registry ids
  rw [SemanticRegistry.resolveOrder] at h
  cases hresult : ids.foldlM
      (visit registry.dependencies (registry.metrics.entries.length + 1) []) [] with
  | error e => cases e <;> simp [hresult] at h
  | ok order =>
    rw [hresult] at h hvisits
    obtain ⟨hsorted, -, hasked, hled⟩ := hvisits
    refine ⟨order, hsorted, fun id => ⟨fun hid => ?_, ?_⟩, (Except.ok.inj h).symm⟩
    · exact (hled id hid).resolve_left List.not_mem_nil
    · rintro ⟨root, hroot, hreach⟩
      exact hsorted.mem_of_reach (hasked root hroot) hreach

/-- Planning fails exactly when a reference that can be reached is missing or lies on a cycle. -/
theorem resolveOrder_error_iff : (∃ e, registry.resolveOrder ids = .error e) ↔
    ∃ id ∈ ids, Stuck registry.dependencies id := by
  have hvisits := visits_metrics registry ids
  rw [SemanticRegistry.resolveOrder]
  cases hresult : ids.foldlM
      (visit registry.dependencies (registry.metrics.entries.length + 1) []) [] with
  | error e =>
    rw [hresult] at hvisits
    refine ⟨fun _ => hvisits, fun _ => ?_⟩
    cases e <;> exact ⟨_, rfl⟩
  | ok order =>
    rw [hresult] at hvisits
    constructor
    · rintro ⟨e, he⟩
      cases he
    · rintro ⟨id, hid, hstuck⟩
      exact absurd hstuck (hvisits.1.not_stuck (hvisits.2.2.1 id hid))

theorem evaluate_expression (h : ∀ id ∈ collectReferencedMetricIds expression,
      Meaning registry base (.ref id) ((values.find? id).getD 0)) :
    Meaning registry base expression (expression.evaluate values) := by
  induction expression with
  | ref metricId => exact h metricId (List.mem_singleton_self _)
  | literal value => exact .literal value
  | operation kind left right ihleft ihright =>
    exact .operation kind (ihleft fun id hid => h id (List.mem_append_left _ hid))
      (ihright fun id hid => h id (List.mem_append_right _ hid))

theorem find?_evaluateMetric (values : MetricValues)
    (h : metric.id ≠ id ∨ ∃ m, metric = .definition m) :
    (evaluateMetric values metric).find? id = values.find? id := by
  cases metric with
  | definition metric => rfl
  | calculated metric =>
    rw [evaluateMetric, OrderedMap.find?_set, if_neg]
    rintro rfl
    rcases h with hne | ⟨m, hm⟩
    · exact hne rfl
    · cases hm

theorem metric_id (h : registry.metrics.find? id = some metric) : metric.id = id :=
  registry.keyed _ (OrderedMap.find?_eq_some.mp h)

/-- The values after the plan was evaluated up to some metric. -/
def valuesAfter (registry : SemanticRegistry) (order : List String) (values : MetricValues) :
    MetricValues :=
  (order.filterMap registry.metrics.find?).foldl evaluateMetric values

theorem find?_valuesAfter {metric : MetricDefinition} (values : MetricValues)
    (h : registry.metrics.find? id = some (.definition metric)) :
    (valuesAfter registry order values).find? id = values.find? id := by
  induction order generalizing values with
  | nil => rfl
  | cons first rest ih =>
    cases hfirst : registry.metrics.find? first with
    | none =>
      rw [valuesAfter, List.filterMap_cons_none hfirst]
      exact ih values
    | some found =>
      rw [valuesAfter, List.filterMap_cons_some hfirst, List.foldl_cons, ← valuesAfter, ih]
      refine find?_evaluateMetric values ?_
      by_cases hsame : first = id
      · subst hsame
        exact .inr ⟨metric, Option.some.inj (hfirst.symm.trans h)⟩
      · exact .inl fun hid => hsame (by rw [← metric_id hfirst, hid])

theorem valuesAfter_meaning (hsorted : Sorted registry.dependencies order)
    (hbase : ∀ id ∈ order, ∀ metric, registry.metrics.find? id = some (.definition metric) →
      (values.find? id).getD 0 = base metric) :
    ∀ id ∈ order, Meaning registry base (.ref id)
      (((valuesAfter registry order values).find? id).getD 0) := by
  induction hsorted with
  | nil => simp
  | @snoc order node needed hsorted hnew hnext hneeded ih =>
    have hearlier := ih fun id hid => hbase id (List.mem_append_left _ hid)
    obtain ⟨metric, hmetric, hdeps⟩ := Option.map_eq_some_iff.mp hnext
    have hafter : valuesAfter registry (order ++ [node]) values =
        evaluateMetric (valuesAfter registry order values) metric := by
      simp [valuesAfter, hmetric]
    intro id hid
    rw [hafter]
    rcases List.mem_append.mp hid with hold | hlast
    · have hne : node ≠ id := by
        rintro rfl
        exact hnew hold
      rw [find?_evaluateMetric _ (.inl (by rwa [metric_id hmetric]))]
      exact hearlier id hold
    · obtain rfl := List.mem_singleton.mp hlast
      cases metric with
      | definition metric =>
        rw [find?_evaluateMetric _ (.inr ⟨metric, rfl⟩), find?_valuesAfter values hmetric,
          hbase id hid metric hmetric]
        exact .definition hmetric
      | calculated metric =>
        have hid : metric.id = id := metric_id hmetric
        rw [evaluateMetric, OrderedMap.find?_set, if_pos hid.symm, Option.getD_some]
        refine .calculated hmetric (evaluate_expression fun other hother => ?_)
        exact hearlier other (hneeded other (hdeps ▸ hother))

def MetricDefinition.compiled (metric : MetricDefinition) : CompiledMeasure :=
  ⟨metric.id, metric.aggregation, metric.binding.physicalField⟩

/-- The filters that reach a read model. -/
def filtersFor (registry : SemanticRegistry) (readModelId : String)
    (filters : List (String × String)) (start : OrderedMap String String) :
    OrderedMap String String :=
  filters.foldl (fun kept filter =>
    match registry.dimensions.find? filter.1 with
    | some binding =>
      if binding.readModelId = readModelId then kept.set binding.physicalField filter.2 else kept
    | none => kept) start

section Compiled

variable {groups groups' : Groups} {readModelId : String}

theorem groupFor_set (groups : Groups) (id : String) (group : Group) :
    groupFor (groups.set id group) readModelId =
      if readModelId = id then group else groupFor groups readModelId := by
  rw [groupFor, OrderedMap.find?_set]
  split <;> rfl

variable {group : Group} {id : String} {q : ReadModelQuery} {entries : List (String × Group)}
  {queries : List ReadModelQuery}

theorem groupFor_eq (h : groups.find? readModelId = some group) :
    groupFor groups readModelId = group := by
  rw [groupFor, h, Option.getD_some]

/-- The measures of every read model stay as they are. -/
def Kept (groups groups' : Groups) : Prop :=
  ∀ id, (groupFor groups' id).measures = (groupFor groups id).measures

def Groups.has (groups : Groups) (id : String) : Prop := (groups.find? id).isSome = true

theorem has_set :
    Groups.has (groups.set id group) readModelId ↔ readModelId = id ∨ Groups.has groups readModelId := by
  rw [Groups.has, OrderedMap.find?_set]
  split
  · rename_i hsame
    simp [hsame]
  · rename_i hother
    simp [hother, Groups.has]

theorem Kept.set (h : group.measures = (groupFor groups id).measures) :
    Kept groups (groups.set id group) := by
  intro other
  rw [groupFor_set]
  split
  · rename_i hsame
    rw [h, hsame]
  · rfl

theorem Kept.trans {groups'' : Groups} (h : Kept groups groups') (h' : Kept groups' groups'') :
    Kept groups groups'' := fun id => (h' id).trans (h id)

theorem measures_addMeasures (metrics : List MetricDefinition) (groups : Groups) :
    (groupFor (metrics.foldl addMeasure groups) readModelId).measures =
      (groupFor groups readModelId).measures ++
        (metrics.filter fun metric => metric.binding.readModelId = readModelId).map
          MetricDefinition.compiled := by
  induction metrics generalizing groups with
  | nil => simp
  | cons metric metrics ih =>
    rw [List.foldl_cons, ih, addMeasure, groupFor_set]
    by_cases hsame : metric.binding.readModelId = readModelId
    · rw [if_pos hsame.symm, List.filter_cons_of_pos (by simpa using hsame)]
      subst hsame
      simp [MetricDefinition.compiled]
    · rw [if_neg (Ne.symm hsame), List.filter_cons_of_neg (by simpa using hsame)]

theorem filters_addMeasures (metrics : List MetricDefinition) (groups : Groups) :
    (groupFor (metrics.foldl addMeasure groups) readModelId).filters =
      (groupFor groups readModelId).filters := by
  induction metrics generalizing groups with
  | nil => rfl
  | cons metric metrics ih =>
    rw [List.foldl_cons, ih, addMeasure, groupFor_set]
    split
    · rename_i hsame
      rw [hsame]
    · rfl

theorem has_addMeasures {metrics : List MetricDefinition} :
    Groups.has (metrics.foldl addMeasure groups) readModelId ↔
      (∃ metric ∈ metrics, metric.binding.readModelId = readModelId) ∨
        Groups.has groups readModelId := by
  induction metrics generalizing groups with
  | nil => simp
  | cons metric metrics ih =>
    rw [List.foldl_cons, ih, addMeasure, has_set, ← or_assoc, or_comm (a := ∃ _ ∈ _, _)]
    simp only [List.mem_cons, exists_eq_or_imp, eq_comm (a := readModelId)]

/-- A requested dimension is bound to the read model. -/
def Slices (registry : SemanticRegistry) (dimensionIds : List String) (readModelId : String) : Prop :=
  ∃ id ∈ dimensionIds, ∃ binding, registry.dimensions.find? id = some binding ∧
    binding.readModelId = readModelId

theorem addDimensions_ok {dimensionIds : List String}
    (h : dimensionIds.foldlM (addDimension registry) groups = .ok groups') :
    Kept groups groups' ∧ (∀ id, (groupFor groups' id).filters = (groupFor groups id).filters) ∧
      ∀ id, Groups.has groups' id ↔ Slices registry dimensionIds id ∨ Groups.has groups id := by
  induction dimensionIds generalizing groups with
  | nil =>
    cases h
    exact ⟨fun _ => rfl, fun _ => rfl, fun _ => by simp [Slices]⟩
  | cons first rest ih =>
    rw [List.foldlM_cons] at h
    obtain ⟨next, hnext, h⟩ := bind_eq_ok.mp h
    obtain ⟨hkept, hfilters, hhas⟩ := ih h
    obtain ⟨binding, hbinding, rfl⟩ := map_eq_ok.mp hnext
    have hfound : registry.dimensions.find? first = some binding := by
      rw [resolveDimension] at hbinding
      cases hfirst : registry.dimensions.find? first with
      | none => simp [hfirst] at hbinding
      | some found =>
        rw [hfirst] at hbinding
        rw [Except.ok.inj hbinding]
    refine ⟨Kept.trans (by exact Kept.set rfl) hkept, fun id => (hfilters id).trans ?_,
      fun id => (hhas id).trans ?_⟩
    · rw [groupFor_set]
      split
      · rename_i hsame
        rw [hsame]
      · rfl
    · rw [has_set, ← or_assoc]
      refine or_congr_left ?_
      simp only [Slices, List.mem_cons, exists_eq_or_imp, hfound, Option.some.injEq]
      grind

theorem addFilter_ok {filter : String × String} (h : addFilter registry groups filter = .ok groups') :
    ∃ binding, registry.dimensions.find? filter.1 = some binding ∧
      Groups.has groups binding.readModelId ∧
        groups' = groups.set binding.readModelId { groupFor groups binding.readModelId with
          filters := (groupFor groups binding.readModelId).filters.set
            binding.physicalField filter.2 } := by
  rw [addFilter, resolveDimension] at h
  cases hdimension : registry.dimensions.find? filter.1 with
  | none => simp [hdimension] at h
  | some binding =>
    cases hgroup : groups.find? binding.readModelId with
    | none => simp [hdimension, hgroup] at h
    | some group =>
      simp only [hdimension, hgroup, Except.ok.injEq] at h
      exact ⟨binding, rfl, by rw [Groups.has, hgroup]; rfl, by rw [← h, groupFor_eq hgroup]⟩

theorem addFilters_ok {filters : List (String × String)}
    (h : filters.foldlM (addFilter registry) groups = .ok groups') :
    Kept groups groups' ∧ (∀ id, (groupFor groups' id).filters =
      filtersFor registry id filters (groupFor groups id).filters) ∧
        (∀ id, Groups.has groups' id ↔ Groups.has groups id) ∧
          ∀ filter ∈ filters, ∃ binding, registry.dimensions.find? filter.1 = some binding ∧
            Groups.has groups binding.readModelId := by
  induction filters generalizing groups with
  | nil =>
    cases h
    exact ⟨fun _ => rfl, fun _ => rfl, fun _ => Iff.rfl, by simp⟩
  | cons first rest ih =>
    rw [List.foldlM_cons] at h
    obtain ⟨next, hnext, h⟩ := bind_eq_ok.mp h
    obtain ⟨hkept, hfilters, hhas, hbound⟩ := ih h
    obtain ⟨binding, hbinding, hgroup, rfl⟩ := addFilter_ok hnext
    have hsame (id : String) : id = binding.readModelId ∨ Groups.has groups id ↔
        Groups.has groups id :=
      or_iff_right_of_imp fun hid => hid ▸ hgroup
    refine ⟨Kept.trans (by exact Kept.set rfl) hkept, fun id => ?_,
      fun id => (hhas id).trans (has_set.trans (hsame id)), fun filter hfilter => ?_⟩
    · rw [hfilters, groupFor_set]
      simp only [filtersFor, List.foldl_cons, hbinding]
      by_cases hid : id = binding.readModelId
      · subst hid
        simp
      · simp [hid, Ne.symm hid]
    · rcases List.mem_cons.mp hfilter with rfl | hlater
      · exact ⟨binding, hbinding, hgroup⟩
      · obtain ⟨other, hother, hpresent⟩ := hbound filter hlater
        exact ⟨other, hother, (hsame _).mp (has_set.mp hpresent)⟩

/-- A base metric of the plan, or a requested dimension, is bound to the read model. -/
def Touches (registry : SemanticRegistry) (plan : QueryPlan) (query : SemanticQuery)
    (readModelId : String) : Prop :=
  Slices registry query.dimensionIds readModelId ∨
    ∃ metric ∈ plan.baseMetrics, metric.binding.readModelId = readModelId

/-- What the reads of a query are. -/
structure Compiled (registry : SemanticRegistry) (plan : QueryPlan) (query : SemanticQuery)
    (queries : List ReadModelQuery) : Prop where
  distinct : (queries.map (·.readModelId)).Nodup
  measures : ∀ q ∈ queries, q.measures = (plan.baseMetrics.filter fun metric =>
    metric.binding.readModelId = q.readModelId).map MetricDefinition.compiled
  reads : ∀ id, (∃ q ∈ queries, q.readModelId = id) ↔ Touches registry plan query id
  filtered : ∀ filter ∈ query.filters.entries, ∃ binding,
    registry.dimensions.find? filter.1 = some binding ∧
      Touches registry plan query binding.readModelId
  filters : ∀ q ∈ queries, q.filters =
    filtersFor registry q.readModelId query.filters.entries .empty
  key : ∀ q ∈ queries, registry.readModels.find? q.readModelId = some q.dimensionKey
  key_mem : ∀ q ∈ queries, q.dimensionKey ∈ q.fields
  field_mem : ∀ q ∈ queries, ∀ measure ∈ q.measures, measure.physicalField ∈ q.fields

theorem compileGroup_ok {entry : String × Group} (h : compileGroup registry entry = .ok q) :
    q.readModelId = entry.1 ∧
      registry.readModels.find? q.readModelId = some q.dimensionKey ∧ q.measures = entry.2.measures ∧
        q.filters = entry.2.filters ∧ q.dimensionKey ∈ q.fields ∧
          ∀ measure ∈ q.measures, measure.physicalField ∈ q.fields := by
  rw [compileGroup] at h
  cases hkey : registry.readModels.find? entry.1 with
  | none => simp [hkey] at h
  | some dimensionKey =>
    simp only [hkey, Except.ok.injEq] at h
    subst h
    refine ⟨rfl, hkey, rfl, rfl, ?_, fun measure hmeasure => ?_⟩
    · simp [distinctValues]
    · simp only [distinctValues, List.mem_eraseDups, List.mem_append, List.mem_map]
      exact .inl (.inl ⟨measure, hmeasure, rfl⟩)

theorem mem_of_mapM_ok (h : entries.mapM (compileGroup registry) = .ok queries) (hq : q ∈ queries) :
    ∃ entry ∈ entries, compileGroup registry entry = .ok q := by
  have hsteps := forall₂_of_mapM h
  clear h
  induction hsteps with
  | nil => cases hq
  | @cons entry _ entries _ hfirst _ ih =>
    rcases List.mem_cons.mp hq with rfl | hlater
    · exact ⟨entry, List.mem_cons_self, hfirst⟩
    · obtain ⟨found, hfound, hok⟩ := ih hlater
      exact ⟨found, List.mem_cons_of_mem _ hfound, hok⟩

theorem readModelIds_of_mapM (h : entries.mapM (compileGroup registry) = .ok queries) :
    queries.map (·.readModelId) = entries.map Prod.fst := by
  have hsteps := forall₂_of_mapM h
  clear h
  induction hsteps with
  | nil => rfl
  | cons hfirst _ ih => rw [List.map_cons, List.map_cons, ih, (compileGroup_ok hfirst).1]

theorem compile_ok {plan : QueryPlan} {query : SemanticQuery}
    (h : compile registry plan query = .ok queries) : Compiled registry plan query queries := by
  obtain ⟨sliced, hsliced, h⟩ := bind_eq_ok.mp h
  obtain ⟨final, hfinal, h⟩ := bind_eq_ok.mp h
  obtain ⟨hkept, hnofilters, hslices⟩ := addDimensions_ok hsliced
  obtain ⟨hkept', hfilters, hhas, hbound⟩ := addFilters_ok hfinal
  have hids := readModelIds_of_mapM h
  have hmeasures (id : String) : (groupFor final id).measures =
      (plan.baseMetrics.filter fun metric => metric.binding.readModelId = id).map
        MetricDefinition.compiled := by
    rw [hkept', hkept, measures_addMeasures]
    rfl
  have hkeptFilters (id : String) : (groupFor final id).filters =
      filtersFor registry id query.filters.entries .empty := by
    rw [hfilters, hnofilters, filters_addMeasures]
    rfl
  have htouches (id : String) : Groups.has sliced id ↔ Touches registry plan query id := by
    rw [hslices, has_addMeasures, Touches]
    simp [Groups.has]
  have hgroup : ∀ q ∈ queries, ∃ entry, compileGroup registry entry = .ok q ∧
      groupFor final q.readModelId = entry.2 := by
    intro q hq
    obtain ⟨entry, hentry, hok⟩ := mem_of_mapM_ok h hq
    refine ⟨entry, hok, ?_⟩
    rw [(compileGroup_ok hok).1]
    exact groupFor_eq (OrderedMap.find?_eq_some.mpr hentry)
  refine ⟨hids ▸ final.distinct, fun q hq => ?_, fun id => ?_, fun filter hfilter => ?_,
    fun q hq => ?_, fun q hq => ?_, fun q hq => ?_, fun q hq => ?_⟩
  · obtain ⟨entry, hok, hfound⟩ := hgroup q hq
    rw [(compileGroup_ok hok).2.2.1, ← hfound, hmeasures]
  · rw [← htouches, ← hhas, ← List.mem_map, hids, Groups.has, ← Option.ne_none_iff_isSome, ne_eq,
      OrderedMap.find?_eq_none, not_not]
    rfl
  · obtain ⟨binding, hbinding, hpresent⟩ := hbound filter hfilter
    exact ⟨binding, hbinding, (htouches _).mp hpresent⟩
  · obtain ⟨entry, hok, hfound⟩ := hgroup q hq
    rw [(compileGroup_ok hok).2.2.2.1, ← hfound, hkeptFilters]
  · obtain ⟨entry, hok, -⟩ := hgroup q hq
    exact (compileGroup_ok hok).2.1
  · obtain ⟨entry, hok, -⟩ := hgroup q hq
    exact (compileGroup_ok hok).2.2.2.2.1
  · obtain ⟨entry, hok, -⟩ := hgroup q hq
    exact (compileGroup_ok hok).2.2.2.2.2

end Compiled

end Analytics

import Lumo.AnalyticsMeaning
import Mathlib.Algebra.BigOperators.Group.List.Basic

/-! # The groups of a query

What the buckets of the rows hold, and which values the base metrics have in each group. -/
namespace Analytics

open Builtins DepthFirst SharedKernel

section Rows

variable {rows : List Row} {fields : List String} {field key : String} {numberText : ℚ → String}

theorem aggregate_project (h : field ∈ fields) (rows : List Row) (aggregation : Aggregation) :
    aggregate (rows.map fun row => project row fields) field aggregation =
      aggregate rows field aggregation := by
  have hcells : (rows.map fun row => project row fields).map (· field) = rows.map (· field) := by
    simp [project, h]
  have hnumbers : numbers (rows.map fun row => project row fields) field = numbers rows field := by
    simp [numbers, List.filterMap_map, project, h]
  cases aggregation <;> simp only [aggregate, hcells, hnumbers, List.length_map]

theorem aggregate_nil (field : String) (aggregation : Aggregation) :
    aggregate [] field aggregation = 0 := by
  cases aggregation <;> simp [aggregate, numbers]

theorem groupKey_project (h : field ∈ fields) (row : Row) :
    groupKey numberText field (project row fields) = groupKey numberText field row := by
  simp only [groupKey, project, if_pos h]

theorem find?_groupRowsByField (rows : List Row) : (groupRowsByField numberText rows field).find? key =
    if rows.filter (groupKey numberText field · = key) = [] then none
    else some (rows.filter (groupKey numberText field · = key)) := by
  induction rows using List.reverseRecOn with
  | nil => rfl
  | append_singleton rows row ih =>
    rw [groupRowsByField, List.foldl_append, ← groupRowsByField, List.foldl_cons, List.foldl_nil,
      OrderedMap.find?_set, List.filter_append]
    by_cases hkey : groupKey numberText field row = key
    · have hrow : [row].filter (groupKey numberText field · = key) = [row] := by simp [hkey]
      rw [if_pos hkey.symm, hkey, ih, hrow, if_neg (List.concat_ne_nil row (rows.filter _))]
      by_cases hnone : rows.filter (groupKey numberText field · = key) = []
      · rw [if_pos hnone, hnone, Option.getD_none]
      · rw [if_neg hnone, Option.getD_some]
    · have hrow : [row].filter (groupKey numberText field · = key) = [] := by simp [hkey]
      rw [if_neg (Ne.symm hkey), hrow, List.append_nil, ih]

theorem mem_groupRowsByField {bucket : String × List Row} :
    bucket ∈ (groupRowsByField numberText rows field).entries ↔
      bucket.2 = rows.filter (groupKey numberText field · = bucket.1) ∧ bucket.2 ≠ [] := by
  rw [← OrderedMap.find?_eq_some, find?_groupRowsByField]
  split
  · rename_i hnone
    rw [hnone]
    constructor
    · intro h
      cases h
    · exact fun h => absurd h.1 h.2
  · rename_i hsome
    rw [Option.some.injEq]
    exact ⟨fun h => ⟨h.symm, h ▸ hsome⟩, fun h => h.1.symm⟩

end Rows

section Writes

variable {byGroup : OrderedMap String MetricValues} {key id : String}

def lookup (byGroup : OrderedMap String MetricValues) (key id : String) : Option ℚ :=
  ((byGroup.find? key).getD .empty).find? id

/-- A bucket, with the measures of its read model. -/
abbrev Write := List CompiledMeasure × String × List Row

def writesOf (numberText : ℚ → String) (queries : List ReadModelQuery) (fetched : FetchedRows)
    (dimensionIds : List String) : List Write :=
  queries.flatMap fun query => (bucketsOf numberText dimensionIds query
    ((fetched.find? query.readModelId).getD [])).entries.map fun bucket => (query.measures, bucket)

def applyWrite (byGroup : OrderedMap String MetricValues) (write : Write) :
    OrderedMap String MetricValues :=
  addBucket write.1 byGroup write.2

theorem groupBaseMetricValues_eq (numberText : ℚ → String) (queries : List ReadModelQuery)
    (fetched : FetchedRows) (dimensionIds : List String) :
    groupBaseMetricValues numberText queries fetched dimensionIds =
      (writesOf numberText queries fetched dimensionIds).foldl applyWrite .empty := by
  rw [groupBaseMetricValues, writesOf, List.foldl_flatMap]
  congr 1
  funext byGroup query
  rw [List.foldl_map]
  rfl

theorem addMeasures_sound {rows : List Row} {measures : List CompiledMeasure} {target : String → ℚ}
    (h : ∀ m ∈ measures, aggregate rows m.physicalField m.aggregation = target m.metricId)
    {values : MetricValues} (hvalues : ∀ id v, values.find? id = some v → v = target id) :
    ∀ id v, (addMeasures rows measures values).find? id = some v → v = target id := by
  induction measures generalizing values with
  | nil => exact hvalues
  | cons m measures ih =>
    refine ih (fun other hother => h other (List.mem_cons_of_mem _ hother)) fun id v hv => ?_
    rw [OrderedMap.find?_set] at hv
    split at hv
    · rename_i hid
      rw [hid, ← h m List.mem_cons_self]
      exact (Option.some.inj hv).symm
    · exact hvalues id v hv

theorem addMeasures_isSome {rows : List Row} {measures : List CompiledMeasure}
    {values : MetricValues} (h : (values.find? id).isSome ∨ ∃ m ∈ measures, m.metricId = id) :
    ((addMeasures rows measures values).find? id).isSome := by
  induction measures generalizing values with
  | nil => exact h.resolve_right (by simp)
  | cons m measures ih =>
    refine ih ?_
    rw [OrderedMap.find?_set]
    rcases h with hsome | ⟨m', hm', hid⟩
    · refine .inl ?_
      split
      · rfl
      · exact hsome
    · rcases List.mem_cons.mp hm' with rfl | hlater
      · rw [if_pos hid.symm]
        exact .inl rfl
      · exact .inr ⟨m', hlater, hid⟩

theorem find?_applyWrite (write : Write) : (applyWrite byGroup write).find? key =
    if key = write.2.1 then
      some (addMeasures write.2.2 write.1 ((byGroup.find? write.2.1).getD .empty))
    else byGroup.find? key := by
  rw [applyWrite, addBucket, OrderedMap.find?_set]

/-- Every value that is there is the one that is meant, and what was written is there. -/
structure Wrote (target : String → String → ℚ) (writes : List Write)
    (byGroup : OrderedMap String MetricValues) : Prop where
  sound : ∀ key id v, lookup byGroup key id = some v → v = target key id
  groups : ∀ key, (byGroup.find? key).isSome ↔ ∃ write ∈ writes, write.2.1 = key
  written : ∀ write ∈ writes, ∀ m ∈ write.1, (lookup byGroup write.2.1 m.metricId).isSome

theorem wrote_foldl {target : String → String → ℚ} {writes : List Write}
    (h : ∀ write ∈ writes, ∀ m ∈ write.1,
      aggregate write.2.2 m.physicalField m.aggregation = target write.2.1 m.metricId) :
    Wrote target writes (writes.foldl applyWrite .empty) := by
  induction writes using List.reverseRecOn with
  | nil => exact ⟨fun key id v hv => by simp [lookup] at hv, by simp, by simp⟩
  | append_singleton writes write ih =>
    obtain ⟨hsound, hgroups, hwritten⟩ := ih fun w hw => h w (List.mem_append_left _ hw)
    have hlast := h write (List.mem_append_right _ (List.mem_singleton_self _))
    rw [List.foldl_append, List.foldl_cons, List.foldl_nil]
    generalize writes.foldl applyWrite .empty = byGroup at hsound hgroups hwritten ⊢
    refine ⟨fun key id v hv => ?_, fun key => ?_, fun w hw m hm => ?_⟩
    · rw [lookup, find?_applyWrite] at hv
      split at hv
      · rename_i hkey
        subst hkey
        exact addMeasures_sound hlast (fun id v => hsound write.2.1 id v) id v hv
      · exact hsound key id v hv
    · rw [find?_applyWrite]
      simp only [List.mem_append, List.mem_singleton, or_and_right, exists_or, exists_eq_left]
      rw [← hgroups]
      by_cases hkey : key = write.2.1
      · simp [hkey]
      · simp [hkey, Ne.symm hkey]
    · rw [lookup, find?_applyWrite]
      rcases List.mem_append.mp hw with hold | hnew
      · split
        · rename_i hkey
          exact addMeasures_isSome (.inl (hkey ▸ hwritten w hold m hm))
        · exact hwritten w hold m hm
      · obtain rfl := List.mem_singleton.mp hnew
        rw [if_pos rfl]
        exact addMeasures_isSome (.inr ⟨m, hm, rfl⟩)

theorem find?_fetchAll (store : AnalyticsReadStore) {queries : List ReadModelQuery}
    (h : (queries.map (·.readModelId)).Nodup) {q : ReadModelQuery} (hq : q ∈ queries) :
    (fetchAll store queries).find? q.readModelId = some (store.fetch q) := by
  induction queries using List.reverseRecOn with
  | nil => cases hq
  | append_singleton queries last ih =>
    rw [List.map_append, List.nodup_append] at h
    rw [fetchAll, List.foldl_append, List.foldl_cons, List.foldl_nil, OrderedMap.find?_set]
    rcases List.mem_append.mp hq with hold | hlast
    · have hne : q.readModelId ≠ last.readModelId :=
        h.2.2 _ (List.mem_map_of_mem hold) _ (List.mem_singleton_self _)
      rw [if_neg hne]
      exact ih h.1 hold
    · rw [List.mem_singleton.mp hlast, if_pos rfl]

end Writes

end Analytics

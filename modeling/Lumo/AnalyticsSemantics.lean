import Lumo.Builtins
import Lumo.DepthFirst
import Lumo.OrderedMap

/-! # The semantic layer

Metrics over the read models of other services: the registry, the order in which metrics depend on
each other, and the reads that a query is compiled to. Numbers are exact. -/
namespace Analytics

open Builtins DepthFirst SharedKernel

inductive Aggregation where
  | sum
  | avg
  | count
  | count_distinct
  | min
  | max
  deriving DecidableEq

structure SemanticBinding where
  readModelId : String
  physicalField : String
  deriving DecidableEq

structure MetricDefinition where
  id : String
  aggregation : Aggregation
  binding : SemanticBinding

inductive Operation where
  | add
  | subtract
  | multiply
  | divide

inductive MetricExpression where
  | ref (metricId : String)
  | literal (value : ℚ)
  | operation (kind : Operation) (left right : MetricExpression)

structure CalculatedMetric where
  id : String
  expression : MetricExpression

inductive Metric where
  | definition (metric : MetricDefinition)
  | calculated (metric : CalculatedMetric)

def Metric.id : Metric → String
  | .definition metric => metric.id
  | .calculated metric => metric.id

/-- The latest version of each metric and dimension, and the join key of each read model. -/
structure SemanticRegistry where
  metrics : OrderedMap String Metric
  dimensions : OrderedMap String SemanticBinding
  readModels : OrderedMap String String
  keyed : OrderedMap.Keyed Metric.id metrics

structure SemanticQuery where
  metricIds : List String
  dimensionIds : List String
  filters : OrderedMap String String

def collectReferencedMetricIds : MetricExpression → List String
  | .ref metricId => [metricId]
  | .literal _ => []
  | .operation _ left right => collectReferencedMetricIds left ++ collectReferencedMetricIds right

def Metric.dependencies : Metric → List String
  | .definition _ => []
  | .calculated metric => collectReferencedMetricIds metric.expression

structure QueryPlan where
  evaluationOrder : List Metric

def QueryPlan.baseMetrics (plan : QueryPlan) : List MetricDefinition :=
  plan.evaluationOrder.filterMap fun metric =>
    match metric with
    | .definition metric => some metric
    | .calculated _ => none

namespace SemanticRegistry

variable (registry : SemanticRegistry)

def dependencies (id : String) : Option (List String) :=
  (registry.metrics.find? id).map Metric.dependencies

/-- No path is longer than the catalog, and so the fuel never ends it. -/
def resolveOrder (metricIds : List String) : Except DomainError (List Metric) :=
  match metricIds.foldlM
    (visit registry.dependencies (registry.metrics.entries.length + 1) []) [] with
  | .ok order => .ok (order.filterMap registry.metrics.find?)
  | .error (.missing id) => .error (.notFound ("Metric not found: " ++ id))
  | .error (.cyclic path) =>
    .error (.businessRule ("Cyclic metric dependency: " ++ " -> ".intercalate path))

def plan (query : SemanticQuery) : Except DomainError QueryPlan :=
  (registry.resolveOrder query.metricIds).map QueryPlan.mk

end SemanticRegistry

structure CompiledMeasure where
  metricId : String
  aggregation : Aggregation
  physicalField : String

structure ReadModelQuery where
  readModelId : String
  dimensionKey : String
  fields : List String
  filters : OrderedMap String String
  measures : List CompiledMeasure

structure Group where
  measures : List CompiledMeasure
  dimensionFields : List String
  filters : OrderedMap String String

abbrev Groups := OrderedMap String Group

def groupFor (groups : Groups) (readModelId : String) : Group :=
  (groups.find? readModelId).getD ⟨[], [], .empty⟩

def addMeasure (groups : Groups) (metric : MetricDefinition) : Groups :=
  let group := groupFor groups metric.binding.readModelId
  groups.set metric.binding.readModelId { group with
    measures := group.measures ++ [⟨metric.id, metric.aggregation, metric.binding.physicalField⟩] }

section Compiler

variable (registry : SemanticRegistry)

def resolveDimension (dimensionId : String) : Except DomainError SemanticBinding :=
  match registry.dimensions.find? dimensionId with
  | some binding => .ok binding
  | none => .error (.notFound ("Dimension not found: " ++ dimensionId))

def addDimension (groups : Groups) (dimensionId : String) : Except DomainError Groups :=
  (resolveDimension registry dimensionId).map fun binding =>
    let group := groupFor groups binding.readModelId
    groups.set binding.readModelId { group with
      dimensionFields := distinctValues (group.dimensionFields ++ [binding.physicalField]) }

def addFilter (groups : Groups) (filter : String × String) : Except DomainError Groups :=
  match resolveDimension registry filter.1 with
  | .error e => .error e
  | .ok binding =>
    match groups.find? binding.readModelId with
    | none => .error (.businessRule ("Filter dimension " ++ filter.1 ++
        " belongs to a read model not otherwise part of this query"))
    | some group => .ok (groups.set binding.readModelId { group with
        filters := group.filters.set binding.physicalField filter.2 })

def compileGroup (entry : String × Group) : Except DomainError ReadModelQuery :=
  match registry.readModels.find? entry.1 with
  | none => .error (.notFound ("Read model not found: " ++ entry.1))
  | some dimensionKey => .ok {
      readModelId := entry.1
      dimensionKey
      fields := distinctValues
        (entry.2.measures.map (·.physicalField) ++ entry.2.dimensionFields ++ [dimensionKey])
      filters := entry.2.filters
      measures := entry.2.measures }

def compile (plan : QueryPlan) (query : SemanticQuery) : Except DomainError (List ReadModelQuery) := do
  let groups ← query.dimensionIds.foldlM (addDimension registry)
    (plan.baseMetrics.foldl addMeasure .empty)
  let groups ← query.filters.entries.foldlM (addFilter registry) groups
  groups.entries.mapM (compileGroup registry)

end Compiler

/-- What a row holds in a field. Two objects are the same only when they are one. -/
inductive Cell where
  | undefined
  | null
  | boolean (value : Bool)
  | number (value : ℚ)
  | text (value : String)
  | object (identity : ℕ) (json : String)
  deriving DecidableEq

abbrev Row := String → Cell

/-- The rows of a read model that match the filters. -/
structure AnalyticsReadStore where
  matching : String → OrderedMap String String → List Row

def project (row : Row) (fields : List String) : Row := fun field =>
  if field ∈ fields then row field else .undefined

def AnalyticsReadStore.fetch (store : AnalyticsReadStore) (query : ReadModelQuery) : List Row :=
  (store.matching query.readModelId query.filters).map fun row => project row query.fields

def toNumber : Cell → Option ℚ
  | .number value => some value
  | .text value => if isBlank value then none else Builtins.number value
  | _ => none

section Aggregation

variable (rows : List Row) (field : String)

def numbers : List ℚ := rows.filterMap fun row => toNumber (row field)

def aggregate : Aggregation → ℚ
  | .count => rows.length
  | .count_distinct =>
    ((rows.map (· field)).filter fun value => value ≠ .undefined && value ≠ .null).eraseDups.length
  | .sum => (numbers rows field).sum
  | .avg =>
    if numbers rows field = [] then 0 else (numbers rows field).sum / (numbers rows field).length
  | .min => (numbers rows field).min?.getD 0
  | .max => (numbers rows field).max?.getD 0

end Aggregation

end Analytics

import Lumo.AnalyticsSemantics
import Mathlib.Data.List.Perm.Basic

/-! # The semantic engine

A query is planned, compiled, read and aggregated group by group; calculated metrics are evaluated in
the order of the plan. -/
namespace Analytics

open Builtins DepthFirst SharedKernel

def Operation.apply : Operation → ℚ → ℚ → ℚ
  | .add, left, right => left + right
  | .subtract, left, right => left - right
  | .multiply, left, right => left * right
  | .divide, left, right => if right = 0 then 0 else left / right

abbrev MetricValues := OrderedMap String ℚ

def MetricExpression.evaluate (values : MetricValues) : MetricExpression → ℚ
  | .literal value => value
  | .ref metricId => (values.find? metricId).getD 0
  | .operation kind left right => kind.apply (left.evaluate values) (right.evaluate values)

def evaluateMetric (values : MetricValues) : Metric → MetricValues
  | .definition _ => values
  | .calculated metric => values.set metric.id (metric.expression.evaluate values)

def evaluate (plan : QueryPlan) (baseValues : MetricValues) : MetricValues :=
  plan.evaluationOrder.foldl evaluateMetric baseValues

def GLOBAL_GROUP : String := "__all__"

abbrev Buckets := OrderedMap String (List Row)

abbrev FetchedRows := OrderedMap String (List Row)

structure SemanticResultRow where
  dimensions : OrderedMap String String
  metrics : MetricValues
  deriving DecidableEq

section Engine

variable (numberText : ℚ → String)

/-- The text of a number is the language's. -/
def toGroupKey : Cell → String
  | .undefined => "undefined"
  | .null => "null"
  | .boolean value => if value then "true" else "false"
  | .number value => numberText value
  | .text value => value
  | .object _ json => json

/-- The key of a row by a field: `row[field] ?? ""`. -/
def groupKey (field : String) (row : Row) : String :=
  match row field with
  | .undefined | .null => ""
  | value => toGroupKey numberText value

def groupRowsByField (rows : List Row) (field : String) : Buckets :=
  rows.foldl (fun groups row =>
    groups.set (groupKey numberText field row)
      ((groups.find? (groupKey numberText field row)).getD [] ++ [row])) .empty

def bucketsOf (dimensionIds : List String) (query : ReadModelQuery) (rows : List Row) : Buckets :=
  if dimensionIds ≠ [] then groupRowsByField numberText rows query.dimensionKey
  else OrderedMap.empty.set GLOBAL_GROUP rows

def addMeasures (rows : List Row) (measures : List CompiledMeasure) (values : MetricValues) :
    MetricValues :=
  measures.foldl (fun values measure =>
    values.set measure.metricId (aggregate rows measure.physicalField measure.aggregation)) values

def addBucket (measures : List CompiledMeasure) (byGroup : OrderedMap String MetricValues)
    (bucket : String × List Row) : OrderedMap String MetricValues :=
  byGroup.set bucket.1 (addMeasures bucket.2 measures ((byGroup.find? bucket.1).getD .empty))

def groupBaseMetricValues (queries : List ReadModelQuery) (fetched : FetchedRows)
    (dimensionIds : List String) : OrderedMap String MetricValues :=
  queries.foldl (fun byGroup query =>
    (bucketsOf numberText dimensionIds query ((fetched.find? query.readModelId).getD [])).entries.foldl
      (addBucket query.measures) byGroup) .empty

def addDimensionValue (dimensionId physicalField : String)
    (byGroup : OrderedMap String (OrderedMap String String)) (bucket : String × List Row) :
    OrderedMap String (OrderedMap String String) :=
  match (bucket.2.head?.map fun row => row physicalField).getD .undefined with
  | .undefined => byGroup
  | value => byGroup.set bucket.1
      (((byGroup.find? bucket.1).getD .empty).set dimensionId (toGroupKey numberText value))

def resolveDimensionValues (registry : SemanticRegistry) (queries : List ReadModelQuery)
    (fetched : FetchedRows) (dimensionIds : List String) :
    Except DomainError (OrderedMap String (OrderedMap String String)) :=
  dimensionIds.foldlM (fun byGroup dimensionId =>
    (resolveDimension registry dimensionId).map fun binding =>
      match queries.find? fun query => query.readModelId = binding.readModelId with
      | none => byGroup
      | some query =>
        (groupRowsByField numberText ((fetched.find? binding.readModelId).getD [])
          query.dimensionKey).entries.foldl
            (addDimensionValue numberText dimensionId binding.physicalField) byGroup) .empty

def fetchAll (store : AnalyticsReadStore) (queries : List ReadModelQuery) : FetchedRows :=
  queries.foldl (fun fetched query => fetched.set query.readModelId (store.fetch query)) .empty

def resultRow (plan : QueryPlan) (metricIds : List String)
    (grouped : OrderedMap String MetricValues)
    (dimensionValues : OrderedMap String (OrderedMap String String)) (key : String) :
    SemanticResultRow :=
  let evaluated := evaluate plan ((grouped.find? key).getD .empty)
  { dimensions := (dimensionValues.find? key).getD .empty
    metrics := metricIds.foldl (fun metrics metricId =>
      metrics.set metricId ((evaluated.find? metricId).getD 0)) .empty }

def execute (registry : SemanticRegistry) (store : AnalyticsReadStore) (query : SemanticQuery) :
    Except DomainError (List SemanticResultRow) := do
  let planned ← registry.plan query
  let compiled ← compile registry planned query
  let fetched := fetchAll store compiled
  let grouped := groupBaseMetricValues numberText compiled fetched query.dimensionIds
  let dimensionValues ← resolveDimensionValues numberText registry compiled fetched query.dimensionIds
  let groupKeys := if query.dimensionIds ≠ [] then grouped.keys else [GLOBAL_GROUP]
  return groupKeys.map (resultRow planned query.metricIds grouped dimensionValues)

end Engine

end Analytics

import Lumo.CellRuns
import Lumo.Customer360AttributeDependency
import Lumo.JsonText
import Lumo.OrderedMap
import Lumo.RuleSets

/-! # Computed attributes

The attributes that rule sets derive from what is known of an identifier, and the use cases that
recalculate them, over the store of one tenant. A use case runs alone, so the version that guards a
write is still the stored one; what it reads of the identifier stays the same while it runs. -/
namespace Customer360Attributes

open SharedKernel Builtins ExpressionKernel RuleSets CellRuns

abbrev AttributeValue := Scalar

structure IdentifierRef where
  type : String
  value : NonBlank

structure ComputedAttributeDefinition where
  id : String
  version : ℕ
  ruleSet : RuleSet AttributeValue
  dependencies : List String

/-- The definitions that are registered, each under its id. -/
structure AttributeDefinitionRegistry where
  definitions : List ComputedAttributeDefinition
  distinct : (definitions.map (·.id)).Nodup

structure ComputedAttributeValue where
  value : AttributeValue
  definitionId : String
  definitionVersion : ℕ
  matchedRuleIds : List String
  inputs : OrderedMap String AttributeValue
  evaluatedAt : String
  version : ℕ

structure ComputedAttribute where
  identifierType : String
  identifierValue : String
  attributes : OrderedMap String ComputedAttributeValue
  version : ℕ
  updatedAt : String

def INITIAL_ATTRIBUTE_VERSION : ℕ := 0

def createEmptyComputedAttribute (identifierType identifierValue now : String) :
    ComputedAttribute where
  identifierType := identifierType
  identifierValue := identifierValue
  attributes := OrderedMap.empty
  version := INITIAL_ATTRIBUTE_VERSION
  updatedAt := now

/-- What the store holds for the identifier. -/
abbrev Store := Option ComputedAttribute

/-- `current?.attributes.get(id)`. -/
def stored (store : Store) (id : String) : Option ComputedAttributeValue :=
  store.bind fun computed => computed.attributes.find? id

structure AttributeUpdateInput where
  value : AttributeValue
  definitionId : String
  definitionVersion : ℕ
  matchedRuleIds : List String
  inputs : OrderedMap String AttributeValue
  evaluatedAt : String

structure AttributeUpdateResult where
  computed : ComputedAttribute
  applied : Bool

def isUnchanged (existing : Option ComputedAttributeValue) (update : AttributeUpdateInput) : Bool :=
  match existing with
  | none => false
  | some value =>
    value.definitionVersion = update.definitionVersion ∧ value.value = update.value

def nextValue (existing : Option ComputedAttributeValue) (update : AttributeUpdateInput) :
    ComputedAttributeValue where
  value := update.value
  definitionId := update.definitionId
  definitionVersion := update.definitionVersion
  matchedRuleIds := update.matchedRuleIds
  inputs := update.inputs
  evaluatedAt := update.evaluatedAt
  version := existing.elim 1 fun value => value.version + 1

def applyAttributeUpdate (computed : ComputedAttribute) (name : String)
    (update : AttributeUpdateInput) : AttributeUpdateResult :=
  let existing := computed.attributes.find? name
  if isUnchanged existing update then ⟨computed, false⟩
  else
    { applied := true
      computed :=
        { computed with
          attributes := computed.attributes.set name (nextValue existing update)
          version := computed.version + 1
          updatedAt := if lessThan computed.updatedAt update.evaluatedAt then update.evaluatedAt
            else computed.updatedAt } }

structure ProfileField where
  value : JsonText.Json ℚ
  source : String
  updatedAt : String

structure JourneyState where
  sessionCount : ℕ
  identified : Bool
  currentSessionId : Option String

/-- What is read of the identifier besides its computed attributes, and the clock. -/
structure Facts where
  profile : Option (OrderedMap String ProfileField)
  journey : JourneyState
  now : String

structure AttributeInputProvenance where
  source : String
  observedAt : String

structure AttributeEvaluationResult where
  identifier : IdentifierRef
  definitionId : String
  definitionVersion : ℕ
  value : Option AttributeValue
  matchedRuleIds : List String
  usedFallback : Bool
  degraded : Bool
  ruleTrace : List RuleTraceEntry
  inputs : OrderedMap String AttributeValue
  contributingSources : OrderedMap String AttributeInputProvenance
  source : String
  evaluatedAt : String

def toAttributeValue : JsonText.Json ℚ → Option AttributeValue
  | .null => some .null
  | .string value => some (.string value)
  | .number value => some (.number value)
  | .boolean value => some (.boolean value)
  | _ => none

namespace Facts

/-- The fields of the profile, none of which are there without one. -/
def fields (facts : Facts) : List (String × ProfileField) :=
  (facts.profile.elim [] (·.entries))

def profileFacts (facts : Facts) : List (String × AttributeValue) :=
  facts.fields.filterMap fun entry =>
    (toAttributeValue entry.2.value).map fun scalar => (entry.1, scalar)

def contributingSources (facts : Facts) : OrderedMap String AttributeInputProvenance :=
  OrderedMap.ofEntries <| facts.fields.filterMap fun entry =>
    (toAttributeValue entry.2.value).map fun _ =>
      ("profile." ++ entry.1, ⟨entry.2.source, entry.2.updatedAt⟩)

def journeyFacts (identifier : IdentifierRef) (facts : Facts) : List (String × AttributeValue) :=
  if identifier.type = "visitor_id" then
    [("sessionCount", .number facts.journey.sessionCount),
      ("identified", .boolean facts.journey.identified),
      ("hasCurrentSession", .boolean facts.journey.currentSessionId.isSome)]
  else []

end Facts

def dependencyFacts (definition : ComputedAttributeDefinition)
    (current : String → Option ComputedAttributeValue) : List (String × AttributeValue) :=
  (OrderedMap.ofEntries <| definition.dependencies.filterMap fun dependencyId =>
    (current dependencyId).map fun dependency => (dependencyId, dependency.value)).entries

def object (entries : List (String × AttributeValue)) : ContextValue :=
  .object (entries.map fun entry => (entry.1, .scalar entry.2))

def context (identifier : IdentifierRef) (facts : Facts)
    (attributes : List (String × AttributeValue)) : ContextValue :=
  .object [("profile", object facts.profileFacts),
    ("journey", object (facts.journeyFacts identifier)), ("attributes", object attributes)]

def inputs (identifier : IdentifierRef) (facts : Facts)
    (attributes : List (String × AttributeValue)) : OrderedMap String AttributeValue :=
  OrderedMap.ofEntries <|
    facts.profileFacts.map (fun entry => ("profile." ++ entry.1, entry.2)) ++
    (facts.journeyFacts identifier).map (fun entry => ("journey." ++ entry.1, entry.2)) ++
    attributes.map fun entry => ("attributes." ++ entry.1, entry.2)

/-- The error is the one that a rule set throws. -/
def EvaluateComputedAttribute.execute (identifier : IdentifierRef) (facts : Facts)
    (current : String → Option ComputedAttributeValue) (definition : ComputedAttributeDefinition) :
    Except RuleEvaluationError AttributeEvaluationResult :=
  let attributes := dependencyFacts definition current
  (evaluateRuleSet definition.ruleSet (context identifier facts attributes)).map fun evaluation =>
    { identifier := identifier
      definitionId := definition.id
      definitionVersion := definition.version
      value := evaluation.outcomes.head?
      matchedRuleIds := matchedRuleIds evaluation
      usedFallback := evaluation.usedFallback
      degraded := evaluation.degraded
      ruleTrace := evaluation.trace
      inputs := inputs identifier facts attributes
      contributingSources := facts.contributingSources
      source := "computed-attribute:" ++ definition.id
      evaluatedAt := facts.now }

structure UpdateComputedAttributeProjection.Output where
  applied : Bool
  version : ℕ

def AttributeEvaluationResult.update (result : AttributeEvaluationResult) (value : AttributeValue) :
    AttributeUpdateInput where
  value := value
  definitionId := result.definitionId
  definitionVersion := result.definitionVersion
  matchedRuleIds := result.matchedRuleIds
  inputs := result.inputs
  evaluatedAt := result.evaluatedAt

def UpdateComputedAttributeProjection.execute (identifier : IdentifierRef) (current : Store)
    (result : AttributeEvaluationResult) : UpdateComputedAttributeProjection.Output × Store :=
  match result.value with
  | none => (⟨false, current.elim INITIAL_ATTRIBUTE_VERSION (·.version)⟩, current)
  | some value =>
    let base := current.getD
      (createEmptyComputedAttribute identifier.type identifier.value.1 result.evaluatedAt)
    let applyResult := applyAttributeUpdate base result.definitionId (result.update value)
    if applyResult.applied = false then (⟨false, base.version⟩, current)
    else (⟨true, applyResult.computed.version⟩, some applyResult.computed)

inductive Failure where
  | returned (error : DomainError)
  | thrown (error : RuleEvaluationError)

structure EvaluateAttributeGraph.Output where
  results : List AttributeEvaluationResult
  applied : List String

def toDependencyEdges (definitions : List ComputedAttributeDefinition) :
    List AttributeDependency :=
  definitions.flatMap fun definition =>
    definition.dependencies.map fun dependsOn => ⟨definition.id, dependsOn⟩

def byId (definitions : List ComputedAttributeDefinition) :
    OrderedMap String ComputedAttributeDefinition :=
  OrderedMap.ofEntries (definitions.map fun definition => (definition.id, definition))

def cycleError (error : AttributeCycleError) : Failure :=
  .returned (.businessRule
    ("Computed attribute dependency cycle detected: " ++ " -> ".intercalate error.cycle))

section Execute

variable (identifier : IdentifierRef) (facts : Facts)

/-- One attribute after the other; each finds the values of those before it in the store. -/
def evaluateInOrder : List ComputedAttributeDefinition → Store →
    Except Failure EvaluateAttributeGraph.Output × Store
  | [], store => (.ok ⟨[], []⟩, store)
  | definition :: rest, store =>
    match EvaluateComputedAttribute.execute identifier facts (stored store) definition with
    | .error e => (.error (.thrown e), store)
    | .ok result =>
      let persisted := UpdateComputedAttributeProjection.execute identifier store result
      match evaluateInOrder rest persisted.2 with
      | (.error e, after) => (.error e, after)
      | (.ok output, after) =>
        (.ok ⟨result :: output.results,
          if persisted.1.applied then definition.id :: output.applied else output.applied⟩, after)

def EvaluateAttributeGraph.execute (definitions : List ComputedAttributeDefinition)
    (store : Store) : Except Failure EvaluateAttributeGraph.Output × Store :=
  let names := (byId definitions).keys
  let edges := (toDependencyEdges definitions).filter fun e => e.dependsOn ∈ names
  match topologicalOrder names edges with
  | .error e => (.error (cycleError e), store)
  -- The order is one of the names, so each of them is found.
  | .ok order => evaluateInOrder identifier facts (order.filterMap (byId definitions).find?) store

structure RecalculateComputedAttributes.Output where
  results : List AttributeEvaluationResult
  applied : List String
  recomputed : List String

def unknownDependency (definitions : List ComputedAttributeDefinition) :
    Option (ComputedAttributeDefinition × String) :=
  definitions.findSome? fun definition =>
    (definition.dependencies.find? fun dependsOn => dependsOn ∉ (byId definitions).keys).map
      fun dependsOn => (definition, dependsOn)

def recomputedOf (changed : Option (List String)) (edges : List AttributeDependency)
    (order : List String) : List String :=
  match changed with
  | none => order
  | some [] => order
  | some changed => order.filter fun id => id ∈ dependentsOf changed edges

def RecalculateComputedAttributes.execute (registry : AttributeDefinitionRegistry)
    (changed : Option (List String)) (store : Store) :
    Except Failure RecalculateComputedAttributes.Output × Store :=
  let all := registry.definitions
  match unknownDependency all with
  | some (definition, dependsOn) =>
    (.error (.returned (.validation
      ("Computed attribute \"" ++ definition.id ++ "\" depends on unregistered attribute \"" ++
        dependsOn ++ "\"")
      [⟨"dependencies", "unknown dependency: " ++ dependsOn⟩])), store)
  | none =>
    match topologicalOrder (all.map (·.id)) (toDependencyEdges all) with
    | .error e => (.error (cycleError e), store)
    | .ok order =>
      let recomputed := recomputedOf changed (toDependencyEdges all) order
      match EvaluateAttributeGraph.execute identifier facts
          (recomputed.filterMap (byId all).find?) store with
      | (.error e, after) => (.error e, after)
      | (.ok output, after) => (.ok ⟨output.results, output.applied, recomputed⟩, after)

end Execute

def settle (existing : Option ComputedAttributeValue) (result : AttributeEvaluationResult) :
    Option ComputedAttributeValue :=
  match result.value with
  | none => existing
  | some value =>
    if isUnchanged existing (result.update value) then existing
    else some (nextValue existing (result.update value))

variable {existing : Option ComputedAttributeValue} {result : AttributeEvaluationResult}

theorem settle_none (h : result.value = none) : settle existing result = existing := by
  rw [settle, h]

theorem settle_some {value : AttributeValue} (h : result.value = some value) :
    settle existing result = if isUnchanged existing (result.update value) then existing
      else some (nextValue existing (result.update value)) := by
  rw [settle, h]

theorem stored_execute (identifier : IdentifierRef) (store : Store)
    (result : AttributeEvaluationResult) :
    stored (UpdateComputedAttributeProjection.execute identifier store result).2 =
      Function.update (stored store) result.definitionId
        (settle (stored store result.definitionId) result) := by
  have hbase : ∀ id, stored store id = (store.getD (createEmptyComputedAttribute identifier.type
      identifier.value.1 result.evaluatedAt)).attributes.find? id := by
    intro id
    cases store <;> rfl
  rw [UpdateComputedAttributeProjection.execute, settle]
  cases result.value with
  | none => exact (Function.update_eq_self _ _).symm
  | some value =>
    simp only [applyAttributeUpdate, ← hbase]
    by_cases hsame : isUnchanged (stored store result.definitionId) (result.update value) = true
    · simp only [hsame, if_true]
      exact (Function.update_eq_self _ _).symm
    · simp only [hsame, Bool.false_eq_true, if_false, Bool.true_eq_false]
      funext id
      rw [stored, Option.bind_some, OrderedMap.find?_set]
      by_cases hid : id = result.definitionId
      · subst hid
        simp
      · rw [Function.update_of_ne hid, if_neg hid, hbase]

section Settle

variable {existing : Option ComputedAttributeValue} {result result' : AttributeEvaluationResult}

theorem settle_value : (settle existing result).map (·.value) =
    result.value.or (existing.map (·.value)) := by
  cases hvalue : result.value with
  | none =>
    rw [settle_none hvalue, Option.none_or]
  | some value =>
    rw [settle_some hvalue, Option.some_or]
    by_cases hsame : isUnchanged existing (result.update value) = true
    · rw [if_pos hsame]
      cases existing with
      | none => cases hsame
      | some known =>
        simp only [isUnchanged, decide_eq_true_eq] at hsame
        exact congrArg some hsame.2
    · rw [if_neg hsame]
      rfl

theorem settle_settle (hvalue : result'.value = result.value)
    (hversion : result'.definitionVersion = result.definitionVersion) :
    settle (settle existing result) result' = settle existing result := by
  cases hresult : result.value with
  | none =>
    rw [hresult] at hvalue
    exact settle_none hvalue
  | some value =>
    rw [hresult] at hvalue
    rw [settle_some hvalue, settle_some hresult]
    apply if_pos
    by_cases hsame : isUnchanged existing (result.update value) = true
    · rw [if_pos hsame]
      cases existing with
      | none => cases hsame
      | some known =>
        simp only [isUnchanged, AttributeEvaluationResult.update, hversion] at hsame ⊢
        exact hsame
    · rw [if_neg hsame]
      simp [isUnchanged, nextValue, AttributeEvaluationResult.update, hversion]

end Settle

end Customer360Attributes

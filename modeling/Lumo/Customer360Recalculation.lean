import Lumo.Customer360AttributeRuns

/-! # What a recalculation leaves

Full and incremental recalculations compared, and recalculations over different pasts. -/
namespace Customer360Attributes

open SharedKernel ExpressionKernel RuleSets CellRuns DependencyOrder

section Recalculated

variable {registry : AttributeDefinitionRegistry} {order full : List String}
  {identifier : IdentifierRef} {facts facts' : Facts} {store after : Store}
  {output : RecalculateComputedAttributes.Output} {results : List AttributeEvaluationResult}
  {id : String} {result : AttributeEvaluationResult}

theorem Registered.irrefl (h : Registered registry order) {definition : ComputedAttributeDefinition}
    (hdefinition : definition ∈ registry.definitions) : definition.id ∉ definition.dependencies := by
  intro hself
  have hid : definition.id ∈ order := h.mem.mpr (List.mem_map_of_mem hdefinition)
  exact h.respects.irrefl h.nodup hid (edge_mem hdefinition hself)

variable {current final : String → Option ComputedAttributeValue}

theorem Registered.computed_iff (h : Registered registry order) :
    Computed (registry.compute identifier facts) current final id result ↔
      ∃ definition, registry.find? id = some definition ∧
        EvaluateComputedAttribute.execute identifier facts final definition = .ok result ∧
        final id = settle (current id) result := by
  rw [Computed, compute_ok, Function.update_self]
  apply exists_congr
  intro definition
  apply and_congr_right
  intro hfind
  obtain ⟨hdefinition, rfl⟩ := find_registry.mp hfind
  have hother : EvaluateComputedAttribute.execute identifier facts
      (Function.update final definition.id (current definition.id)) definition =
        EvaluateComputedAttribute.execute identifier facts final definition := by
    apply execute_congr
    intro dependency hdependency
    have hne : dependency ≠ definition.id := by
      rintro rfl
      exact h.irrefl hdefinition hdependency
    rw [Function.update_of_ne hne]
  rw [hother]

theorem Registered.computed_id (h : Registered registry order)
    (hcomputed : Computed (registry.compute identifier facts) current final id result) :
    result.definitionId = id := by
  obtain ⟨definition, hfind, hexecute, _⟩ := h.computed_iff.mp hcomputed
  rw [execute_definitionId hexecute]
  exact (find_registry.mp hfind).2

end Recalculated

/-- Two recalculations agree when both complete, with the same stored values, and the results of the
first are those of the second for what it has recomputed; or when rule sets abort both. -/
inductive Agree : Except Failure RecalculateComputedAttributes.Output × Store →
    Except Failure RecalculateComputedAttributes.Output × Store → Prop where
  | completed {output output' after after'} (values : ∀ id, stored after id = stored after' id)
      (results : ∀ result, result ∈ output.results ↔
        result ∈ output'.results ∧ result.definitionId ∈ output.recomputed) :
      Agree (.ok output, after) (.ok output', after')
  | aborted {e e' after after'} :
      Agree (.error (.thrown e), after) (.error (.thrown e'), after')

section Incremental

variable {registry : AttributeDefinitionRegistry} {order full part changed : List String}
  {identifier : IdentifierRef} {facts facts' : Facts} {store before : Store}

variable {id : String}

theorem not_mem_changed (hid : id ∈ order)
    (hnot : id ∉ recomputedOf (some changed) (toDependencyEdges registry.definitions) order) :
    id ∉ changed := by
  cases changed with
  | nil => exact List.not_mem_nil
  | cons first rest =>
    intro hchanged
    exact hnot (List.mem_filter.mpr ⟨hid, decide_eq_true (affected_spec.1 hchanged)⟩)

theorem recomputed_closed : ∀ e ∈ registry.edges, e.1 ∈ order →
      e.2 ∈ recomputedOf (some changed) (toDependencyEdges registry.definitions) order →
        e.1 ∈ recomputedOf (some changed) (toDependencyEdges registry.definitions) order := by
  intro e he hfrom hto
  cases changed with
  | nil => exact hfrom
  | cons first rest =>
    obtain ⟨_, haffected⟩ := List.mem_filter.mp hto
    exact List.mem_filter.mpr ⟨hfrom,
      decide_eq_true (affected_spec.2 e he (of_decide_eq_true haffected))⟩

theorem Registered.settled (h : Registered registry order)
    {results : List AttributeEvaluationResult} (hordered : Ordered registry.edges full)
    (hrun : run (registry.compute identifier facts) full (stored store) =
      .ok (stored before, results)) (hid : id ∈ full)
    (hsame : ∀ definition, registry.find? id = some definition →
      inputsChanged identifier facts facts' definition = false) :
    ∃ result, registry.compute identifier facts' id (stored before) =
      .ok (stored before id, result) := by
  have hcomputed := ((exists_run_iff reads_compute hordered).mp ⟨results, hrun⟩).2 id hid
  obtain ⟨result, hresult⟩ := hcomputed
  obtain ⟨definition, hfind, hexecute, hsettled⟩ := h.computed_iff.mp hresult
  obtain ⟨result', hexecute', hvalue, hversion⟩ :=
    execute_sameInputs (hsame definition hfind) hexecute
  refine ⟨result', compute_ok.mpr ⟨definition, hfind, hexecute', ?_⟩⟩
  rw [hsettled, settle_settle hvalue hversion]

/-- Runs that end alike are recalculations that agree. -/
theorem Registered.agree (h : Registered registry order) {recomputed all : List String}
    {incremental complete : Except Failure RecalculateComputedAttributes.Output × Store}
    (hfull : Ordered registry.edges full) (hpart : Ordered registry.edges part) (hsub : part ⊆ full)
    (hmem : ∀ id, id ∈ part ↔ id ∈ recomputed) (hends : ∀ final,
      (∃ results, run (registry.compute identifier facts) full (stored store) = .ok (final, results)) ↔
        ∃ results, run (registry.compute identifier facts) part (stored store) =
          .ok (final, results))
    (hcomplete : IsRun registry identifier facts full all store complete)
    (hincremental : IsRun registry identifier facts part recomputed store incremental) :
    Agree incremental complete := by
  obtain ⟨outcome, after⟩ := complete
  obtain ⟨outcome', after'⟩ := incremental
  cases outcome with
  | ok output =>
    obtain ⟨results, hresults⟩ := (hends (stored after)).mp ⟨output.results, hcomplete.1⟩
    cases outcome' with
    | ok output' =>
      have hsame := hincremental.1
      rw [hresults, Except.ok.injEq, Prod.mk.injEq] at hsame
      refine .completed (fun id => congrFun hsame.1.symm id) fun result => ?_
      rw [← hsame.2, hincremental.2, mem_reports reads_compute hpart hresults,
        mem_reports reads_compute hfull hcomplete.1]
      constructor
      · rintro ⟨id, hid, hcomputed⟩
        rw [h.computed_id hcomputed]
        exact ⟨⟨id, hsub hid, hcomputed⟩, (hmem id).mp hid⟩
      · rintro ⟨⟨id, hid, hcomputed⟩, hrecomputed⟩
        rw [h.computed_id hcomputed] at hrecomputed
        exact ⟨id, (hmem id).mpr hrecomputed, hcomputed⟩
    | error failure =>
      cases failure with
      | returned e => exact hincremental.elim
      | thrown e =>
        rw [IsRun, hresults] at hincremental
        cases hincremental
  | error failure =>
    cases failure with
    | returned e => exact hcomplete.elim
    | thrown e =>
      cases outcome' with
      | ok output' =>
        obtain ⟨results, hresults⟩ := (hends (stored after')).mpr ⟨output'.results, hincremental.1⟩
        rw [IsRun, hresults] at hcomplete
        cases hcomplete
      | error failure =>
        cases failure with
        | returned e => exact hincremental.elim
        | thrown e' => exact .aborted

end Incremental

def valueOf (store : Store) (id : String) : Option AttributeValue :=
  (stored store id).map (·.value)

variable {facts : Facts} {identifier : IdentifierRef}
  {output : RecalculateComputedAttributes.Output} {registry : AttributeDefinitionRegistry}

/-- When a full recalculation has produced the stored values, and the changed attributes that are
named cover those whose inputs differ since, an incremental recalculation agrees with a full one. -/
theorem recalculate_incremental {facts' : Facts} {changed : List String} {store before : Store}
    (hfull : RecalculateComputedAttributes.execute identifier facts registry none store =
      (.ok output, before)) (hcovers : ∀ definition ∈ registry.definitions,
      inputsChanged identifier facts facts' definition = true → definition.id ∈ changed) :
    Agree (RecalculateComputedAttributes.execute identifier facts' registry (some changed) before)
      (RecalculateComputedAttributes.execute identifier facts' registry none before) := by
  obtain ⟨order, h⟩ := registered_of_ok hfull
  obtain ⟨full, hordered, hmem, hruns⟩ := h.recalculate_run none
  obtain ⟨part, hpart, hpartMem, hpartRuns⟩ := h.recalculate_run (some changed)
  have hsub : part ⊆ full := by
    intro id hid
    obtain ⟨p, hp⟩ := recomputedOf_eq (some changed) (toDependencyEdges registry.definitions) order
    rw [hpartMem, hp] at hid
    exact (hmem id).mpr (List.mem_of_mem_filter hid)
  have hfirst := hruns identifier facts store
  rw [hfull] at hfirst
  apply h.agree hordered hpart hsub hpartMem _ (hruns identifier facts' before)
    (hpartRuns identifier facts' before)
  intro final
  apply run_part reads_compute h.respects hordered (fun id hid => (hmem id).mp hid) hpart hsub
  · intro e he hfrom hto
    rw [hpartMem] at hto ⊢
    exact recomputed_closed e he ((hmem e.1).mp hfrom) hto
  · intro id hid hnot
    rw [hpartMem] at hnot
    apply h.settled hordered hfirst.1 hid
    intro definition hfind
    obtain ⟨hdefinition, rfl⟩ := find_registry.mp hfind
    rw [← Bool.not_eq_true]
    exact fun hchanged =>
      not_mem_changed ((hmem _).mp hid) hnot (hcovers definition hdefinition hchanged)

/-! A graph on which the scope of a recalculation decides how far it gets before it is aborted. -/

def attributeOf (id : String) (dependencies : List String) (onError : Option RuleErrorPolicy)
    (when : Expression) (outcome : AttributeValue) (fallback : Option AttributeValue) :
    ComputedAttributeDefinition where
  id := id
  version := 1
  ruleSet := ⟨id, 1, .first_match, [⟨id, 1, when, outcome, none⟩], onError, fallback⟩
  dependencies := dependencies

def customers : AttributeDefinitionRegistry where
  definitions :=
    [attributeOf "active" [] none (.literal (.boolean true)) (.boolean true) none,
      attributeOf "orders" [] none (.literal (.boolean true)) (.boolean true) none,
      attributeOf "risk" ["active"] (some .fail)
        (.compare .lt (.ref "profile.refunds") (.literal (.number 3))) (.string "low") none,
      attributeOf "rank" ["orders"] none (.literal (.boolean true)) (.boolean true) none,
      attributeOf "band" ["rank"] none
        (.compare .gte (.ref "profile.spend") (.literal (.number 1000))) (.string "gold")
        (some (.string "base"))]
  distinct := by decide

theorem customer_named : isBlank "customer-of-the-graph" = false := by decide

def customer : IdentifierRef := ⟨"customer_id", "customer-of-the-graph", customer_named⟩

/-- What is known of the customer: refunds are counted or not. -/
def customerFacts (refunds : Option ℚ) (spend : ℚ) : Facts where
  profile := some (OrderedMap.ofEntries (("spend", ⟨.number spend, "orders", "2026-05-01"⟩) ::
    (refunds.map fun count => ("refunds", ⟨.number count, "payments", "2026-05-01"⟩)).toList))
  journey := ⟨0, false, none⟩
  now := "2026-05-02"

theorem exists_ok {ε α σ : Type} {outcome : Except ε α × σ} (h : outcome.1.isOk = true) :
    ∃ output, outcome = (.ok output, outcome.2) := by
  obtain ⟨result, after⟩ := outcome
  cases result with
  | ok output => exact ⟨output, rfl⟩
  | error e => cases h

/-- The store of a first full recalculation. -/
def recalculatedOnce : Store :=
  (RecalculateComputedAttributes.execute customer (customerFacts (some 1) 10) customers none none).2

theorem recalculatedOnce_ok : ∃ output, RecalculateComputedAttributes.execute customer
    (customerFacts (some 1) 10) customers none none = (.ok output, recalculatedOnce) :=
  exists_ok (by decide +kernel)

/-- Aborted at the risk, a full recalculation has not come to the band, and an incremental one
has. -/
theorem incremental_fails : ¬ ∀ (registry : AttributeDefinitionRegistry)
    (identifier : IdentifierRef) (facts facts' : Facts) (changed : List String)
    (store before : Store) (output : RecalculateComputedAttributes.Output),
    RecalculateComputedAttributes.execute identifier facts registry none store =
      (.ok output, before) →
    (∀ definition ∈ registry.definitions,
      inputsChanged identifier facts facts' definition = true → definition.id ∈ changed) →
    ∀ id,
      valueOf (RecalculateComputedAttributes.execute identifier facts' registry (some changed)
        before).2 id =
      valueOf (RecalculateComputedAttributes.execute identifier facts' registry none before).2 id := by
  intro h
  obtain ⟨output, hfull⟩ := recalculatedOnce_ok
  have hcovers : ∀ definition ∈ customers.definitions, inputsChanged customer
      (customerFacts (some 1) 10) (customerFacts none 2000) definition = true →
        definition.id ∈ ["active", "risk", "band"] := by
    decide +kernel
  have hsame := h customers customer (customerFacts (some 1) 10) (customerFacts none 2000)
    ["active", "risk", "band"] none recalculatedOnce output hfull hcovers "band"
  have hdiffer : valueOf (RecalculateComputedAttributes.execute customer (customerFacts none 2000)
      customers (some ["active", "risk", "band"]) recalculatedOnce).2 "band" ≠
        valueOf (RecalculateComputedAttributes.execute customer (customerFacts none 2000) customers
          none recalculatedOnce).2 "band" := by
    decide +kernel
  exact hdiffer hsame

theorem recalculate_incremental_band :
    Agree (RecalculateComputedAttributes.execute customer (customerFacts (some 1) 2000) customers
        (some ["band"]) recalculatedOnce)
      (RecalculateComputedAttributes.execute customer (customerFacts (some 1) 2000) customers none
        recalculatedOnce) := by
  obtain ⟨output, hfull⟩ := recalculatedOnce_ok
  have hcovers : ∀ definition ∈ customers.definitions, inputsChanged customer
      (customerFacts (some 1) 10) (customerFacts (some 1) 2000) definition = true →
        definition.id ∈ ["band"] := by
    decide +kernel
  exact recalculate_incremental hfull hcovers

/-- One recalculation of a history, with the definitions and the facts that it found. -/
structure Recalculation where
  registry : AttributeDefinitionRegistry
  facts : Facts
  changed : Option (List String)

/-- The store after a history, which begins without one. -/
def replay (identifier : IdentifierRef) (history : List Recalculation) : Store :=
  history.foldl (fun store recalculation => (RecalculateComputedAttributes.execute identifier
    recalculation.facts recalculation.registry recalculation.changed store).2) none

/-- The one attribute depends on the other, directly or not, or is it. -/
def DependsOn (registry : AttributeDefinitionRegistry) : String → String → Prop :=
  Relation.ReflTransGen fun id dependency => (id, dependency) ∈ registry.edges

/-- What a full recalculation leaves. -/
structure Recalculated (registry : AttributeDefinitionRegistry) (identifier : IdentifierRef)
    (facts : Facts) (store after : Store) (results : List AttributeEvaluationResult) : Prop where
  others : ∀ id, id ∉ registry.ids → valueOf after id = valueOf store id
  all : ∀ definition ∈ registry.definitions, ∃ result ∈ results,
    EvaluateComputedAttribute.execute identifier facts (stored after) definition = .ok result ∧
      valueOf after definition.id = result.value.or (valueOf store definition.id)
  results : ∀ result ∈ results, ∃ definition ∈ registry.definitions,
    EvaluateComputedAttribute.execute identifier facts (stored after) definition = .ok result

section Memory

variable {registry : AttributeDefinitionRegistry} {order full : List String}
  {identifier : IdentifierRef} {facts : Facts} {store store' after after' : Store}
  {results results' : List AttributeEvaluationResult} {definition : ComputedAttributeDefinition}

theorem Registered.recalculated (h : Registered registry order)
    (hordered : Ordered registry.edges full) (hmem : ∀ id, id ∈ full ↔ id ∈ order)
    (hrun : run (registry.compute identifier facts) full (stored store) =
      .ok (stored after, results)) :
    Recalculated registry identifier facts store after results := by
  obtain ⟨hothers, hcomputed⟩ := (exists_run_iff reads_compute hordered).mp ⟨results, hrun⟩
  have hreports : ∀ result, result ∈ results ↔ ∃ id ∈ full,
      Computed (registry.compute identifier facts) (stored store) (stored after) id result :=
    fun _ => mem_reports reads_compute hordered hrun
  constructor
  · intro id hid
    rw [valueOf, hothers id fun hin => hid (h.mem.mp ((hmem id).mp hin)), valueOf]
  · intro definition hdefinition
    have hid : definition.id ∈ full :=
      (hmem _).mpr (h.mem.mpr (List.mem_map_of_mem hdefinition))
    obtain ⟨result, hresult⟩ := hcomputed definition.id hid
    refine ⟨result, (hreports result).mpr ⟨definition.id, hid, hresult⟩, ?_⟩
    obtain ⟨found, hfind, hexecute, hsettled⟩ := h.computed_iff.mp hresult
    rw [find_registry.mpr ⟨hdefinition, rfl⟩] at hfind
    cases hfind
    refine ⟨hexecute, ?_⟩
    rw [valueOf, hsettled, settle_value, valueOf]
  · intro result hresult
    obtain ⟨id, _, hcomputed⟩ := (hreports result).mp hresult
    obtain ⟨definition, hfind, hexecute, _⟩ := h.computed_iff.mp hcomputed
    exact ⟨definition, (find_registry.mp hfind).1, hexecute⟩

theorem Recalculated.same_result
    (hafter : Recalculated registry identifier facts store after results)
    (hafter' : Recalculated registry identifier facts store' after' results')
    (hdefinition : definition ∈ registry.definitions)
    (hdependencies : ∀ dependency ∈ definition.dependencies,
      valueOf after dependency = valueOf after' dependency) :
    ∃ result ∈ results,
      EvaluateComputedAttribute.execute identifier facts (stored after) definition = .ok result ∧
      valueOf after definition.id = result.value.or (valueOf store definition.id) ∧
      valueOf after' definition.id = result.value.or (valueOf store' definition.id) := by
  obtain ⟨result, hresult, hexecute, hvalue⟩ := hafter.all definition hdefinition
  obtain ⟨result', _, hexecute', hvalue'⟩ := hafter'.all definition hdefinition
  have hsame := hexecute
  rw [execute_congr hdependencies, hexecute'] at hsame
  cases hsame
  exact ⟨result, hresult, hexecute, hvalue, hvalue'⟩

/-- An attribute has the same value after two recalculations when, of it and of all that it depends
on, those to which the rules give no value had the same value before. -/
theorem Registered.same_value (h : Registered registry order)
    (hafter : Recalculated registry identifier facts store after results)
    (hafter' : Recalculated registry identifier facts store' after' results') :
    ∀ id ∈ order, (∀ result ∈ results, DependsOn registry id result.definitionId →
      result.value = none →
        valueOf store result.definitionId = valueOf store' result.definitionId) →
      valueOf after id = valueOf after' id := by
  refine h.respects.induction (P := fun id => (∀ result ∈ results,
    DependsOn registry id result.definitionId → result.value = none →
      valueOf store result.definitionId = valueOf store' result.definitionId) →
    valueOf after id = valueOf after' id) ?_
  intro id hid hrequired hpast
  obtain ⟨definition, hfind, rfl⟩ := h.find hid
  have hdefinition := (find_registry.mp hfind).1
  obtain ⟨result, hresult, hexecute, hvalue, hvalue'⟩ :=
    hafter.same_result hafter' hdefinition fun dependency hdependency => by
      have hedge := edge_mem hdefinition hdependency
      apply hrequired _ hedge rfl
      intro result hresult hdepends hnone
      exact hpast result hresult (.head hedge hdepends) hnone
  have hname := execute_definitionId hexecute
  rw [hvalue, hvalue']
  cases hnone : result.value with
  | some value => rfl
  | none =>
    have hsame := hpast result hresult (hname ▸ .refl) hnone
    rw [hname] at hsame
    rw [Option.none_or, Option.none_or, hsame]

theorem Registered.same_past (h : Registered registry order)
    (hafter : Recalculated registry identifier facts store after results)
    (hafter' : Recalculated registry identifier facts store' after' results')
    (hsame : ∀ id ∈ registry.ids, valueOf after id = valueOf after' id) :
    ∀ result ∈ results, result.value = none →
      valueOf store result.definitionId = valueOf store' result.definitionId := by
  intro result hresult hnone
  obtain ⟨definition, hdefinition, hexecute⟩ := hafter.results result hresult
  obtain ⟨found, _, hfound, hvalue, hvalue'⟩ :=
    hafter.same_result hafter' hdefinition fun dependency hdependency =>
      hsame dependency (h.dependency (edge_mem hdefinition hdependency))
  rw [hexecute] at hfound
  cases hfound
  rw [hnone, Option.none_or] at hvalue hvalue'
  rw [execute_definitionId hexecute, ← hvalue, ← hvalue',
    hsame definition.id (List.mem_map_of_mem hdefinition)]

def settledFrom (registry : AttributeDefinitionRegistry) (identifier : IdentifierRef)
    (facts : Facts) (after store' : Store) (id : String) : Option ComputedAttributeValue :=
  match registry.compute identifier facts id (stored after) with
  | .ok (_, result) => settle (stored store' id) result
  | .error _ => stored store' id

theorem Recalculated.settledFrom_value
    (hafter : Recalculated registry identifier facts store after results)
    (hpast : ∀ result ∈ results, result.value = none →
      valueOf store result.definitionId = valueOf store' result.definitionId)
    (hdefinition : definition ∈ registry.definitions) :
    ∃ result,
      EvaluateComputedAttribute.execute identifier facts (stored after) definition = .ok result ∧
      settledFrom registry identifier facts after store' definition.id =
        settle (stored store' definition.id) result ∧
      (settledFrom registry identifier facts after store' definition.id).map (·.value) =
        valueOf after definition.id := by
  obtain ⟨result, hresult, hexecute, hvalue⟩ := hafter.all definition hdefinition
  have hcompute := compute_ok.mpr
    ⟨definition, find_registry.mpr ⟨hdefinition, rfl⟩, hexecute, rfl⟩
  have hsettled : settledFrom registry identifier facts after store' definition.id =
      settle (stored store' definition.id) result := by
    rw [settledFrom, hcompute]
  refine ⟨result, hexecute, hsettled, ?_⟩
  rw [hsettled, settle_value, hvalue]
  cases hnone : result.value with
  | some value => rfl
  | none =>
    have hsame := hpast result hresult hnone
    rw [execute_definitionId hexecute] at hsame
    rw [Option.none_or, Option.none_or, hsame, valueOf]

/-- A recalculation from another store completes as well, where the values that the rules do not give
are the same there. -/
theorem Registered.other_completes (h : Registered registry order)
    (hordered : Ordered registry.edges full) (hmem : ∀ id, id ∈ full ↔ id ∈ order)
    (hafter : Recalculated registry identifier facts store after results)
    (hpast : ∀ result ∈ results, result.value = none →
      valueOf store result.definitionId = valueOf store' result.definitionId) :
    ∃ results', run (registry.compute identifier facts) full (stored store') =
      .ok (settledFrom registry identifier facts after store', results') := by
  refine (exists_run_iff reads_compute hordered).mpr ⟨fun id hid => ?_, fun id hid => ?_⟩
  · have hunknown : registry.find? id = none := by
      by_contra hknown
      obtain ⟨definition, hfind⟩ := Option.ne_none_iff_exists'.mp hknown
      obtain ⟨hdefinition, rfl⟩ := find_registry.mp hfind
      exact hid ((hmem _).mpr (h.mem.mpr (List.mem_map_of_mem hdefinition)))
    rw [settledFrom, AttributeDefinitionRegistry.compute, hunknown]
  · obtain ⟨definition, hfind, rfl⟩ := h.find ((hmem id).mp hid)
    have hdefinition := (find_registry.mp hfind).1
    obtain ⟨result, hexecute, hsettled, _⟩ := hafter.settledFrom_value hpast hdefinition
    refine ⟨result, h.computed_iff.mpr ⟨definition, hfind, ?_, hsettled⟩⟩
    rw [← hexecute]
    apply execute_congr
    intro dependency hdependency
    obtain ⟨other, hother, rfl⟩ :=
      List.mem_map.mp (h.dependency (edge_mem hdefinition hdependency))
    obtain ⟨_, _, _, hvalue⟩ := hafter.settledFrom_value hpast hother
    exact hvalue

end Memory

/-- After two histories with the same definitions and facts at their end, a full recalculation gives
each attribute the value that its rules give, and leaves it the earlier one where they give none.
The recalculations leave the same values exactly when the attributes without a value from the rules
had the same values before, and each attribute the same value when this holds of what it depends
on. -/
theorem recalculate_full {history history' : List Recalculation} {after : Store}
    (hfull : RecalculateComputedAttributes.execute identifier facts registry none
      (replay identifier history) = (.ok output, after)) :
    Recalculated registry identifier facts (replay identifier history) after output.results ∧
    ((∃ output' after', RecalculateComputedAttributes.execute identifier facts registry none
        (replay identifier history') = (.ok output', after') ∧
          ∀ id ∈ registry.ids, valueOf after id = valueOf after' id) ↔
      ∀ result ∈ output.results, result.value = none →
        valueOf (replay identifier history) result.definitionId =
          valueOf (replay identifier history') result.definitionId) ∧
    ∀ output' after', RecalculateComputedAttributes.execute identifier facts registry none
      (replay identifier history') = (.ok output', after') →
        ∀ id ∈ registry.ids, (∀ result ∈ output.results,
          DependsOn registry id result.definitionId → result.value = none →
            valueOf (replay identifier history) result.definitionId =
              valueOf (replay identifier history') result.definitionId) →
          valueOf after id = valueOf after' id := by
  obtain ⟨order, h⟩ := registered_of_ok hfull
  obtain ⟨full, hordered, hmem, hruns⟩ := h.recalculate_run none
  have hrecalculated : ∀ {store after output},
      RecalculateComputedAttributes.execute identifier facts registry none store =
        (.ok output, after) →
      Recalculated registry identifier facts store after output.results := by
    intro store after output hexecute
    have hrun := hruns identifier facts store
    rw [hexecute] at hrun
    exact h.recalculated hordered hmem hrun.1
  have hafter := hrecalculated hfull
  refine ⟨hafter, ⟨?_, fun hpast => ?_⟩, fun output' after' hexecute id hid hpast => ?_⟩
  · rintro ⟨output', after', hexecute, hsame⟩
    exact h.same_past hafter (hrecalculated hexecute) hsame
  · obtain ⟨results', hresults'⟩ := h.other_completes hordered hmem hafter hpast
    have hrun := hruns identifier facts (replay identifier history')
    cases hexecute : RecalculateComputedAttributes.execute identifier facts registry none
        (replay identifier history') with
    | mk outcome after' =>
      rw [hexecute] at hrun
      cases outcome with
      | ok output' =>
        refine ⟨output', after', rfl, fun id hid => ?_⟩
        apply h.same_value hafter (hrecalculated hexecute) id (h.mem.mpr hid)
        exact fun result hresult _ hnone => hpast result hresult hnone
      | error failure =>
        cases failure with
        | returned e => exact hrun.elim
        | thrown e =>
          rw [IsRun, hresults'] at hrun
          cases hrun
  · exact h.same_value hafter (hrecalculated hexecute) id (h.mem.mpr hid) hpast

/-- Who has spent much, and nothing of who has not. -/
def spenders : AttributeDefinitionRegistry where
  definitions := [attributeOf "big_spender" [] none
    (.compare .gte (.ref "profile.spend") (.literal (.number 1000))) (.boolean true) none]
  distinct := by decide

/-- The store of a customer who has spent an amount once. -/
def afterSpending (spend : ℚ) : Store :=
  replay customer [⟨spenders, customerFacts none spend, none⟩]

theorem recalculate_full_spenders : ∃ output after,
    RecalculateComputedAttributes.execute customer (customerFacts none 10) spenders none
      (afterSpending 2000) = (.ok output, after) ∧
    ((∃ output' after', RecalculateComputedAttributes.execute customer (customerFacts none 10)
        spenders none (afterSpending 3000) = (.ok output', after') ∧
          ∀ id ∈ spenders.ids, valueOf after id = valueOf after' id) ↔
      ∀ result ∈ output.results, result.value = none →
        valueOf (afterSpending 2000) result.definitionId =
          valueOf (afterSpending 3000) result.definitionId) := by
  have hok : (RecalculateComputedAttributes.execute customer (customerFacts none 10) spenders none
      (afterSpending 2000)).1.isOk = true := by
    decide +kernel
  obtain ⟨output, hfull⟩ := exists_ok hok
  exact ⟨output, _, hfull, (recalculate_full hfull).2.1⟩

/-- The value stays when the rule that gave it no longer matches. -/
theorem forgetting_fails : ¬ ∀ (registry : AttributeDefinitionRegistry)
    (identifier : IdentifierRef) (facts : Facts) (history history' : List Recalculation)
    (output output' : RecalculateComputedAttributes.Output) (after after' : Store),
    RecalculateComputedAttributes.execute identifier facts registry none
      (replay identifier history) = (.ok output, after) →
    RecalculateComputedAttributes.execute identifier facts registry none
      (replay identifier history') = (.ok output', after') →
    ∀ id, valueOf after id = valueOf after' id := by
  intro h
  have hspent : (RecalculateComputedAttributes.execute customer (customerFacts none 10) spenders none
      (afterSpending 2000)).1.isOk = true := by
    decide +kernel
  have hnew : (RecalculateComputedAttributes.execute customer (customerFacts none 10) spenders none
      (replay customer [])).1.isOk = true := by
    decide +kernel
  obtain ⟨output, hfirst⟩ := exists_ok hspent
  obtain ⟨output', hsecond⟩ := exists_ok hnew
  have hsame := h spenders customer (customerFacts none 10)
    [⟨spenders, customerFacts none 2000, none⟩] [] output output' _ _ hfirst hsecond "big_spender"
  have hdiffer : valueOf (RecalculateComputedAttributes.execute customer (customerFacts none 10)
      spenders none (afterSpending 2000)).2 "big_spender" ≠
        valueOf (RecalculateComputedAttributes.execute customer (customerFacts none 10) spenders
          none (replay customer [])).2 "big_spender" := by
    decide +kernel
  exact hdiffer hsame

end Customer360Attributes

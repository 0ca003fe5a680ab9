import Lumo.Customer360Attributes

/-! # Recalculations as runs over the attributes

A recalculation computes each of its attributes once, from what the store holds of the others. -/
namespace Customer360Attributes

open SharedKernel ExpressionKernel RuleSets CellRuns DependencyOrder

section Reads

variable {identifier : IdentifierRef} {facts facts' : Facts}
  {definition : ComputedAttributeDefinition}
  {current current' : String → Option ComputedAttributeValue} {result : AttributeEvaluationResult}

theorem execute_congr (h : ∀ dependency ∈ definition.dependencies,
    (current dependency).map (·.value) = (current' dependency).map (·.value)) :
    EvaluateComputedAttribute.execute identifier facts current definition =
      EvaluateComputedAttribute.execute identifier facts current' definition := by
  have hfacts : dependencyFacts definition current = dependencyFacts definition current' := by
    rw [dependencyFacts, dependencyFacts]
    congr 2
    apply List.filterMap_congr
    intro dependency hmem
    have hvalue := congrArg (Option.map fun value => (dependency, value)) (h dependency hmem)
    simpa [Option.map_map, Function.comp_def] using hvalue
  rw [EvaluateComputedAttribute.execute, EvaluateComputedAttribute.execute, hfacts]

theorem execute_definitionId
    (h : EvaluateComputedAttribute.execute identifier facts current definition = .ok result) :
    result.definitionId = definition.id := by
  obtain ⟨_, _, rfl⟩ := map_eq_ok.mp h
  rfl

/-- The inputs that the rules name, other than attributes, differ. -/
def inputsChanged (identifier : IdentifierRef) (facts facts' : Facts)
    (definition : ComputedAttributeDefinition) : Bool :=
  definition.ruleSet.paths.any fun path =>
    reading (context identifier facts []) path ≠ reading (context identifier facts' []) path

theorem reading_context (attributes : List (String × AttributeValue)) {path : String}
    (h : reading (context identifier facts []) path = reading (context identifier facts' []) path) :
    reading (context identifier facts attributes) path =
      reading (context identifier facts' attributes) path := by
  unfold reading resolvePath at h ⊢
  generalize (path.toList.splitOn '.').map String.ofList = segments at h ⊢
  cases segments with
  | nil => rfl
  | cons first rest =>
    simp only [List.foldl_cons, Option.bind_some] at h ⊢
    by_cases hfirst : first = "attributes"
    · subst hfirst
      have hattributes : ∀ f : Facts, lookUp "attributes" (context identifier f attributes) =
          some (object attributes) := by
        intro f
        rfl
      rw [hattributes, hattributes]
    · have hother : ∀ f : Facts, lookUp first (context identifier f attributes) =
          lookUp first (context identifier f []) := by
        intro f
        have hne : ¬ "attributes" = first := fun heq => hfirst heq.symm
        simp only [lookUp, context, List.find?_cons, hne, decide_false]
      rw [hother, hother]
      exact h

theorem execute_sameInputs (hsame : inputsChanged identifier facts facts' definition = false)
    (h : EvaluateComputedAttribute.execute identifier facts current definition = .ok result) :
    ∃ result', EvaluateComputedAttribute.execute identifier facts' current definition =
      .ok result' ∧ result'.value = result.value ∧
        result'.definitionVersion = result.definitionVersion := by
  obtain ⟨evaluation, heval, rfl⟩ := map_eq_ok.mp h
  have hpaths : ∀ path ∈ definition.ruleSet.paths,
      reading (context identifier facts (dependencyFacts definition current)) path =
        reading (context identifier facts' (dependencyFacts definition current)) path := by
    intro path hpath
    apply reading_context
    have hunchanged := List.any_eq_false.mp hsame path hpath
    simpa using hunchanged
  rw [evaluateRuleSet_congr hpaths] at heval
  exact ⟨_, map_eq_ok.mpr ⟨evaluation, heval, rfl⟩, rfl, rfl⟩

end Reads

variable {definitions : List ComputedAttributeDefinition}

theorem entries_byId (h : (definitions.map (·.id)).Nodup) :
    (byId definitions).entries = definitions.map fun definition => (definition.id, definition) := by
  rw [byId, OrderedMap.entries_ofEntries]
  rw [List.map_map]
  exact h

theorem keys_byId (h : (definitions.map (·.id)).Nodup) :
    (byId definitions).keys = definitions.map (·.id) := by
  rw [OrderedMap.keys, entries_byId h, List.map_map]
  rfl

theorem find_byId (h : (definitions.map (·.id)).Nodup) {id : String}
    {definition : ComputedAttributeDefinition} :
    (byId definitions).find? id = some definition ↔
      definition ∈ definitions ∧ definition.id = id := by
  rw [OrderedMap.find?_eq_some, entries_byId h, List.mem_map]
  constructor
  · rintro ⟨found, hmem, heq⟩
    cases heq
    exact ⟨hmem, rfl⟩
  · rintro ⟨hmem, rfl⟩
    exact ⟨definition, hmem, rfl⟩

variable {e : String × String} {order : List String} {registry : AttributeDefinitionRegistry}

theorem mem_edges :
    e ∈ (toDependencyEdges definitions).map (·.edge) ↔
      ∃ definition ∈ definitions, e.1 = definition.id ∧ e.2 ∈ definition.dependencies := by
  rw [toDependencyEdges, List.mem_map]
  constructor
  · rintro ⟨dependency, hmem, rfl⟩
    obtain ⟨definition, hdefinition, hdependency⟩ := List.mem_flatMap.mp hmem
    obtain ⟨dependsOn, hdependsOn, rfl⟩ := List.mem_map.mp hdependency
    exact ⟨definition, hdefinition, rfl, hdependsOn⟩
  · rintro ⟨definition, hdefinition, hfrom, hto⟩
    refine ⟨⟨definition.id, e.2⟩, List.mem_flatMap.mpr ⟨definition, hdefinition, ?_⟩, ?_⟩
    · exact List.mem_map.mpr ⟨e.2, hto, rfl⟩
    · exact Prod.ext hfrom.symm rfl

namespace AttributeDefinitionRegistry

variable (registry : AttributeDefinitionRegistry)

def ids : List String := registry.definitions.map (·.id)

def edges : List (String × String) := (toDependencyEdges registry.definitions).map (·.edge)

def find? (id : String) : Option ComputedAttributeDefinition :=
  (byId registry.definitions).find? id

def compute (identifier : IdentifierRef) (facts : Facts) :
    Compute String (Option ComputedAttributeValue) (Option RuleEvaluationError)
      AttributeEvaluationResult := fun id current =>
  match registry.find? id with
  | none => .error none
  | some definition =>
    match EvaluateComputedAttribute.execute identifier facts current definition with
    | .error e => .error (some e)
    | .ok result => .ok (settle (current id) result, result)

end AttributeDefinitionRegistry

section Compute

variable {registry : AttributeDefinitionRegistry} {identifier : IdentifierRef} {facts : Facts}
  {id : String} {current : String → Option ComputedAttributeValue}

variable {definition : ComputedAttributeDefinition}

theorem find_registry :
    registry.find? id = some definition ↔
      definition ∈ registry.definitions ∧ definition.id = id :=
  find_byId registry.distinct

theorem edge_mem {dependency : String} (hdefinition : definition ∈ registry.definitions)
    (hdependency : dependency ∈ definition.dependencies) :
    (definition.id, dependency) ∈ registry.edges :=
  mem_edges.mpr ⟨definition, hdefinition, rfl, hdependency⟩

theorem compute_ok {value : Option ComputedAttributeValue} {result : AttributeEvaluationResult} :
    registry.compute identifier facts id current = .ok (value, result) ↔
      ∃ definition, registry.find? id = some definition ∧
        EvaluateComputedAttribute.execute identifier facts current definition = .ok result ∧
        value = settle (current id) result := by
  unfold AttributeDefinitionRegistry.compute
  cases registry.find? id with
  | none => simp
  | some definition =>
    cases hexecute : EvaluateComputedAttribute.execute identifier facts current definition with
    | error e => simp [hexecute]
    | ok found =>
      simp only [hexecute]
      constructor
      · rintro ⟨⟩
        exact ⟨definition, rfl, hexecute, rfl⟩
      · rintro ⟨_, ⟨⟩, hfound, rfl⟩
        rw [hexecute] at hfound
        cases hfound
        rfl

theorem reads_compute : Reads registry.edges (registry.compute identifier facts) := by
  intro id current current' hself hrequired
  unfold AttributeDefinitionRegistry.compute
  cases hfind : registry.find? id with
  | none => rfl
  | some definition =>
    obtain ⟨hmem, rfl⟩ := find_registry.mp hfind
    have hsame : EvaluateComputedAttribute.execute identifier facts current definition =
        EvaluateComputedAttribute.execute identifier facts current' definition := by
      apply execute_congr
      intro dependency hdependency
      rw [hrequired _ (edge_mem hmem hdependency) rfl]
    simp only [hsame, hself]

/-- Evaluating one definition after the other is a run over their ids. -/
theorem evaluateInOrder_run (identifier : IdentifierRef) (facts : Facts) {definitions : List ComputedAttributeDefinition}
    (hdefinitions : ∀ definition ∈ definitions, registry.find? definition.id = some definition)
    (store : Store) :
    match evaluateInOrder identifier facts definitions store with
    | (.ok output, after) =>
      run (registry.compute identifier facts) (definitions.map (·.id)) (stored store) =
        .ok (stored after, output.results)
    | (.error (.thrown e), _) =>
      run (registry.compute identifier facts) (definitions.map (·.id)) (stored store) =
        .error (some e)
    | (.error (.returned _), _) => False := by
  induction definitions generalizing store with
  | nil => rfl
  | cons definition rest ih =>
    have hfind := hdefinitions definition List.mem_cons_self
    rw [evaluateInOrder, List.map_cons, run]
    cases hexecute : EvaluateComputedAttribute.execute identifier facts (stored store) definition with
    | error e =>
      have hcompute : registry.compute identifier facts definition.id (stored store) =
          .error (some e) := by
        simp only [AttributeDefinitionRegistry.compute, hfind, hexecute]
      simp only [hcompute]
      rfl
    | ok result =>
      have hcompute : registry.compute identifier facts definition.id (stored store) =
          .ok (settle (stored store definition.id) result, result) :=
        compute_ok.mpr ⟨definition, hfind, hexecute, rfl⟩
      have hid := execute_definitionId hexecute
      have hstored := stored_execute identifier store result
      rw [hid] at hstored
      have hrest := ih (fun other hother => hdefinitions other (List.mem_cons_of_mem _ hother))
        (UpdateComputedAttributeProjection.execute identifier store result).2
      rw [hstored] at hrest
      simp only [hcompute, ok_bind]
      cases hout : evaluateInOrder identifier facts rest
          (UpdateComputedAttributeProjection.execute identifier store result).2 with
      | mk outcome after =>
        rw [hout] at hrest
        cases outcome with
        | ok output =>
          simp only at hrest
          rw [hrest]
          rfl
        | error failure =>
          cases failure with
          | returned e => exact hrest.elim
          | thrown e =>
            simp only at hrest
            rw [hrest]
            rfl

end Compute

structure Registered (registry : AttributeDefinitionRegistry) (order : List String) : Prop where
  known : unknownDependency registry.definitions = none
  sorted : topologicalOrder registry.ids (toDependencyEdges registry.definitions) = .ok order

section Registered

variable {registry : AttributeDefinitionRegistry} {order : List String}

theorem Registered.dependency (h : Registered registry order) {e : String × String}
    (he : e ∈ registry.edges) : e.2 ∈ registry.ids := by
  obtain ⟨definition, hdefinition, _, hdependency⟩ := mem_edges.mp he
  have hknown := h.known
  rw [unknownDependency, List.findSome?_eq_none_iff] at hknown
  have hnone := hknown definition hdefinition
  rw [Option.map_eq_none_iff, List.find?_eq_none] at hnone
  have hmem := hnone e.2 hdependency
  rw [keys_byId registry.distinct] at hmem
  exact of_not_not fun hnot => hmem (decide_eq_true hnot)

theorem Registered.nodup (h : Registered registry order) : order.Nodup :=
  (topologicalOrder_sorted h.sorted).nodup

theorem Registered.respects (h : Registered registry order) : Respects registry.edges order :=
  (topologicalOrder_sorted h.sorted).respects

variable {id : String}

theorem Registered.mem (h : Registered registry order) : id ∈ order ↔ id ∈ registry.ids := by
  rw [(topologicalOrder_sorted h.sorted).mem, mem_allNames]
  constructor
  · rintro (hmem | ⟨e, he, hname⟩)
    · exact hmem
    · have hedge : e.edge ∈ registry.edges := List.mem_map_of_mem he
      rcases hname with rfl | rfl
      · obtain ⟨definition, hdefinition, hfrom, _⟩ := mem_edges.mp hedge
        exact List.mem_map.mpr ⟨definition, hdefinition, hfrom.symm⟩
      · exact h.dependency hedge
  · exact .inl

theorem Registered.find (h : Registered registry order) (hid : id ∈ order) :
    ∃ definition, registry.find? id = some definition ∧ definition.id = id := by
  obtain ⟨definition, hdefinition, rfl⟩ := List.mem_map.mp (h.mem.mp hid)
  exact ⟨definition, find_registry.mpr ⟨hdefinition, rfl⟩, rfl⟩

end Registered

theorem map_id_filterMap {find : String → Option ComputedAttributeDefinition} {l : List String}
    (h : ∀ id ∈ l, ∃ definition, find id = some definition ∧ definition.id = id) :
    (l.filterMap find).map (·.id) = l := by
  rw [List.map_filterMap, List.filterMap_congr, List.filterMap_some]
  intro id hid
  obtain ⟨definition, hfind, rfl⟩ := h id hid
  rw [hfind, Option.map_some]

theorem mem_filter_edges {dependencies : List AttributeDependency} {names : List String} :
    e ∈ (dependencies.filter fun dependency => dependency.dependsOn ∈ names).map (·.edge) ↔
      e ∈ dependencies.map (·.edge) ∧ e.2 ∈ names := by
  simp only [List.mem_map, List.mem_filter, decide_eq_true_eq]
  constructor
  · rintro ⟨dependency, ⟨hmem, hname⟩, rfl⟩
    exact ⟨⟨dependency, hmem, rfl⟩, hname⟩
  · rintro ⟨⟨dependency, hmem, rfl⟩, hname⟩
    exact ⟨dependency, ⟨hmem, hname⟩, rfl⟩

def scopedDefinitions (registry : AttributeDefinitionRegistry) (names : List String) :
    List ComputedAttributeDefinition :=
  names.filterMap registry.find?

def scopedEdges (registry : AttributeDefinitionRegistry) (names : List String) :
    List AttributeDependency :=
  (toDependencyEdges (scopedDefinitions registry names)).filter fun e => e.dependsOn ∈ names

section Scope

variable {registry : AttributeDefinitionRegistry} {order : List String} {p : String → Bool}

theorem Registered.ids_scoped (h : Registered registry order) :
    (scopedDefinitions registry (order.filter p)).map (·.id) = order.filter p :=
  map_id_filterMap fun _ hid => h.find (List.mem_of_mem_filter hid)

theorem Registered.nodup_scoped (h : Registered registry order) :
    ((scopedDefinitions registry (order.filter p)).map (·.id)).Nodup := by
  rw [h.ids_scoped]
  exact h.nodup.filter p

variable {names : List String}

theorem mem_scoped {definition : ComputedAttributeDefinition} :
    definition ∈ scopedDefinitions registry names ↔
      definition ∈ registry.definitions ∧ definition.id ∈ names := by
  rw [scopedDefinitions, List.mem_filterMap]
  constructor
  · rintro ⟨id, hid, hfind⟩
    obtain ⟨hmem, rfl⟩ := find_registry.mp hfind
    exact ⟨hmem, hid⟩
  · rintro ⟨hmem, hid⟩
    exact ⟨definition.id, hid, find_registry.mpr ⟨hmem, rfl⟩⟩

theorem edges_scoped {e : String × String} :
    e ∈ (scopedEdges registry names).map (·.edge) ↔
      e ∈ registry.edges ∧ e.1 ∈ names ∧ e.2 ∈ names := by
  rw [scopedEdges, mem_filter_edges, mem_edges, AttributeDefinitionRegistry.edges, mem_edges]
  constructor
  · rintro ⟨⟨definition, hmem, hfrom, hto⟩, hname⟩
    obtain ⟨hregistered, hin⟩ := mem_scoped.mp hmem
    rw [← hfrom] at hin
    exact ⟨⟨definition, hregistered, hfrom, hto⟩, hin, hname⟩
  · rintro ⟨⟨definition, hmem, hfrom, hto⟩, hin, hname⟩
    rw [hfrom] at hin
    exact ⟨⟨definition, mem_scoped.mpr ⟨hmem, hin⟩, hfrom, hto⟩, hname⟩

theorem Registered.sort_scoped (h : Registered registry order) :
    ∃ found,
      topologicalOrder (order.filter p) (scopedEdges registry (order.filter p)) = .ok found ∧
      Ordered registry.edges found ∧ ∀ id, id ∈ found ↔ id ∈ order.filter p := by
  have hrespects : Respects ((scopedEdges registry (order.filter p)).map (·.edge))
      (order.filter p) := by
    apply h.respects.filter
    intro e he
    obtain ⟨hedge, _, hin⟩ := edges_scoped.mp he
    exact ⟨hedge, (List.mem_filter.mp hin).2⟩
  have hnames : ∀ name, name ∈ allNames (order.filter p) (scopedEdges registry (order.filter p)) ↔
      name ∈ order.filter p := by
    intro name
    rw [mem_allNames]
    constructor
    · rintro (hmem | ⟨e, he, hend⟩)
      · exact hmem
      · have hin := edges_scoped.mp (List.mem_map_of_mem he)
        rcases hend with rfl | rfl
        · exact hin.2.1
        · exact hin.2.2
    · exact .inl
  obtain ⟨found, hfound⟩ := topologicalOrder_complete hrespects fun name => (hnames name).mp
  have hsorted := topologicalOrder_sorted hfound
  have hmem : ∀ id, id ∈ found ↔ id ∈ order.filter p :=
    fun id => (hsorted.mem id).trans (hnames id)
  refine ⟨found, hfound, ?_, hmem⟩
  apply hsorted.nodup.and
  apply (hsorted.respects.pairwise hsorted.nodup).imp_of_mem
  intro a b ha hb hnot hedge
  exact hnot (edges_scoped.mpr ⟨hedge, (hmem a).mp ha, (hmem b).mp hb⟩)

theorem Registered.execute_scoped (h : Registered registry order) (p : String → Bool) :
    ∃ found, Ordered registry.edges found ∧ (∀ id, id ∈ found ↔ id ∈ order.filter p) ∧
      ∀ identifier facts store, EvaluateAttributeGraph.execute identifier facts
        (scopedDefinitions registry (order.filter p)) store =
          evaluateInOrder identifier facts (scopedDefinitions registry found) store := by
  obtain ⟨found, hfound, hordered, hmem⟩ := h.sort_scoped (p := p)
  refine ⟨found, hordered, hmem, fun identifier facts store => ?_⟩
  have hkeys : (byId (scopedDefinitions registry (order.filter p))).keys = order.filter p :=
    (keys_byId h.nodup_scoped).trans h.ids_scoped
  have hfind : found.filterMap (byId (scopedDefinitions registry (order.filter p))).find? =
      scopedDefinitions registry found := by
    apply List.filterMap_congr
    intro id hid
    obtain ⟨definition, hregistered, rfl⟩ := h.find (List.mem_of_mem_filter ((hmem id).mp hid))
    rw [hregistered, find_byId h.nodup_scoped, mem_scoped]
    exact ⟨⟨(find_registry.mp hregistered).1, (hmem definition.id).mp hid⟩, rfl⟩
  rw [scopedEdges] at hfound
  rw [EvaluateAttributeGraph.execute, hkeys]
  simp only [hfound, hfind]

theorem recomputedOf_eq (changed : Option (List String)) (dependencies : List AttributeDependency)
    (order : List String) :
    ∃ p : String → Bool, recomputedOf changed dependencies order = order.filter p := by
  cases changed with
  | none => exact ⟨fun _ => true, by simp [recomputedOf]⟩
  | some changed =>
    cases changed with
    | nil => exact ⟨fun _ => true, by simp [recomputedOf]⟩
    | cons first rest => exact ⟨_, rfl⟩

end Scope

theorem Registered.recalculate (h : Registered registry order) (identifier : IdentifierRef)
    (facts : Facts) (changed : Option (List String)) (store : Store) :
    RecalculateComputedAttributes.execute identifier facts registry changed store =
      let recomputed := recomputedOf changed (toDependencyEdges registry.definitions) order
      match EvaluateAttributeGraph.execute identifier facts
          (scopedDefinitions registry recomputed) store with
      | (.error e, after) => (.error e, after)
      | (.ok output, after) => (.ok ⟨output.results, output.applied, recomputed⟩, after) := by
  have hsorted := h.sorted
  rw [AttributeDefinitionRegistry.ids] at hsorted
  simp only [RecalculateComputedAttributes.execute, h.known, hsorted]
  rfl

/-- The outcome is that of a run from the store. -/
def IsRun (registry : AttributeDefinitionRegistry) (identifier : IdentifierRef) (facts : Facts)
    (found recomputed : List String) (store : Store) :
    Except Failure RecalculateComputedAttributes.Output × Store → Prop
  | (.ok output, after) =>
    run (registry.compute identifier facts) found (stored store) =
      .ok (stored after, output.results) ∧ output.recomputed = recomputed
  | (.error (.thrown e), _) =>
    run (registry.compute identifier facts) found (stored store) = .error (some e)
  | (.error (.returned _), _) => False

/-- A recalculation is a run over the attributes it recomputes. -/
theorem Registered.recalculate_run (h : Registered registry order) (changed : Option (List String)) :
    ∃ found, Ordered registry.edges found ∧
      (∀ id, id ∈ found ↔
        id ∈ recomputedOf changed (toDependencyEdges registry.definitions) order) ∧
      ∀ identifier facts store, IsRun registry identifier facts found
        (recomputedOf changed (toDependencyEdges registry.definitions) order) store
        (RecalculateComputedAttributes.execute identifier facts registry changed store) := by
  obtain ⟨p, hp⟩ := recomputedOf_eq changed (toDependencyEdges registry.definitions) order
  obtain ⟨found, hordered, hmem, hexecute⟩ := h.execute_scoped p
  rw [hp]
  refine ⟨found, hordered, hmem, fun identifier facts store => ?_⟩
  have hids : (scopedDefinitions registry found).map (·.id) = found :=
    map_id_filterMap fun id hid => h.find (List.mem_of_mem_filter ((hmem id).mp hid))
  have hregistered : ∀ definition ∈ scopedDefinitions registry found,
      registry.find? definition.id = some definition :=
    fun definition hin => find_registry.mpr ⟨(mem_scoped.mp hin).1, rfl⟩
  have hrun := evaluateInOrder_run identifier facts hregistered store
  rw [hids, ← hexecute identifier facts store] at hrun
  rw [h.recalculate, hp]
  cases hout : EvaluateAttributeGraph.execute identifier facts
      (scopedDefinitions registry (order.filter p)) store with
  | mk outcome after =>
    rw [hout] at hrun
    simp only [hout]
    cases outcome with
    | ok output => exact ⟨hrun, rfl⟩
    | error failure =>
      cases failure with
      | returned e | thrown e => exact hrun

theorem registered_of_ok {identifier : IdentifierRef} {facts : Facts}
    {changed : Option (List String)} {store after : Store}
    {output : RecalculateComputedAttributes.Output}
    (h : RecalculateComputedAttributes.execute identifier facts registry changed store =
      (.ok output, after)) : ∃ order, Registered registry order := by
  rw [RecalculateComputedAttributes.execute] at h
  cases hknown : unknownDependency registry.definitions with
  | some found => simp [hknown] at h
  | none =>
    cases hsorted : topologicalOrder registry.ids (toDependencyEdges registry.definitions) with
    | ok order => exact ⟨order, hknown, hsorted⟩
    | error e =>
      rw [AttributeDefinitionRegistry.ids] at hsorted
      simp [hknown, hsorted] at h

end Customer360Attributes

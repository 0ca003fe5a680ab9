import Lumo.Builtins
import Lumo.Cycles

/-! # The dependency graph of the computed attributes

Facts about attribute names and the dependencies between them alone. -/
namespace Customer360Attributes

open Builtins DependencyOrder

/-- The dependent attribute cannot be evaluated until the other has a value. -/
structure AttributeDependency where
  dependent : String
  dependsOn : String
  deriving DecidableEq

def AttributeDependency.edge (dependency : AttributeDependency) : String × String :=
  (dependency.dependent, dependency.dependsOn)

structure AttributeCycleError where
  cycle : List String
  deriving DecidableEq

/-- Every name there is, in the order in which it first appears. -/
def allNames (attributes : List String) (dependencies : List AttributeDependency) : List String :=
  distinctValues (attributes ++ dependencies.flatMap fun e => [e.dependent, e.dependsOn])

def requires (dependencies : List AttributeDependency) (name : String) : List String :=
  (dependencies.filter fun e => e.dependent = name).map (·.dependsOn)

structure Traversal where
  done : List String
  path : List String

def visitFirst (visit : String → Traversal → Option (List String) × Traversal) :
    List String → Traversal → Option (List String) × Traversal
  | [], traversal => (none, traversal)
  | name :: rest, traversal =>
    match visit name traversal with
    | (some cycle, after) => (some cycle, after)
    | (none, after) => visitFirst visit rest after

def visit (dependencies : List AttributeDependency) :
    ℕ → String → Traversal → Option (List String) × Traversal
  | 0, _, traversal => (none, traversal)
  | fuel + 1, name, traversal =>
    if name ∈ traversal.path then
      (some (traversal.path.drop (traversal.path.idxOf name) ++ [name]), traversal)
    else if name ∈ traversal.done then (none, traversal)
    else
      match visitFirst (visit dependencies fuel) (requires dependencies name)
          { traversal with path := traversal.path ++ [name] } with
      | (some cycle, after) => (some cycle, after)
      | (none, after) => (none, ⟨after.done ++ [name], after.path.dropLast⟩)

def findCycle (candidates : List String) (dependencies : List AttributeDependency) :
    List String :=
  match visitFirst (visit dependencies (dependencies.length + 2)) candidates ⟨[], []⟩ with
  | (some cycle, _) => cycle
  | (none, _) => candidates

def topologicalOrder (attributes : List String) (dependencies : List AttributeDependency) :
    Except AttributeCycleError (List String) :=
  let names := allNames attributes dependencies
  let order := kahn names (dependencies.map (·.edge))
  if order.length = names.length then .ok order
  else .error ⟨findCycle (names.filter fun name => name ∉ order) dependencies⟩

def dependentsOf (changed : List String) (dependencies : List AttributeDependency) :
    List String :=
  affected (dependencies.map (·.edge)) changed

section Order

variable {attributes order : List String} {dependencies : List AttributeDependency}

theorem nodup_allNames : (allNames attributes dependencies).Nodup :=
  nodup_distinctValues _

theorem mem_allNames {name : String} : name ∈ allNames attributes dependencies ↔
    name ∈ attributes ∨ ∃ e ∈ dependencies, name = e.dependent ∨ name = e.dependsOn := by
  rw [allNames, distinctValues, List.mem_eraseDups, List.mem_append, List.mem_flatMap]
  simp

theorem attribute_mem {e : String × String} (he : e ∈ dependencies.map (·.edge)) :
    e.1 ∈ allNames attributes dependencies := by
  obtain ⟨dependency, hmem, rfl⟩ := List.mem_map.mp he
  exact mem_allNames.mpr (.inr ⟨dependency, hmem, .inl rfl⟩)

theorem dependsOn_mem {e : String × String} (he : e ∈ dependencies.map (·.edge)) :
    e.2 ∈ allNames attributes dependencies := by
  obtain ⟨dependency, hmem, rfl⟩ := List.mem_map.mp he
  exact mem_allNames.mpr (.inr ⟨dependency, hmem, .inr rfl⟩)

/-- The names in an order in which every dependency comes before its dependents. -/
structure Sorted (attributes : List String) (dependencies : List AttributeDependency)
    (order : List String) : Prop where
  nodup : order.Nodup
  mem : ∀ name, name ∈ order ↔ name ∈ allNames attributes dependencies
  respects : Respects (dependencies.map (·.edge)) order

theorem topologicalOrder_sorted (h : topologicalOrder attributes dependencies = .ok order) :
    Sorted attributes dependencies order := by
  rw [topologicalOrder] at h
  split at h
  · rename_i hlength
    cases h
    have hends : ∀ e ∈ dependencies.map (·.edge), e.1 ∈ allNames attributes dependencies :=
      fun _ => attribute_mem
    have hnodup := kahn_nodup nodup_allNames hends
    have hsubset := kahn_subset nodup_allNames hends
    refine ⟨hnodup, fun name => ⟨fun hmem => hsubset hmem, fun hmem => ?_⟩,
      kahn_respects nodup_allNames hends⟩
    exact (hnodup.subperm hsubset).perm_of_length_le hlength.ge |>.mem_iff.mpr hmem
  · cases h

theorem topologicalOrder_complete (horder : Respects (dependencies.map (·.edge)) order)
    (hall : allNames attributes dependencies ⊆ order) :
    ∃ found, topologicalOrder attributes dependencies = .ok found := by
  have hends : ∀ e ∈ dependencies.map (·.edge), e.1 ∈ allNames attributes dependencies :=
    fun _ => attribute_mem
  have hnodup := kahn_nodup nodup_allNames hends
  have hcomplete := kahn_complete nodup_allNames hends (fun _ => dependsOn_mem) horder hall
  have hle := (nodup_allNames.subperm hcomplete).length_le
  have hge := (hnodup.subperm (kahn_subset nodup_allNames hends)).length_le
  rw [topologicalOrder]
  exact ⟨_, if_pos (le_antisymm hge hle)⟩

end Order

end Customer360Attributes

/-! ## What the order of the computed attributes says

There is an order exactly when no attribute depends on itself through others, and where there is
none the cycle that is reported is one of the graph. -/
namespace Customer360Attributes

open DependencyOrder Cycles Relation

/-- The dependency graph: an attribute leads to the ones that it depends on. -/
def edgesOf (dependencies : List AttributeDependency) : List (String × String) :=
  dependencies.map (·.edge)

section Search

variable {dependencies : List AttributeDependency} {name next : String} {names : List String}
  {before : Traversal}

theorem mem_requires : next ∈ requires dependencies name ↔
    Leads (edgesOf dependencies) name next := by
  simp only [requires, Leads, edgesOf, List.mem_map, List.mem_filter, decide_eq_true_eq,
    AttributeDependency.edge, Prod.mk.injEq]
  constructor
  · rintro ⟨e, ⟨he, hdependent⟩, hnext⟩
    exact ⟨e, he, hdependent, hnext⟩
  · rintro ⟨e, he, hdependent, hnext⟩
    exact ⟨e, ⟨he, hdependent⟩, hnext⟩

structure Visiting (dependencies : List AttributeDependency) (name : String) (before : Traversal) :
    Prop where
  chain : (before.path ++ [name]).IsChain (Leads (edgesOf dependencies))
  nodup : before.path.Nodup
  respects : Respects (edgesOf dependencies) before.done

def Outcome (dependencies : List AttributeDependency) (names : List String) (before : Traversal) :
    Option (List String) × Traversal → Prop
  | (some cycle, _) => IsCycle (Leads (edgesOf dependencies)) cycle
  | (none, after) => after.path = before.path ∧ Respects (edgesOf dependencies) after.done ∧
      before.done ⊆ after.done ∧ names ⊆ after.done

theorem visitFirst_outcome {visit : String → Traversal → Option (List String) × Traversal}
    (hrespects : Respects (edgesOf dependencies) before.done)
    (h : ∀ name ∈ names, ∀ traversal, traversal.path = before.path →
      Respects (edgesOf dependencies) traversal.done →
      Outcome dependencies [name] traversal (visit name traversal)) :
    Outcome dependencies names before (visitFirst visit names before) := by
  induction names generalizing before with
  | nil => exact ⟨rfl, hrespects, List.Subset.refl _, List.nil_subset _⟩
  | cons name rest ih =>
    have hfirst := h name List.mem_cons_self before rfl hrespects
    rw [visitFirst]
    match hvisit : visit name before with
    | (some cycle, after) =>
      rw [hvisit] at hfirst
      exact hfirst
    | (none, after) =>
      rw [hvisit] at hfirst
      obtain ⟨hpath, hafter, hkept, hname⟩ := hfirst
      have hrest := ih hafter fun other hother traversal hsame =>
        h other (List.mem_cons_of_mem _ hother) traversal (hsame.trans hpath)
      dsimp only
      match hlast : visitFirst visit rest after with
      | (some cycle, last) =>
        rw [hlast] at hrest
        exact hrest
      | (none, last) =>
        rw [hlast] at hrest
        obtain ⟨hpath', hlastRespects, hkept', hrestDone⟩ := hrest
        refine ⟨hpath'.trans hpath, hlastRespects, List.Subset.trans hkept hkept', ?_⟩
        exact List.cons_subset.mpr ⟨hkept' (hname List.mem_cons_self), hrestDone⟩

theorem Visiting.length_le (h : Visiting dependencies name before) :
    before.path.length ≤ dependencies.length + 1 := by
  have hle := length_le_of_isChain h.chain.left_of_append h.nodup
  rwa [edgesOf, List.length_map] at hle

/-- The levels never run out, and a visit finds a cycle or does its name. -/
theorem visit_outcome {fuel : ℕ} (h : Visiting dependencies name before)
    (hfuel : fuel + before.path.length = dependencies.length + 2) :
    Outcome dependencies [name] before (visit dependencies fuel name before) := by
  induction fuel generalizing name before with
  | zero =>
    have hle := h.length_le
    omega
  | succ fuel ih =>
    rw [visit]
    by_cases hpath : name ∈ before.path
    · rw [if_pos hpath]
      exact isCycle_drop h.chain hpath
    · rw [if_neg hpath]
      by_cases hdone : name ∈ before.done
      · rw [if_pos hdone]
        exact ⟨rfl, h.respects, List.Subset.refl _, by simpa using hdone⟩
      · rw [if_neg hdone]
        have hnodup : (before.path ++ [name]).Nodup := by
          rw [← List.concat_eq_append, List.nodup_concat]
          exact ⟨hpath, h.nodup⟩
        have hvisit : Outcome dependencies (requires dependencies name)
            ⟨before.done, before.path ++ [name]⟩
            (visitFirst (visit dependencies fuel) (requires dependencies name)
              ⟨before.done, before.path ++ [name]⟩) := by
          apply visitFirst_outcome
          · exact h.respects
          intro next hnext traversal hsame hrespects
          apply ih
          · refine ⟨?_, hsame ▸ hnodup, hrespects⟩
            rw [hsame, List.append_assoc, List.singleton_append, List.isChain_append_cons_cons]
            exact ⟨h.chain, mem_requires.mp hnext, .singleton _⟩
          · rw [hsame, List.length_append, List.length_singleton]
            omega
        match hlast : visitFirst (visit dependencies fuel) (requires dependencies name)
            { before with path := before.path ++ [name] } with
        | (some cycle, after) =>
          rw [hlast] at hvisit
          exact hvisit
        | (none, after) =>
          rw [hlast] at hvisit
          obtain ⟨hsame, hrespects, hkept, hrequired⟩ := hvisit
          refine ⟨?_, ?_, List.Subset.trans hkept (List.subset_append_left _ _),
            List.subset_append_right _ _⟩
          · dsimp only at hsame ⊢
            rw [hsame, List.dropLast_concat]
          · apply hrespects.snoc
            rintro ⟨_, next⟩ he rfl
            exact hrequired (mem_requires.mpr he)

end Search

section Order

variable {attributes order cycle : List String} {dependencies : List AttributeDependency}

/-- Where not all names were ordered, the search among the others finds a cycle. -/
theorem findCycle_isCycle (hstuck : ∃ name ∈ allNames attributes dependencies,
      name ∉ kahn (allNames attributes dependencies) (edgesOf dependencies)) :
    IsCycle (Leads (edgesOf dependencies)) (findCycle ((allNames attributes dependencies).filter
      fun name => name ∉ kahn (allNames attributes dependencies) (edgesOf dependencies))
      dependencies) := by
  obtain ⟨stuck, hfilter⟩ : ∃ stuck, stuck = (allNames attributes dependencies).filter
      fun name => name ∉ kahn (allNames attributes dependencies) (edgesOf dependencies) :=
    ⟨_, rfl⟩
  have hsearch : Outcome dependencies stuck ⟨[], []⟩
      (visitFirst (visit dependencies (dependencies.length + 2)) stuck ⟨[], []⟩) := by
    apply visitFirst_outcome (respects_nil _)
    intro name _ traversal hpath hrespects
    apply visit_outcome
    · exact ⟨by rw [hpath]; exact .singleton _, by rw [hpath]; exact List.nodup_nil, hrespects⟩
    · rw [hpath]
      rfl
  rw [← hfilter, findCycle]
  match hlast : visitFirst (visit dependencies (dependencies.length + 2)) stuck ⟨[], []⟩ with
  | (some cycle, after) =>
    rw [hlast] at hsearch
    exact hsearch
  | (none, after) =>
    rw [hlast] at hsearch
    obtain ⟨_, hrespects, _, hdone⟩ := hsearch
    obtain ⟨name, hname, hnot⟩ := hstuck
    have hmem := hdone (hfilter ▸ List.mem_filter.mpr ⟨hname, decide_eq_true hnot⟩)
    exact absurd (mem_kahn_of_respects nodup_allNames (fun _ => attribute_mem)
      (fun _ => dependsOn_mem) hrespects hname hmem) hnot

theorem topologicalOrder_error (h : topologicalOrder attributes dependencies = .error ⟨cycle⟩) :
    IsCycle (Leads (edgesOf dependencies)) cycle := by
  rw [topologicalOrder] at h
  split at h
  · cases h
  · rename_i hlength
    cases h
    apply findCycle_isCycle
    by_contra hall
    push Not at hall
    have hends : ∀ e ∈ edgesOf dependencies, e.1 ∈ allNames attributes dependencies :=
      fun _ => attribute_mem
    have hle := (List.subperm_of_subset nodup_allNames hall).length_le
    have hge := ((kahn_nodup nodup_allNames hends).subperm
      (kahn_subset nodup_allNames hends)).length_le
    exact hlength (le_antisymm hge hle)

theorem Sorted.acyclic (h : Sorted attributes dependencies order) :
    Acyclic (Leads (edgesOf dependencies)) :=
  Respects.acyclic h.respects fun _ he => (h.mem _).mpr (attribute_mem he)

theorem topologicalOrder_ok_iff : (∃ order, topologicalOrder attributes dependencies = .ok order) ↔
    Acyclic (Leads (edgesOf dependencies)) := by
  constructor
  · rintro ⟨order, horder⟩
    exact (topologicalOrder_sorted horder).acyclic
  · intro hacyclic
    match hresult : topologicalOrder attributes dependencies with
    | .ok order => exact ⟨order, rfl⟩
    | .error ⟨cycle⟩ => exact absurd hacyclic (topologicalOrder_error hresult).not_acyclic

theorem edgesOf_dedup : edgesOf dependencies.dedup = (edgesOf dependencies).dedup := by
  have hinj : Function.Injective AttributeDependency.edge := by
    rintro ⟨a, b⟩ ⟨c, d⟩ h
    cases h
    rfl
  exact (List.dedup_map_of_injective hinj _).symm

theorem eraseDups_of_nodup {names : List String} (h : names.Nodup) : names.eraseDups = names := by
  induction names with
  | nil => rfl
  | cons name rest ih =>
    obtain ⟨hnew, hrest⟩ := List.nodup_cons.mp h
    have hkept : (rest.filter fun other => !other == name) = rest := by
      rw [List.filter_eq_self]
      intro other hother
      have hne : other ≠ name := fun heq => hnew (heq ▸ hother)
      simpa using hne
    rw [List.eraseDups_cons, hkept, ih hrest]

theorem allNames_allNames : allNames (allNames attributes dependencies) dependencies.dedup =
    allNames attributes dependencies := by
  have hnone : (dependencies.dedup.flatMap fun e => [e.dependent, e.dependsOn]).removeAll
      (allNames attributes dependencies) = [] := by
    rw [List.removeAll, List.filter_eq_nil_iff]
    intro name hname
    obtain ⟨e, he, hend⟩ := List.mem_flatMap.mp hname
    have hmem : name ∈ allNames attributes dependencies := by
      rw [mem_allNames]
      refine .inr ⟨e, List.mem_dedup.mp he, ?_⟩
      simpa using hend
    simpa using hmem
  rw [allNames, Builtins.distinctValues, List.eraseDups_append, hnone, List.eraseDups_nil,
    List.append_nil]
  exact eraseDups_of_nodup nodup_allNames

theorem topologicalOrder_dedup : topologicalOrder attributes dependencies = .ok order ↔
    topologicalOrder (allNames attributes dependencies) dependencies.dedup = .ok order := by
  have hkahn : kahn (allNames attributes dependencies) (edgesOf dependencies) =
      kahn (allNames attributes dependencies) (edgesOf dependencies).dedup :=
    kahn_dedup nodup_allNames fun _ => attribute_mem
  rw [← edgesOf_dedup] at hkahn
  rw [topologicalOrder, topologicalOrder, allNames_allNames]
  dsimp only [edgesOf] at hkahn ⊢
  rw [← hkahn]
  split <;> simp

/-- The order and the cycle that is reported say what the graph is like. -/
theorem topologicalOrder_correct (attributes : List String)
    (dependencies : List AttributeDependency) :
    ((∃ order, topologicalOrder attributes dependencies = .ok order) ↔
      Acyclic (Leads (edgesOf dependencies))) ∧
    (∀ order, topologicalOrder attributes dependencies = .ok order →
      Sorted attributes dependencies order) ∧
    (∀ order, topologicalOrder attributes dependencies = .ok order ↔
      topologicalOrder (allNames attributes dependencies) dependencies.dedup = .ok order) ∧
    ∀ cycle, topologicalOrder attributes dependencies = .error ⟨cycle⟩ →
      IsCycle (Leads (edgesOf dependencies)) cycle :=
  ⟨topologicalOrder_ok_iff, fun _ => topologicalOrder_sorted, fun _ => topologicalOrder_dedup,
    fun _ => topologicalOrder_error⟩

/-! An edge that is listed again gives its attribute out later, and a cycle off the first path. -/

theorem twiceListed_later :
    topologicalOrder ["x", "a", "b"] [⟨"a", "x"⟩, ⟨"b", "x"⟩, ⟨"a", "x"⟩] = .ok ["x", "b", "a"] ∧
      topologicalOrder ["x", "a", "b"] [⟨"a", "x"⟩, ⟨"b", "x"⟩] = .ok ["x", "a", "b"] := by
  decide +kernel

theorem offPath_cycle :
    Sorted ["a", "b"] [⟨"a", "b"⟩] ["b", "a"] ∧
      IsCycle (Leads (edgesOf [⟨"a", "b"⟩, ⟨"b", "c"⟩, ⟨"c", "b"⟩])) ["b", "c", "b"] :=
  ⟨(topologicalOrder_correct ["a", "b"] [⟨"a", "b"⟩]).2.1 ["b", "a"] (by decide +kernel),
    (topologicalOrder_correct ["a"] [⟨"a", "b"⟩, ⟨"b", "c"⟩, ⟨"c", "b"⟩]).2.2.2 ["b", "c", "b"]
      (by decide +kernel)⟩

end Order

end Customer360Attributes

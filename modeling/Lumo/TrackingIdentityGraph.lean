import Lumo.Decimals
import Lumo.EdgeWalks
import Lumo.OrderedMap

/-! # The identity graph

Identifiers that were observed together, and the cluster that is resolved from one of them. -/
namespace Tracking

open Decimals EdgeWalks

inductive IdentifierType where
  | visitor_id
  | client_id
  | browser_id
  | device_id
  | session_id
  | email_hash
  | phone_hash
  | customer_id
  | external_id
  | crm_id
  | loyalty_id
  | household_id
  deriving DecidableEq

def IdentifierType.text : IdentifierType → String
  | visitor_id => "visitor_id"
  | client_id => "client_id"
  | browser_id => "browser_id"
  | device_id => "device_id"
  | session_id => "session_id"
  | email_hash => "email_hash"
  | phone_hash => "phone_hash"
  | customer_id => "customer_id"
  | external_id => "external_id"
  | crm_id => "crm_id"
  | loyalty_id => "loyalty_id"
  | household_id => "household_id"

inductive IdentityConfidence where
  | deterministic
  | probabilistic
  deriving DecidableEq

structure IdentityNode where
  type : IdentifierType
  value : String
  firstSeenAt : String

structure IdentityEdge where
  fromType : IdentifierType
  fromValue : String
  toType : IdentifierType
  toValue : String
  confidence : IdentityConfidence
  observedAt : String
  source : String
  deriving DecidableEq

def nodeKey (type : IdentifierType) (value : String) : String := type.text ++ ":" ++ value

structure IdentityGraph where
  nodes : OrderedMap String IdentityNode
  edges : List IdentityEdge

namespace IdentityEdge

def fromKey (edge : IdentityEdge) : String := nodeKey edge.fromType edge.fromValue

def toKey (edge : IdentityEdge) : String := nodeKey edge.toType edge.toValue

end IdentityEdge

def deterministicFloor : ℚ := 9 / 10

def probabilisticCeiling : ℚ := 7 / 10

section Resolution

variable (pow : ℚ → ℚ → ℚ)

/-- `Math.pow` is given. -/
def scoreConfidence (evidence : List IdentityEdge) : ℚ :=
  if evidence.length = 0 then 0
  else
    let deterministic := evidence.countP fun e => e.confidence = .deterministic
    let probabilistic := evidence.length - deterministic
    if deterministic = 0 then
      toPlaces 4 (probabilisticCeiling * (1 - pow (6 / 10) probabilistic))
    else
      let corroboration := (1 - deterministicFloor) *
        (1 - pow (1 / 2) (deterministic - 1 + probabilistic * (1 / 2)))
      min 1 (toPlaces 4 (deterministicFloor + corroboration))

structure ResolvedIdentity where
  seed : IdentityNode
  members : List IdentityNode
  confidenceScore : ℚ
  confidence : IdentityConfidence
  evidence : List IdentityEdge

def IdentityGraph.walk (graph : IdentityGraph) (seedKey : String) : Walk String IdentityEdge :=
  walkFrom IdentityEdge.fromKey IdentityEdge.toKey graph.edges seedKey

def resolveIdentity (graph : IdentityGraph) (seedType : IdentifierType) (seedValue : String) :
    Option ResolvedIdentity :=
  let seedKey := nodeKey seedType seedValue
  (graph.nodes.find? seedKey).map fun seed =>
    let evidence := (graph.walk seedKey).evidence
    { seed
      members := (graph.walk seedKey).visited.filterMap graph.nodes.find?
      confidenceScore := scoreConfidence pow evidence
      confidence :=
        if evidence.any fun e => e.confidence = .deterministic then .deterministic
        else .probabilistic
      evidence }

/-- Identifiers that are joined by observed edges. -/
def IdentityGraph.Together (graph : IdentityGraph) : String → String → Prop :=
  Connected IdentityEdge.fromKey IdentityEdge.toKey graph.edges

/-- The cluster is the component of the seed, every observation counts once, and every other seed of
the component leads to the same. -/
structure ResolvesComponent (graph : IdentityGraph) (seedType : IdentifierType) (seedValue : String)
    (result : ResolvedIdentity) : Prop where
  ends : (graph.walk (nodeKey seedType seedValue)).queue = []
  members : ∃ keys : List String, keys.Nodup ∧
    (∀ key, key ∈ keys ↔ graph.Together (nodeKey seedType seedValue) key) ∧
      result.members = keys.filterMap graph.nodes.find?
  once : ∀ edge ∈ graph.edges, graph.Together (nodeKey seedType seedValue) edge.fromKey →
    result.evidence.count edge = graph.edges.count edge
  observed : ∀ edge ∈ result.evidence, edge ∈ graph.edges ∧
    graph.Together (nodeKey seedType seedValue) edge.fromKey
  same : ∀ type value other, resolveIdentity pow graph type value = some other →
    graph.Together (nodeKey seedType seedValue) (nodeKey type value) →
      other.members.Perm result.members ∧ other.evidence.length = result.evidence.length ∧
        other.confidenceScore = result.confidenceScore ∧ other.confidence = result.confidence

/-- Every edge of the component is between an identifier and itself. -/
def IdentityGraph.OnlyLoops (graph : IdentityGraph) (seedKey : String) : Prop :=
  ∀ edge ∈ graph.edges, graph.Together seedKey edge.fromKey → edge.fromKey = edge.toKey

variable {pow} {graph : IdentityGraph} {seedType : IdentifierType} {seedValue : String}
  {result : ResolvedIdentity}

theorem scoreConfidence_perm {evidence evidence' : List IdentityEdge}
    (h : evidence.Perm evidence') :
    scoreConfidence pow evidence = scoreConfidence pow evidence' := by
  unfold scoreConfidence
  rw [h.length_eq, h.countP_eq]

theorem mem_evidence {seedKey : String} {edge : IdentityEdge}
    (h : edge ∈ (graph.walk seedKey).evidence) :
    edge ∈ graph.edges ∧ graph.Together seedKey edge.fromKey := by
  obtain ⟨-, hwalked⟩ := walkFrom_walked IdentityEdge.fromKey IdentityEdge.toKey graph.edges seedKey
  rw [IdentityGraph.walk, hwalked.evidence] at h
  obtain ⟨key, hkey, hmem⟩ := List.mem_flatMap.mp h
  obtain ⟨hedge, hend⟩ := List.mem_filter.mp hmem
  refine ⟨hedge, ?_⟩
  rcases next?_isSome.mp hend with rfl | rfl
  · exact mem_visited_iff.mp hkey
  · exact (connected_target hedge).mp (mem_visited_iff.mp hkey)

/-- Each observation is noted at both of its ends. -/
theorem once_iff {seedKey : String} : (∀ edge ∈ graph.edges, graph.Together seedKey edge.fromKey →
    (graph.walk seedKey).evidence.count edge = graph.edges.count edge) ↔
      graph.OnlyLoops seedKey := by
  refine forall_congr' fun edge => forall_congr' fun hedge => forall_congr' fun htogether => ?_
  have hpos := List.count_pos_iff.mpr hedge
  rw [IdentityGraph.walk, count_evidence_of_connected hedge htogether]
  by_cases hloop : edge.fromKey = edge.toKey
  · simp [hloop]
  · simp only [hloop, if_false, iff_false]
    omega

theorem resolveIdentity_iff (h : resolveIdentity pow graph seedType seedValue = some result) :
    ResolvesComponent pow graph seedType seedValue result ↔
      graph.OnlyLoops (nodeKey seedType seedValue) := by
  rw [← once_iff]
  obtain ⟨seed, hseed, rfl⟩ := Option.map_eq_some_iff.mp h
  constructor
  · intro hresolves
    exact hresolves.once
  · intro honce
    obtain ⟨hends, hwalked⟩ := walkFrom_walked IdentityEdge.fromKey IdentityEdge.toKey graph.edges
      (nodeKey seedType seedValue)
    refine ⟨hends, ⟨_, hwalked.nodup, fun key => mem_visited_iff, rfl⟩, honce,
      fun edge hedge => mem_evidence hedge, ?_⟩
    intro type value other hother htogether
    obtain ⟨seed', hseed', rfl⟩ := Option.map_eq_some_iff.mp hother
    have hevidence : (graph.walk (nodeKey type value)).evidence.Perm
        (graph.walk (nodeKey seedType seedValue)).evidence := evidence_perm htogether
    refine ⟨(visited_perm htogether).filterMap _, hevidence.length_eq,
      scoreConfidence_perm hevidence, ?_⟩
    simp only [hevidence.any_eq]

end Resolution

private def visitor : IdentityNode := ⟨.visitor_id, "v", "2026-01-01"⟩

private def customer : IdentityNode := ⟨.customer_id, "c", "2026-01-01"⟩

private def login : IdentityEdge :=
  ⟨.visitor_id, "v", .customer_id, "c", .deterministic, "2026-01-01", "login"⟩

private def identified (edges : List IdentityEdge) : IdentityGraph :=
  ⟨.ofEntries [("visitor_id:v", visitor), ("customer_id:c", customer)], edges⟩

/-- A visitor that nothing was observed of. -/
theorem resolveIdentity_alone : ∃ result,
    resolveIdentity (fun _ _ => 0) (identified []) .visitor_id "v" = some result ∧
      ResolvesComponent (fun _ _ => 0) (identified []) .visitor_id "v" result := by
  refine ⟨_, rfl, (resolveIdentity_iff rfl).mpr ?_⟩
  intro edge hedge
  cases hedge

/-- The evidence of a single login is the login, twice. -/
theorem login_counted_twice : ¬ ∀ (pow : ℚ → ℚ → ℚ) (graph : IdentityGraph)
    (seedType : IdentifierType) (seedValue : String) (result : ResolvedIdentity),
    resolveIdentity pow graph seedType seedValue = some result →
      ResolvesComponent pow graph seedType seedValue result := by
  intro h
  have honce := (h (fun _ _ => 0) (identified [login]) .visitor_id "v" _ rfl).once login
    List.mem_cons_self .refl
  revert honce
  decide

end Tracking

import Mathlib.Data.List.Perm.Subperm
import Mathlib.Data.List.Nodup
import Mathlib.Logic.Relation

/-! # Walks over the edges of an undirected graph

A breadth-first walk that notes every edge at each of the nodes that it comes to. The nodes are what
the edges have as their ends. -/
namespace EdgeWalks

open Relation

variable {α β : Type*}

structure Walk (α β : Type*) where
  visited : List α
  queue : List α
  evidence : List β

section Definitions

variable [DecidableEq α] (source target : β → α)

/-- The other end of an edge at the node. -/
def next? (current : α) (e : β) : Option α :=
  if source e = current then some (target e)
  else if target e = current then some (source e)
  else none

def observe (current : α) (walk : Walk α β) (e : β) : Walk α β :=
  match next? source target current e with
  | none => walk
  | some next =>
    let evidence := walk.evidence ++ [e]
    if next ∈ walk.visited then { walk with evidence }
    else ⟨walk.visited ++ [next], walk.queue ++ [next], evidence⟩

def turn (edges : List β) (walk : Walk α β) : Walk α β :=
  match walk.queue with
  | [] => walk
  | current :: queue => edges.foldl (observe source target current) { walk with queue }

def walkAll (edges : List β) : ℕ → Walk α β → Walk α β
  | 0, walk => walk
  | fuel + 1, walk => walkAll edges fuel (turn source target edges walk)

/-- Every node but the seed is an end of an edge, and is taken from the queue once. -/
def walkFrom (edges : List β) (seed : α) : Walk α β :=
  walkAll source target edges (2 * edges.length + 1) ⟨[seed], [seed], []⟩

def Linked (edges : List β) (a b : α) : Prop := ∃ e ∈ edges, next? source target a e = some b

def Connected (edges : List β) : α → α → Prop := ReflTransGen (Linked source target edges)

end Definitions

section Links

variable [DecidableEq α] {source target : β → α} {edges : List β} {a b seed other : α} {e : β}

theorem next?_eq_some : next? source target a e = some b ↔
    source e = a ∧ target e = b ∨ target e = a ∧ source e = b := by
  unfold next?
  by_cases hsource : source e = a
  · by_cases htarget : target e = a <;> grind
  · by_cases htarget : target e = a <;> grind

theorem next?_isSome : (next? source target a e).isSome ↔ source e = a ∨ target e = a := by
  unfold next?
  by_cases hsource : source e = a
  · simp [hsource]
  · by_cases htarget : target e = a <;> simp [hsource, htarget]

theorem Linked.symm (h : Linked source target edges a b) : Linked source target edges b a := by
  obtain ⟨e, he, hnext⟩ := h
  refine ⟨e, he, next?_eq_some.mpr ?_⟩
  rcases next?_eq_some.mp hnext with ⟨hs, ht⟩ | ⟨ht, hs⟩
  · exact .inr ⟨ht, hs⟩
  · exact .inl ⟨hs, ht⟩

theorem Connected.symm (h : Connected source target edges a b) : Connected source target edges b a := by
  induction h with
  | refl => exact .refl
  | tail _ hlink ih => exact .head hlink.symm ih

theorem connected_target (he : e ∈ edges) : Connected source target edges seed (target e) ↔
    Connected source target edges seed (source e) := by
  have hlink : Linked source target edges (source e) (target e) :=
    ⟨e, he, next?_eq_some.mpr (.inl ⟨rfl, rfl⟩)⟩
  exact ⟨fun h => h.tail hlink.symm, fun h => h.tail hlink⟩

theorem Connected.mem_ends (h : Connected source target edges seed a) :
    a ∈ seed :: (edges.map source ++ edges.map target) := by
  rcases ReflTransGen.cases_tail h with rfl | ⟨b, _, e, he, hnext⟩
  · exact List.mem_cons_self
  · refine List.mem_cons_of_mem _ (List.mem_append.mpr ?_)
    rcases next?_eq_some.mp hnext with ⟨-, rfl⟩ | ⟨-, rfl⟩
    · exact .inr (List.mem_map_of_mem he)
    · exact .inl (List.mem_map_of_mem he)

end Links

section Walking

variable [DecidableEq α] {source target : β → α} {edges l : List β} {seed other current : α}
  {queue done : List α} {walk : Walk α β}

/-- What a pass over some edges adds to a walk. -/
structure Grown (source target : β → α) (current : α) (l : List β) (walk walk' : Walk α β) :
    Prop where
  added : ∃ new, walk'.visited = walk.visited ++ new ∧ walk'.queue = walk.queue ++ new
  nodup : walk.visited.Nodup → walk'.visited.Nodup
  sound : ∀ b ∈ walk'.visited, b ∈ walk.visited ∨ ∃ e ∈ l, next? source target current e = some b
  closed : ∀ e ∈ l, ∀ b, next? source target current e = some b → b ∈ walk'.visited
  evidence : walk'.evidence =
    walk.evidence ++ l.filter fun e => (next? source target current e).isSome

theorem observe_grown (source target : β → α) (current : α) (walk : Walk α β) (e : β) :
    Grown source target current [e] walk (observe source target current walk e) := by
  unfold observe
  cases hnext : next? source target current e with
  | none => exact ⟨⟨[], by simp, by simp⟩, id, fun b hb => .inl hb, by simp [hnext], by simp [hnext]⟩
  | some next =>
    by_cases hmem : next ∈ walk.visited
    · simp only [hmem, if_true]
      exact ⟨⟨[], by simp, by simp⟩, id, fun b hb => .inl hb, by simp [hnext, hmem],
        by simp [hnext]⟩
    · simp only [hmem, if_false]
      refine ⟨⟨[next], rfl, rfl⟩, ?_, ?_, by simp [hnext], by simp [hnext]⟩
      · intro hnodup
        exact List.nodup_append.mpr ⟨hnodup, List.nodup_singleton _, by
          rintro a ha b hb rfl
          exact hmem (List.mem_singleton.mp hb ▸ ha)⟩
      · intro b hb
        rcases List.mem_append.mp hb with hold | hnew
        · exact .inl hold
        · obtain rfl := List.mem_singleton.mp hnew
          exact .inr ⟨e, List.mem_singleton_self _, hnext⟩

theorem foldl_grown (source target : β → α) (current : α) (l : List β) (walk : Walk α β) :
    Grown source target current l walk (l.foldl (observe source target current) walk) := by
  induction l generalizing walk with
  | nil => exact ⟨⟨[], by simp, by simp⟩, id, fun b hb => .inl hb, by simp, by simp⟩
  | cons e l ih =>
    have hfirst := observe_grown source target current walk e
    have hrest := ih (observe source target current walk e)
    obtain ⟨new, hvisited, hqueue⟩ := hfirst.added
    obtain ⟨later, hvisited', hqueue'⟩ := hrest.added
    refine ⟨⟨new ++ later, ?_, ?_⟩, fun h => hrest.nodup (hfirst.nodup h), ?_, ?_, ?_⟩
    · rw [List.foldl_cons, hvisited', hvisited, List.append_assoc]
    · rw [List.foldl_cons, hqueue', hqueue, List.append_assoc]
    · intro b hb
      rcases hrest.sound b hb with hb | ⟨e', he', hnext⟩
      · rcases hfirst.sound b hb with hb | ⟨e', he', hnext⟩
        · exact .inl hb
        · exact .inr ⟨e', List.mem_cons.mpr (.inl (List.mem_singleton.mp he')), hnext⟩
      · exact .inr ⟨e', List.mem_cons_of_mem _ he', hnext⟩
    · intro e' he' b hnext
      rcases List.mem_cons.mp he' with rfl | he'
      · rw [List.foldl_cons, hvisited']
        exact List.mem_append_left _ (hfirst.closed e' (List.mem_singleton_self _) b hnext)
      · exact hrest.closed e' he' b hnext
    · rw [List.foldl_cons, hrest.evidence, hfirst.evidence, List.append_assoc, ← List.filter_append]
      rfl

/-- What is known of a walk that is done with some of the nodes. -/
structure Walked (source target : β → α) (edges : List β) (seed : α) (done : List α)
    (walk : Walk α β) : Prop where
  visited : walk.visited = done ++ walk.queue
  nodup : walk.visited.Nodup
  started : seed ∈ walk.visited
  sound : ∀ a ∈ walk.visited, Connected source target edges seed a
  closed : ∀ a ∈ done, ∀ b, Linked source target edges a b → b ∈ walk.visited
  evidence : walk.evidence =
    done.flatMap fun a => edges.filter fun e => (next? source target a e).isSome

theorem Walked.turn (h : Walked source target edges seed done walk)
    (hqueue : walk.queue = current :: queue) :
    Walked source target edges seed (done ++ [current]) (turn source target edges walk) := by
  unfold EdgeWalks.turn
  rw [hqueue]
  dsimp only
  have hgrown := foldl_grown source target current edges
    { walk with queue := queue }
  obtain ⟨new, hvisited, hqueue'⟩ := hgrown.added
  have hcurrent : current ∈ walk.visited := by
    rw [h.visited, hqueue]
    simp
  refine ⟨?_, hgrown.nodup h.nodup, ?_, ?_, ?_, ?_⟩
  · rw [hvisited, hqueue']
    simp [h.visited, hqueue]
  · rw [hvisited]
    exact List.mem_append_left _ h.started
  · intro a ha
    rcases hgrown.sound a ha with ha | hlinked
    · exact h.sound a ha
    · exact (h.sound current hcurrent).tail hlinked
  · intro a ha b hlinked
    rcases List.mem_append.mp ha with ha | ha
    · rw [hvisited]
      exact List.mem_append_left _ (h.closed a ha b hlinked)
    · obtain rfl := List.mem_singleton.mp ha
      obtain ⟨e, he, hnext⟩ := hlinked
      exact hgrown.closed e he b hnext
  · rw [hgrown.evidence, h.evidence]
    simp

theorem walkAll_of_done (h : walk.queue = []) (fuel : ℕ) :
    walkAll source target edges fuel walk = walk := by
  have hstill : turn source target edges walk = walk := by
    unfold turn
    rw [h]
  induction fuel with
  | zero => rfl
  | succ fuel ih => rw [walkAll, hstill, ih]

theorem Walked.walkAll (h : Walked source target edges seed done walk) (fuel : ℕ) :
    ∃ done', Walked source target edges seed done' (walkAll source target edges fuel walk) ∧
      ((walkAll source target edges fuel walk).queue = [] ∨ done'.length = done.length + fuel) := by
  induction fuel generalizing done walk with
  | zero => exact ⟨done, h, .inr rfl⟩
  | succ fuel ih =>
    cases hqueue : walk.queue with
    | nil =>
      rw [walkAll_of_done hqueue]
      exact ⟨done, h, .inl hqueue⟩
    | cons current queue =>
      obtain ⟨done', hdone', hend⟩ := ih (h.turn hqueue)
      refine ⟨done', hdone', hend.imp_right fun hlength => ?_⟩
      rw [hlength, List.length_append, List.length_singleton]
      omega

theorem Walked.length_le (h : Walked source target edges seed done walk) :
    walk.visited.length ≤ 2 * edges.length + 1 := by
  have hsubset : walk.visited ⊆ seed :: (edges.map source ++ edges.map target) :=
    fun a ha => (h.sound a ha).mem_ends
  have hle := (List.subperm_of_subset h.nodup hsubset).length_le
  simp only [List.length_cons, List.length_append, List.length_map] at hle
  omega

/-- The walk ends with an empty queue, and has then been at every node that it visited. -/
theorem walkFrom_walked (source target : β → α) (edges : List β) (seed : α) :
    (walkFrom source target edges seed).queue = [] ∧
      Walked source target edges seed (walkFrom source target edges seed).visited
        (walkFrom source target edges seed) := by
  have hstart : Walked source target edges seed [] ⟨[seed], [seed], []⟩ :=
    ⟨rfl, List.nodup_singleton _, List.mem_singleton_self _, by
      intro a ha
      rw [List.mem_singleton.mp ha]
      exact .refl, by simp, rfl⟩
  obtain ⟨done, hdone, hend⟩ := hstart.walkAll (2 * edges.length + 1)
  have hempty : (walkFrom source target edges seed).queue = [] := by
    rcases hend with hempty | hlength
    · exact hempty
    · have hle := hdone.length_le
      rw [hdone.visited, List.length_append, hlength] at hle
      exact List.eq_nil_of_length_eq_zero (by
        rw [walkFrom]
        simp only [List.length_nil] at hle
        omega)
  have hall : (walkFrom source target edges seed).visited = done := by
    have hvisited := hdone.visited
    rw [← walkFrom, hempty, List.append_nil] at hvisited
    exact hvisited
  exact ⟨hempty, hall ▸ hdone⟩

theorem mem_visited_iff {a : α} : a ∈ (walkFrom source target edges seed).visited ↔
    Connected source target edges seed a := by
  obtain ⟨-, h⟩ := walkFrom_walked source target edges seed
  constructor
  · exact h.sound a
  · intro hconnected
    induction hconnected with
    | refl => exact h.started
    | tail _ hlink ih => exact h.closed _ ih _ hlink

theorem visited_perm (h : Connected source target edges seed other) :
    ((walkFrom source target edges other).visited).Perm
      (walkFrom source target edges seed).visited := by
  refine (List.perm_ext_iff_of_nodup (walkFrom_walked _ _ _ _).2.nodup
    (walkFrom_walked _ _ _ _).2.nodup).mpr fun a => ?_
  rw [mem_visited_iff, mem_visited_iff]
  exact ⟨h.trans, h.symm.trans⟩

/-- Where the walk starts within a component does not matter. -/
theorem evidence_perm (h : Connected source target edges seed other) :
    ((walkFrom source target edges other).evidence).Perm
      (walkFrom source target edges seed).evidence := by
  rw [(walkFrom_walked _ _ _ _).2.evidence, (walkFrom_walked _ _ _ seed).2.evidence]
  exact (visited_perm h).flatMap_right _

section Counts

variable {e : β}

omit [DecidableEq α] in
theorem count_flatMap_filter [DecidableEq β] (p : α → β → Bool) (nodes : List α) :
    (nodes.flatMap fun a => edges.filter (p a)).count e =
      nodes.countP (fun a => p a e) * edges.count e := by
  induction nodes with
  | nil => simp
  | cons a nodes ih =>
    rw [List.flatMap_cons, List.count_append, ih, List.countP_cons]
    by_cases ha : p a e = true
    · rw [List.count_filter ha, if_pos ha, Nat.add_mul, Nat.one_mul, Nat.add_comm]
    · rw [if_neg ha, List.count_eq_zero.mpr fun hmem => ha (List.mem_filter.mp hmem).2,
        Nat.zero_add, Nat.add_zero]

theorem countP_ends (nodes : List α) :
    nodes.countP (fun a => (next? source target a e).isSome) =
      nodes.count (source e) + if source e = target e then 0 else nodes.count (target e) := by
  induction nodes with
  | nil => simp
  | cons a nodes ih =>
    rw [List.countP_cons, ih, List.count_cons, List.count_cons]
    simp only [next?_isSome, beq_iff_eq]
    by_cases hloop : source e = target e <;> by_cases hsource : source e = a <;>
      by_cases htarget : target e = a <;> grind

variable [DecidableEq β]

theorem count_evidence : (walkFrom source target edges seed).evidence.count e =
    (walkFrom source target edges seed).visited.countP
      (fun a => (next? source target a e).isSome) * edges.count e := by
  rw [(walkFrom_walked _ _ _ _).2.evidence]
  exact count_flatMap_filter _ _

/-- An edge of the component is noted at each of its ends. -/
theorem count_evidence_of_connected (he : e ∈ edges)
    (h : Connected source target edges seed (source e)) :
    (walkFrom source target edges seed).evidence.count e =
      (if source e = target e then 1 else 2) * edges.count e := by
  have hnodup := (walkFrom_walked source target edges seed).2.nodup
  rw [count_evidence, countP_ends, List.count_eq_one_of_mem hnodup (mem_visited_iff.mpr h),
    List.count_eq_one_of_mem hnodup (mem_visited_iff.mpr ((connected_target he).mpr h))]
  split <;> rfl

end Counts

end Walking

end EdgeWalks

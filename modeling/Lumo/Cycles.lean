import Mathlib.Data.List.Chain
import Lumo.DependencyOrder

/-! # Cycles

A cycle is listed along its edges, with its first node repeated at the end. -/
namespace Cycles

open DependencyOrder Relation

section Cycle

variable {α : Type*} {R : α → α → Prop} {cycle path rest : List α} {node last : α}

def IsCycle (R : α → α → Prop) (cycle : List α) : Prop :=
  (∃ node rest, cycle = node :: rest ++ [node]) ∧ cycle.IsChain R

def Acyclic (R : α → α → Prop) : Prop := ∀ node, ¬ TransGen R node node

theorem transGen_of_isChain (h : (node :: rest ++ [last]).IsChain R) : TransGen R node last := by
  induction rest generalizing node with
  | nil => exact .single (List.isChain_cons_cons.mp h).1
  | cons next rest ih =>
    obtain ⟨hnext, hrest⟩ := List.isChain_cons_cons.mp h
    exact .head hnext (ih hrest)

theorem IsCycle.transGen (h : IsCycle R cycle) (hmem : node ∈ cycle) : TransGen R node node := by
  obtain ⟨⟨first, rest, rfl⟩, hchain⟩ := h
  have hround := transGen_of_isChain hchain
  by_cases hfirst : node = first
  · exact hfirst ▸ hround
  · have hrest : node ∈ rest := by
      simpa [hfirst] using hmem
    obtain ⟨before, after, rfl⟩ := List.append_of_mem hrest
    have hsplit : first :: (before ++ node :: after) ++ [first] =
        first :: before ++ node :: (after ++ [first]) := by
      simp
    rw [hsplit, List.isChain_split] at hchain
    exact (transGen_of_isChain hchain.2).trans (transGen_of_isChain hchain.1)

theorem IsCycle.not_acyclic (h : IsCycle R cycle) : ¬ Acyclic R := by
  obtain ⟨⟨first, rest, rfl⟩, _⟩ := id h
  exact fun hacyclic => hacyclic first (h.transGen List.mem_cons_self)

theorem isCycle_drop [DecidableEq α] (hchain : (path ++ [node]).IsChain R) (hmem : node ∈ path) :
    IsCycle R (path.drop (path.idxOf node) ++ [node]) := by
  obtain ⟨before, after, rfl, hnot⟩ := List.eq_append_cons_of_mem hmem
  have hdrop : (before ++ node :: after).drop ((before ++ node :: after).idxOf node) =
      node :: after := by
    rw [List.idxOf_append_of_notMem hnot, List.idxOf_cons_self, Nat.add_zero, List.drop_left]
  rw [hdrop]
  refine ⟨⟨node, after, rfl⟩, ?_⟩
  rw [List.append_assoc] at hchain
  exact hchain.suffix (List.suffix_append _ _)

theorem exists_next (h : path.IsChain R) : ∀ a ∈ path.dropLast, ∃ b, R a b := by
  induction h with
  | nil | singleton => simp
  | cons_cons hab _ ih =>
    intro x hx
    rw [List.dropLast_cons_cons] at hx
    rcases List.mem_cons.mp hx with rfl | hx
    · exact ⟨_, hab⟩
    · exact ih x hx

end Cycle

section Edges

variable {α : Type} {edges : List (α × α)} {order path : List α}

/-- The relation of a list of edges. -/
def Leads (edges : List (α × α)) (a b : α) : Prop := (a, b) ∈ edges

theorem length_le_of_isChain (hchain : path.IsChain (Leads edges)) (hnodup : path.Nodup) :
    path.length ≤ edges.length + 1 := by
  have hsubset : path.dropLast ⊆ edges.map Prod.fst := by
    intro a ha
    obtain ⟨b, hb⟩ := exists_next hchain a ha
    exact List.mem_map_of_mem hb
  have hle := (List.subperm_of_subset (hnodup.sublist path.dropLast_sublist) hsubset).length_le
  rw [List.length_dropLast, List.length_map] at hle
  omega

theorem Respects.not_transGen (h : Respects edges order) :
    ∀ node ∈ order, ¬ TransGen (Leads edges) node node := by
  apply h.induction (P := fun node => ¬ TransGen (Leads edges) node node)
  intro node _ hnext hround
  obtain ⟨next, hedge, hback⟩ := TransGen.head'_iff.mp hround
  exact hnext (node, next) hedge rfl (.tail' hback hedge)

theorem Respects.acyclic (h : Respects edges order) (hends : ∀ e ∈ edges, e.1 ∈ order) :
    Acyclic (Leads edges) := by
  intro node hround
  obtain ⟨next, hedge, _⟩ := TransGen.head'_iff.mp hround
  exact Respects.not_transGen h node (hends _ hedge) hround

end Edges

end Cycles

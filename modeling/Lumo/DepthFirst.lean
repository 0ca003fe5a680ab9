import Mathlib.Data.List.Nodup
import Mathlib.Data.List.Perm.Subperm
import Mathlib.Logic.Relation

/-! # Depth-first orders

Nodes are listed after what they need. The search stops at a node that is missing, and at one that is
met again below itself. -/
namespace DepthFirst

open Relation

variable {α : Type} [DecidableEq α]

inductive Failure (α : Type) where
  | missing (node : α)
  | cyclic (path : List α)

section Search

variable (next : α → Option (List α))

/-- The nodes that are being visited are those of the path. -/
def visit : ℕ → List α → List α → α → Except (Failure α) (List α)
  | 0, path, _, node => .error (.cyclic (path ++ [node]))
  | fuel + 1, path, order, node =>
    if node ∈ order then .ok order
    else if node ∈ path then .error (.cyclic (path ++ [node]))
    else
      match next node with
      | none => .error (.missing node)
      | some needed => do
        let order ← needed.foldlM (visit fuel (path ++ [node])) order
        return if node ∈ order then order else order ++ [node]

def Needs (node other : α) : Prop := ∃ needed, next node = some needed ∧ other ∈ needed

/-- A node leads to one that is missing, or that leads to itself. -/
def Stuck (node : α) : Prop :=
  ∃ other, ReflTransGen (Needs next) node other ∧
    (next other = none ∨ TransGen (Needs next) other other)

inductive Sorted : List α → Prop where
  | nil : Sorted []
  | snoc {order node needed} (h : Sorted order) (hnew : node ∉ order)
      (hnext : next node = some needed) (hneeded : ∀ n ∈ needed, n ∈ order) :
      Sorted (order ++ [node])

/-- What a visit of some nodes comes to: the order has what it had and what the nodes lead to. -/
def Visits (order nodes : List α) : Except (Failure α) (List α) → Prop
  | .ok order' => Sorted next order' ∧ order ⊆ order' ∧ (∀ n ∈ nodes, n ∈ order') ∧
      ∀ n ∈ order', n ∈ order ∨ ∃ root ∈ nodes, ReflTransGen (Needs next) root n
  | .error _ => ∃ n ∈ nodes, Stuck next n

end Search

variable {next : α → Option (List α)} {order path nodes : List α} {node other : α}

omit [DecidableEq α] in
theorem Stuck.of_needs (hneeds : Needs next node other) (h : Stuck next other) :
    Stuck next node := by
  obtain ⟨last, hreach, hlast⟩ := h
  exact ⟨last, .head hneeds hreach, hlast⟩

omit [DecidableEq α] in
theorem Sorted.next_eq (h : Sorted next order) (hnode : node ∈ order) :
    ∃ needed, next node = some needed ∧ ∀ n ∈ needed, n ∈ order := by
  induction h with
  | nil => cases hnode
  | snoc _ _ hnext hneeded ih =>
    rcases List.mem_append.mp hnode with hold | hlast
    · obtain ⟨needed, hsome, hall⟩ := ih hold
      exact ⟨needed, hsome, fun n hn => List.mem_append_left _ (hall n hn)⟩
    · obtain rfl := List.mem_singleton.mp hlast
      exact ⟨_, hnext, fun n hn => List.mem_append_left _ (hneeded n hn)⟩

omit [DecidableEq α] in
theorem Sorted.mem_of_reach (h : Sorted next order) (hnode : node ∈ order)
    (hreach : ReflTransGen (Needs next) node other) : other ∈ order := by
  induction hreach with
  | refl => exact hnode
  | tail _ hneeds ih =>
    obtain ⟨needed, hsome, hmem⟩ := hneeds
    obtain ⟨needed', hsome', hall⟩ := h.next_eq ih
    obtain rfl := Option.some.inj (hsome.symm.trans hsome')
    exact hall _ hmem

omit [DecidableEq α] in
theorem Sorted.acyclic (h : Sorted next order) (hnode : node ∈ order) :
    ¬ TransGen (Needs next) node node := by
  induction h with
  | nil => cases hnode
  | @snoc order last needed hsorted hnew hnext hneeded ih =>
    intro hcycle
    rcases List.mem_append.mp hnode with hold | hlast
    · exact ih hold hcycle
    · obtain rfl := List.mem_singleton.mp hlast
      obtain ⟨first, ⟨needed', hsome, hmem⟩, hback⟩ := TransGen.head'_iff.mp hcycle
      obtain rfl := Option.some.inj (hnext.symm.trans hsome)
      exact hnew (hsorted.mem_of_reach (hneeded first hmem) hback)

omit [DecidableEq α] in
theorem Sorted.not_stuck (h : Sorted next order) (hnode : node ∈ order) : ¬ Stuck next node := by
  rintro ⟨other, hreach, hmissing | hcycle⟩
  · obtain ⟨needed, hsome, -⟩ := h.next_eq (h.mem_of_reach hnode hreach)
    rw [hmissing] at hsome
    cases hsome
  · exact h.acyclic (h.mem_of_reach hnode hreach) hcycle

omit [DecidableEq α] in
theorem foldlM_visits {f : List α → α → Except (Failure α) (List α)}
    (hvisit : ∀ node ∈ nodes, ∀ order, Sorted next order → Visits next order [node] (f order node))
    (horder : Sorted next order) : Visits next order nodes (nodes.foldlM f order) := by
  induction nodes generalizing order with
  | nil => exact ⟨horder, List.Subset.refl _, by simp, fun _ => .inl⟩
  | cons node nodes ih =>
    have hfirst := hvisit node List.mem_cons_self order horder
    rw [List.foldlM_cons]
    cases hresult : f order node with
    | error e =>
      rw [hresult] at hfirst
      obtain ⟨n, hn, hstuck⟩ := hfirst
      exact ⟨n, List.mem_cons.mpr (.inl (List.mem_singleton.mp hn)), hstuck⟩
    | ok order' =>
      rw [hresult] at hfirst
      obtain ⟨hsorted, hsub, hmem, hled⟩ := hfirst
      have hrest := ih (fun n hn => hvisit n (List.mem_cons_of_mem _ hn)) hsorted
      change Visits next order (node :: nodes) (nodes.foldlM f order')
      cases hlater : nodes.foldlM f order' with
      | error e =>
        rw [hlater] at hrest
        obtain ⟨n, hn, hstuck⟩ := hrest
        exact ⟨n, List.mem_cons_of_mem _ hn, hstuck⟩
      | ok order'' =>
        rw [hlater] at hrest
        obtain ⟨hsorted', hsub', hmem', hled'⟩ := hrest
        refine ⟨hsorted', List.Subset.trans hsub hsub', fun n hn => ?_, fun n hn => ?_⟩
        · rcases List.mem_cons.mp hn with rfl | hn
          · exact hsub' (hmem _ (List.mem_singleton_self _))
          · exact hmem' n hn
        · rcases hled' n hn with hn | ⟨root, hroot, hreach⟩
          · refine (hled n hn).imp_right fun ⟨root, hroot, hreach⟩ => ⟨root, ?_, hreach⟩
            exact List.mem_cons.mpr (.inl (List.mem_singleton.mp hroot))
          · exact .inr ⟨root, List.mem_cons_of_mem _ hroot, hreach⟩

/-- The path leads to the node, and has room to grow. -/
theorem visit_visits {known : List α} (hknown : ∀ n, next n ≠ none → n ∈ known) {fuel : ℕ}
    (hfuel : known.length < fuel + path.length) (hpath : path.Nodup) (hmem : ∀ n ∈ path, n ∈ known)
    (hleads : ∀ n ∈ path, TransGen (Needs next) n node) (horder : Sorted next order) :
    Visits next order [node] (visit next fuel path order node) := by
  induction fuel generalizing path order node with
  | zero =>
    have hlength := (hpath.subperm hmem).length_le
    omega
  | succ fuel ih =>
    rw [visit]
    by_cases hdone : node ∈ order
    · rw [if_pos hdone]
      exact ⟨horder, List.Subset.refl _, by simpa using hdone, fun _ => .inl⟩
    rw [if_neg hdone]
    by_cases hcycle : node ∈ path
    · rw [if_pos hcycle]
      exact ⟨node, List.mem_singleton_self _, node, .refl, .inr (hleads node hcycle)⟩
    rw [if_neg hcycle]
    cases hnext : next node with
    | none => exact ⟨node, List.mem_singleton_self _, node, .refl, .inl hnext⟩
    | some needed =>
      have hdeeper : ∀ child ∈ needed, ∀ order, Sorted next order →
          Visits next order [child] (visit next fuel (path ++ [node]) order child) := by
        intro child hchild order horder
        have hneeds : Needs next node child := ⟨needed, hnext, hchild⟩
        refine ih ?_ ?_ ?_ ?_ horder
        · rw [List.length_append, List.length_singleton]
          omega
        · exact List.nodup_append.mpr ⟨hpath, List.nodup_singleton _, by grind⟩
        · intro n hn
          rcases List.mem_append.mp hn with hn | hn
          · exact hmem n hn
          · rw [List.mem_singleton.mp hn]
            exact hknown node (by rw [hnext]; exact Option.some_ne_none _)
        · intro n hn
          rcases List.mem_append.mp hn with hn | hn
          · exact (hleads n hn).tail hneeds
          · rw [List.mem_singleton.mp hn]
            exact .single hneeds
      have hchildren := foldlM_visits hdeeper horder
      simp only
      cases hresult : needed.foldlM (visit next fuel (path ++ [node])) order with
      | error e =>
        rw [hresult] at hchildren
        obtain ⟨child, hchild, hstuck⟩ := hchildren
        exact ⟨node, List.mem_singleton_self _, hstuck.of_needs ⟨needed, hnext, hchild⟩⟩
      | ok order' =>
        rw [hresult] at hchildren
        obtain ⟨hsorted, hsub, hall, hled⟩ := hchildren
        have hled' : ∀ n ∈ order', n ∈ order ∨ ∃ root ∈ [node], ReflTransGen (Needs next) root n :=
          fun n hn => (hled n hn).imp_right fun ⟨child, hchild, hreach⟩ =>
            ⟨node, List.mem_singleton_self _, .head ⟨needed, hnext, hchild⟩ hreach⟩
        change Visits next order [node] (.ok (if node ∈ order' then order' else order' ++ [node]))
        by_cases hseen : node ∈ order'
        · rw [if_pos hseen]
          exact ⟨hsorted, hsub, by simpa using hseen, hled'⟩
        · rw [if_neg hseen]
          refine ⟨hsorted.snoc hseen hnext hall, List.Subset.trans hsub (List.subset_append_left _ _), by simp,
            fun n hn => ?_⟩
          rcases List.mem_append.mp hn with hn | hn
          · exact hled' n hn
          · exact .inr ⟨node, List.mem_singleton_self _, List.mem_singleton.mp hn ▸ .refl⟩

/-- With fuel for every known node, the search fails exactly when a root is stuck. -/
theorem visits_roots {known roots : List α} (hknown : ∀ n, next n ≠ none → n ∈ known) :
    Visits next [] roots (roots.foldlM (visit next (known.length + 1) []) []) := by
  refine foldlM_visits (fun node _ order horder => ?_) .nil
  exact visit_visits hknown (by simp) List.nodup_nil (by simp) (by simp) horder

end DepthFirst

import Mathlib.Data.Nat.Notation
import Mathlib.Logic.Function.Basic
import Mathlib.Logic.Relation

/-! # Forests kept by parent links

Each node has a link: to its parent, or to none if it is a root. Links change one at a time, and
a change keeps the forest exactly when it leads to a node that is not below the one changed. -/
namespace Forests

open Relation

abbrev Links (α : Type*) := α → Option (Option α)

variable {α : Type*}

def Parent (links : Links α) (a b : α) : Prop := links a = some (some b)

def Acyclic (links : Links α) : Prop := ∀ a, ¬ TransGen (Parent links) a a

def Closed (links : Links α) : Prop := ∀ a b, Parent links a b → links b ≠ none

inductive Grounded (links : Links α) : α → Prop where
  | root {a} (h : links a = some none) : Grounded links a
  | child {a b} (h : Parent links a b) (hb : Grounded links b) : Grounded links a

def Forest (links : Links α) : Prop := ∀ a, links a ≠ none → Grounded links a

section Chains

variable {links : Links α} {a b c : α}

theorem Parent.unique (h : Parent links a b) (h' : Parent links a c) : b = c := by
  rw [Parent, h] at h'
  cases h'
  rfl

theorem Grounded.node (h : Grounded links a) : links a ≠ none := by
  cases h with
  | root h => simp [h]
  | child h hb => simp [show links a = some (some _) from h]

theorem cycle_parent (h : Parent links a b) (hc : TransGen (Parent links) a a) :
    TransGen (Parent links) b b := by
  obtain ⟨c, hac, hca⟩ := TransGen.head'_iff.mp hc
  rw [← h.unique hac] at hca
  exact TransGen.tail' hca h

theorem Grounded.not_cycle (h : Grounded links a) : ¬ TransGen (Parent links) a a := by
  induction h with
  | root h =>
    intro hc
    obtain ⟨c, hac, _⟩ := TransGen.head'_iff.mp hc
    rw [Parent, h] at hac
    cases hac
  | child h _ ih =>
    intro hc
    exact ih (cycle_parent h hc)

theorem Forest.acyclic (h : Forest links) : Acyclic links := by
  intro a hc
  obtain ⟨b, hab, _⟩ := TransGen.head'_iff.mp hc
  refine (h a ?_).not_cycle hc
  rw [show links a = some (some b) from hab]
  exact Option.some_ne_none _

theorem Forest.closed (h : Forest links) : Closed links := by
  intro a b hab
  have hnode : links a ≠ none := by
    rw [show links a = some (some b) from hab]
    exact Option.some_ne_none _
  cases h a hnode with
  | root hroot =>
    rw [Parent, hroot] at hab
    cases hab
  | child hac hc =>
    rw [hab.unique hac]
    exact hc.node

end Chains

/-- The nodes from the cursor up to a root, if a root is reached within the fuel. -/
def chain (links : Links α) : ℕ → Option α → Option (List α)
  | _, none => some []
  | 0, some _ => none
  | fuel + 1, some a =>
    match links a with
    | none => none
    | some parent => (chain links fuel parent).map (a :: ·)

def Linkable (links : Links α) (a : α) : Option α → Prop
  | none => True
  | some b => links b ≠ none ∧ ¬ ReflTransGen (Parent links) b a

section Loops

variable {links : Links α} {a b : α}

theorem Grounded.chain_ends (h : Grounded links a) :
    ∃ fuel ids, chain links fuel (some a) = some ids := by
  induction h with
  | @root a h => exact ⟨1, [a], by simp [chain, h]⟩
  | @child a b h _ ih =>
    obtain ⟨fuel, ids, hids⟩ := ih
    refine ⟨fuel + 1, a :: ids, ?_⟩
    rw [chain, show links a = some (some b) from h]
    simp [hids]

theorem mem_chain {fuel : ℕ} {ids : List α} (h : chain links fuel (some a) = some ids) :
    b ∈ ids ↔ ReflTransGen (Parent links) a b := by
  induction fuel generalizing a ids with
  | zero => cases h
  | succ fuel ih =>
    rw [chain] at h
    split at h
    · cases h
    · rename_i parent ha
      obtain ⟨rest, hrest, rfl⟩ := Option.map_eq_some_iff.mp h
      rw [List.mem_cons, ReflTransGen.cases_head_iff, eq_comm]
      apply or_congr Iff.rfl
      cases parent with
      | none =>
        rw [chain] at hrest
        cases hrest
        simp [Parent, ha]
      | some p =>
        rw [ih hrest]
        constructor
        · intro hb
          exact ⟨p, ha, hb⟩
        · rintro ⟨c, hac, hb⟩
          rwa [Parent.unique ha hac]

theorem node_of_chain {fuel : ℕ} {ids : List α} (h : chain links fuel (some a) = some ids) :
    links a ≠ none := by
  intro ha
  cases fuel with
  | zero => cases h
  | succ fuel => simp [chain, ha] at h

theorem Forest.linkable_iff (h : Forest links) {parent : Option α} : Linkable links a parent ↔
    ∃ fuel ids, chain links fuel parent = some ids ∧ a ∉ ids := by
  cases parent with
  | none =>
    apply iff_of_true trivial
    exact ⟨0, [], rfl, List.not_mem_nil⟩
  | some b =>
    constructor
    · rintro ⟨hnode, hbelow⟩
      obtain ⟨fuel, ids, hids⟩ := (h b hnode).chain_ends
      refine ⟨fuel, ids, hids, ?_⟩
      rwa [mem_chain hids]
    · rintro ⟨fuel, ids, hids, hmem⟩
      refine ⟨node_of_chain hids, ?_⟩
      rwa [mem_chain hids] at hmem

end Loops

variable [DecidableEq α]

section Changes

variable {links : Links α} {a b : α} {new : Option (Option α)}

variable {x : α}

theorem update_parent {y : α} (hx : x ≠ a) :
    Parent (Function.update links a new) x y ↔ Parent links x y := by
  rw [Parent, Function.update_of_ne hx, Parent]

theorem Grounded.update (h : Grounded links x) (hx : ¬ ReflTransGen (Parent links) x a) :
    Grounded (Function.update links a new) x := by
  induction h with
  | @root x h =>
    have hne : x ≠ a := by
      rintro rfl
      exact hx .refl
    apply Grounded.root
    rw [Function.update_of_ne hne, h]
  | @child x y h _ ih =>
    have hne : x ≠ a := by
      rintro rfl
      exact hx .refl
    apply Grounded.child ((update_parent hne).mpr h)
    apply ih
    intro hy
    exact hx (.head h hy)

theorem Forest.update (h : Forest links) (ha : Grounded (Function.update links a new) a) :
    Forest (Function.update links a new) := by
  have hall : ∀ x, Grounded links x → Grounded (Function.update links a new) x := by
    intro x hx
    induction hx with
    | @root x hroot =>
      by_cases he : x = a
      · rw [he]
        exact ha
      · apply Grounded.root
        rw [Function.update_of_ne he, hroot]
    | @child x y hxy _ ih =>
      by_cases he : x = a
      · rw [he]
        exact ha
      · exact .child ((update_parent he).mpr hxy) ih
  intro x hx
  by_cases he : x = a
  · rw [he]
    exact ha
  · rw [Function.update_of_ne he] at hx
    exact hall x (h x hx)

theorem Forest.toRoot (h : Forest links) : Forest (Function.update links a (some none)) := by
  apply h.update
  apply Grounded.root
  exact Function.update_self _ _ _

theorem Forest.under (h : Forest links) (hb : links b ≠ none)
    (hbelow : ¬ ReflTransGen (Parent links) b a) :
    Forest (Function.update links a (some (some b))) := by
  apply h.update
  apply Grounded.child (b := b)
  · exact Function.update_self _ _ _
  · exact (h b hb).update hbelow

theorem Forest.without (h : Forest links) (hchildren : ∀ x, ¬ Parent links x a) :
    Forest (Function.update links a none) := by
  intro x hx
  have hne : x ≠ a := by
    rintro rfl
    exact hx (Function.update_self _ _ _)
  rw [Function.update_of_ne hne] at hx
  apply (h x hx).update
  intro hxa
  rcases ReflTransGen.cases_tail hxa with he | ⟨y, _, hya⟩
  · exact hne he.symm
  · exact hchildren y hya

theorem chain_update (h : ReflTransGen (Parent links) x a) :
    ReflTransGen (Parent (Function.update links a new)) x a := by
  induction h using ReflTransGen.head_induction_on with
  | refl => exact .refl
  | @head x y hxy _ ih =>
    by_cases he : x = a
    · rw [he]
    · exact .head ((update_parent he).mpr hxy) ih

theorem cycle_under (h : ReflTransGen (Parent links) b a) :
    ¬ Acyclic (Function.update links a (some (some b))) := by
  intro hacyclic
  apply hacyclic a
  apply TransGen.head'
  · exact Function.update_self _ _ _
  · exact chain_update h

theorem missing_under (hb : links b = none) (hne : b ≠ a) :
    ¬ Closed (Function.update links a (some (some b))) := by
  intro hclosed
  apply hclosed a b (Function.update_self _ _ _)
  rw [Function.update_of_ne hne, hb]

theorem missing_without (hx : Parent links x a) (hne : x ≠ a) :
    ¬ Closed (Function.update links a none) := by
  intro hclosed
  apply hclosed x a ((update_parent hne).mpr hx)
  exact Function.update_self _ _ _

theorem Forest.link {parent : Option α} (h : Forest links) (hlink : Linkable links a parent) :
    Forest (Function.update links a (some parent)) := by
  cases parent with
  | none => exact h.toRoot
  | some b => exact h.under hlink.1 hlink.2

theorem broken_link {parent : Option α} (hlink : ¬ Linkable links a parent) :
    ¬ (Acyclic (Function.update links a (some parent)) ∧
      Closed (Function.update links a (some parent))) := by
  rintro ⟨hacyclic, hclosed⟩
  cases parent with
  | none => exact hlink trivial
  | some b =>
    by_cases hbelow : ReflTransGen (Parent links) b a
    · exact cycle_under hbelow hacyclic
    · apply hlink
      refine ⟨?_, hbelow⟩
      intro hb
      by_cases he : b = a
      · rw [he] at hbelow
        exact hbelow .refl
      · exact missing_under hb he hclosed

theorem broken_without (h : Forest links) (hx : Parent links x a) :
    ¬ Closed (Function.update links a none) := by
  apply missing_without hx
  rintro rfl
  exact h.acyclic x (.single hx)

end Changes

end Forests

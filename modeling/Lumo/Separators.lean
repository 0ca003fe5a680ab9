import Mathlib.Data.List.TakeWhile
import Mathlib.Data.List.Basic

/-! # Lists cut at a separator

A list is cut at the first or at the last place where the separator stands. -/
namespace Separators

variable {α : Type*} [DecidableEq α]

def cutFirst (sep : α) : List α → Option (List α × List α)
  | [] => none
  | a :: rest =>
    if a = sep then some ([], rest)
    else (cutFirst sep rest).map fun cut => (a :: cut.1, cut.2)

def cutLast (sep : α) : List α → Option (List α × List α)
  | [] => none
  | a :: rest =>
    match cutLast sep rest with
    | some cut => some (a :: cut.1, cut.2)
    | none => if a = sep then some ([], rest) else none

variable {sep : α} {l before after : List α}

theorem cutFirst_eq_some : cutFirst sep l = some (before, after) ↔
    l = before ++ sep :: after ∧ sep ∉ before := by
  induction l generalizing before with
  | nil => simp [cutFirst]
  | cons a rest ih =>
    by_cases h : a = sep
    · subst h
      rw [cutFirst, if_pos rfl]
      cases before with
      | nil => simp
      | cons b before =>
        constructor
        · intro hcut
          simp at hcut
        · rintro ⟨hl, hnot⟩
          cases hl
          exact absurd List.mem_cons_self hnot
    · rw [cutFirst, if_neg h]
      cases before with
      | nil => simp [h]
      | cons b before =>
        simp only [Option.map_eq_some_iff, Prod.exists, Prod.mk.injEq, List.cons.injEq,
          List.cons_append, List.mem_cons, not_or]
        constructor
        · rintro ⟨front, back, hcut, ⟨rfl, rfl⟩, rfl⟩
          obtain ⟨hrest, hnot⟩ := ih.mp hcut
          exact ⟨⟨rfl, hrest⟩, Ne.symm h, hnot⟩
        · rintro ⟨⟨rfl, hrest⟩, _, hnot⟩
          exact ⟨before, after, ih.mpr ⟨hrest, hnot⟩, ⟨rfl, rfl⟩, rfl⟩

theorem cutLast_eq_none : cutLast sep l = none ↔ sep ∉ l := by
  induction l with
  | nil => simp [cutLast]
  | cons a rest ih =>
    rw [cutLast, List.mem_cons, not_or, ← ih]
    cases cutLast sep rest with
    | none => simp [eq_comm]
    | some cut => simp

theorem cutLast_eq_some : cutLast sep l = some (before, after) ↔
    l = before ++ sep :: after ∧ sep ∉ after := by
  induction l generalizing before after with
  | nil => simp [cutLast]
  | cons a rest ih =>
    rw [cutLast]
    cases hcut : cutLast sep rest with
    | none =>
      have hnot := cutLast_eq_none.mp hcut
      cases before with
      | nil =>
        by_cases h : a = sep
        · subst h
          simp only [if_true, Option.some.injEq, Prod.mk.injEq, true_and, List.nil_append,
            List.cons.injEq]
          constructor
          · rintro rfl
            exact ⟨rfl, hnot⟩
          · exact And.left
        · simp [h]
      | cons b before =>
        constructor
        · intro h
          by_cases ha : a = sep <;> simp [ha] at h
        · rintro ⟨h, _⟩
          cases h
          simp at hnot
    | some cut =>
      obtain ⟨front, back⟩ := cut
      obtain ⟨hrest, hnot⟩ := ih.mp hcut
      cases before with
      | nil =>
        constructor
        · intro h
          cases h
        · rintro ⟨h, hafter⟩
          cases h
          simp [hrest] at hafter
      | cons b before =>
        simp only [Option.some.injEq, Prod.mk.injEq, List.cons_append, List.cons.injEq]
        constructor
        · rintro ⟨⟨rfl, rfl⟩, rfl⟩
          exact ⟨⟨rfl, hrest⟩, hnot⟩
        · rintro ⟨⟨rfl, hsplit⟩, hafter⟩
          have hsame := hcut.symm.trans (ih.mpr ⟨hsplit, hafter⟩)
          cases hsame
          exact ⟨⟨rfl, rfl⟩, rfl⟩

end Separators

import Mathlib.Data.List.Induction
import Mathlib.Order.Lattice

/-! # The highest rung that a value reaches

A ladder is a list of rungs, each at a height. Climbing it keeps the last rung whose height is not
above the value, and stays on the first rung where there is none. -/
namespace Ladders

variable {α β : Type*} [LinearOrder β] {height : α → β} {value : β} {rungs : List α}

def climb (height : α → β) (value : β) (rungs : List α) : Option α :=
  rungs.foldl (fun current rung => if height rung ≤ value then some rung else current) rungs.head?

/-- The value reaches the rung, or the rung is the lowest. -/
def Holds (height : α → β) (value : β) (rungs : List α) (rung : α) : Prop :=
  height rung ≤ value ∨ ∀ r ∈ rungs, height rung ≤ height r

structure Highest (height : α → β) (value : β) (rungs : List α) (rung : α) : Prop where
  mem : rung ∈ rungs
  holds : Holds height value rungs rung
  highest : ∀ r ∈ rungs, height r ≤ value → height r ≤ height rung

theorem climb_append (last : α) (h : rungs ≠ []) : climb height value (rungs ++ [last]) =
    if height last ≤ value then some last else climb height value rungs := by
  obtain ⟨first, rest, rfl⟩ := List.exists_cons_of_ne_nil h
  rw [climb, List.foldl_append]
  rfl

/-- Whoever climbs an ordered ladder ends on the highest rung. -/
theorem climb_highest (hne : rungs ≠ []) (ordered : rungs.Pairwise fun x y => height x ≤ height y) :
    ∃ rung, climb height value rungs = some rung ∧ Highest height value rungs rung := by
  induction rungs using List.reverseRecOn with
  | nil => exact absurd rfl hne
  | append_singleton rungs last ih =>
    rw [List.pairwise_append] at ordered
    obtain ⟨ordered, _, below⟩ := ordered
    have hlast : ∀ r ∈ rungs ++ [last], height r ≤ height last := by
      intro r hr
      rcases List.mem_append.mp hr with hr | hr
      · exact below r hr last List.mem_cons_self
      · rw [List.mem_singleton.mp hr]
    by_cases h : rungs = []
    · subst h
      refine ⟨last, ?_, List.mem_cons_self, .inr ?_, fun r hr _ => hlast r hr⟩
      · simp [climb]
      · intro r hr
        rw [List.mem_singleton.mp hr]
    · rw [climb_append last h]
      by_cases hreach : height last ≤ value
      · rw [if_pos hreach]
        exact ⟨last, rfl, List.mem_append_right _ List.mem_cons_self, .inl hreach,
          fun r hr _ => hlast r hr⟩
      · rw [if_neg hreach]
        obtain ⟨rung, hclimb, hrung⟩ := ih h ordered
        refine ⟨rung, hclimb, List.mem_append_left _ hrung.mem, ?_, ?_⟩
        · apply hrung.holds.imp_right
          intro hlow r hr
          rcases List.mem_append.mp hr with hr | hr
          · exact hlow r hr
          · rw [List.mem_singleton.mp hr]
            exact below rung hrung.mem last List.mem_cons_self
        · intro r hr hr'
          rcases List.mem_append.mp hr with hr | hr
          · exact hrung.highest r hr hr'
          · rw [List.mem_singleton.mp hr] at hr'
            exact absurd hr' hreach

theorem Highest.congr {rungs' : List α} {rung : α} (h : Highest height value rungs rung)
    (same : ∀ r, r ∈ rungs' ↔ r ∈ rungs) : Highest height value rungs' rung where
  mem := (same rung).mpr h.mem
  holds := h.holds.imp_right fun hlow r hr => hlow r ((same r).mp hr)
  highest := fun r hr => h.highest r ((same r).mp hr)

theorem Highest.holds_iff {old new : α} (h : Highest height value rungs new) (hold : old ∈ rungs)
    (distinct : ∀ r ∈ rungs, height r = height old → r = old) :
    Holds height value rungs old ↔ new = old ∨ height old < height new := by
  constructor
  · intro hh
    have hle : height old ≤ height new := hh.elim (h.highest old hold) fun hlow => hlow new h.mem
    rcases hle.eq_or_lt with heq | hlt
    · exact .inl (distinct new h.mem heq.symm)
    · exact .inr hlt
  · rintro (rfl | hlt)
    · exact h.holds
    · refine .inl ?_
      rcases h.holds with hreach | hlow
      · exact hlt.le.trans hreach
      · exact absurd (hlow old hold) hlt.not_ge

end Ladders

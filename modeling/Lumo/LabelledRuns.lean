import Mathlib.Algebra.Order.Monoid.Defs
import Mathlib.Data.List.Basic

/-! # Finite runs of a labelled transition system

A run is the list of its steps, so that a safety property can be compared with a
condition on the steps taken. Nothing here depends on what the states are. -/
namespace LabelledRuns

variable {σ Λ : Type*} {Step : σ → Λ → σ → Prop} {Start I P : σ → Prop} {G : σ → Λ → Prop}

/-- Each entry of a run is a label and the state that its step led to. -/
def Run (Step : σ → Λ → σ → Prop) : σ → List (Λ × σ) → Prop
  | _, [] => True
  | s, (l, u) :: rest => Step s l u ∧ Run Step u rest

/-- The property holds where the run starts and in every state it reaches. -/
def Always (P : σ → Prop) : σ → List (Λ × σ) → Prop
  | s, [] => P s
  | s, (_, u) :: rest => P s ∧ Always P u rest

/-- Every step of the run is allowed by `G` in the state it was taken from. -/
def EveryStep (G : σ → Λ → Prop) : σ → List (Λ × σ) → Prop
  | _, [] => True
  | s, (l, u) :: rest => G s l ∧ EveryStep G u rest

instance decidableEveryStep [∀ s l, Decidable (G s l)] : (s : σ) → (tr : List (Λ × σ)) →
    Decidable (EveryStep G s tr)
  | _, [] => inferInstanceAs (Decidable True)
  | s, (l, u) :: rest =>
    have : Decidable (EveryStep G u rest) := decidableEveryStep u rest
    inferInstanceAs (Decidable (G s l ∧ EveryStep G u rest))

/-- The state in which a run ends. -/
def lastState : σ → List (Λ × σ) → σ
  | s, [] => s
  | _, (_, u) :: rest => lastState u rest

/-- The run of a list of labels, where the label alone decides the next state. -/
def follow (next : σ → Λ → σ) : σ → List Λ → List (Λ × σ)
  | _, [] => []
  | s, l :: ls => (l, next s l) :: follow next (next s l) ls

/-- The run of a list of labels, cut short at the first that is not enabled. -/
def attempt (next : σ → Λ → Option σ) : σ → List Λ → List (Λ × σ)
  | _, [] => []
  | s, l :: ls =>
    match next s l with
    | none => []
    | some u => (l, u) :: attempt next u ls

inductive Reachable (Start : σ → Prop) (Step : σ → Λ → σ → Prop) : σ → Prop where
  | start {s} : Start s → Reachable Start Step s
  | step {s l u} : Reachable Start Step s → Step s l u → Reachable Start Step u

theorem run_follow {next : σ → Λ → σ} (h : ∀ s l, Step s l (next s l)) (s : σ) (ls : List Λ) :
    Run Step s (follow next s ls) := by
  induction ls generalizing s with
  | nil => trivial
  | cons l ls ih => exact ⟨h s l, ih _⟩

theorem run_attempt (next : σ → Λ → Option σ) (s : σ) (ls : List Λ) :
    Run (fun s l u => next s l = some u) s (attempt next s ls) := by
  induction ls generalizing s with
  | nil => trivial
  | cons l ls ih =>
    rw [attempt]
    split
    · trivial
    · rename_i u hu
      exact ⟨hu, ih u⟩

variable {s : σ} {tr : List (Λ × σ)}

theorem attempt_labels {next : σ → Λ → Option σ} {ls : List Λ}
    (h : (attempt next s ls).length = ls.length) : (attempt next s ls).map Prod.fst = ls := by
  induction ls generalizing s with
  | nil => rfl
  | cons l ls ih =>
    rw [attempt] at h ⊢
    split at h
    · cases h
    · rename_i u hu
      rw [List.map_cons, ih (Nat.succ.inj h)]

theorem reachable_invariant (start : ∀ s, Start s → I s) (step : ∀ s l u, I s → Step s l u → I u)
    (h : Reachable Start Step s) : I s := by
  induction h with
  | start hs => exact start _ hs
  | step _ hst ih => exact step _ _ _ ih hst

theorem Always.head (h : Always P s tr) : P s := by
  cases tr with
  | nil => exact h
  | cons x rest => exact h.1

theorem Always.mono {Q : σ → Prop} (hpq : ∀ s, P s → Q s) (h : Always P s tr) : Always Q s tr := by
  induction tr generalizing s with
  | nil => exact hpq _ h
  | cons x rest ih => exact ⟨hpq _ h.1, ih h.2⟩

theorem Always.and {Q : σ → Prop} (hp : Always P s tr) (hq : Always Q s tr) :
    Always (fun s => P s ∧ Q s) s tr := by
  induction tr generalizing s with
  | nil => exact ⟨hp, hq⟩
  | cons x rest ih => exact ⟨⟨hp.1, hq.1⟩, ih hp.2 hq.2⟩

theorem Always.last (h : Always P s tr) : P (lastState s tr) := by
  induction tr generalizing s with
  | nil => exact h
  | cons x rest ih => exact ih h.2

theorem always_of_last (back : ∀ s l u, Step s l u → P u → P s) (hr : Run Step s tr)
    (h : P (lastState s tr)) : Always P s tr := by
  induction tr generalizing s with
  | nil => exact h
  | cons x rest ih =>
    have hrest := ih hr.2 h
    exact ⟨back _ _ _ hr.1 hrest.head, hrest⟩

theorem everyStep_mono {H : σ → Λ → Prop} (hgh : ∀ s l, G s l → H s l) (h : EveryStep G s tr) :
    EveryStep H s tr := by
  induction tr generalizing s with
  | nil => trivial
  | cons e tr ih => exact ⟨hgh _ _ h.1, ih h.2⟩

theorem always_of_everyStep (step : ∀ s l u, I s → Step s l u → G s l → I u) (hi : I s)
    (hr : Run Step s tr) (hg : EveryStep G s tr) : Always I s tr := by
  induction tr generalizing s with
  | nil => exact hi
  | cons x rest ih =>
    exact ⟨hi, ih (step _ _ _ hi hr.1 hg.1) hr.2 hg.2⟩

theorem everyStep_of_allowed {Q : σ → Λ → Prop} (step : ∀ s l u, I s → Step s l u → G s l → I u)
    (holds : ∀ s l, I s → G s l → Q s l) (hi : I s) (hr : Run Step s tr) (hg : EveryStep G s tr) :
    EveryStep Q s tr := by
  induction tr generalizing s with
  | nil => trivial
  | cons x rest ih =>
    exact ⟨holds _ _ hi hg.1, ih (step _ _ _ hi hr.1 hg.1) hr.2 hg.2⟩

theorem always_iff_everyStep (step : ∀ s l u, I s → Step s l u → G s l → I u)
    (safe : ∀ s, I s → P s) (broken : ∀ s l u, I s → Step s l u → ¬ G s l → ¬ P u) (hi : I s)
    (hr : Run Step s tr) : Always P s tr ↔ EveryStep G s tr := by
  constructor
  · intro hp
    induction tr generalizing s with
    | nil => trivial
    | cons x rest ih =>
      have hg : G s x.1 := by
        by_contra hn
        exact broken _ _ _ hi hr.1 hn hp.2.head
      exact ⟨hg, ih (step _ _ _ hi hr.1 hg) hr.2 hp.2⟩
  · intro hg
    exact (always_of_everyStep step hi hr hg).mono safe

theorem always_and_everyStep_iff {Q : σ → Λ → Prop} (step : ∀ s l u, I s → Step s l u → G s l → I u)
    (safe : ∀ s, I s → P s) (holds : ∀ s l, I s → G s l → Q s l)
    (broken : ∀ s l u, I s → Step s l u → ¬ G s l → Q s l → ¬ P u) (hi : I s) (hr : Run Step s tr) :
    Always P s tr ∧ EveryStep Q s tr ↔ EveryStep G s tr := by
  constructor
  · rintro ⟨hp, hq⟩
    induction tr generalizing s with
    | nil => trivial
    | cons x rest ih =>
      have hg : G s x.1 := by
        by_contra hn
        exact broken _ _ _ hi hr.1 hn hq.1 hp.2.head
      exact ⟨hg, ih (step _ _ _ hi hr.1 hg) hr.2 hp.2 hq.2⟩
  · intro hg
    exact ⟨(always_of_everyStep step hi hr hg).mono safe, everyStep_of_allowed step holds hi hr hg⟩

theorem always_of_invariant (step : ∀ s l u, I s → Step s l u → I u) (hi : I s) (hr : Run Step s tr) :
    Always I s tr := by
  induction tr generalizing s with
  | nil => exact hi
  | cons x rest ih => exact ⟨hi, ih (step _ _ _ hi hr.1) hr.2⟩

theorem everyStep_of_taken (step : ∀ s l u, I s → Step s l u → I u)
    (holds : ∀ s l u, I s → Step s l u → G s l) (hi : I s) (hr : Run Step s tr) :
    EveryStep G s tr := by
  induction tr generalizing s with
  | nil => trivial
  | cons x rest ih => exact ⟨holds _ _ _ hi hr.1, ih (step _ _ _ hi hr.1) hr.2⟩

theorem everyStep_of_invariant (step : ∀ s l u, I s → Step s l u → I u) (holds : ∀ s l, I s → G s l)
    (hi : I s) (hr : Run Step s tr) : EveryStep G s tr :=
  everyStep_of_taken step (fun s l _ hi _ => holds s l hi) hi hr

theorem everyStep_congr {H : σ → Λ → Prop} (step : ∀ s l u, I s → Step s l u → I u)
    (same : ∀ s l, I s → (G s l ↔ H s l)) (hi : I s) (hr : Run Step s tr) :
    EveryStep G s tr ↔ EveryStep H s tr := by
  induction tr generalizing s with
  | nil => exact Iff.rfl
  | cons x rest ih => exact and_congr (same _ _ hi) (ih (step _ _ _ hi hr.1) hr.2)

theorem lastState_append (s : σ) (tr tr' : List (Λ × σ)) :
    lastState s (tr ++ tr') = lastState (lastState s tr) tr' := by
  induction tr generalizing s with
  | nil => rfl
  | cons x rest ih => exact ih x.2

theorem Run.append {tr' : List (Λ × σ)} (hr : Run Step s tr) (hr' : Run Step (lastState s tr) tr') :
    Run Step s (tr ++ tr') := by
  induction tr generalizing s with
  | nil => exact hr'
  | cons x rest ih => exact ⟨hr.1, ih hr.2 hr'⟩

section Costs

variable {M : Type*} [AddCommMonoid M] {cost : σ → Λ → M} {measure : σ → M}

/-- What the steps of a run cost together. -/
def total (cost : σ → Λ → M) : σ → List (Λ × σ) → M
  | _, [] => 0
  | s, (l, u) :: rest => cost s l + total cost u rest

theorem total_add_le [PartialOrder M] [IsOrderedAddMonoid M]
    (step : ∀ s l u, I s → Step s l u → G s l → I u)
    (paid : ∀ s l u, I s → Step s l u → G s l → cost s l + measure u ≤ measure s)
    {s : σ} {tr : List (Λ × σ)} (hi : I s) (hr : Run Step s tr) (hg : EveryStep G s tr) :
    total cost s tr + measure (lastState s tr) ≤ measure s := by
  induction tr generalizing s with
  | nil => exact (zero_add _).le
  | cons x rest ih =>
    calc cost s x.1 + total cost x.2 rest + measure (lastState x.2 rest)
        = cost s x.1 + (total cost x.2 rest + measure (lastState x.2 rest)) := add_assoc _ _ _
      _ ≤ cost s x.1 + measure x.2 :=
        add_le_add_right (ih (step _ _ _ hi hr.1 hg.1) hr.2 hg.2) _
      _ ≤ measure s := paid _ _ _ hi hr.1 hg.1

end Costs

theorem Run.reachable (hs : Reachable Start Step s) (hr : Run Step s tr) :
    Reachable Start Step (lastState s tr) := by
  induction tr generalizing s with
  | nil => exact hs
  | cons x rest ih => exact ih (hs.step hr.1) hr.2

end LabelledRuns
